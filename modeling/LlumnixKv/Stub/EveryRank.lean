import LlumnixKv.Parse.EqualRows
import LlumnixKv.Stub.Context

/-!
# Stub/EveryRank — every D rank is fed, or only the first

    P ranks    0   1 │ 2   3          rows replicated over the P ranks
    D ranks      0   │   1            D rank 1 is mapped to P ranks 2 and 3

Where every P rank holds the same rows, one sender for each D rank would do.  With as many valid ranks
as D ranks the P = D functions find one.  With more — the head count is unknown, or above the D ranks —
the P > D functions leave the sending to P rank 0, and `_get_dist` maps P rank 0 to D rank 0 alone: the
other D ranks are fed by nobody (`everyRankFed_iff`).
-/

open Machinery

namespace LlumnixKv

/-- The shapes whose caches may be replicated rows. -/
inductive RowShape
  | raggedFlash
  | dpskV32SparseMla
  deriving DecidableEq, Repr

def RowShape.cacheShape : RowShape → CacheShape
  | raggedFlash => .raggedFlash
  | dpskV32SparseMla => .dpskV32SparseMla

/-- The function for more senders than D ranks, the rows being the same. -/
def RowShape.fnPGtD : RowShape → ParseFn
  | raggedFlash => .parseBlockSendPGtDDpsk
  | dpskV32SparseMla => .vllmParseBlockSendMultiTensorPGtD

/-- A task of a P group whose ranks all hold the rows the D ranks want, in a release build.  RAGGED_FLASH
has one tensor for each layer. -/
structure ReplicatedRows where
  env : EnvCfg
  shape : RowShape
  dInst : DInstId
  pTp : ℕ
  H : ℤ
  validRanks : BitVec maxTpSize
  task : ReqSendTask
  srcInfo : ℕ → WorkerInfo
  dstInfo : ℕ → WorkerInfo
  tensors : List RowTensor
  srcTable : List ℕ
  dstTable : List ℕ
  release : env.ndebug = true
  fp8_off : env.bf162fp8Conversion = false
  cacheShape : env.cacheShape = shape.cacheShape
  dTp_lt : dInst.dstTpsize < pTp
  dTp_dvd : dInst.dstTpsize ∣ pTp
  accepted : computeValidRanksPd env.ndebug pTp dInst.dstTpsize H = .ok validRanks
  src_rank : ∀ r < pTp, (srcInfo r).engineTpSize = pTp ∧ (srcInfo r).workerTpRank = r ∧
    (srcInfo r).numKvHeads = H
  dst_rank : ∀ x < dInst.dstTpsize,
    (dstInfo x).engineTpSize = dInst.dstTpsize ∧ (dstInfo x).workerTpRank = x
  tensors_ne : tensors ≠ []
  ragged : shape = .raggedFlash → ∃ T, tensors = [T]
  pair : ∀ r < pTp, ∀ x < dInst.dstTpsize,
    EqualPair (srcInfo r) (dstInfo x) tensors srcTable dstTable task

namespace ReplicatedRows

variable {X : ReplicatedRows} {r x : ℕ}

abbrev dTp (X : ReplicatedRows) : ℕ := X.dInst.dstTpsize

/-- What P rank `r` emits for D rank `x`. -/
def parse (X : ReplicatedRows) (r x : ℕ) : Except Fault (List (List IpcBlock)) :=
  boundParse X.env (X.srcInfo r) (X.dstInfo x) X.task

/-- P rank `r` copies this byte of tensor `i` to D rank `x`. -/
def Copies (X : ReplicatedRows) (r x i : ℕ) (byte : ℕ × ℕ) : Prop :=
  ∃ out recs, X.parse r x = .ok out ∧ out[i]? = some recs ∧ byte ∈ recs.flatMap IpcBlock.bytes

/-- D rank `x` receives every byte of every token of the range, in every tensor, from P ranks mapped to
it. -/
def Fed (X : ReplicatedRows) (x : ℕ) : Prop :=
  ∀ i T, X.tensors[i]? = some T → ∀ t ∈ List.range' X.task.seenTokens X.task.newTokens,
    ∀ byte ∈ (rowsRecord X.srcTable X.dstTable T.ntpb T.tokenSize 1 t).bytes,
      ∃ r ∈ mappedRanks X.pTp X.dInst x, X.Copies r x i byte

/-- The P rank emits the rows of the range for every tensor. -/
def Sends (X : ReplicatedRows) (r x : ℕ) : Prop :=
  ∃ out, X.parse r x = .ok out ∧ List.Forall₂
    (RowsSent (X.srcInfo r) (X.dstInfo x) X.srcTable X.dstTable X.task) X.tensors out

/-- **One sender feeds a D rank.** -/
theorem Sends.fed (h : X.Sends r x) (hr : r ∈ mappedRanks X.pTp X.dInst x) : X.Fed x := by
  obtain ⟨out, hparse, hsent⟩ := h
  intro i T hi t ht byte hbyte
  obtain ⟨hlt, rfl⟩ := List.getElem?_eq_some_iff.mp hi
  have hi' : i < out.length := hsent.length_eq ▸ hlt
  have hrows := hsent.get hlt hi'
  refine ⟨r, hr, out, _, hparse, List.getElem?_eq_getElem hi', ?_⟩
  exact hrows.bytes.mem_iff.mpr (List.mem_flatMap.mpr ⟨t, ht, hbyte⟩)

/-! ## The functions chosen -/

theorem dTp_pos (X : ReplicatedRows) : 0 < X.dTp := X.dInst.dstTpsize_pos

theorem selection (X : ReplicatedRows) :
    (0 < X.H ∧ X.H ≤ X.dTp ∧ Grouped X.pTp X.dTp X.validRanks (X.pTp / X.dTp) 1) ∨
      ((X.H ≤ 0 ∨ X.dTp < X.H) ∧ X.dTp < Bitset.count X.validRanks) :=
  computeValidRanksPd_fewer X.dTp_pos X.dTp_lt X.dTp_dvd X.accepted

theorem accepted_at (hr : r < X.pTp) (hx : x < X.dTp) :
    computeValidRanksPd X.env.ndebug (X.srcInfo r).engineTpSize (X.dstInfo x).engineTpSize
      (X.srcInfo r).numKvHeads = .ok X.validRanks := by
  obtain ⟨htp, -, hheads⟩ := X.src_rank r hr
  rw [htp, hheads, (X.dst_rank x hx).1]
  exact X.accepted

/-- As many valid ranks as D ranks: the valid rank of a group sends. -/
theorem sends_of_grouped (hx : x < X.dTp) (h : Grouped X.pTp X.dTp X.validRanks (X.pTp / X.dTp) 1) :
    X.Sends (x * (X.pTp / X.dTp)) x := by
  have hx1 : x < X.dTp * 1 := by rwa [mul_one]
  have hr := h.mul_lt hx1
  have hpair := X.pair _ hr x hx
  have hcount : Bitset.count X.validRanks = (X.dstInfo x).engineTpSize := by
    rw [h.count, (X.dst_rank x hx).1, mul_one]
  rw [Sends, parse]
  cases hshape : X.shape with
  | raggedFlash =>
    obtain ⟨T, hT⟩ := X.ragged hshape
    rw [hT] at hpair ⊢
    have hfn : selectParseBlock X.env.cacheShape (X.srcInfo (x * (X.pTp / X.dTp))) (X.dstInfo x)
        (Bitset.count X.validRanks) = .ok (.parseBlockSendPEqD, .peqd) := by
      rw [X.cacheShape, hshape]
      exact if_pos hcount
    obtain ⟨recs, hrecs, hsent⟩ := hpair.parseBlockSendPEqD X.fp8_off X.validRanks
      (kvtTpRank X.validRanks (X.srcInfo (x * (X.pTp / X.dTp))).workerTpRank) (.inl X.release)
    exact ⟨[recs], (boundParse_eq _ (accepted_at hr hx) hfn).trans hrecs,
      List.Forall₂.cons hsent List.Forall₂.nil⟩
  | dpskV32SparseMla =>
    have hvalid : X.validRanks.getLsbD (X.srcInfo (x * (X.pTp / X.dTp))).workerTpRank = true := by
      rw [(X.src_rank _ hr).2.1]
      exact h.valid_mul hx1
    have hfn : selectParseBlock X.env.cacheShape (X.srcInfo (x * (X.pTp / X.dTp))) (X.dstInfo x)
        (Bitset.count X.validRanks) = .ok (.vllmParseBlockSendMultiTensorPEqD, .peqd) := by
      rw [X.cacheShape, hshape]
      exact if_pos hcount
    obtain ⟨out, hout, hsent⟩ := hpair.vllmParseBlockSendMultiTensorPEqD X.fp8_off hvalid
      (.inl X.release)
    exact ⟨out, (boundParse_eq _ (accepted_at hr hx) hfn).trans hout, hsent⟩

variable (hmore : X.dTp < Bitset.count X.validRanks)
include hmore

theorem parse_of_more (hr : r < X.pTp) (hx : x < X.dTp) :
    X.parse r x = X.shape.fnPGtD.func X.env (X.srcInfo r) (X.dstInfo x) X.validRanks
      (Bitset.count X.validRanks) (kvtTpRank X.validRanks (X.srcInfo r).workerTpRank) X.task := by
  have hmore : (X.dstInfo x).engineTpSize < Bitset.count X.validRanks := by
    rw [(X.dst_rank x hx).1]
    exact hmore
  have hfn : selectParseBlock X.env.cacheShape (X.srcInfo r) (X.dstInfo x)
      (Bitset.count X.validRanks) = .ok (X.shape.fnPGtD, .peqd) := by
    rw [X.cacheShape]
    cases X.shape with
    | raggedFlash =>
      exact (if_neg hmore.ne').trans ((if_pos hmore).trans (if_pos (X.pair r hr x hx).sizes.1))
    | dpskV32SparseMla => exact (if_neg hmore.ne').trans (if_pos hmore)
  exact boundParse_eq _ (accepted_at hr hx) hfn

/-- P rank 0 sends. -/
theorem sends_first (hx : x < X.dTp) : X.Sends 0 x := by
  have hr : 0 < X.pTp := Nat.zero_lt_of_lt X.dTp_lt
  have hpair := X.pair 0 hr x hx
  have hrank := (X.src_rank 0 hr).2.1
  rw [Sends, parse_of_more hmore hr hx]
  cases hshape : X.shape with
  | raggedFlash =>
    obtain ⟨T, hT⟩ := X.ragged hshape
    rw [hT] at hpair ⊢
    obtain ⟨recs, hrecs, hsent⟩ := hpair.parseBlockSendPGtDDpsk X.fp8_off X.validRanks
      (Bitset.count X.validRanks) (kvtTpRank X.validRanks (X.srcInfo 0).workerTpRank) hrank
      (.inl X.release)
    exact ⟨[recs], hrecs, List.Forall₂.cons hsent List.Forall₂.nil⟩
  | dpskV32SparseMla =>
    exact hpair.vllmParseBlockSendMultiTensorPGtD X.fp8_off X.validRanks
      (Bitset.count X.validRanks) (kvtTpRank X.validRanks (X.srcInfo 0).workerTpRank) hrank
      (.inl X.release)

/-- …and no other P rank. -/
theorem parse_other (hr : r < X.pTp) (hx : x < X.dTp) (hne : r ≠ 0) : X.parse r x = .ok [] := by
  have hrank : (X.srcInfo r).workerTpRank ≠ 0 := by rwa [(X.src_rank r hr).2.1]
  have hsizes := (X.pair r hr x hx).sizes.1
  rw [parse_of_more hmore hr hx]
  cases X.shape with
  | raggedFlash =>
    simp only [RowShape.fnPGtD, ParseFn.func, parseBlockSendPGtDDpsk, cassert_of hsizes,
      if_pos hrank, ok_bind]
    rfl
  | dpskV32SparseMla =>
    simp only [RowShape.fnPGtD, ParseFn.func, vllmParseBlockSendMultiTensorPGtD, if_pos hsizes,
      if_pos hrank]
    rfl

/-- **Only D rank 0 is fed**, as soon as there is a token. -/
theorem not_fed_other (hx : x < X.dTp) (hne : x ≠ 0) (hnew : 0 < X.task.newTokens) : ¬X.Fed x := by
  intro hfed
  obtain ⟨T, tensors, hT⟩ := List.exists_cons_of_ne_nil X.tensors_ne
  have hrow : 0 < (rowsRecord X.srcTable X.dstTable T.ntpb T.tokenSize 1
      X.task.seenTokens).length := by
    rw [rowsRecord, one_mul]
    exact T.tokenSize_pos
  obtain ⟨r, hr, out, recs, hparse, hrecs, -⟩ := hfed 0 T (by rw [hT]; rfl) X.task.seenTokens
    (List.mem_range'_1.mpr (by omega)) _ (IpcBlock.first_mem_bytes hrow)
  obtain ⟨hlt, hgroup⟩ := (mem_mappedRanks X.dTp_dvd X.dTp_lt.le).mp hr
  have hr0 : r ≠ 0 := by
    rintro rfl
    exact hne (by rw [← hgroup, Nat.zero_div])
  rw [parse_other hmore hlt hx hr0] at hparse
  rw [← Except.ok.inj hparse] at hrecs
  cases hrecs

end ReplicatedRows

/-- **Every D rank is fed, except where the P > D functions meet several D ranks.**  In a group with
replicated rows every D rank receives every byte of the range from a P rank mapped to it if and only if
there is one D rank, or a known head count that is at most the number of D ranks, or no token. -/
theorem everyRankFed_iff (X : ReplicatedRows) :
    (∀ x < X.dTp, X.Fed x) ↔
      X.dTp = 1 ∨ (0 < X.H ∧ X.H ≤ X.dTp) ∨ X.task.newTokens = 0 := by
  have hfirst : 0 < X.pTp / X.dTp := Nat.zero_lt_of_lt (one_lt_groupN X.dTp_dvd X.dTp_lt)
  have hmapped : ∀ x < X.dTp, x * (X.pTp / X.dTp) ∈ mappedRanks X.pTp X.dInst x := fun x hx =>
    mem_mappedRanks_of_lt (j := 0) X.dTp_dvd X.dTp_lt.le hx hfirst
  rcases X.selection with ⟨hpos, hle, hgrouped⟩ | ⟨hheads, hmore⟩
  · refine iff_of_true (fun x hx => ?_) (.inr (.inl ⟨hpos, hle⟩))
    exact (ReplicatedRows.sends_of_grouped hx hgrouped).fed (hmapped x hx)
  · constructor
    · intro hfed
      by_contra hnot
      have hpos := X.dTp_pos
      push Not at hnot
      obtain ⟨hone, hH, hnew⟩ := hnot
      have hx : 1 < X.dTp := by omega
      exact ReplicatedRows.not_fed_other hmore hx Nat.one_ne_zero (by omega) (hfed 1 hx)
    · rintro (hone | hH | hnew) x hx
      · obtain rfl : x = 0 := by omega
        have h0 := hmapped 0 hx
        rw [zero_mul] at h0
        exact (ReplicatedRows.sends_first hmore hx).fed h0
      · omega
      · intro i T hi t ht
        rw [hnew] at ht
        exact absurd ht List.not_mem_nil

/-- A rank of four on the P side, with `H` heads. -/
def fourthReplica (H : ℤ) (r : ℕ) : WorkerInfo :=
  { engineTpSize := 4, workerTpRank := r, tokenSizes := [2], blockSizes := [2], numKvHeads := H }

/-- A rank of two on the D side. -/
def halfReplica (x : ℕ) : WorkerInfo :=
  { engineTpSize := 2, workerTpRank := x, tokenSizes := [2], blockSizes := [2] }

/-- One token, in block 0 on both sides. -/
def oneToken : ReqSendTask := .first ⟨0, "req", [[0]], [[0]]⟩ 1 false

theorem holdsRows_oneToken {w : WorkerInfo} (ht : w.tokenSizes = [2]) (hb : w.blockSizes = [2])
    (hn : w.layerNumBlocks = 1) :
    HoldsRows w [⟨1, 2, by decide, by decide, by decide⟩] [0] oneToken := by
  refine ⟨ht, hb, by omega, ?_, ?_⟩
  · rintro T (_ | ⟨_, ⟨⟩⟩)
    rw [hn]
    decide
  · rintro T (_ | ⟨_, ⟨⟩⟩) t - ht
    obtain rfl : t = 0 := Nat.lt_one_iff.mp ht
    exact ⟨0, rfl, by omega⟩

/-- Four P ranks feed two D ranks, RAGGED_FLASH with two heads. -/
def fourToTwo : ReplicatedRows where
  env := { cacheShape := .raggedFlash }
  shape := .raggedFlash
  dInst := ⟨"d", 0, 2, Nat.two_pos⟩
  pTp := 4
  H := 2
  validRanks := 5
  task := oneToken
  srcInfo := fourthReplica 2
  dstInfo := halfReplica
  tensors := [⟨1, 2, Nat.one_pos, by decide, Nat.two_pos⟩]
  srcTable := [0]
  dstTable := [0]
  release := EnvCfg.release
  fp8_off := EnvCfg.fp8_off
  cacheShape := EnvCfg.ragged
  dTp_lt := by decide
  dTp_dvd := by decide
  accepted := by decide
  src_rank _ _ := ⟨rfl, rfl, rfl⟩
  dst_rank _ _ := ⟨rfl, rfl⟩
  tensors_ne := List.cons_ne_nil _ _
  ragged _ := ⟨_, rfl⟩
  pair _ _ _ _ := ⟨rfl, rfl, holdsRows_oneToken rfl rfl rfl, holdsRows_oneToken rfl rfl rfl⟩

/-- Both are fed. -/
theorem fourToTwo_fed : ∀ x < 2, fourToTwo.Fed x :=
  (everyRankFed_iff fourToTwo).mpr (.inr (.inl ⟨by decide, by decide⟩))

/-- **With the head count unset the second D rank is not.**  P ranks 2 and 3 are mapped to it, and
neither emits a record; P rank 0 sends the token to D rank 0. -/
theorem unsetHeads_starves :
    mappedRanks 4 ⟨"d", 0, 2, by decide⟩ 1 = [2, 3] ∧
    (∀ env ∈ [{ cacheShape := .raggedFlash }, ({ cacheShape := .dpskV32SparseMla } : EnvCfg)],
      boundParse env (fourthReplica 0 0) (halfReplica 0) oneToken = .ok [[⟨0, 0, 2⟩]] ∧
      boundParse env (fourthReplica 0 2) (halfReplica 1) oneToken = .ok [] ∧
      boundParse env (fourthReplica 0 3) (halfReplica 1) oneToken = .ok []) := by
  refine ⟨by decide, fun env henv => ?_⟩
  rcases List.mem_pair.mp henv with rfl | rfl
  · exact ⟨rfl, rfl, rfl⟩
  · exact ⟨rfl, rfl, rfl⟩

end LlumnixKv
