import LlumnixKv.Parse.EqualRows
import LlumnixKv.Parse.Flash
import LlumnixKv.Parse.WholePages
import LlumnixKv.Ranks.Dispatch

/-!
# Parse/OneSender — who sends when the caches are replicated

    P ranks    0   1 │ 2   3       p_tp = 4, one head on two ranks each
    valid      0     │ 2           as many valid ranks as D ranks: "P = D"
                ╲    │  ╲
    D ranks      0   │   1

With replicated heads the valid ranks may be as many as the D ranks although P has more ranks; the
shapes that compare the effective TP size then run their P = D function — on every P rank.  DPSK_V32
leaves the ranks that are not valid out, and compares effective ranks.  The others do neither, so every
rank of the group sends (`oneSender_iff`).
-/

open Machinery

namespace LlumnixKv

/-! ## The shapes -/

/-- The shapes dispatched by the effective TP size. -/
inductive EffectiveShape
  | raggedFlash
  | flash
  | dpskV32SparseMla
  | flashinfer
  | turboquant
  deriving DecidableEq, Repr

namespace EffectiveShape

def cacheShape : EffectiveShape → CacheShape
  | raggedFlash => .raggedFlash
  | flash => .flash
  | dpskV32SparseMla => .dpskV32SparseMla
  | flashinfer => .flashinfer
  | turboquant => .turboquant

/-- The P = D function of the shape. -/
def fn : EffectiveShape → ParseFn
  | raggedFlash => .parseBlockSendPEqD
  | flash => .vllmParseBlockSendPEqD
  | dpskV32SparseMla => .vllmParseBlockSendMultiTensorPEqD
  | flashinfer => .vllmParseFlashinferBlockSendPEqD
  | turboquant => .turboquantParseBlockSendPEqD

/-- …and its model. -/
def parse : EffectiveShape → EnvCfg → ParseBlockFunc
  | raggedFlash => parseBlockSendPEqD
  | flash => vllmParseBlockSendPEqD
  | dpskV32SparseMla => vllmParseBlockSendMultiTensorPEqD
  | flashinfer => vllmParseFlashinferBlockSendPEqD
  | turboquant => turboquantParseBlockSendPEqD

/-- The assertions about TP sizes and ranks at its entry. -/
def Entry (shape : EffectiveShape) (src dst : WorkerInfo) (kvtTpSize kvtTpRank : ℕ) : Prop :=
  match shape with
  | raggedFlash | flash =>
    kvtTpSize = dst.engineTpSize ∧ src.workerTpRank = dst.workerTpRank
  | dpskV32SparseMla => kvtTpSize = dst.engineTpSize ∧ kvtTpRank = dst.workerTpRank
  | flashinfer => kvtTpSize = dst.engineTpSize
  | turboquant => src.engineTpSize = dst.engineTpSize ∧ kvtTpSize = dst.engineTpSize ∧
      src.workerTpRank = dst.workerTpRank

/-- As many valid ranks as D ranks: the P = D function is chosen. -/
theorem selectParseBlock_eq (shape : EffectiveShape) (src : WorkerInfo) {dst : WorkerInfo}
    {kvtTpSize : ℕ} (h : kvtTpSize = dst.engineTpSize) :
    selectParseBlock shape.cacheShape src dst kvtTpSize = .ok (shape.fn, .peqd) := by
  cases shape with
  | raggedFlash | flash | dpskV32SparseMla | flashinfer | turboquant => exact if_pos h

end EffectiveShape

/-- What a worker registered, less its identity. -/
def WorkerInfo.cache (w : WorkerInfo) : WorkerInfo :=
  { w with instId := "", workerId := 0, workerTpRank := 0, addr := "" }

/-- **Without asserts, only DPSK_V32 asks who is sending.** -/
theorem EffectiveShape.parse_cache {shape : EffectiveShape} (hshape : shape ≠ .dpskV32SparseMla)
    {env : EnvCfg} (hrelease : env.ndebug = true) (src dst : WorkerInfo)
    (validRanks : BitVec maxTpSize) (kvtTpSize kvtTpRank : ℕ) (task : ReqSendTask) :
    shape.parse env src dst validRanks kvtTpSize kvtTpRank task =
      shape.parse env src.cache dst validRanks kvtTpSize 0 task := by
  cases shape with
  | raggedFlash =>
    simp only [parse, parseBlockSendPEqD, cassert_release hrelease]
    rfl
  | flash =>
    simp only [parse, vllmParseBlockSendPEqD, cassert_release hrelease]
    rfl
  | dpskV32SparseMla => exact absurd rfl hshape
  | flashinfer =>
    simp only [parse, vllmParseFlashinferBlockSendPEqD, cassert_release hrelease]
    rfl
  | turboquant =>
    simp only [parse, turboquantParseBlockSendPEqD, vllmParseHybridBlockSendPEqDBlockAligned,
      cassert_release hrelease]
    rfl

/-! ## The effective P = D case -/

/-- A task of a P group with replicated heads, in a release build: more P ranks than D ranks, and as
many valid ranks as D ranks.  The P ranks registered the same cache; for DPSK_V32 the blocks of the
range are in both caches. -/
structure EffectiveEqual where
  env : EnvCfg
  shape : EffectiveShape
  dInst : DInstId
  pTp : ℕ
  H : ℤ
  validRanks : BitVec maxTpSize
  task : ReqSendTask
  srcInfo : ℕ → WorkerInfo
  dstInfo : ℕ → WorkerInfo
  tensors : List RowTensor
  srcTable : List ℕ
  dstTable : List ℕ
  release : env.ndebug = true
  fp8_off : env.bf162fp8Conversion = false
  dTp_lt : dInst.dstTpsize < pTp
  dTp_dvd : dInst.dstTpsize ∣ pTp
  accepted : computeValidRanksPd false pTp dInst.dstTpsize H = .ok validRanks
  replicated : Bitset.count validRanks = dInst.dstTpsize
  src_rank : ∀ r < pTp, (srcInfo r).workerTpRank = r
  src_alike : ∀ r < pTp, (srcInfo r).cache = (srcInfo 0).cache
  dst_rank : ∀ x < dInst.dstTpsize,
    (dstInfo x).engineTpSize = dInst.dstTpsize ∧ (dstInfo x).workerTpRank = x
  tensors_ne : tensors ≠ []
  pair : shape = .dpskV32SparseMla → ∀ r < pTp, ∀ x < dInst.dstTpsize,
    EqualPair (srcInfo r) (dstInfo x) tensors srcTable dstTable task

namespace EffectiveEqual

variable {X : EffectiveEqual} {r x : ℕ}

abbrev dTp (X : EffectiveEqual) : ℕ := X.dInst.dstTpsize

/-- The P ranks mapped to D rank `x`. -/
def mapped (X : EffectiveEqual) (x : ℕ) : List ℕ := mappedRanks X.pTp X.dInst x

/-- What P rank `r` does for D rank `x`. -/
def parse (X : EffectiveEqual) (r x : ℕ) : Except Fault (List (List IpcBlock)) :=
  X.shape.parse X.env (X.srcInfo r) (X.dstInfo x) X.validRanks (Bitset.count X.validRanks)
    (kvtTpRank X.validRanks r) X.task

/-- P rank `r` emits records for D rank `x`. -/
def Emits (X : EffectiveEqual) (r x : ℕ) : Prop :=
  ∃ out, X.parse r x = .ok out ∧ out.flatten ≠ []

/-- Exactly one of the ranks mapped to D rank `x` emits records, and the entry assertions hold for
it. -/
def OneSender (X : EffectiveEqual) (x : ℕ) : Prop :=
  ∃ r ∈ X.mapped x, X.Emits r x ∧ (∀ r' ∈ X.mapped x, X.Emits r' x → r' = r) ∧
    X.shape.Entry (X.srcInfo r) (X.dstInfo x) (Bitset.count X.validRanks)
      (kvtTpRank X.validRanks r)

theorem mem_mapped : r ∈ X.mapped x ↔ r < X.pTp ∧ r / (X.pTp / X.dTp) = x :=
  mem_mappedRanks X.dTp_dvd X.dTp_lt.le

theorem mem_mapped_of_lt {j : ℕ} (hx : x < X.dTp) (hj : j < X.pTp / X.dTp) :
    x * (X.pTp / X.dTp) + j ∈ X.mapped x :=
  mem_mappedRanks_of_lt X.dTp_dvd X.dTp_lt.le hx hj

/-- The valid ranks: one for each D rank, a group apart. -/
theorem grouped (X : EffectiveEqual) : Grouped X.pTp X.dTp X.validRanks (X.pTp / X.dTp) 1 := by
  rcases computeValidRanksPd_fewer X.dInst.dstTpsize_pos X.dTp_lt X.dTp_dvd X.accepted with
    ⟨-, -, h⟩ | ⟨-, h⟩
  · exact h
  · exact absurd X.replicated h.ne'

/-! ### The shapes that do not ask -/

/-- **Every rank of the group does the same.** -/
theorem emits_iff (hshape : X.shape ≠ .dpskV32SparseMla) {r' : ℕ} (hr : r < X.pTp)
    (hr' : r' < X.pTp) : X.Emits r x ↔ X.Emits r' x := by
  have hfirst : ∀ q < X.pTp, X.parse q x = X.shape.parse X.env (X.srcInfo 0).cache (X.dstInfo x)
      X.validRanks (Bitset.count X.validRanks) 0 X.task := fun q hq => by
    rw [parse, EffectiveShape.parse_cache hshape X.release, X.src_alike q hq]
  rw [Emits, Emits, hfirst r hr, hfirst r' hr']

theorem not_oneSender (hshape : X.shape ≠ .dpskV32SparseMla) (hx : x < X.dTp) : ¬X.OneSender x := by
  rintro ⟨r, hr, hemits, honly, -⟩
  have hgroup : 1 < X.pTp / X.dTp := one_lt_groupN X.dTp_dvd X.dTp_lt
  have hlt := (mem_mapped.mp hr).1
  have hsame : ∀ j < X.pTp / X.dTp, x * (X.pTp / X.dTp) + j = r := fun j hj =>
    have hmem := mem_mapped_of_lt hx hj
    honly _ hmem ((emits_iff hshape hlt (mem_mapped.mp hmem).1).mp hemits)
  have h0 := hsame 0 (by omega)
  have h1 := hsame 1 hgroup
  omega

/-! ### DPSK_V32 -/

/-- A rank that is not valid emits nothing. -/
theorem valid_of_emits (hshape : X.shape = .dpskV32SparseMla) (hr : r < X.pTp)
    (h : X.Emits r x) : X.validRanks.getLsbD r = true := by
  obtain ⟨out, hout, hne⟩ := h
  by_contra hvalid
  rw [Bool.not_eq_true] at hvalid
  rw [parse, hshape, EffectiveShape.parse, vllmParseBlockSendMultiTensorPEqD, X.src_rank r hr,
    if_pos hvalid] at hout
  rw [← Except.ok.inj hout] at hne
  exact hne rfl

/-- A valid rank emits records when the task has tokens. -/
theorem emits_of_valid (hshape : X.shape = .dpskV32SparseMla) (hr : r < X.pTp) (hx : x < X.dTp)
    (hvalid : X.validRanks.getLsbD r = true) : X.Emits r x ↔ 0 < X.task.newTokens := by
  have hrank : X.validRanks.getLsbD (X.srcInfo r).workerTpRank = true := by
    rw [X.src_rank r hr]
    exact hvalid
  obtain ⟨out, hparse, hsent⟩ : ∃ out, X.parse r x = .ok out ∧ List.Forall₂
      (RowsSent (X.srcInfo r) (X.dstInfo x) X.srcTable X.dstTable X.task) X.tensors out := by
    rw [parse, hshape]
    exact (X.pair hshape r hr x hx).vllmParseBlockSendMultiTensorPEqD X.fp8_off hrank
      (.inl X.release)
  rw [Emits, hparse, ← flatten_ne_nil_iff hsent X.tensors_ne]
  exact ⟨fun ⟨_, h, hne⟩ => Except.ok.inj h ▸ hne, fun hne => ⟨out, rfl, hne⟩⟩

theorem oneSender_dpsk_iff (hshape : X.shape = .dpskV32SparseMla) (hx : x < X.dTp) :
    X.OneSender x ↔ 0 < X.task.newTokens := by
  have h := X.grouped
  have hx1 : x < X.dTp * 1 := by rwa [Nat.mul_one]
  have hvalid := h.valid_mul hx1
  have hmem := mem_mapped_of_lt hx (Nat.zero_lt_of_lt (one_lt_groupN X.dTp_dvd X.dTp_lt))
  rw [Nat.add_zero] at hmem
  have hlt := (mem_mapped.mp hmem).1
  -- the valid rank of the group is the only one
  have honly : ∀ r' ∈ X.mapped x, X.Emits r' x → r' = x * (X.pTp / X.dTp) := fun r' hr' hemits => by
    obtain ⟨hlt', hgroup⟩ := mem_mapped.mp hr'
    obtain ⟨k, -, rfl⟩ := h.exists_mul (valid_of_emits hshape hlt' hemits)
    rw [Nat.mul_div_cancel _ h.stride_pos] at hgroup
    rw [hgroup]
  constructor
  · rintro ⟨r, hr, hemits, -⟩
    obtain rfl := honly r hr hemits
    exact (emits_of_valid hshape hlt hx hvalid).mp hemits
  · intro hnew
    refine ⟨_, hmem, (emits_of_valid hshape hlt hx hvalid).mpr hnew, honly, ?_⟩
    rw [hshape]
    exact ⟨by rw [X.replicated, (X.dst_rank x hx).1], by rw [h.kvtTpRank_mul hx1, (X.dst_rank x hx).2]⟩

end EffectiveEqual

/-- **Only DPSK_V32 has one sender for each D rank.**  With as many valid ranks as D ranks every shape
is given its P = D function; exactly one of the P ranks mapped to a D rank emits records, with the entry
assertions of the function true of it, if and only if the shape is DPSK_V32 and the task has tokens. -/
theorem oneSender_iff (X : EffectiveEqual) (x : Fin X.dTp) :
    (∀ r, selectParseBlock X.shape.cacheShape (X.srcInfo r) (X.dstInfo x)
      (Bitset.count X.validRanks) = .ok (X.shape.fn, .peqd)) ∧
    (X.OneSender x ↔ X.shape = .dpskV32SparseMla ∧ 0 < X.task.newTokens) := by
  refine ⟨fun r => X.shape.selectParseBlock_eq _ ?_, ?_⟩
  · rw [X.replicated, (X.dst_rank x x.isLt).1]
  · by_cases hshape : X.shape = .dpskV32SparseMla
    · rw [EffectiveEqual.oneSender_dpsk_iff hshape x.isLt, and_iff_right hshape]
    · exact iff_of_false (EffectiveEqual.not_oneSender hshape x.isLt) fun h => hshape h.1

/-- Two P ranks with one replicated head, one D rank, one token. -/
def twoReplicas : EffectiveEqual where
  env := {}
  shape := .dpskV32SparseMla
  dInst := ⟨"d", 0, 1, Nat.one_pos⟩
  pTp := 2
  H := 1
  validRanks := 1
  task := .first ⟨0, "req", [[0]], [[0]]⟩ 1 false
  srcInfo r := { engineTpSize := 2, workerTpRank := r, tokenSizes := [2], blockSizes := [2],
                 numKvHeads := 1 }
  dstInfo x := { engineTpSize := 1, workerTpRank := x, tokenSizes := [2], blockSizes := [2] }
  tensors := [⟨1, 2, Nat.one_pos, one_lt_u32, Nat.two_pos⟩]
  srcTable := [0]
  dstTable := [0]
  release := EnvCfg.release
  fp8_off := EnvCfg.fp8_off
  dTp_lt := by decide
  dTp_dvd := by decide
  accepted := by decide
  replicated := by decide
  src_rank _ _ := rfl
  src_alike _ _ := rfl
  dst_rank _ _ := ⟨rfl, rfl⟩
  tensors_ne := List.cons_ne_nil _ _
  pair _ r _ x _ := by
    have hholds : ∀ w : WorkerInfo, w.tokenSizes = [2] → w.blockSizes = [2] → w.layerNumBlocks = 1 →
        HoldsRows w [⟨1, 2, by decide, by decide, by decide⟩] [0]
          ⟨⟨0, "req", [[0]], [[0]]⟩, 0, 1, false, by decide⟩ := fun w ht hb hn => by
      refine ⟨ht, hb, by omega, ?_, ?_⟩
      · rintro T (_ | ⟨_, ⟨⟩⟩)
        rw [hn]
        decide
      · rintro T (_ | ⟨_, ⟨⟩⟩) t - ht
        obtain rfl : t = 0 := Nat.lt_one_iff.mp ht
        exact ⟨0, rfl, by omega⟩
    exact ⟨rfl, rfl, hholds _ rfl rfl rfl, hholds _ rfl rfl rfl⟩

/-- Its D rank has one sender. -/
theorem twoReplicas_oneSender : twoReplicas.OneSender 0 :=
  (oneSender_iff twoReplicas ⟨0, by decide⟩).2.mpr ⟨rfl, by decide⟩

/-- **RAGGED_FLASH has two.**  Both P ranks are mapped to the D rank and only rank 0 is valid; both send
the token, and with asserts on rank 1 stops. -/
theorem ragged_twoSenders :
    computeValidRanksPd false 2 1 1 = .ok 1 ∧
    (∀ r < 2, (getDist r 2 ⟨"d", 0, 1, by decide⟩).map (fun t => t.2.2) = [0]) ∧
    (∀ r < 2, parseBlockSendPEqD {}
      { engineTpSize := 2, workerTpRank := r, tokenSizes := [2], blockSizes := [2], numKvHeads := 1 }
      { engineTpSize := 1, tokenSizes := [2], blockSizes := [2] }
      1 1 (kvtTpRank 1 r) ⟨⟨0, "req", [[0]], [[0]]⟩, 0, 1, false, by decide⟩ = .ok [[⟨0, 0, 2⟩]]) ∧
    parseBlockSendPEqD { ndebug := false }
      { engineTpSize := 2, workerTpRank := 1, tokenSizes := [2], blockSizes := [2], numKvHeads := 1 }
      { engineTpSize := 1, tokenSizes := [2], blockSizes := [2] }
      1 1 (kvtTpRank 1 1) ⟨⟨0, "req", [[0]], [[0]]⟩, 0, 1, false, by decide⟩ = .error .abort := by
  refine ⟨by decide, by decide, fun r hr => ?_, rfl⟩
  obtain rfl | rfl : r = 0 ∨ r = 1 := by omega
  · rfl
  · rfl

end LlumnixKv
