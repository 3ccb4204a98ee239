import LlumnixKv.Parse.HeadSections
import LlumnixKv.Stub.Context

/-!
# Stub/HeadCount — the head count FLASHINFER parses with

    rank's half       │ head 0 : t₀ t₁ t₂ t₃                    │     one replicated head
    the code, H = 2   │ "head 0" : t₀ t₁ t₂ t₃ │ "head 1" : …   │     heads of half the size

A rank with heads of its own holds `H / p_tp` of them; with fewer heads than ranks it holds one, but the
FLASHINFER functions then count all `H`.  The sections they copy are `H` times too many and too narrow.
Where a range fills whole blocks nobody sees it, as the sections of a whole block are the block; any
other range moves bytes of other tokens (`flashinferExact`).
-/

open List Machinery

namespace LlumnixKv

open HndGeometry

/-- A worker registered pages of head sections, and the blocks of the range are in its cache. -/
structure HoldsSections (w : WorkerInfo) (tp rank : ℕ) (g : HndGeometry) (table : List ℕ)
    (task : ReqSendTask) : Prop where
  engineTpSize : w.engineTpSize = tp
  workerTpRank : w.workerTpRank = rank
  tokenSizes : w.tokenSizes = [g.tokenSize]
  blockSizes : w.blockSizes = [g.blockSize]
  cache : InCache w g.blockSize g.ntpb table task

/-- A FLASHINFER task in a release build, P = D or P > D: the heads are accepted by
`compute_valid_ranks_pd`, the senders divide among the D ranks, and a D rank holds the heads of its
senders. -/
structure FlashinferTransfer where
  env : EnvCfg
  dInst : DInstId
  pTp : ℕ
  H : ℕ
  validRanks : BitVec maxTpSize
  p : HndGeometry
  task : ReqSendTask
  srcTable : List ℕ
  dstTable : List ℕ
  srcInfo : ℕ → WorkerInfo
  dstInfo : ℕ → WorkerInfo
  release : env.ndebug = true
  fp8_off : env.bf162fp8Conversion = false
  shape : env.cacheShape = .flashinfer
  pTp_pos : 0 < pTp
  H_pos : 0 < H
  H_lt : H < 2 ^ 31
  accepted : computeValidRanksPd env.ndebug pTp dInst.dstTpsize H = .ok validRanks
  dTp_dvd : dInst.dstTpsize ∣ Bitset.count validRanks
  dTp_le : dInst.dstTpsize ≤ Bitset.count validRanks
  p_heads : ∀ r, (heldHeads pTp H r).length = p.heads
  ntpb_lt : p.ntpb < 2 ^ 32
  srcBlocks : task.req.srcBlocks[0]? = some srcTable
  dstBlocks : task.req.dstBlocks[0]? = some dstTable
  src_holds : ∀ r < pTp, HoldsSections (srcInfo r) pTp r p srcTable task ∧
    (srcInfo r).numKvHeads = H
  dst_holds : ∀ x < dInst.dstTpsize, HoldsSections (dstInfo x) dInst.dstTpsize x
    (p.widen (Bitset.count validRanks / dInst.dstTpsize) (Nat.div_pos dTp_le dInst.dstTpsize_pos))
    dstTable task

namespace FlashinferTransfer

variable {X : FlashinferTransfer} {r x : ℕ}

abbrev dTp (X : FlashinferTransfer) : ℕ := X.dInst.dstTpsize

/-- `attn_group_n`, one where P = D. -/
def groupN (X : FlashinferTransfer) : ℕ := Bitset.count X.validRanks / X.dTp

theorem groupN_pos (X : FlashinferTransfer) : 0 < X.groupN :=
  Nat.div_pos X.dTp_le X.dInst.dstTpsize_pos

/-- `attn_group_off`, zero where P = D. -/
def groupOff (X : FlashinferTransfer) (r : ℕ) : ℕ := kvtTpRank X.validRanks r % X.groupN

theorem groupOff_lt (X : FlashinferTransfer) (r : ℕ) : X.groupOff r < X.groupN :=
  Nat.mod_lt _ X.groupN_pos

/-- The pages of a D rank. -/
def d (X : FlashinferTransfer) : HndGeometry := X.p.widen X.groupN X.groupN_pos

/-- What P rank `r` emits for D rank `x`. -/
def parse (X : FlashinferTransfer) (r x : ℕ) : Except Fault (List (List IpcBlock)) :=
  boundParse X.env (X.srcInfo r) (X.dstInfo x) X.task

/-- P rank `r` sends to D rank `x`: it is mapped to it, and with more senders than D ranks it is
valid. -/
def Sender (X : FlashinferTransfer) (r x : ℕ) : Prop :=
  r ∈ mappedRanks X.pTp X.dInst x ∧
    (Bitset.count X.validRanks = X.dTp ∨ X.validRanks.getLsbD r = true)

/-- The copies asked of the sender: the tokens of the range, of every head it holds, K and V, to the
same head and token of the D block behind the heads of the senders before it. -/
def wanted (X : FlashinferTransfer) (r : ℕ) : List (ℕ × ℕ) :=
  groupBytes X.p X.groupN X.groupN_pos X.srcTable X.dstTable (X.groupOff r) X.task.seenTokens
    X.task.newTokens

/-- The sender makes exactly the copies asked of it. -/
def Exact (X : FlashinferTransfer) (r x : ℕ) : Prop :=
  ∃ recs, X.parse r x = .ok [recs] ∧
    ∀ byte, byte ∈ recs.flatMap IpcBlock.bytes ↔ byte ∈ X.wanted r

/-- The head count does no harm: there is nothing to send, it is the number of heads held, or it
divides a head and the range fills whole blocks. -/
def Harmless (X : FlashinferTransfer) : Prop :=
  X.task.newTokens = 0 ∨ X.pTp ≤ X.H ∨ X.H = 1 ∨
    (X.H ∣ X.p.headDim ∧ X.p.ntpb ∣ X.task.seenTokens ∧ X.p.ntpb ∣ X.task.endTokens)

/-! ## The call -/

/-- The number of heads the code counts. -/
def codeHeads (X : FlashinferTransfer) : ℕ := if X.pTp ≤ X.H then X.H / X.pTp else X.H

theorem flashinferTpKvHeads_eq (hr : r < X.pTp) :
    flashinferTpKvHeads (X.srcInfo r) = X.codeHeads := by
  obtain ⟨hsrc, hheads⟩ := X.src_holds r hr
  have hpos := X.H_pos
  rw [flashinferTpKvHeads, hheads, hsrc.engineTpSize, codeHeads]
  by_cases hle : X.pTp ≤ X.H
  · rw [if_pos ⟨by omega, by omega⟩, if_pos hle, Int.natCast_div]
  · rw [if_neg (by omega), if_neg hle]
    omega

/-- With heads of its own a rank holds as many as the code counts. -/
theorem heads_of_le (h : X.pTp ≤ X.H) : X.p.heads = X.codeHeads := by
  rw [← X.p_heads 0, heldHeads, if_pos h, length_range', codeHeads, if_pos h]

/-- …otherwise it holds one. -/
theorem heads_of_lt (h : X.H < X.pTp) : X.p.heads = 1 ∧ X.codeHeads = X.H := by
  rw [← X.p_heads 0, heldHeads, if_neg (by omega), codeHeads, if_neg (by omega)]
  exact ⟨rfl, rfl⟩

theorem codeHeads_lt (X : FlashinferTransfer) : X.codeHeads < 2 ^ 64 := by
  have hlt := X.H_lt
  have hdiv := Nat.div_le_self X.H X.pTp
  rw [codeHeads]
  split_ifs
  · omega
  · omega

/-- The bounds of the pair. -/
def bounds (X : FlashinferTransfer) (r x : ℕ) : IpcBlockBounds :=
  ⟨X.p.blockSize * (X.srcInfo r).layerNumBlocks, X.d.blockSize * (X.dstInfo x).layerNumBlocks, 1, 0⟩

/-- **The two functions are one**: a sender calls `parse_flashinfer_HND_block` with its place in its
group. -/
theorem parse_eq (hx : x < X.dTp) (hr : X.Sender r x) :
    X.parse r x = (do
      let out ← parseFlashinferHNDBlock X.env X.p.tokenSize X.p.blockSize X.d.blockSize X.p.ntpb
        X.srcTable X.dstTable X.task.seenTokens X.task.newTokens X.groupN (X.groupOff r) X.codeHeads
        (X.bounds r x) false
      return [out]) := by
  obtain ⟨hmapped, hsends⟩ := hr
  have hlt : r < X.pTp := mem_range.mp (mem_filter.mp hmapped).1
  obtain ⟨hsrc, hheads⟩ := X.src_holds r hlt
  have hdst : HoldsSections (X.dstInfo x) X.dTp x X.d X.dstTable X.task := X.dst_holds x hx
  have hV : computeValidRanksPd X.env.ndebug (X.srcInfo r).engineTpSize (X.dstInfo x).engineTpSize
      (X.srcInfo r).numKvHeads = .ok X.validRanks := by
    rw [hsrc.engineTpSize, hdst.engineTpSize, hheads]
    exact X.accepted
  have hbounds := makeIpcBlockBounds_of_inCache X.fp8_off hsrc.blockSizes hdst.blockSizes hsrc.cache
    hdst.cache
  have hntpb : ∀ g : HndGeometry, g.blockSize / g.tokenSize = g.ntpb := fun g =>
    Nat.mul_div_cancel _ g.tokenSize_pos
  -- the common part
  have hsend : sendFlashinfer X.env (X.srcInfo r) (X.dstInfo x) X.groupN (X.groupOff r) X.task = (do
      let out ← parseFlashinferHNDBlock X.env X.p.tokenSize X.p.blockSize X.d.blockSize X.p.ntpb
        X.srcTable X.dstTable X.task.seenTokens X.task.newTokens X.groupN (X.groupOff r) X.codeHeads
        (X.bounds r x) false
      return [out]) := by
    simp only [sendFlashinfer, cassert_release X.release, hsrc.tokenSizes, hdst.tokenSizes,
      hsrc.blockSizes, hdst.blockSizes, vecAt_singleton, ok_bind, checkedDiv_of_pos X.p.tokenSize_pos,
      checkedDiv_of_pos X.d.tokenSize_pos, hntpb, u32_of_lt X.ntpb_lt,
      vecAt_eq_ok.mpr X.srcBlocks, vecAt_eq_ok.mpr X.dstBlocks, hbounds, flashinferTpKvHeads_eq hlt]
    rfl
  rw [← hsend]
  by_cases heq : Bitset.count X.validRanks = X.dTp
  · have hfn : selectParseBlock X.env.cacheShape (X.srcInfo r) (X.dstInfo x)
        (Bitset.count X.validRanks) = .ok (.vllmParseFlashinferBlockSendPEqD, .peqd) := by
      rw [X.shape]
      exact if_pos (heq.trans hdst.engineTpSize.symm)
    have hone : X.groupN = 1 := by rw [groupN, heq, Nat.div_self X.dInst.dstTpsize_pos]
    have hzero : X.groupOff r = 0 := by rw [groupOff, hone, Nat.mod_one]
    rw [parse, boundParse_eq X.task hV hfn, hone, hzero]
    simp only [ParseFn.func, vllmParseFlashinferBlockSendPEqD, cassert_release X.release, ok_bind]
  · have hmore : X.dTp < Bitset.count X.validRanks := lt_of_le_of_ne X.dTp_le (Ne.symm heq)
    have hfn : selectParseBlock X.env.cacheShape (X.srcInfo r) (X.dstInfo x)
        (Bitset.count X.validRanks) = .ok (.vllmParseFlashinferBlockSendPGtD, .pgtd) := by
      rw [← hdst.engineTpSize] at heq hmore
      rw [X.shape]
      exact (if_neg heq).trans (if_pos hmore)
    have hvalid : ¬X.validRanks.getLsbD r = false := by
      rw [hsends.resolve_left heq]
      decide
    have hgroup : 0 < Bitset.count X.validRanks / X.dTp := X.groupN_pos
    rw [parse, boundParse_eq X.task hV hfn]
    simp only [ParseFn.func, vllmParseFlashinferBlockSendPGtD, hsrc.workerTpRank, hdst.engineTpSize,
      if_neg hvalid, checkedDiv_of_pos X.dInst.dstTpsize_pos, checkedDiv_of_pos hgroup,
      cassert_release X.release, ok_bind]
    rfl

/-- **The copies of the code**, where its heads make up the row: those of pages with its head count. -/
theorem parse_of_geometry (hx : x < X.dTp) (hr : X.Sender r x) {g : HndGeometry}
    (hheads : X.codeHeads = g.heads) (hntpb : g.ntpb = X.p.ntpb)
    (hrow : g.heads * g.headDim = X.p.heads * X.p.headDim) :
    ∃ recs, X.parse r x = .ok [recs] ∧ (recs.flatMap IpcBlock.bytes).Perm
      (groupBytes g X.groupN X.groupN_pos X.srcTable X.dstTable (X.groupOff r) X.task.seenTokens
        X.task.newTokens) := by
  have hlt : r < X.pTp := mem_range.mp (mem_filter.mp hr.1).1
  have hsrc := (X.src_holds r hlt).1.cache
  have hdst : InCache (X.dstInfo x) X.d.blockSize X.d.ntpb X.dstTable X.task := (X.dst_holds x hx).cache
  have htoken : X.p.tokenSize = g.tokenSize := by rw [tokenSize, tokenSize, hrow]
  have hblock : X.p.blockSize = g.blockSize := by rw [blockSize, blockSize, htoken, hntpb]
  have hwide : X.d.blockSize = (g.widen X.groupN X.groupN_pos).blockSize := by
    simp only [d, widen, blockSize, tokenSize, hntpb, mul_assoc, hrow]
  have hlt64 : g.heads < 2 ^ 64 := by
    rw [← hheads]
    exact X.codeHeads_lt
  have hadmits : (X.bounds r x).Admits (g.blockSize * (X.srcInfo r).layerNumBlocks)
      ((g.widen X.groupN X.groupN_pos).blockSize * (X.dstInfo x).layerNumBlocks) :=
    ⟨rfl, hsrc.capacity, by rw [← hblock]; exact le_rfl, by rw [← hwide]; exact le_rfl⟩
  have hrange : ∀ t, X.task.seenTokens ≤ t → t < X.task.seenTokens + X.task.newTokens →
      (t / g.ntpb < X.srcTable.length ∧
        X.srcTable.getD (t / g.ntpb) 0 < (X.srcInfo r).layerNumBlocks) ∧
      t / g.ntpb < X.dstTable.length ∧
        X.dstTable.getD (t / g.ntpb) 0 < (X.dstInfo x).layerNumBlocks := fun t h1 h2 => by
    rw [hntpb]
    exact ⟨hsrc.block_at h1 h2, hdst.block_at h1 h2⟩
  obtain ⟨out, hout, hbytes⟩ := parseFlashinferHNDBlock_spec X.groupN_pos X.release hlt64
    (X.groupOff_lt r) hadmits hrange
  refine ⟨out, ?_, hbytes⟩
  rw [parse_eq hx hr, htoken, hblock, hwide, ← hntpb, hheads, hout]
  rfl

theorem exact_of_heads (hx : x < X.dTp) (hr : X.Sender r x) (hheads : X.p.heads = X.codeHeads) :
    X.Exact r x := by
  obtain ⟨recs, hparse, hbytes⟩ := parse_of_geometry hx hr hheads.symm rfl rfl
  exact ⟨recs, hparse, fun _ => hbytes.mem_iff⟩

theorem codeHeads_pos (X : FlashinferTransfer) : 0 < X.codeHeads := by
  rw [codeHeads]
  split_ifs with hle
  · exact Nat.div_pos hle X.pTp_pos
  · exact X.H_pos

/-- No token, no copy. -/
theorem exact_of_empty (hx : x < X.dTp) (hr : X.Sender r x) (hnew : X.task.newTokens = 0) :
    X.Exact r x := by
  refine ⟨[], ?_, fun byte => ?_⟩
  · rw [parse_eq hx hr, hnew, parseFlashinferHNDBlock_zero X.release X.codeHeads_pos X.codeHeads_lt]
    rfl
  · rw [wanted, hnew]
    rfl

/-! ## A wrong count that divides the head -/

/-- The pages the code sees: `H` heads, of an `H`-th of the size. -/
def seen (X : FlashinferTransfer) (hdvd : X.H ∣ X.p.headDim) : HndGeometry where
  heads := X.H
  ntpb := X.p.ntpb
  headDim := X.p.headDim / X.H
  heads_pos := X.H_pos
  ntpb_pos := X.p.ntpb_pos
  headDim_pos := Nat.div_pos (Nat.le_of_dvd X.p.headDim_pos hdvd) X.H_pos

theorem seen_row (hlt : X.H < X.pTp) (hdvd : X.H ∣ X.p.headDim) :
    (X.seen hdvd).heads * (X.seen hdvd).headDim = X.p.heads * X.p.headDim := by
  rw [(heads_of_lt hlt).1, one_mul]
  exact Nat.mul_div_cancel' hdvd

theorem seen_half (hlt : X.H < X.pTp) (hdvd : X.H ∣ X.p.headDim) :
    (X.seen hdvd).half = X.p.half := by
  have hrow := seen_row hlt hdvd
  have hntpb : (X.seen hdvd).ntpb = X.p.ntpb := rfl
  rw [half, half, mul_right_comm, hrow, hntpb, mul_right_comm]

/-- Whole blocks: every byte of a block is in the range, whatever its token. -/
theorem exact_of_blocks (hx : x < X.dTp) (hr : X.Sender r x) (hlt : X.H < X.pTp)
    (hdvd : X.H ∣ X.p.headDim) (hfirst : X.p.ntpb ∣ X.task.seenTokens)
    (hlast : X.p.ntpb ∣ X.task.endTokens) : X.Exact r x := by
  obtain ⟨recs, hparse, hbytes⟩ := parse_of_geometry (g := X.seen hdvd) hx hr (heads_of_lt hlt).2 rfl
    (seen_row hlt hdvd)
  refine ⟨recs, hparse, fun byte => ?_⟩
  obtain ⟨a, ha⟩ := hfirst
  obtain ⟨c, hc⟩ := hlast
  rw [ReqSendTask.endTokens] at hc
  have hblock : ∀ (g : HndGeometry) (i o : ℕ), g.ntpb = X.p.ntpb →
      (X.task.seenTokens ≤ i * g.ntpb + g.tokenOf o ∧
        i * g.ntpb + g.tokenOf o < X.task.seenTokens + X.task.newTokens ↔ a ≤ i ∧ i < c) :=
    fun g i o hg => by
      have hmod : g.tokenOf o < g.ntpb := Nat.mod_lt _ g.ntpb_pos
      rw [hc, ha, ← hg, mul_comm g.ntpb, mul_comm g.ntpb, Radix.mul_le_digit hmod,
        Radix.digit_lt_mul hmod]
  rw [hbytes.mem_iff, wanted, mem_groupBytes, mem_groupBytes, seen_half hlt hdvd]
  refine exists_congr fun i => exists_congr fun kv => exists_congr fun o =>
    and_congr_right fun _ => and_congr_right fun _ => ?_
  rw [← and_assoc, ← and_assoc, hblock (X.seen hdvd) i o rfl, hblock X.p i o rfl]

/-- **A block filled in part**: a byte that the code takes for a token of the range, and that is one of
another. -/
theorem exists_misplaced (hlt : X.H < X.pTp) (hone : 1 < X.H) (hnew : 0 < X.task.newTokens)
    (hdvd : X.H ∣ X.p.headDim)
    (hpart : ¬(X.p.ntpb ∣ X.task.seenTokens ∧ X.p.ntpb ∣ X.task.endTokens)) :
    ∃ i o, o < X.p.half ∧ X.task.seenTokens ≤ i * X.p.ntpb + (X.seen hdvd).tokenOf o ∧
      i * X.p.ntpb + (X.seen hdvd).tokenOf o < X.task.endTokens ∧
      ¬(X.task.seenTokens ≤ i * X.p.ntpb + X.p.tokenOf o ∧
        i * X.p.ntpb + X.p.tokenOf o < X.task.endTokens) := by
  have hntpb := X.p.ntpb_pos
  have hsmall : 0 < (X.seen hdvd).headDim := (X.seen hdvd).headDim_pos
  have hdim : X.p.headDim = X.H * (X.seen hdvd).headDim := (Nat.mul_div_cancel' hdvd).symm
  have hhalf : X.p.half = X.H * X.p.ntpb * (X.seen hdvd).headDim := (seen_half hlt hdvd).symm
  -- the first byte of token `s` of the code's head `j`
  have hfirst : ∀ j s, j < X.H → s < X.p.ntpb →
      (j * X.p.ntpb + s) * (X.seen hdvd).headDim < X.p.half ∧
      (X.seen hdvd).tokenOf ((j * X.p.ntpb + s) * (X.seen hdvd).headDim) = s ∧
      X.p.tokenOf ((j * X.p.ntpb + s) * (X.seen hdvd).headDim) = (j * X.p.ntpb + s) / X.H := by
    intro j s hj hs
    have hrow : j * X.p.ntpb + s < X.H * X.p.ntpb := Radix.digit_lt hj hs
    refine ⟨?_, ?_, ?_⟩
    · rw [hhalf]
      exact Nat.mul_lt_mul_of_pos_right hrow hsmall
    · rw [tokenOf, Nat.mul_div_cancel _ hsmall]
      exact Radix.mod_digit hs
    · rw [tokenOf, hdim, Nat.mul_div_mul_right _ _ hsmall, Nat.mod_eq_of_lt]
      exact Nat.div_lt_of_lt_mul hrow
  by_cases hstart : X.p.ntpb ∣ X.task.seenTokens
  · -- the range ends inside a block: the last token, in the last head
    have hend : X.task.endTokens % X.p.ntpb ≠ 0 := fun h =>
      hpart ⟨hstart, Nat.dvd_of_mod_eq_zero h⟩
    have hmod := Nat.mod_lt X.task.endTokens hntpb
    have hsum := Nat.div_add_mod' X.task.endTokens X.p.ntpb
    have hlen : X.task.endTokens = X.task.seenTokens + X.task.newTokens := rfl
    obtain ⟨ho, hcode, htrue⟩ := hfirst (X.H - 1) (X.task.endTokens % X.p.ntpb - 1) (by omega)
      (by omega)
    refine ⟨X.task.endTokens / X.p.ntpb, _, ho, by omega, by omega, fun hin => ?_⟩
    have hbeyond : X.task.endTokens % X.p.ntpb ≤
        ((X.H - 1) * X.p.ntpb + (X.task.endTokens % X.p.ntpb - 1)) / X.H := by
      rw [Nat.le_div_iff_mul_le X.H_pos]
      have hgap : (X.H - 1) * (X.task.endTokens % X.p.ntpb + 1) ≤ (X.H - 1) * X.p.ntpb :=
        Nat.mul_le_mul_left _ hmod
      have hsplit : X.task.endTokens % X.p.ntpb * X.H =
          X.task.endTokens % X.p.ntpb * (X.H - 1) + X.task.endTokens % X.p.ntpb := by
        rw [← Nat.mul_succ, Nat.succ_eq_add_one, Nat.sub_add_cancel X.H_pos]
      rw [mul_add, mul_one, mul_comm] at hgap
      omega
    omega
  · -- it starts inside one: the first token, in the first head
    have hmod := Nat.mod_lt X.task.seenTokens hntpb
    have hpos : X.task.seenTokens % X.p.ntpb ≠ 0 := fun h => hstart (Nat.dvd_of_mod_eq_zero h)
    have hsum := Nat.div_add_mod' X.task.seenTokens X.p.ntpb
    have hlen : X.task.endTokens = X.task.seenTokens + X.task.newTokens := rfl
    obtain ⟨ho, hcode, htrue⟩ := hfirst 0 (X.task.seenTokens % X.p.ntpb) X.H_pos hmod
    refine ⟨X.task.seenTokens / X.p.ntpb, _, ho, by omega, by omega, fun hin => ?_⟩
    have hbefore : (0 * X.p.ntpb + X.task.seenTokens % X.p.ntpb) / X.H
        < X.task.seenTokens % X.p.ntpb := by
      rw [zero_mul, zero_add]
      exact Nat.div_lt_self (Nat.pos_of_ne_zero hpos) hone
    omega

/-- A token of the range has its block in the table. -/
theorem lookup_dst (hx : x < X.dTp) {t : ℕ} (h1 : X.task.seenTokens ≤ t)
    (h2 : t < X.task.endTokens) : t / X.p.ntpb < X.dstTable.length :=
  ((X.dst_holds x hx).cache.block_at h1 h2).1

/-- …so part of a block is not copied exactly. -/
theorem blocks_of_exact (hx : x < X.dTp) (hr : X.Sender r x) (hdistinct : X.dstTable.Nodup)
    (hlt : X.H < X.pTp) (hone : 1 < X.H) (hnew : 0 < X.task.newTokens) (hdvd : X.H ∣ X.p.headDim)
    (hexact : X.Exact r x) : X.p.ntpb ∣ X.task.seenTokens ∧ X.p.ntpb ∣ X.task.endTokens := by
  by_contra hpart
  obtain ⟨i, o, ho, h1, h2, hnot⟩ := exists_misplaced hlt hone hnew hdvd hpart
  obtain ⟨recs, hparse, hiff⟩ := hexact
  obtain ⟨recs', hparse', hbytes⟩ := parse_of_geometry (g := X.seen hdvd) hx hr (heads_of_lt hlt).2 rfl
    (seen_row hlt hdvd)
  obtain rfl : recs' = recs := by
    rw [hparse] at hparse'
    exact (singleton_inj.mp (Except.ok.inj hparse')).symm
  have hmem : halfByte X.p.half X.groupN X.srcTable X.dstTable (X.groupOff r) i 0 o ∈ X.wanted r := by
    rw [← hiff, hbytes.mem_iff, mem_groupBytes, seen_half hlt hdvd]
    exact ⟨i, 0, o, two_pos, ho, h1, h2, rfl⟩
  obtain ⟨i', kv', o', hkv', ho', h1', h2', heq⟩ := mem_groupBytes.mp hmem
  have hpage : ∀ (g : HndGeometry) (i o : ℕ), g.ntpb = X.p.ntpb →
      (i * X.p.ntpb + g.tokenOf o) / X.p.ntpb = i := fun g i o hg => by
    rw [← hg]
    exact Radix.div_digit (Nat.mod_lt _ g.ntpb_pos)
  have hi := lookup_dst hx h1 h2
  have hi' := lookup_dst hx h1' h2'
  rw [hpage (X.seen hdvd) i o rfl] at hi
  rw [hpage X.p i' o' rfl] at hi'
  obtain ⟨rfl, -, rfl⟩ := halfByte_inj hdistinct (X.groupOff_lt r) hi hi' two_pos hkv' ho ho' heq
  exact hnot ⟨h1', h2'⟩

/-! ## A wrong count that does not -/

/-- The heads the code sees are smaller than the row: some byte is left out. -/
theorem dvd_of_exact (hx : x < X.dTp) (hr : X.Sender r x) (hdistinct : X.dstTable.Nodup)
    (hlt : X.H < X.pTp) (hnew : 0 < X.task.newTokens) (hexact : X.Exact r x) :
    X.H ∣ X.p.headDim := by
  obtain ⟨recs, hparse, hiff⟩ := hexact
  obtain ⟨hheads, hcode⟩ := heads_of_lt hlt
  rw [parse_eq hx hr] at hparse
  obtain ⟨out, hout, hret⟩ := bind_eq_ok.mp hparse
  obtain rfl : out = recs := singleton_inj.mp (Except.ok.inj hret)
  have hcount := length_parseFlashinferHNDBlock X.release X.p.ntpb_pos (hcode ▸ X.H_pos)
    X.codeHeads_lt hout
  have hnodup : (X.wanted r).Nodup := nodup_groupBytes hdistinct (X.groupOff_lt r) fun t h1 h2 =>
    lookup_dst hx h1 h2
  have hle : (X.wanted r).length ≤ (out.flatMap IpcBlock.bytes).length :=
    (subperm_of_subset hnodup fun byte hbyte => (hiff byte).mpr hbyte).length_le
  have hhalf : X.p.tokenSize / 2 = X.p.headDim := by
    rw [tokenSize, hheads, one_mul, Nat.mul_div_cancel_left _ two_pos]
  rw [hcount, wanted, length_groupBytes, hheads, hhalf, hcode, one_mul] at hle
  by_contra hdvd
  have hless := Nat.mul_div_lt_iff_not_dvd.mpr hdvd
  have hrow := Nat.le_of_mul_le_mul_left hle hnew
  omega

end FlashinferTransfer

/-- **FLASHINFER copies the right tokens when its head count does no harm, and only then.**  A sender
whose head count is that of its rank, or whose range fills whole blocks of heads the count divides,
makes exactly the copies asked of it; with distinct destination blocks no other sender does. -/
theorem flashinferExact (X : FlashinferTransfer) {r x : ℕ} (hx : x < X.dTp) (hr : X.Sender r x) :
    (X.Harmless → X.Exact r x) ∧ (X.dstTable.Nodup → X.Exact r x → X.Harmless) := by
  constructor
  · rintro (hnew | hle | hone | ⟨hdvd, hfirst, hlast⟩)
    · exact FlashinferTransfer.exact_of_empty hx hr hnew
    · exact FlashinferTransfer.exact_of_heads hx hr (FlashinferTransfer.heads_of_le hle)
    · by_cases hlt : X.H < X.pTp
      · obtain ⟨hheads, hcode⟩ := FlashinferTransfer.heads_of_lt hlt
        exact FlashinferTransfer.exact_of_heads hx hr (hheads.trans (hcode.trans hone).symm)
      · exact FlashinferTransfer.exact_of_heads hx hr (FlashinferTransfer.heads_of_le (by omega))
    · by_cases hlt : X.H < X.pTp
      · exact FlashinferTransfer.exact_of_blocks hx hr hlt hdvd hfirst hlast
      · exact FlashinferTransfer.exact_of_heads hx hr (FlashinferTransfer.heads_of_le (by omega))
  · intro hdistinct hexact
    by_contra hnot
    simp only [FlashinferTransfer.Harmless, not_or] at hnot
    obtain ⟨hnew, hle, hone, hpart⟩ := hnot
    have hpos := X.H_pos
    have hlt : X.H < X.pTp := by omega
    have hdvd := FlashinferTransfer.dvd_of_exact hx hr hdistinct hlt (by omega) hexact
    exact hpart ⟨hdvd, FlashinferTransfer.blocks_of_exact hx hr hdistinct hlt (by omega) (by omega)
      hdvd hexact⟩

/-- A P rank of four, with two tokens of two bytes in each half of a page. -/
def sectionReplica (H : ℤ) (r : ℕ) : WorkerInfo :=
  { engineTpSize := 4, workerTpRank := r, tokenSizes := [4], blockSizes := [8], numKvHeads := H }

/-- A D rank of two with the same pages. -/
def sectionTarget (x : ℕ) : WorkerInfo :=
  { engineTpSize := 2, workerTpRank := x, tokenSizes := [4], blockSizes := [8] }

theorem inCache_two {w : WorkerInfo} {new : ℕ} (hn : w.layerNumBlocks = 1) (hlt : 0 + new < 2 ^ 32)
    (hnew : new ≤ 2) : InCache w 8 2 [0] ⟨⟨0, "req", [[0]], [[0]]⟩, 0, new, false, hlt⟩ := by
  refine ⟨by rw [hn]; decide, by omega, fun t _ ht => ⟨0, ?_, by omega⟩⟩
  have hend : t < 0 + new := ht
  rw [Nat.div_eq_of_lt (by omega)]
  rfl

/-- Four P ranks and two D ranks, two replicated heads: a block of two tokens. -/
def wholeBlock : FlashinferTransfer where
  env := { cacheShape := .flashinfer }
  dInst := ⟨"d", 0, 2, Nat.two_pos⟩
  pTp := 4
  H := 2
  validRanks := 5
  p := ⟨1, 2, 2, Nat.one_pos, Nat.two_pos, Nat.two_pos⟩
  task := .first ⟨0, "req", [[0]], [[0]]⟩ 2 false
  srcTable := [0]
  dstTable := [0]
  srcInfo := sectionReplica 2
  dstInfo := sectionTarget
  release := rfl
  fp8_off := rfl
  shape := rfl
  pTp_pos := four_pos
  H_pos := Nat.two_pos
  H_lt := twoOnFour.heads_lt
  accepted := by decide
  dTp_dvd := by decide
  dTp_le := by decide
  p_heads _ := rfl
  ntpb_lt := by decide
  srcBlocks := rfl
  dstBlocks := rfl
  src_holds _ _ := ⟨⟨rfl, rfl, rfl, rfl, inCache_two rfl (by decide) le_rfl⟩, rfl⟩
  dst_holds _ _ := ⟨rfl, rfl, rfl, rfl, inCache_two rfl (by decide) le_rfl⟩

/-- The whole block arrives. -/
theorem wholeBlock_exact : wholeBlock.Exact 2 1 :=
  (flashinferExact wholeBlock (by decide) ⟨by decide, .inl (by decide)⟩).1
    (.inr (.inr (.inr ⟨by decide, by decide, by decide⟩)))

/-- **One token of it does not.**  Its K row is bytes 0 and 1; the code takes two heads of one byte and
copies bytes 0 and 2, the second of which is of the other token. -/
theorem halfBlock_misplaced :
    heldHeads 4 2 2 = [1] ∧
    boundParse { cacheShape := .flashinfer } (sectionReplica 2 2) (sectionTarget 1)
      ⟨⟨0, "req", [[0]], [[0]]⟩, 0, 1, false, by decide⟩ =
        .ok [[⟨0, 0, 1⟩, ⟨4, 4, 1⟩, ⟨2, 2, 1⟩, ⟨6, 6, 1⟩]] := by
  exact ⟨by decide, rfl⟩

end LlumnixKv
