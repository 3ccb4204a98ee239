import LlumnixKv.Parse.HeadSplit
import LlumnixKv.Parse.Memory

/-!
# Parse/EqualRows — both sides hold the same rows

    P block   [ row | row | row | row ]
                    └── tokens ──┘             one record for each block the range meets
    D block   [ row | row | row | row ]

Where P and D have rows of one size, a run of tokens is one record.  Byte by byte the runs do not show:
the loop copies the row of each token of the range to the row of the same token, and it succeeds as
soon as the blocks of the range are inside both caches (`doParseBlockSendPEqD_spec`).  RAGGED_FLASH runs
it on one tensor, DPSK_V32 on each of its tensors.
-/

open List Machinery

namespace LlumnixKv

/-! ## The loop -/

/-- The record of `tokens` rows from token `t` on. -/
def rowsRecord (srcTable dstTable : List ℕ) (ntpb tokenSize tokens t : ℕ) : IpcBlock :=
  ⟨tokenOffset srcTable ntpb tokenSize t, tokenOffset dstTable ntpb tokenSize t, tokens * tokenSize⟩

/-- The blocks of the task's range are in the table, and lie in the first `bufEnd` bytes. -/
def BlocksIn (table : List ℕ) (ntpb blockSize bufEnd : ℕ) (task : ReqSendTask) : Prop :=
  ∀ t, task.seenTokens ≤ t → t < task.endTokens →
    t / ntpb < table.length ∧ (table.getD (t / ntpb) 0 + 1) * blockSize ≤ bufEnd

variable {table : List ℕ}

section Loop

variable {env : EnvCfg} {task : ReqSendTask} {b : IpcBlockBounds} {srcTable dstTable : List ℕ}
  {ntpb ts srcEnd dstEnd : ℕ}

/-- Rows of one block stay in it. -/
theorem tokenOffset_add_le {bufEnd t n : ℕ} (hntpb : 0 < ntpb)
    (h : (table.getD (t / ntpb) 0 + 1) * (ntpb * ts) ≤ bufEnd) (hn : n ≤ ntpb - t % ntpb) :
    tokenOffset table ntpb ts t + n * ts ≤ bufEnd := by
  have hmod := Nat.mod_lt t hntpb
  calc tokenOffset table ntpb ts t + n * ts
      = (table.getD (t / ntpb) 0 * ntpb + (t % ntpb + n)) * ts := by rw [tokenOffset]; ring
    _ ≤ (table.getD (t / ntpb) 0 * ntpb + ntpb) * ts :=
        Nat.mul_le_mul_right _ (Nat.add_le_add_left (by omega) _)
    _ = (table.getD (t / ntpb) 0 + 1) * (ntpb * ts) := by ring
    _ ≤ bufEnd := h

theorem tokenOffset_add {t i : ℕ} (hi : i < ntpb - t % ntpb) :
    tokenOffset table ntpb ts (t + i) = tokenOffset table ntpb ts t + i * ts := by
  obtain ⟨hdiv, hmod⟩ := divMod_add_of_lt hi
  rw [tokenOffset, tokenOffset, hdiv, hmod]
  ring

/-- A run copies its rows one by one. -/
theorem bytes_rowsRecord {tokens t : ℕ} (h : tokens ≤ ntpb - t % ntpb) :
    (rowsRecord srcTable dstTable ntpb ts tokens t).bytes =
      (List.range' t tokens).flatMap fun u => (rowsRecord srcTable dstTable ntpb ts 1 u).bytes := by
  rw [rowsRecord, IpcBlock.bytes_mul, range'_eq_map_range, flatMap_map]
  refine flatMap_congr fun i hi => ?_
  have hi := mem_range.mp hi
  rw [rowsRecord, tokenOffset_add (by omega), tokenOffset_add (by omega), one_mul]

/-- One round of the loop: the rows left in a block. -/
def equalRound (env : EnvCfg) (srcTable dstTable : List ℕ) (ntpb ts : ℕ) (b : IpcBlockBounds)
    (wrote tokens : ℕ) : Except Fault (List IpcBlock) := do
  cassert env.ndebug (wrote / ntpb < srcTable.length)
  let srcBlock ← vecAt srcTable (wrote / ntpb)
  cassert env.ndebug (wrote / ntpb < dstTable.length)
  let dstBlock ← vecAt dstTable (wrote / ntpb)
  appendIpcBlockChecked b (srcBlock * (ntpb * ts) + wrote % ntpb * ts)
    (dstBlock * (ntpb * ts) + wrote % ntpb * ts) (tokens * ts)

theorem equalRound_eq {t tokens : ℕ} (hsrc : t / ntpb < srcTable.length)
    (hdst : t / ntpb < dstTable.length) :
    equalRound env srcTable dstTable ntpb ts b t tokens =
      appendIpcBlockChecked b (tokenOffset srcTable ntpb ts t) (tokenOffset dstTable ntpb ts t)
        (tokens * ts) := by
  have hoff : ∀ x, x * (ntpb * ts) + t % ntpb * ts = (x * ntpb + t % ntpb) * ts := fun x => by ring
  rw [equalRound, cassert_of hsrc, ok_bind, vecAt_of_lt hsrc, ok_bind, cassert_of hdst, ok_bind,
    vecAt_of_lt hdst, ok_bind, hoff, hoff]
  rfl

/-- The checks before the loop pass. -/
theorem doParseBlockSendPEqD_eq (hts : 0 < ts) (hntpb : 0 < ntpb) (hlt : ntpb < 2 ^ 32)
    (hsrcT : task.req.srcBlocks[0]? = some srcTable)
    (hdstT : task.req.dstBlocks[0]? = some dstTable) :
    doParseBlockSendPEqD env (ntpb * ts) ts task b =
      walk (toBoundary ntpb) (equalRound env srcTable dstTable ntpb ts b) task.newTokens
        task.seenTokens task.newTokens := by
  have hquot : u32 (ntpb * ts / ts) = ntpb := by rw [Nat.mul_div_cancel _ hts, u32_of_lt hlt]
  simp only [doParseBlockSendPEqD, checkedDiv_of_pos hts, hquot, cassert_of trivial,
    vecIdx_of_some hsrcT, vecIdx_of_some hdstT, checkedDiv_of_pos hntpb, ok_bind]
  rfl

/-- **The loop copies the row of each token of the range**, and stays inside the buffers. -/
theorem doParseBlockSendPEqD_spec (env : EnvCfg) (hts : 0 < ts) (hntpb : 0 < ntpb) (hlt : ntpb < 2 ^ 32)
    (hsrcT : task.req.srcBlocks[0]? = some srcTable) (hdstT : task.req.dstBlocks[0]? = some dstTable)
    (hb : b.Admits srcEnd dstEnd) (hsrc : BlocksIn srcTable ntpb (ntpb * ts) srcEnd task)
    (hdst : BlocksIn dstTable ntpb (ntpb * ts) dstEnd task) :
    ∃ out, doParseBlockSendPEqD env (ntpb * ts) ts task b = .ok out ∧
      (∀ rec ∈ out, IpcBlock.Within srcEnd dstEnd rec) ∧
      (out.flatMap IpcBlock.bytes).Perm ((List.range' task.seenTokens task.newTokens).flatMap
        fun t => (rowsRecord srcTable dstTable ntpb ts 1 t).bytes) := by
  have hadv := advances_toBoundary hntpb
  rw [doParseBlockSendPEqD_eq hts hntpb hlt hsrcT hdstT]
  have hblocks : ∀ p l, task.seenTokens ≤ p → 0 < l → p + l = task.seenTokens + task.newTokens →
      p < task.endTokens := fun p l _ hl he => by
    rw [ReqSendTask.endTokens]
    omega
  obtain ⟨out, hout, hwithin⟩ : Yields (IpcBlock.Within srcEnd dstEnd)
      (walk (toBoundary ntpb) (equalRound env srcTable dstTable ntpb ts b) task.newTokens
        task.seenTokens task.newTokens) := yields_walk hadv fun p l hp hl he => by
    obtain ⟨hlook, hin⟩ := hsrc p hp (hblocks p l hp hl he)
    obtain ⟨hlook', hin'⟩ := hdst p hp (hblocks p l hp hl he)
    have hfits : toBoundary ntpb p l ≤ ntpb - p % ntpb := min_le_left _ _
    rw [equalRound_eq hlook hlook']
    exact hb.yields ⟨mul_pos (hadv p l hl).1 hts, tokenOffset_add_le hntpb hin hfits,
      tokenOffset_add_le hntpb hin' hfits⟩
  refine ⟨out, hout, hwithin, walk_flatMap_perm hadv le_rfl (fun p l x hp hl he hx => ?_) hout⟩
  rw [equalRound_eq (hsrc p hp (hblocks p l hp hl he)).1 (hdst p hp (hblocks p l hp hl he)).1] at hx
  obtain ⟨-, rfl⟩ := appendIpcBlockChecked_eq_ok.mp hx
  have hfits : toBoundary ntpb p l ≤ ntpb - p % ntpb := min_le_left _ _
  rw [← bytes_rowsRecord hfits, flatMap_singleton]
  exact List.Perm.refl _

end Loop

/-! ## Tensors -/

/-- A cache tensor whose blocks have `ntpb` rows of `tokenSize` bytes. -/
structure RowTensor where
  ntpb : ℕ
  tokenSize : ℕ
  ntpb_pos : 0 < ntpb
  ntpb_lt : ntpb < 2 ^ 32
  tokenSize_pos : 0 < tokenSize

def RowTensor.blockSize (T : RowTensor) : ℕ := T.ntpb * T.tokenSize

/-- A worker registered these tensors, and the blocks of the range are among them. -/
structure HoldsRows (w : WorkerInfo) (tensors : List RowTensor) (table : List ℕ)
    (task : ReqSendTask) : Prop where
  tokenSizes : w.tokenSizes = tensors.map RowTensor.tokenSize
  blockSizes : w.blockSizes = tensors.map RowTensor.blockSize
  layerNumBlocks_pos : 0 < w.layerNumBlocks
  capacity : ∀ T ∈ tensors, T.blockSize * w.layerNumBlocks ≤ sizeMax
  covered : ∀ T ∈ tensors, ∀ t, task.seenTokens ≤ t → t < task.endTokens →
    ∃ id, table[t / T.ntpb]? = some id ∧ id < w.layerNumBlocks

/-- The two sides of a task hold the same rows. -/
structure EqualPair (src dst : WorkerInfo) (tensors : List RowTensor) (srcTable dstTable : List ℕ)
    (task : ReqSendTask) : Prop where
  srcBlocks : task.req.srcBlocks[0]? = some srcTable
  dstBlocks : task.req.dstBlocks[0]? = some dstTable
  src_holds : HoldsRows src tensors srcTable task
  dst_holds : HoldsRows dst tensors dstTable task

/-- What is sent of a tensor: the rows of the range, from inside P's tensor to inside D's. -/
structure RowsSent (src dst : WorkerInfo) (srcTable dstTable : List ℕ) (task : ReqSendTask)
    (T : RowTensor) (recs : List IpcBlock) : Prop where
  within : ∀ rec ∈ recs, IpcBlock.Within (T.blockSize * src.layerNumBlocks)
    (T.blockSize * dst.layerNumBlocks) rec
  bytes : (recs.flatMap IpcBlock.bytes).Perm ((List.range' task.seenTokens task.newTokens).flatMap
    fun t => (rowsRecord srcTable dstTable T.ntpb T.tokenSize 1 t).bytes)

section Tensors

variable {env : EnvCfg} {src dst : WorkerInfo} {tensors : List RowTensor} {srcTable dstTable : List ℕ}
  {task : ReqSendTask} {T : RowTensor}

theorem HoldsRows.blocksIn {w : WorkerInfo} {table : List ℕ} (h : HoldsRows w tensors table task)
    (hT : T ∈ tensors) : BlocksIn table T.ntpb T.blockSize (T.blockSize * w.layerNumBlocks) task :=
  fun t h1 h2 => by
    obtain ⟨id, hid, hlt⟩ := h.covered T hT t h1 h2
    obtain ⟨hlook, rfl⟩ := getD_of_some hid
    refine ⟨hlook, ?_⟩
    rw [mul_comm T.blockSize]
    exact Nat.mul_le_mul_right _ hlt

/-- **A tensor both sides hold is sent.** -/
theorem EqualPair.sends (h : EqualPair src dst tensors srcTable dstTable task)
    (hfp8 : env.bf162fp8Conversion = false) {i : ℕ} (hi : tensors[i]? = some T) :
    ∃ bounds recs, makeIpcBlockBounds env src dst i = .ok bounds ∧
      doParseBlockSendPEqD env T.blockSize T.tokenSize task bounds = .ok recs ∧
      RowsSent src dst srcTable dstTable task T recs := by
  have hT := mem_of_getElem? hi
  have hsize : ∀ {w : WorkerInfo} {table : List ℕ}, HoldsRows w tensors table task →
      w.blockSizes[i]? = some T.blockSize := fun hw => by
    rw [hw.blockSizes, getElem?_map, hi, Option.map_some]
  obtain ⟨bounds, hbounds, hadmits⟩ := exists_makeIpcBlockBounds hfp8 (hsize h.src_holds)
    (hsize h.dst_holds) h.src_holds.layerNumBlocks_pos h.dst_holds.layerNumBlocks_pos
    (h.src_holds.capacity T hT) (h.dst_holds.capacity T hT)
  obtain ⟨recs, hrecs, hwithin, hbytes⟩ := doParseBlockSendPEqD_spec env T.tokenSize_pos
    T.ntpb_pos T.ntpb_lt h.srcBlocks h.dstBlocks hadmits (h.src_holds.blocksIn hT)
    (h.dst_holds.blocksIn hT)
  exact ⟨bounds, recs, hbounds, hrecs, hwithin, hbytes⟩

/-- **The many-tensor loop sends every tensor.** -/
theorem EqualPair.sendEqualTensors (h : EqualPair src dst tensors srcTable dstTable task)
    (hfp8 : env.bf162fp8Conversion = false) :
    ∃ out, sendEqualTensors env src dst task = .ok out ∧
      List.Forall₂ (RowsSent src dst srcTable dstTable task) tensors out := by
  have hlen : src.tokenSizes.length = tensors.length := by
    rw [h.src_holds.tokenSizes, length_map]
  rw [LlumnixKv.sendEqualTensors, hlen, range_eq_range']
  refine emitAll_singletons fun i T hi => ?_
  obtain ⟨bounds, recs, hbounds, hrecs, hsent⟩ := h.sends hfp8 hi
  have htoken : vecAt src.tokenSizes i = .ok T.tokenSize := by
    rw [vecAt_eq_ok, h.src_holds.tokenSizes, getElem?_map, hi, Option.map_some]
  have hblock : vecAt src.blockSizes i = .ok T.blockSize := by
    rw [vecAt_eq_ok, h.src_holds.blockSizes, getElem?_map, hi, Option.map_some]
  refine ⟨recs, ?_, hsent⟩
  rw [zero_add, hbounds, ok_bind, hblock, ok_bind, htoken, ok_bind, hrecs]
  rfl

/-- There are records exactly when there are tokens. -/
theorem RowsSent.ne_nil_iff {recs : List IpcBlock}
    (h : RowsSent src dst srcTable dstTable task T recs) : recs ≠ [] ↔ 0 < task.newTokens := by
  constructor
  · intro hne
    obtain ⟨rec, hrec⟩ := exists_mem_of_ne_nil recs hne
    have hbyte := IpcBlock.first_mem_bytes (h.within rec hrec).len_pos
    obtain ⟨t, ht, -⟩ := mem_flatMap.mp
      (h.bytes.mem_iff.mp (mem_flatMap.mpr ⟨rec, hrec, hbyte⟩))
    have := mem_range'_1.mp ht
    omega
  · rintro hnew rfl
    have hfirst : task.seenTokens ∈ List.range' task.seenTokens task.newTokens :=
      mem_range'_1.mpr (by omega)
    have hrow : 0 < (rowsRecord srcTable dstTable T.ntpb T.tokenSize 1 task.seenTokens).length := by
      rw [rowsRecord, one_mul]
      exact T.tokenSize_pos
    have hbyte := h.bytes.mem_iff.mpr
      (mem_flatMap.mpr ⟨_, hfirst, IpcBlock.first_mem_bytes hrow⟩)
    cases hbyte

/-- …and so for several tensors. -/
theorem flatten_ne_nil_iff {out : List (List IpcBlock)}
    (h : List.Forall₂ (RowsSent src dst srcTable dstTable task) tensors out) (hne : tensors ≠ []) :
    out.flatten ≠ [] ↔ 0 < task.newTokens := by
  induction h with
  | nil => exact absurd rfl hne
  | @cons T recs tensors out hT hrest ih =>
    rw [flatten_cons, Ne, append_eq_nil_iff, not_and_or, ← Ne, hT.ne_nil_iff]
    rcases tensors with - | ⟨T', tensors⟩
    · cases hrest
      simp
    · exact or_iff_left_of_imp (ih (cons_ne_nil _ _)).mp

/-! ## The functions -/

/-- The lists that are the same on both sides pass their assertions. -/
theorem EqualPair.sizes (h : EqualPair src dst tensors srcTable dstTable task) :
    src.tokenSizes = dst.tokenSizes ∧ src.blockSizes = dst.blockSizes ∧
      src.tokenSizes.length = src.blockSizes.length := by
  rw [h.src_holds.tokenSizes, h.dst_holds.tokenSizes, h.src_holds.blockSizes,
    h.dst_holds.blockSizes, length_map, length_map]
  exact ⟨rfl, rfl, rfl⟩

theorem vecIdx_singleton (v : ℕ) : vecIdx [v] 0 = .ok v := rfl

variable (hfp8 : env.bf162fp8Conversion = false)
include hfp8

/-- **RAGGED_FLASH, P = D.** -/
theorem EqualPair.parseBlockSendPEqD (h : EqualPair src dst [T] srcTable dstTable task)
    (validRanks : BitVec maxTpSize) {kvtTpSize : ℕ} (kvtTpRank : ℕ) (hentry : env.ndebug = true ∨
      (kvtTpSize = dst.engineTpSize ∧ src.workerTpRank = dst.workerTpRank)) :
    ∃ recs, parseBlockSendPEqD env src dst validRanks kvtTpSize kvtTpRank task = .ok [recs] ∧
      RowsSent src dst srcTable dstTable task T recs := by
  obtain ⟨bounds, recs, hbounds, hrecs, hsent⟩ := h.sends hfp8 (i := 0) rfl
  have hone : src.tokenSizes = [T.tokenSize] ∧ src.blockSizes = [T.blockSize] :=
    ⟨h.src_holds.tokenSizes, h.src_holds.blockSizes⟩
  have hone' : dst.tokenSizes = [T.tokenSize] ∧ dst.blockSizes = [T.blockSize] :=
    ⟨h.dst_holds.tokenSizes, h.dst_holds.blockSizes⟩
  have htp : cassert env.ndebug (kvtTpSize = dst.engineTpSize) = .ok () :=
    cassert_eq_ok.mpr (hentry.imp_right And.left)
  have hrank : cassert env.ndebug (src.workerTpRank = dst.workerTpRank) = .ok () :=
    cassert_eq_ok.mpr (hentry.imp_right And.right)
  refine ⟨recs, ?_, hsent⟩
  simp only [LlumnixKv.parseBlockSendPEqD, htp, hrank, hone.1, hone.2, hone'.1, hone'.2,
    length_singleton, cassert_of trivial, hbounds, ok_bind, vecIdx_singleton, hrecs]
  rfl

/-- **RAGGED_FLASH, P > D, replicated rows**: rank 0 sends. -/
theorem EqualPair.parseBlockSendPGtDDpsk (h : EqualPair src dst [T] srcTable dstTable task)
    (validRanks : BitVec maxTpSize) (kvtTpSize kvtTpRank : ℕ) (hfirst : src.workerTpRank = 0)
    (hentry : env.ndebug = true ∨ dst.workerTpRank = 0) :
    ∃ recs, parseBlockSendPGtDDpsk env src dst validRanks kvtTpSize kvtTpRank task = .ok [recs] ∧
      RowsSent src dst srcTable dstTable task T recs := by
  obtain ⟨bounds, recs, hbounds, hrecs, hsent⟩ := h.sends hfp8 (i := 0) rfl
  have hone : src.tokenSizes = [T.tokenSize] ∧ src.blockSizes = [T.blockSize] :=
    ⟨h.src_holds.tokenSizes, h.src_holds.blockSizes⟩
  have hone' : dst.tokenSizes = [T.tokenSize] ∧ dst.blockSizes = [T.blockSize] :=
    ⟨h.dst_holds.tokenSizes, h.dst_holds.blockSizes⟩
  have hrank : cassert env.ndebug (dst.workerTpRank = 0) = .ok () := cassert_eq_ok.mpr hentry
  refine ⟨recs, ?_, hsent⟩
  simp only [LlumnixKv.parseBlockSendPGtDDpsk, hfirst, hrank, hone.1, hone.2, hone'.1, hone'.2,
    length_singleton, cassert_of trivial, ne_eq, not_true_eq_false, if_false, hbounds, ok_bind,
    vecIdx_singleton, hrecs]
  rfl

/-- **DPSK_V32, P = D**: a valid rank sends. -/
theorem EqualPair.vllmParseBlockSendMultiTensorPEqD
    (h : EqualPair src dst tensors srcTable dstTable task) {validRanks : BitVec maxTpSize}
    {kvtTpSize kvtTpRank : ℕ} (hvalid : validRanks.getLsbD src.workerTpRank = true)
    (hentry : env.ndebug = true ∨ (kvtTpSize = dst.engineTpSize ∧ kvtTpRank = dst.workerTpRank)) :
    ∃ out, vllmParseBlockSendMultiTensorPEqD env src dst validRanks kvtTpSize kvtTpRank task
        = .ok out ∧ List.Forall₂ (RowsSent src dst srcTable dstTable task) tensors out := by
  obtain ⟨out, hout, hsent⟩ := h.sendEqualTensors hfp8
  obtain ⟨htokens, hblocks, hlen⟩ := h.sizes
  have hlen' : dst.tokenSizes.length = dst.blockSizes.length := by rw [← htokens, ← hblocks, hlen]
  have htp : cassert env.ndebug (kvtTpSize = dst.engineTpSize) = .ok () :=
    cassert_eq_ok.mpr (hentry.imp_right And.left)
  have hrank : cassert env.ndebug (kvtTpRank = dst.workerTpRank) = .ok () :=
    cassert_eq_ok.mpr (hentry.imp_right And.right)
  refine ⟨out, ?_, hsent⟩
  rw [LlumnixKv.vllmParseBlockSendMultiTensorPEqD, if_neg (by rw [hvalid]; decide),
    htp, ok_bind, hrank, ok_bind, cassert_of htokens, ok_bind, cassert_of hblocks, ok_bind,
    cassert_of hlen, ok_bind, cassert_of hlen', ok_bind]
  exact hout

/-- **DPSK_V32, P > D, replicated rows**: rank 0 sends. -/
theorem EqualPair.vllmParseBlockSendMultiTensorPGtD
    (h : EqualPair src dst tensors srcTable dstTable task) (validRanks : BitVec maxTpSize)
    (kvtTpSize kvtTpRank : ℕ) (hfirst : src.workerTpRank = 0)
    (hentry : env.ndebug = true ∨ dst.workerTpRank = 0) :
    ∃ out, vllmParseBlockSendMultiTensorPGtD env src dst validRanks kvtTpSize kvtTpRank task
        = .ok out ∧ List.Forall₂ (RowsSent src dst srcTable dstTable task) tensors out := by
  obtain ⟨out, hout, hsent⟩ := h.sendEqualTensors hfp8
  obtain ⟨htokens, hblocks, hlen⟩ := h.sizes
  have hrank : cassert env.ndebug (dst.workerTpRank = 0) = .ok () := cassert_eq_ok.mpr hentry
  refine ⟨out, ?_, hsent⟩
  rw [LlumnixKv.vllmParseBlockSendMultiTensorPGtD, if_pos htokens, if_neg (not_not_intro hfirst),
    hrank, ok_bind, cassert_of hblocks, ok_bind, cassert_of hlen, ok_bind]
  exact hout

end Tensors

end LlumnixKv
