import LlumnixKv.Parse.EqualRows
import LlumnixKv.Parse.Flash

/-!
# Parse/InBounds — rows that stay inside their tensors

    narrow   [ K slice | V slice ]                        one record for each slice
                   ╲         ╲
    wide     [ … K slice … | … V slice … ]                `n` slices to a half row

`append_ipc_block_checked` throws when a record leaves either tensor.  For RAGGED_FLASH, DPSK_V32 and
FLASH the check never fires: the offsets the loops add up stay below `block_size · layer_num_blocks`
as soon as the blocks of the range are blocks of the tensors.
-/

open List Machinery

namespace LlumnixKv

/-! ## Capacities -/

/-- Every record lies inside both layers of its list: `block_size * layer_num_blocks` bytes each. -/
def InCapacities (src dst : WorkerInfo) (out : List (List IpcBlock)) : Prop :=
  ∀ (i : ℕ) (recs : List IpcBlock), out[i]? = some recs → ∀ rec ∈ recs, ∃ srcSize dstSize,
    src.blockSizes[i]? = some srcSize ∧ dst.blockSizes[i]? = some dstSize ∧
    IpcBlock.Within (srcSize * src.layerNumBlocks) (dstSize * dst.layerNumBlocks) rec

/-- The records of a tensor lie inside it. -/
def InTensors {α : Type*} (src dst : WorkerInfo) (srcSize dstSize : α → ℕ) (T : α)
    (recs : List IpcBlock) : Prop :=
  ∀ rec ∈ recs, IpcBlock.Within (srcSize T * src.layerNumBlocks) (dstSize T * dst.layerNumBlocks) rec

variable {recs : List IpcBlock}

section Capacities

variable {src dst : WorkerInfo} {out : List (List IpcBlock)}

theorem inCapacities_nil : InCapacities src dst [] := fun _ _ h => nomatch h

/-- One list for each tensor. -/
theorem inCapacities_of_forall₂ {α : Type*} (tensors : List α) (srcSize dstSize : α → ℕ)
    (hsrc : src.blockSizes = tensors.map srcSize) (hdst : dst.blockSizes = tensors.map dstSize)
    (h : List.Forall₂ (InTensors src dst srcSize dstSize) tensors out) : InCapacities src dst out := by
  intro i recs hi rec hrec
  obtain ⟨hlt, rfl⟩ := List.getElem?_eq_some_iff.mp hi
  have hlt' : i < tensors.length := h.length_eq ▸ hlt
  have hT : tensors[i]? = some tensors[i] := getElem?_eq_getElem hlt'
  refine ⟨srcSize tensors[i], dstSize tensors[i], ?_, ?_, h.get hlt' hlt rec hrec⟩
  · rw [hsrc, getElem?_map, hT, Option.map_some]
  · rw [hdst, getElem?_map, hT, Option.map_some]

/-- …and one list for the one tensor. -/
theorem inCapacities_singleton {srcSize dstSize : ℕ}
    (hsrc : src.blockSizes = [srcSize]) (hdst : dst.blockSizes = [dstSize])
    (h : ∀ rec ∈ recs, IpcBlock.Within (srcSize * src.layerNumBlocks)
      (dstSize * dst.layerNumBlocks) rec) : InCapacities src dst [recs] :=
  inCapacities_of_forall₂ [()] (fun _ => srcSize) (fun _ => dstSize) hsrc hdst (.cons h .nil)

end Capacities

/-! ## Rows of one size -/

variable {out : List (List IpcBlock)} {b : IpcBlockBounds}

/-- **What the row-copy functions send is inside the tensors.** -/
theorem EqualPair.inCapacities {src dst : WorkerInfo} {tensors : List RowTensor}
    {srcTable dstTable : List ℕ} {task : ReqSendTask}
    (h : EqualPair src dst tensors srcTable dstTable task)
    (hout : List.Forall₂ (RowsSent src dst srcTable dstTable task) tensors out) :
    InCapacities src dst out :=
  inCapacities_of_forall₂ tensors _ _ h.src_holds.blockSizes h.dst_holds.blockSizes
    (hout.imp fun _ _ hT => hT.within)

/-! ## Rows in slices -/

/-- A tensor one side holds in slices: `kSize` bytes of the K row of each token, and as many of V. -/
structure SlicedTensor where
  ntpb : ℕ
  kSize : ℕ
  ntpb_pos : 0 < ntpb
  ntpb_lt : ntpb < 2 ^ 32
  kSize_pos : 0 < kSize

/-- The slices. -/
def SlicedTensor.narrow (T : SlicedTensor) : RowTensor :=
  ⟨T.ntpb, 2 * T.kSize, T.ntpb_pos, T.ntpb_lt, mul_pos two_pos T.kSize_pos⟩

/-- The rows they are slices of. -/
def SlicedTensor.wide (n : ℕ) (hn : 1 < n) (T : SlicedTensor) : RowTensor :=
  ⟨T.ntpb, 2 * T.kSize * n, T.ntpb_pos, T.ntpb_lt,
    mul_pos (mul_pos two_pos T.kSize_pos) (Nat.zero_lt_of_lt hn)⟩

/-- The two sides of a task whose TP sizes are `d · n` and `d`: the first holds one slice in `n` of the
rows of the second. -/
structure SplitPair (narrow wide : WorkerInfo) (tensors : List SlicedTensor) (n : ℕ) (hn : 1 < n)
    (narrowTable wideTable : List ℕ) (task : ReqSendTask) : Prop where
  narrow_holds : HoldsRows narrow (tensors.map SlicedTensor.narrow) narrowTable task
  wide_holds : HoldsRows wide (tensors.map (SlicedTensor.wide n hn)) wideTable task

section Split

variable {env : EnvCfg} {narrow wide : WorkerInfo} {tensors : List SlicedTensor} {n : ℕ} {hn : 1 < n}
  {narrowTable wideTable : List ℕ} {task : ReqSendTask} {T : SlicedTensor} {d : ℕ}

/-- The source of a record, the first side unless `swap_offsets` is set; the destination is
`turnTo swap wide narrow`. -/
def turnTo {α : Type*} (swap : Bool) (narrow wide : α) : α := if swap then wide else narrow

/-- A slice of `k` bytes at `off`, from or to a narrow row that starts a slice of its own. -/
theorem gtRecord_within {pTok k dTok ntpb off t : ℕ} (swap : Bool) {narrowEnd wideEnd : ℕ}
    (hk : 0 < k) (hnarrow : tokenOffset narrowTable ntpb pTok t + k ≤ narrowEnd)
    (hwide : tokenOffset wideTable ntpb dTok t + off * k + k ≤ wideEnd) :
    IpcBlock.Within (turnTo swap narrowEnd wideEnd) (turnTo swap wideEnd narrowEnd)
      (gtRecord pTok k dTok ntpb off narrowTable wideTable swap t) := by
  cases swap with
  | false => exact ⟨hk, hnarrow, hwide⟩
  | true => exact ⟨hk, hwide, hnarrow⟩

/-- The record of half `kv` of token `t`: slice `off` of the `n` of a half row. -/
def SlicedTensor.record (T : SlicedTensor) (n off : ℕ) (narrowTable wideTable : List ℕ) (swap : Bool)
    (kv t : ℕ) : IpcBlock :=
  IpcBlock.turned swap ⟨tokenOffset narrowTable T.ntpb (2 * T.kSize) t + kv * T.kSize,
    tokenOffset wideTable T.ntpb (2 * T.kSize * n) t + (kv * n + off) * T.kSize, T.kSize⟩

/-- The list holds the two records of each token of the range, and nothing else. -/
def SlicesSent (n off : ℕ) (narrowTable wideTable : List ℕ) (task : ReqSendTask) (swap : Bool)
    (T : SlicedTensor) (recs : List IpcBlock) : Prop :=
  ∀ rec, rec ∈ recs ↔ ∃ t, task.seenTokens ≤ t ∧ t < task.endTokens ∧
    ∃ kv < 2, T.record n off narrowTable wideTable swap kv t = rec

theorem gtRecord_eq_record (off : ℕ) (swap : Bool) (t : ℕ) :
    gtRecord (2 * T.kSize) T.kSize (2 * T.kSize * n) T.ntpb off narrowTable wideTable swap t
      = T.record n off narrowTable wideTable swap 0 t := by
  simp only [gtRecord, SlicedTensor.record, zero_mul, zero_add, add_zero]
  cases swap with
  | false => rfl
  | true => rfl

theorem vRecord_record (off : ℕ) (swap : Bool) (t : ℕ) :
    vRecord swap T.kSize (T.kSize * n) (T.record n off narrowTable wideTable swap 0 t)
      = T.record n off narrowTable wideTable swap 1 t := by
  have hslice : (1 * n + off) * T.kSize = off * T.kSize + T.kSize * n := by ring
  simp only [SlicedTensor.record, zero_mul, zero_add, add_zero, one_mul] at hslice ⊢
  cases swap with
  | false => simp only [vRecord, IpcBlock.turned, hslice, add_assoc, Bool.false_eq_true, if_false]
  | true => simp only [vRecord, IpcBlock.turned, hslice, add_assoc, if_true]

theorem SlicedTensor.record_length (off : ℕ) (swap : Bool) (kv t : ℕ) :
    (T.record n off narrowTable wideTable swap kv t).length = T.kSize := by
  cases swap with
  | false => rfl
  | true => rfl

variable (h : SplitPair narrow wide tensors n hn narrowTable wideTable task)
include h

theorem SplitPair.blocks (hT : T ∈ tensors) :
    BlocksIn narrowTable T.ntpb T.narrow.blockSize (T.narrow.blockSize * narrow.layerNumBlocks) task ∧
    BlocksIn wideTable T.ntpb (T.wide n hn).blockSize ((T.wide n hn).blockSize * wide.layerNumBlocks)
      task :=
  ⟨h.narrow_holds.blocksIn (mem_map_of_mem hT), h.wide_holds.blocksIn (mem_map_of_mem hT)⟩

/-- The two records of a token lie inside the tensors. -/
theorem SplitPair.record_within (hT : T ∈ tensors) {off : ℕ} (hoff : off < n) (swap : Bool) {kv t : ℕ}
    (hkv : kv < 2) (h1 : task.seenTokens ≤ t) (h2 : t < task.endTokens) :
    IpcBlock.Within
      (turnTo swap (T.narrow.blockSize * narrow.layerNumBlocks)
        ((T.wide n hn).blockSize * wide.layerNumBlocks))
      (turnTo swap ((T.wide n hn).blockSize * wide.layerNumBlocks)
        (T.narrow.blockSize * narrow.layerNumBlocks))
      (T.record n off narrowTable wideTable swap kv t) := by
  obtain ⟨hnarrow, hwide⟩ := h.blocks hT
  have hrest : 1 ≤ T.ntpb - t % T.ntpb := by
    have := Nat.mod_lt t T.ntpb_pos
    omega
  have hrow := tokenOffset_add_le T.ntpb_pos (hnarrow t h1 h2).2 hrest
  have hrow' := tokenOffset_add_le T.ntpb_pos (hwide t h1 h2).2 hrest
  have hslice : kv * T.kSize + T.kSize ≤ 2 * T.kSize := by
    rw [← Nat.succ_mul]
    exact Nat.mul_le_mul_right _ hkv
  have hslice' : (kv * n + off) * T.kSize + T.kSize ≤ 2 * T.kSize * n := by
    rw [← Nat.succ_mul, mul_right_comm]
    exact Nat.mul_le_mul_right _ (Radix.digit_lt hkv hoff)
  simp only [SlicedTensor.wide, SlicedTensor.narrow, one_mul] at hrow hrow' ⊢
  have hsrc : tokenOffset narrowTable T.ntpb (2 * T.kSize) t + kv * T.kSize + T.kSize
      ≤ T.narrow.blockSize * narrow.layerNumBlocks := by
    rw [add_assoc]
    exact (Nat.add_le_add_left hslice _).trans hrow
  have hdst : tokenOffset wideTable T.ntpb (2 * T.kSize * n) t + (kv * n + off) * T.kSize + T.kSize
      ≤ (T.wide n hn).blockSize * wide.layerNumBlocks := by
    rw [add_assoc]
    exact (Nat.add_le_add_left hslice' _).trans hrow'
  cases swap with
  | false => exact ⟨T.kSize_pos, hsrc, hdst⟩
  | true => exact ⟨T.kSize_pos, hdst, hsrc⟩

/-- The slices of the range lie inside them. -/
theorem SplitPair.inTensors (hT : T ∈ tensors) (swap : Bool)
    (hrecs : SlicesSent n (narrow.workerTpRank % n) narrowTable wideTable task swap T recs) :
    InTensors (turnTo swap narrow wide) (turnTo swap wide narrow)
      (turnTo swap (RowTensor.blockSize ∘ SlicedTensor.narrow)
        (RowTensor.blockSize ∘ SlicedTensor.wide n hn))
      (turnTo swap (RowTensor.blockSize ∘ SlicedTensor.wide n hn)
        (RowTensor.blockSize ∘ SlicedTensor.narrow)) T recs := by
  intro rec hrec
  obtain ⟨t, h1, h2, kv, hkv, rfl⟩ := (hrecs rec).mp hrec
  have hin := h.record_within hT (Nat.mod_lt narrow.workerTpRank (Nat.zero_lt_of_lt hn)) swap hkv h1 h2
  cases swap with
  | false => exact hin
  | true => exact hin

/-- **What the split functions send is inside the tensors.** -/
theorem SplitPair.inCapacities (swap : Bool)
    (hout : List.Forall₂ (SlicesSent n (narrow.workerTpRank % n) narrowTable wideTable task swap)
      tensors out) :
    InCapacities (turnTo swap narrow wide) (turnTo swap wide narrow) out := by
  have hnsize : narrow.blockSizes = tensors.map (RowTensor.blockSize ∘ SlicedTensor.narrow) := by
    rw [h.narrow_holds.blockSizes, map_map]
  have hwsize : wide.blockSizes = tensors.map (RowTensor.blockSize ∘ SlicedTensor.wide n hn) := by
    rw [h.wide_holds.blockSizes, map_map]
  have hall := ((forall₂_and_left _ _).mpr ⟨fun T (hT : T ∈ tensors) => hT, hout⟩).imp
    fun _ _ hT => h.inTensors hT.1 swap hT.2
  cases swap with
  | false => exact inCapacities_of_forall₂ tensors _ _ hnsize hwsize hall
  | true => exact inCapacities_of_forall₂ tensors _ _ hwsize hnsize hall

variable (hfp8 : env.bf162fp8Conversion = false) (hd : 0 < d)
  (hrank : env.ndebug = true ∨ narrow.workerTpRank / n = wide.workerTpRank) (swap : Bool)
include hfp8 hd hrank

/-- **The body of the split functions sends the slices of the range.** -/
theorem SplitPair.sendTensor_sends (hT : T ∈ tensors)
    (hb : b.Admits
      (turnTo swap (T.narrow.blockSize * narrow.layerNumBlocks)
        ((T.wide n hn).blockSize * wide.layerNumBlocks))
      (turnTo swap ((T.wide n hn).blockSize * wide.layerNumBlocks)
        (T.narrow.blockSize * narrow.layerNumBlocks))) :
    ∃ recs, sendTensor env (d * n) d narrow.workerTpRank wide.workerTpRank T.narrow.blockSize
        (T.wide n hn).blockSize T.narrow.tokenSize (T.wide n hn).tokenSize narrowTable wideTable
        task.seenTokens task.newTokens b swap = .ok recs ∧
      SlicesSent n (narrow.workerTpRank % n) narrowTable wideTable task swap T recs := by
  obtain ⟨hnarrow, hwide⟩ := h.blocks hT
  have hoff : narrow.workerTpRank % n < n := Nat.mod_lt _ (Nat.zero_lt_of_lt hn)
  obtain ⟨ks, hks, hperm⟩ : ∃ ks, sendTensor env (d * n) d narrow.workerTpRank wide.workerTpRank
      T.narrow.blockSize (T.wide n hn).blockSize T.narrow.tokenSize (T.wide n hn).tokenSize
      narrowTable wideTable task.seenTokens task.newTokens b swap =
        .ok (ks ++ ks.map (vRecord swap T.kSize (T.kSize * n))) ∧
      ks.Perm ((List.range' task.seenTokens task.newTokens).map (gtRecord (2 * T.kSize) T.kSize
        (2 * T.kSize * n) T.ntpb (narrow.workerTpRank % n) narrowTable wideTable swap)) := by
    refine sendTensor_ok hfp8 hd hn hrank T.kSize_pos T.ntpb_pos T.ntpb_lt fun t h1 h2 =>
      ⟨(hnarrow t h1 h2).1, (hwide t h1 h2).1, fun r hr => ?_⟩
    have hfits : ∀ kv < 2, (T.record n (narrow.workerTpRank % n) narrowTable wideTable swap kv t).FitsIn
        b := fun kv hkv => hb.fits (h.record_within hT hoff swap hkv h1 h2)
    simp only [IpcBlock.FitsIn, SlicedTensor.record_length] at hfits
    rw [SlicedTensor.narrow, gtRecord_eq_record, vRecord_record, mem_pair] at hr
    rcases hr with rfl | rfl
    · exact hfits 0 two_pos
    · exact hfits 1 one_lt_two
  have hmem : ∀ rec, rec ∈ ks ↔ ∃ t, task.seenTokens ≤ t ∧ t < task.endTokens ∧
      T.record n (narrow.workerTpRank % n) narrowTable wideTable swap 0 t = rec := fun rec => by
    rw [hperm.mem_iff, mem_map]
    simp only [mem_range'_1, gtRecord_eq_record, and_assoc]
    rfl
  refine ⟨_, hks, fun rec => ?_⟩
  rw [mem_append, mem_map, hmem]
  constructor
  · rintro (⟨t, h1, h2, rfl⟩ | ⟨k, hk, rfl⟩)
    · exact ⟨t, h1, h2, 0, two_pos, rfl⟩
    · obtain ⟨t, h1, h2, rfl⟩ := (hmem k).mp hk
      exact ⟨t, h1, h2, 1, one_lt_two, (vRecord_record _ swap t).symm⟩
  · rintro ⟨t, h1, h2, kv, hkv, rfl⟩
    obtain rfl | rfl : kv = 0 ∨ kv = 1 := by omega
    · exact .inl ⟨t, h1, h2, rfl⟩
    · exact .inr ⟨_, (hmem _).mpr ⟨t, h1, h2, rfl⟩, vRecord_record _ swap t⟩

/-- **A tensor is sent.** -/
theorem SplitPair.sends {i : ℕ} (hi : tensors[i]? = some T) :
    ∃ bounds recs, makeIpcBlockBounds env (turnTo swap narrow wide) (turnTo swap wide narrow) i
        = .ok bounds ∧
      sendTensor env (d * n) d narrow.workerTpRank wide.workerTpRank T.narrow.blockSize
        (T.wide n hn).blockSize T.narrow.tokenSize (T.wide n hn).tokenSize narrowTable wideTable
        task.seenTokens task.newTokens bounds swap = .ok recs ∧
      SlicesSent n (narrow.workerTpRank % n) narrowTable wideTable task swap T recs := by
  have hT := mem_of_getElem? hi
  have hnarrow : narrow.blockSizes[i]? = some T.narrow.blockSize := by
    rw [h.narrow_holds.blockSizes, map_map, getElem?_map, hi]
    rfl
  have hwide : wide.blockSizes[i]? = some (T.wide n hn).blockSize := by
    rw [h.wide_holds.blockSizes, map_map, getElem?_map, hi]
    rfl
  have hncap := h.narrow_holds.capacity _ (mem_map_of_mem hT)
  have hwcap := h.wide_holds.capacity _ (mem_map_of_mem hT)
  have hnpos := h.narrow_holds.layerNumBlocks_pos
  have hwpos := h.wide_holds.layerNumBlocks_pos
  cases swap with
  | false =>
    obtain ⟨bounds, hbounds, hadmits⟩ :=
      exists_makeIpcBlockBounds hfp8 hnarrow hwide hnpos hwpos hncap hwcap
    obtain ⟨recs, hrecs, hsent⟩ := h.sendTensor_sends hfp8 hd hrank false hT hadmits
    exact ⟨bounds, recs, hbounds, hrecs, hsent⟩
  | true =>
    obtain ⟨bounds, hbounds, hadmits⟩ :=
      exists_makeIpcBlockBounds hfp8 hwide hnarrow hwpos hnpos hwcap hncap
    obtain ⟨recs, hrecs, hsent⟩ := h.sendTensor_sends hfp8 hd hrank true hT hadmits
    exact ⟨bounds, recs, hbounds, hrecs, hsent⟩

/-- A split of several tensors. -/
theorem SplitPair.doMultiTensorParseBlockSend :
    ∃ out, doMultiTensorParseBlockSend env narrow (d * n) narrowTable wide d wideTable
        task.seenTokens task.newTokens (turnTo swap narrow wide) (turnTo swap wide narrow) swap
        = .ok out ∧
      List.Forall₂ (SlicesSent n (narrow.workerTpRank % n) narrowTable wideTable task swap) tensors
        out := by
  have hnarrow := h.narrow_holds
  have hwide := h.wide_holds
  have hlen : narrow.blockSizes.length = tensors.length ∧ narrow.tokenSizes.length = tensors.length ∧
      wide.blockSizes.length = tensors.length ∧ wide.tokenSizes.length = tensors.length := by
    rw [hnarrow.blockSizes, hnarrow.tokenSizes, hwide.blockSizes, hwide.tokenSizes]
    simp only [length_map, and_self]
  obtain ⟨lists, hlists, hall⟩ : ∃ lists, emitAll (fun cacheIdx => (do
      let pBlockSize ← vecAt narrow.blockSizes cacheIdx
      let dBlockSize ← vecAt wide.blockSizes cacheIdx
      let pTokenSize ← vecAt narrow.tokenSizes cacheIdx
      let dTokenSize ← vecAt wide.tokenSizes cacheIdx
      let bounds ← makeIpcBlockBounds env (turnTo swap narrow wide) (turnTo swap wide narrow) cacheIdx
      let out ← sendTensor env (d * n) d narrow.workerTpRank wide.workerTpRank pBlockSize dBlockSize
        pTokenSize dTokenSize narrowTable wideTable task.seenTokens task.newTokens bounds swap
      return [out])) (List.range' 0 tensors.length) = .ok lists ∧
      List.Forall₂ (SlicesSent n (narrow.workerTpRank % n) narrowTable wideTable task swap) tensors
        lists := by
    refine emitAll_singletons fun i T hi => ?_
    obtain ⟨bounds, recs, hbounds, hrecs, hsent⟩ := h.sends hfp8 hd hrank swap hi
    have hat : ∀ {f : RowTensor → ℕ} {g : SlicedTensor → RowTensor} {v : List ℕ},
        v = (tensors.map g).map f → vecAt v i = .ok (f (g T)) := fun hv => by
      rw [vecAt_eq_ok, hv, map_map, getElem?_map, hi]
      rfl
    refine ⟨recs, ?_, hsent⟩
    rw [zero_add, hat hnarrow.blockSizes, ok_bind, hat hwide.blockSizes, ok_bind,
      hat hnarrow.tokenSizes, ok_bind, hat hwide.tokenSizes, ok_bind, hbounds, ok_bind, hrecs]
    rfl
  rw [← range_eq_range', ← hlen.1] at hlists
  refine ⟨lists, ?_, hall⟩
  have hpad : narrow.tokenSizes.length - lists.length = 0 := by
    rw [hlen.2.1, hall.length_eq, Nat.sub_self]
  rw [LlumnixKv.doMultiTensorParseBlockSend, cassert_of (hlen.1.trans hlen.2.2.1.symm), ok_bind,
    cassert_of (hlen.2.1.trans hlen.2.2.2.symm), ok_bind,
    cassert_of (hlen.1.trans hlen.2.1.symm), ok_bind, hlists, ok_bind, hpad]
  exact congrArg Except.ok (append_nil lists)

omit h in
/-- …and of one. -/
theorem SplitPair.doParseBlockSendInternal
    (h : SplitPair narrow wide [T] n hn narrowTable wideTable task) :
    ∃ bounds out, makeIpcBlockBounds env (turnTo swap narrow wide) (turnTo swap wide narrow) 0
        = .ok bounds ∧
      doParseBlockSendInternal env narrow (d * n) narrowTable wide d wideTable task.seenTokens
        task.newTokens bounds swap = .ok out ∧
      List.Forall₂ (SlicesSent n (narrow.workerTpRank % n) narrowTable wideTable task swap) [T]
        out := by
  obtain ⟨bounds, recs, hbounds, hrecs, hsent⟩ := h.sends hfp8 hd hrank swap (i := 0) rfl
  have hnarrow : narrow.tokenSizes = [T.narrow.tokenSize] ∧ narrow.blockSizes = [T.narrow.blockSize] :=
    ⟨h.narrow_holds.tokenSizes, h.narrow_holds.blockSizes⟩
  have hwide : wide.tokenSizes = [(T.wide n hn).tokenSize] ∧
      wide.blockSizes = [(T.wide n hn).blockSize] :=
    ⟨h.wide_holds.tokenSizes, h.wide_holds.blockSizes⟩
  refine ⟨bounds, [recs], hbounds, ?_, .cons hsent .nil⟩
  simp only [LlumnixKv.doParseBlockSendInternal, hnarrow.1, hnarrow.2, hwide.1, hwide.2,
    length_singleton, cassert_of trivial, vecAt_singleton, hrecs, ok_bind]
  rfl

end Split

/-! ### The functions -/

variable {kvtTpSize : ℕ}

section Functions

variable {env : EnvCfg} {src dst : WorkerInfo} {tensors : List SlicedTensor} {T : SlicedTensor}
  {n : ℕ} {hn : 1 < n} {srcTable dstTable : List ℕ} {task : ReqSendTask}
  (hfp8 : env.bf162fp8Conversion = false) (hsrcT : task.req.srcBlocks[0]? = some srcTable)
  (hdstT : task.req.dstBlocks[0]? = some dstTable) (validRanks : BitVec maxTpSize) (kvtTpRank : ℕ)
include hfp8 hsrcT hdstT

/-- **RAGGED_FLASH, P > D.** -/
theorem SplitPair.parseBlockSendPGtD (h : SplitPair src dst [T] n hn srcTable dstTable task)
    (hpos : 0 < dst.engineTpSize)
    (hrank : env.ndebug = true ∨ src.workerTpRank / n = dst.workerTpRank) :
    ∃ out, parseBlockSendPGtD env src dst validRanks (dst.engineTpSize * n) kvtTpRank task = .ok out ∧
      List.Forall₂ (SlicesSent n (src.workerTpRank % n) srcTable dstTable task false) [T] out := by
  obtain ⟨bounds, out, hbounds, hout, hsent⟩ := h.doParseBlockSendInternal hfp8 hpos hrank false
  have hbounds : makeIpcBlockBounds env src dst 0 = .ok bounds := hbounds
  refine ⟨out, ?_, hsent⟩
  rw [LlumnixKv.parseBlockSendPGtD, hbounds, ok_bind, vecIdx_of_some hsrcT, ok_bind,
    vecIdx_of_some hdstT, ok_bind]
  exact hout

/-- **RAGGED_FLASH, P < D.** -/
theorem SplitPair.parseBlockSendPLtD (h : SplitPair dst src [T] n hn dstTable srcTable task)
    (hpos : 0 < kvtTpSize) (htp : dst.engineTpSize = kvtTpSize * n)
    (hrank : env.ndebug = true ∨ dst.workerTpRank / n = src.workerTpRank) :
    ∃ out, parseBlockSendPLtD env src dst validRanks kvtTpSize kvtTpRank task = .ok out ∧
      List.Forall₂ (SlicesSent n (dst.workerTpRank % n) dstTable srcTable task true) [T] out := by
  obtain ⟨bounds, out, hbounds, hout, hsent⟩ := h.doParseBlockSendInternal hfp8 hpos hrank true
  have hbounds : makeIpcBlockBounds env src dst 0 = .ok bounds := hbounds
  refine ⟨out, ?_, hsent⟩
  rw [LlumnixKv.parseBlockSendPLtD, hbounds, ok_bind, vecIdx_of_some hdstT, ok_bind,
    vecIdx_of_some hsrcT, ok_bind, htp]
  exact hout

/-- **DPSK_V32, P > D.** -/
theorem SplitPair.vllmParseBlockSendMultiTensorPGtD
    (h : SplitPair src dst tensors n hn srcTable dstTable task)
    (htokens : src.tokenSizes ≠ dst.tokenSizes) (hpos : 0 < dst.engineTpSize)
    (hrank : env.ndebug = true ∨ src.workerTpRank / n = dst.workerTpRank) :
    ∃ out, vllmParseBlockSendMultiTensorPGtD env src dst validRanks (dst.engineTpSize * n) kvtTpRank
        task = .ok out ∧
      List.Forall₂ (SlicesSent n (src.workerTpRank % n) srcTable dstTable task false) tensors out := by
  obtain ⟨out, hout, hsent⟩ := h.doMultiTensorParseBlockSend hfp8 hpos hrank false
  refine ⟨out, ?_, hsent⟩
  rw [LlumnixKv.vllmParseBlockSendMultiTensorPGtD, if_neg htokens, vecAt_eq_ok.mpr hsrcT, ok_bind,
    vecAt_eq_ok.mpr hdstT, ok_bind]
  exact hout

/-- **DPSK_V32, P < D.** -/
theorem SplitPair.vllmParseBlockSendMultiTensorPLtD
    (h : SplitPair dst src tensors n hn dstTable srcTable task) (hpos : 0 < kvtTpSize)
    (htp : dst.engineTpSize = kvtTpSize * n)
    (hrank : env.ndebug = true ∨ dst.workerTpRank / n = src.workerTpRank) :
    ∃ out, vllmParseBlockSendMultiTensorPLtD env src dst validRanks kvtTpSize kvtTpRank task = .ok out ∧
      List.Forall₂ (SlicesSent n (dst.workerTpRank % n) dstTable srcTable task true) tensors out := by
  obtain ⟨out, hout, hsent⟩ := h.doMultiTensorParseBlockSend hfp8 hpos hrank true
  refine ⟨out, ?_, hsent⟩
  rw [LlumnixKv.vllmParseBlockSendMultiTensorPLtD, vecAt_eq_ok.mpr hdstT, ok_bind,
    vecAt_eq_ok.mpr hsrcT, ok_bind, htp]
  exact hout

end Functions

/-! ## Two planes -/

section Planes

variable {env : EnvCfg} {src dst : WorkerInfo} {ntpb kRow : ℕ} {srcTable dstTable : List ℕ}
  {task : ReqSendTask}

/-- A worker registered two planes; its place in the TP group is its own. -/
abbrev OwnsPlanes (w : WorkerInfo) (ntpb kRow : ℕ) (table : List ℕ) (task : ReqSendTask) : Prop :=
  HoldsPlanes w w.engineTpSize w.workerTpRank ntpb kRow table task

theorem HoldsPlanes.blocksIn {w : WorkerInfo} {table : List ℕ} (h : OwnsPlanes w ntpb kRow table task) :
    BlocksIn table ntpb (ntpb * kRow) (ntpb * kRow * w.layerNumBlocks) task := fun t h1 h2 => by
  obtain ⟨hlook, hlt⟩ := h.block_at h1 h2
  refine ⟨hlook, ?_⟩
  rw [mul_comm (ntpb * kRow)]
  exact Nat.mul_le_mul_right _ hlt

/-- **The second loop follows the first into the V plane.** -/
theorem yields_sendVPlane {srcPlane dstPlane : ℕ} {ks : List IpcBlock}
    (hb : b.Admits (2 * srcPlane) (2 * dstPlane))
    (hks : ∀ sb ∈ ks, IpcBlock.Within srcPlane dstPlane sb) :
    Yields (IpcBlock.Within (2 * srcPlane) (2 * dstPlane)) (sendVPlane srcPlane dstPlane b ks) := by
  refine yields_emitAll fun sb hsb => hb.yields ?_
  obtain ⟨hpos, hsrc, hdst⟩ := hks sb hsb
  exact ⟨hpos, by simp only; omega, by simp only; omega⟩

/-- K records inside their plane, and the V records that follow, are inside the tensor. -/
theorem inCapacities_planes {dRow : ℕ} {ks vs : List IpcBlock}
    (hsrc : src.blockSizes = [ntpb * (2 * kRow)]) (hdst : dst.blockSizes = [ntpb * (2 * dRow)])
    (hks : ∀ rec ∈ ks, IpcBlock.Within (ntpb * kRow * src.layerNumBlocks)
      (ntpb * dRow * dst.layerNumBlocks) rec)
    (hvs : ∀ rec ∈ vs, IpcBlock.Within (2 * (ntpb * kRow * src.layerNumBlocks))
      (2 * (ntpb * dRow * dst.layerNumBlocks)) rec) : InCapacities src dst [ks ++ vs] := by
  have hsize : ∀ row blocks, ntpb * (2 * row) * blocks = 2 * (ntpb * row * blocks) :=
    fun row blocks => by ring
  refine inCapacities_singleton hsrc hdst fun rec hrec => ?_
  rw [hsize, hsize]
  rcases mem_append.mp hrec with hrec | hrec
  · exact (hks rec hrec).mono (by omega) (by omega)
  · exact hvs rec hrec

variable (hfp8 : env.bf162fp8Conversion = false) (hsrc : OwnsPlanes src ntpb kRow srcTable task)
include hfp8 hsrc

/-- The bounds of two plane tensors. -/
theorem OwnsPlanes.exists_bounds {dRow : ℕ} (hdst : OwnsPlanes dst ntpb dRow dstTable task) :
    ∃ bounds, makeIpcBlockBounds env src dst 0 = .ok bounds ∧
      bounds.Admits (2 * (ntpb * kRow * src.layerNumBlocks)) (2 * (ntpb * dRow * dst.layerNumBlocks)) := by
  obtain ⟨bounds, hbounds, hadmits⟩ := exists_makeIpcBlockBounds hfp8
    (show src.blockSizes[0]? = some _ by rw [hsrc.blockSizes]; rfl)
    (show dst.blockSizes[0]? = some _ by rw [hdst.blockSizes]; rfl) hsrc.layerNumBlocks_pos
    hdst.layerNumBlocks_pos hsrc.capacity hdst.capacity
  have hsize : ∀ row blocks, ntpb * (2 * row) * blocks = 2 * (ntpb * row * blocks) :=
    fun row blocks => by ring
  rw [hsize, hsize] at hadmits
  exact ⟨bounds, hbounds, hadmits⟩

variable (hntpb : 0 < ntpb) (hlt : ntpb < 2 ^ 32) (hrow : 0 < kRow)
  (hsrcT : task.req.srcBlocks[0]? = some srcTable) (hdstT : task.req.dstBlocks[0]? = some dstTable)
include hntpb hlt hrow hsrcT hdstT

/-- **FLASH, P = D.** -/
theorem OwnsPlanes.vllmParseBlockSendPEqD (hdst : OwnsPlanes dst ntpb kRow dstTable task)
    (validRanks : BitVec maxTpSize) (kvtTpRank : ℕ) (hentry : env.ndebug = true ∨
      (kvtTpSize = dst.engineTpSize ∧ src.workerTpRank = dst.workerTpRank)) :
    ∃ out, vllmParseBlockSendPEqD env src dst validRanks kvtTpSize kvtTpRank task = .ok out ∧
      InCapacities src dst out := by
  obtain ⟨bounds, hbounds, hadmits⟩ := exists_bounds hfp8 hsrc hdst
  obtain ⟨ks, hks, hin, -⟩ := doParseBlockSendPEqD_spec env hrow hntpb hlt hsrcT hdstT
    ⟨hadmits.scale_eq, hadmits.capacity_le, by have := hadmits.src_le; omega,
      by have := hadmits.dst_le; omega⟩ hsrc.blocksIn hdst.blocksIn
  obtain ⟨vs, hvs, hin'⟩ := yields_sendVPlane hadmits hin
  have htp : cassert env.ndebug (kvtTpSize = dst.engineTpSize) = .ok () :=
    cassert_eq_ok.mpr (hentry.imp_right And.left)
  have hrank : cassert env.ndebug (src.workerTpRank = dst.workerTpRank) = .ok () :=
    cassert_eq_ok.mpr (hentry.imp_right And.right)
  have hhalf : 2 * kRow / 2 = kRow := by omega
  have hblock : ntpb * (2 * kRow) / 2 = ntpb * kRow := by
    rw [mul_left_comm, Nat.mul_div_cancel_left _ two_pos]
  have hwhole : 2 * (ntpb * kRow) = ntpb * (2 * kRow) := mul_left_comm _ _ _
  refine ⟨[ks ++ vs], ?_, inCapacities_planes hsrc.blockSizes hdst.blockSizes hin hin'⟩
  simp only [LlumnixKv.vllmParseBlockSendPEqD, htp, hrank, hsrc.tokenSizes, hdst.tokenSizes,
    hsrc.blockSizes, hdst.blockSizes, length_singleton, cassert_of trivial, vecAt_singleton, hhalf, hblock,
    cassert_of hwhole, hbounds, hks, hvs, ok_bind]
  rfl

/-- **FLASH, P > D**, for a rank that sends. -/
theorem OwnsPlanes.vllmParseBlockSendPGtD {validRanks : BitVec maxTpSize} {kvtTpSize kvtTpRank n : ℕ}
    (hdst : OwnsPlanes dst ntpb (kRow * n) dstTable task)
    (hvalid : validRanks.getLsbD src.workerTpRank = true) (hpos : 0 < dst.engineTpSize)
    (hn : 0 < n) (hgroups : Bitset.count validRanks / dst.engineTpSize = n)
    (hentry : env.ndebug = true ∨
      (dst.engineTpSize < kvtTpSize ∧ kvtTpRank / n = dst.workerTpRank)) :
    ∃ out, vllmParseBlockSendPGtD env src dst validRanks kvtTpSize kvtTpRank task = .ok out ∧
      InCapacities src dst out := by
  obtain ⟨bounds, hbounds, hadmits⟩ := exists_bounds hfp8 hsrc hdst
  have hoff : kvtTpRank % n < n := Nat.mod_lt _ hn
  -- the K records lie in the K planes
  have hrecord : ∀ t, task.seenTokens ≤ t → t < task.endTokens →
      IpcBlock.Within (ntpb * kRow * src.layerNumBlocks) (ntpb * (kRow * n) * dst.layerNumBlocks)
        (gtRecord kRow kRow (kRow * n) ntpb (kvtTpRank % n) srcTable dstTable false t) :=
    fun t h1 h2 => by
      have hrest : 1 ≤ ntpb - t % ntpb := by
        have := Nat.mod_lt t hntpb
        omega
      have hs := tokenOffset_add_le hntpb (hsrc.blocksIn t h1 h2).2 hrest
      have hd := tokenOffset_add_le hntpb (hdst.blocksIn t h1 h2).2 hrest
      have hslice : kvtTpRank % n * kRow + kRow ≤ kRow * n := by
        rw [← Nat.succ_mul, mul_comm kRow]
        exact Nat.mul_le_mul_right _ hoff
      rw [one_mul] at hs hd
      exact gtRecord_within false hrow hs (by omega)
  obtain ⟨ks, hks, hperm⟩ : ∃ ks, parseBlockSendGt env kRow kRow (kRow * n) ntpb (kvtTpRank % n)
      srcTable dstTable task.seenTokens task.newTokens bounds false = .ok ks ∧
      ks.Perm ((List.range' task.seenTokens task.newTokens).map
        (gtRecord kRow kRow (kRow * n) ntpb (kvtTpRank % n) srcTable dstTable false)) :=
    parseBlockSendGt_perm hfp8 (.inl rfl) hntpb fun t h1 h2 => by
      have hfits := hadmits.fits ((hrecord t h1 h2).mono (by omega) (by omega))
      exact ⟨(hsrc.block_at h1 h2).1, (hdst.block_at h1 h2).1, hfits⟩
  have hin : ∀ sb ∈ ks, IpcBlock.Within (ntpb * kRow * src.layerNumBlocks)
      (ntpb * (kRow * n) * dst.layerNumBlocks) sb := fun sb hsb => by
    obtain ⟨t, ht, rfl⟩ := mem_map.mp (hperm.mem_iff.mp hsb)
    obtain ⟨h1, h2⟩ := mem_range'_1.mp ht
    exact hrecord t h1 h2
  obtain ⟨vs, hvs, hin'⟩ := yields_sendVPlane hadmits hin
  have htp : cassert env.ndebug (dst.engineTpSize < kvtTpSize) = .ok () :=
    cassert_eq_ok.mpr (hentry.imp_right And.left)
  have hrank : cassert env.ndebug (kvtTpRank / n = dst.workerTpRank) = .ok () :=
    cassert_eq_ok.mpr (hentry.imp_right And.right)
  have hrows : 2 * (kRow * n) = 2 * kRow * n := (mul_assoc _ _ _).symm
  have hhalf : 2 * kRow / 2 = kRow := by omega
  have hhalf' : 2 * (kRow * n) / 2 = kRow * n := by omega
  have hquot : u32 (ntpb * (2 * kRow) / (2 * kRow)) = ntpb := by
    rw [Nat.mul_div_cancel _ (mul_pos two_pos hrow), u32_of_lt hlt]
  refine ⟨[ks ++ vs], ?_, inCapacities_planes hsrc.blockSizes hdst.blockSizes hin hin'⟩
  simp only [LlumnixKv.vllmParseBlockSendPGtD, hvalid, Bool.true_eq_false, if_false, htp,
    checkedDiv_of_pos hpos, hgroups, cassert_of hn, checkedDiv_of_pos hn, hrank, hsrc.tokenSizes,
    hdst.tokenSizes, hsrc.blockSizes, hdst.blockSizes, length_singleton, cassert_of trivial,
    vecAt_singleton, cassert_of hrows, cassert_of (Nat.mul_mod_right 2 _), hhalf, hhalf',
    checkedDiv_of_pos (mul_pos two_pos hrow), hquot, hbounds, vecIdx_of_some hsrcT,
    vecIdx_of_some hdstT, hks, hvs, ok_bind]
  rfl

end Planes

end LlumnixKv
