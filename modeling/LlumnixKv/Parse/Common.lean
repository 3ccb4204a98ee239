import LlumnixKv.Foundations.Worker
import Mathlib.Data.List.Nodup

/-!
# Parse/Common — what every parse function shares

A parse function turns a token range of a request into copy records.  Each record goes through
`append_ipc_block_checked`, which refuses what leaves either buffer; the token loops stop at block
boundaries.  A function that appends to `per_cache_send_blocks` is modelled by what it appends.
-/

open List Machinery

namespace LlumnixKv

/-! ## Records and their bounds -/

/-- `IpcBlock`: copy `length` bytes from `srcOffset` to `dstOffset`. -/
structure IpcBlock where
  srcOffset : ℕ
  dstOffset : ℕ
  length : ℕ
  deriving DecidableEq, Repr

/-- A record copies the byte at `src` to the byte at `dst`. -/
def IpcBlock.Copies (rec : IpcBlock) (src dst : ℕ) : Prop :=
  ∃ o < rec.length, src = rec.srcOffset + o ∧ dst = rec.dstOffset + o

/-- `IpcBlockBounds`. -/
structure IpcBlockBounds where
  srcCapacity : ℕ
  dstCapacity : ℕ
  srcLengthScale : ℕ
  cacheIdx : ℕ
  deriving DecidableEq, Repr

/-- `checked_layer_capacity`. -/
def checkedLayerCapacity (info : WorkerInfo) (cacheIdx : ℕ) : Except Fault ℕ :=
  match info.blockSizes[cacheIdx]? with
  | none => .error .outOfRange
  | some blockSize =>
    if info.layerNumBlocks = 0 then .error .outOfRange
    else if sizeMax / info.layerNumBlocks < blockSize then .error .overflow
    else .ok (blockSize * info.layerNumBlocks)

/-- `make_ipc_block_bounds`. -/
def makeIpcBlockBounds (env : EnvCfg) (src dst : WorkerInfo) (cacheIdx : ℕ) :
    Except Fault IpcBlockBounds := do
  let srcCapacity ← checkedLayerCapacity src cacheIdx
  let dstCapacity ← checkedLayerCapacity dst cacheIdx
  return ⟨srcCapacity, dstCapacity, if env.bf162fp8Conversion then 2 else 1, cacheIdx⟩

variable (b : IpcBlockBounds)

/-- `src_length_overflow`. -/
def IpcBlockBounds.srcLengthOverflow (length : ℕ) : Bool :=
  b.srcLengthScale == 0 || decide (sizeMax / b.srcLengthScale < length)

/-- `effective_src_length`. -/
def IpcBlockBounds.effectiveSrcLength (length : ℕ) : ℕ :=
  if b.srcLengthOverflow length then sizeMax else length * b.srcLengthScale

/-- `src_invalid`. -/
def IpcBlockBounds.srcInvalid (srcOffset length : ℕ) : Bool :=
  length == 0 || b.srcLengthOverflow length || decide (b.srcCapacity < srcOffset) ||
    decide (b.srcCapacity - srcOffset < b.effectiveSrcLength length)

/-- `dst_invalid`. -/
def IpcBlockBounds.dstInvalid (dstOffset length : ℕ) : Bool :=
  length == 0 || decide (b.dstCapacity < dstOffset) || decide (b.dstCapacity - dstOffset < length)

/-- `append_ipc_block_checked`. -/
def appendIpcBlockChecked (bounds : IpcBlockBounds) (srcOffset dstOffset length : ℕ) :
    Except Fault (List IpcBlock) :=
  if bounds.srcInvalid srcOffset length || bounds.dstInvalid dstOffset length then
    .error .outOfRange
  else .ok [⟨srcOffset, dstOffset, length⟩]

/-- The record is nonempty and stays inside both buffers. -/
structure IpcBlockBounds.Fits (b : IpcBlockBounds) (src dst len : ℕ) : Prop where
  len_pos : 0 < len
  scale_pos : 0 < b.srcLengthScale
  scaled_le : len * b.srcLengthScale ≤ sizeMax
  src_le : src + len * b.srcLengthScale ≤ b.srcCapacity
  dst_le : dst + len ≤ b.dstCapacity

variable {b : IpcBlockBounds} {env : EnvCfg} {i srcSize dstSize : ℕ} {src dst : WorkerInfo}
  {out : List IpcBlock}

theorem IpcBlockBounds.srcLengthOverflow_eq_false {len : ℕ} :
    b.srcLengthOverflow len = false ↔ 0 < b.srcLengthScale ∧ len * b.srcLengthScale ≤ sizeMax := by
  rw [srcLengthOverflow, Bool.or_eq_false_iff, beq_eq_false_iff_ne, decide_eq_false_iff_not,
    ← Nat.pos_iff_ne_zero]
  exact and_congr_right fun hs => by rw [Nat.div_lt_iff_lt_mul hs, not_lt]

theorem IpcBlockBounds.srcInvalid_eq_false {src len : ℕ} :
    b.srcInvalid src len = false ↔ 0 < len ∧ 0 < b.srcLengthScale ∧
      len * b.srcLengthScale ≤ sizeMax ∧ src + len * b.srcLengthScale ≤ b.srcCapacity := by
  rw [srcInvalid, Bool.or_eq_false_iff, Bool.or_eq_false_iff, Bool.or_eq_false_iff,
    beq_eq_false_iff_ne, decide_eq_false_iff_not, decide_eq_false_iff_not]
  constructor
  · rintro ⟨⟨⟨hlen, hover⟩, hsrc⟩, heff⟩
    rw [effectiveSrcLength, hover, if_neg Bool.false_ne_true] at heff
    obtain ⟨hs, hle⟩ := srcLengthOverflow_eq_false.mp hover
    omega
  · rintro ⟨hlen, hs, hle, hsrc⟩
    have hover := srcLengthOverflow_eq_false.mpr ⟨hs, hle⟩
    rw [effectiveSrcLength, hover, if_neg Bool.false_ne_true]
    exact ⟨⟨⟨by omega, rfl⟩, by omega⟩, by omega⟩

theorem IpcBlockBounds.dstInvalid_eq_false {dst len : ℕ} :
    b.dstInvalid dst len = false ↔ 0 < len ∧ dst + len ≤ b.dstCapacity := by
  rw [dstInvalid, Bool.or_eq_false_iff, Bool.or_eq_false_iff, beq_eq_false_iff_ne,
    decide_eq_false_iff_not, decide_eq_false_iff_not]
  omega

/-- **The check appends exactly the records that fit.** -/
theorem appendIpcBlockChecked_eq_ok {src dst len : ℕ} :
    appendIpcBlockChecked b src dst len = .ok out ↔
      b.Fits src dst len ∧ out = [⟨src, dst, len⟩] := by
  have hfits : b.Fits src dst len ↔
      (b.srcInvalid src len || b.dstInvalid dst len) = false := by
    rw [Bool.or_eq_false_iff, IpcBlockBounds.srcInvalid_eq_false,
      IpcBlockBounds.dstInvalid_eq_false]
    exact ⟨fun h => ⟨⟨h.len_pos, h.scale_pos, h.scaled_le, h.src_le⟩, h.len_pos, h.dst_le⟩,
      fun ⟨⟨h0, hs, hle, hsrc⟩, _, hdst⟩ => ⟨h0, hs, hle, hsrc, hdst⟩⟩
  rw [hfits, appendIpcBlockChecked]
  cases b.srcInvalid src len || b.dstInvalid dst len with
  | true => simp
  | false => simp [eq_comm]

/-- The record, turned around where `swap_offsets` is set. -/
def IpcBlock.turned : Bool → IpcBlock → IpcBlock
  | false, rec => rec
  | true, rec => ⟨rec.dstOffset, rec.srcOffset, rec.length⟩

/-- The record passes the check of `append_ipc_block_checked`. -/
def IpcBlock.FitsIn (rec : IpcBlock) (b : IpcBlockBounds) : Prop :=
  b.Fits rec.srcOffset rec.dstOffset rec.length

theorem appendIpcBlockChecked_turned {swap : Bool} {src dst len : ℕ} :
    appendIpcBlockChecked b (if swap then dst else src) (if swap then src else dst) len = .ok out ↔
      (IpcBlock.turned swap ⟨src, dst, len⟩).FitsIn b ∧
      out = [IpcBlock.turned swap ⟨src, dst, len⟩] := by
  cases swap with
  | false => exact appendIpcBlockChecked_eq_ok
  | true => exact appendIpcBlockChecked_eq_ok

/-- A span of each buffer: `srcLen` bytes from `srcOff` and `dstLen` bytes from `dstOff`. -/
structure IpcBlockBounds.Spans (b : IpcBlockBounds) (srcOff srcLen dstOff dstLen : ℕ) : Prop where
  scale_pos : 0 < b.srcLengthScale
  scaled_le : srcLen * b.srcLengthScale ≤ sizeMax
  src_le : srcOff + srcLen * b.srcLengthScale ≤ b.srcCapacity
  dst_le : dstOff + dstLen ≤ b.dstCapacity

/-- A record inside the spans fits. -/
theorem IpcBlockBounds.Spans.fits {srcOff srcLen dstOff dstLen o o' len : ℕ}
    (h : b.Spans srcOff srcLen dstOff dstLen) (hlen : 0 < len) (ho : o + len ≤ srcLen)
    (ho' : o' + len ≤ dstLen) : b.Fits (srcOff + o) (dstOff + o') len := by
  have hscale := h.scale_pos
  have hsrc : o + len * b.srcLengthScale ≤ srcLen * b.srcLengthScale :=
    calc o + len * b.srcLengthScale ≤ (o + len) * b.srcLengthScale := by
          rw [Nat.add_mul]
          exact Nat.add_le_add_right (Nat.le_mul_of_pos_right o hscale) _
      _ ≤ srcLen * b.srcLengthScale := Nat.mul_le_mul_right _ ho
  have hle := h.scaled_le
  have hcap := h.src_le
  have hdst := h.dst_le
  exact ⟨hlen, hscale, by omega, by omega, by omega⟩

/-- A registered tensor whose size a `size_t` holds has the capacity the bounds record. -/
theorem checkedLayerCapacity_of_le {info : WorkerInfo} {cacheIdx blockSize : ℕ}
    (hb : info.blockSizes[cacheIdx]? = some blockSize) (hn : 0 < info.layerNumBlocks)
    (hle : blockSize * info.layerNumBlocks ≤ sizeMax) :
    checkedLayerCapacity info cacheIdx = .ok (blockSize * info.layerNumBlocks) := by
  have hover : ¬sizeMax / info.layerNumBlocks < blockSize := by
    rw [Nat.div_lt_iff_lt_mul hn]
    omega
  simp only [checkedLayerCapacity, hb, if_neg hn.ne', if_neg hover]

/-- Both tensors being of a size a `size_t` holds, the bounds are their sizes. -/
theorem makeIpcBlockBounds_of_le (hfp8 : env.bf162fp8Conversion = false)
    (hsrc : src.blockSizes[i]? = some srcSize) (hdst : dst.blockSizes[i]? = some dstSize)
    (hspos : 0 < src.layerNumBlocks) (hdpos : 0 < dst.layerNumBlocks)
    (hsle : srcSize * src.layerNumBlocks ≤ sizeMax) (hdle : dstSize * dst.layerNumBlocks ≤ sizeMax) :
    makeIpcBlockBounds env src dst i =
      .ok ⟨srcSize * src.layerNumBlocks, dstSize * dst.layerNumBlocks, 1, i⟩ := by
  rw [makeIpcBlockBounds, checkedLayerCapacity_of_le hsrc hspos hsle, ok_bind,
    checkedLayerCapacity_of_le hdst hdpos hdle, ok_bind, hfp8]
  rfl

/-- The record is nonempty and stays inside buffers of these sizes. -/
structure IpcBlock.Within (srcEnd dstEnd : ℕ) (rec : IpcBlock) : Prop where
  len_pos : 0 < rec.length
  src_le : rec.srcOffset + rec.length ≤ srcEnd
  dst_le : rec.dstOffset + rec.length ≤ dstEnd

theorem IpcBlock.Within.mono {srcEnd dstEnd srcEnd' dstEnd' : ℕ} {rec : IpcBlock}
    (h : IpcBlock.Within srcEnd dstEnd rec) (hsrc : srcEnd ≤ srcEnd') (hdst : dstEnd ≤ dstEnd') :
    IpcBlock.Within srcEnd' dstEnd' rec :=
  ⟨h.len_pos, h.src_le.trans hsrc, h.dst_le.trans hdst⟩

/-- Bounds that admit the first `srcEnd` and `dstEnd` bytes, bytes being copied as they are. -/
structure IpcBlockBounds.Admits (b : IpcBlockBounds) (srcEnd dstEnd : ℕ) : Prop where
  scale_eq : b.srcLengthScale = 1
  capacity_le : b.srcCapacity ≤ sizeMax
  src_le : srcEnd ≤ b.srcCapacity
  dst_le : dstEnd ≤ b.dstCapacity

/-- A record inside tensors with blocks of these sizes … -/
abbrev InPages (src dst : WorkerInfo) (srcSize dstSize : ℕ) : IpcBlock → Prop :=
  IpcBlock.Within (srcSize * src.layerNumBlocks) (dstSize * dst.layerNumBlocks)

/-- …and bounds that admit it. -/
abbrev IpcBlockBounds.AdmitsPages (b : IpcBlockBounds) (src dst : WorkerInfo)
    (srcSize dstSize : ℕ) : Prop :=
  b.Admits (srcSize * src.layerNumBlocks) (dstSize * dst.layerNumBlocks)

/-- Two tensors of a size a `size_t` holds get bounds that admit them. -/
theorem exists_makeIpcBlockBounds (hfp8 : env.bf162fp8Conversion = false)
    (hsrc : src.blockSizes[i]? = some srcSize) (hdst : dst.blockSizes[i]? = some dstSize)
    (hspos : 0 < src.layerNumBlocks) (hdpos : 0 < dst.layerNumBlocks)
    (hsle : srcSize * src.layerNumBlocks ≤ sizeMax) (hdle : dstSize * dst.layerNumBlocks ≤ sizeMax) :
    ∃ bounds, makeIpcBlockBounds env src dst i = .ok bounds ∧
      bounds.Admits (srcSize * src.layerNumBlocks) (dstSize * dst.layerNumBlocks) :=
  ⟨_, makeIpcBlockBounds_of_le hfp8 hsrc hdst hspos hdpos hsle hdle, rfl, hsle, le_rfl, le_rfl⟩

/-- **A record inside them fits.** -/
theorem IpcBlockBounds.Admits.fits {srcEnd dstEnd : ℕ} {rec : IpcBlock}
    (hb : b.Admits srcEnd dstEnd) (h : IpcBlock.Within srcEnd dstEnd rec) : rec.FitsIn b := by
  obtain ⟨hpos, hsrc, hdst⟩ := h
  have hcap := hb.capacity_le
  have hsle := hb.src_le
  have hdle := hb.dst_le
  refine ⟨hpos, ?_, ?_, ?_, by omega⟩
  · rw [hb.scale_eq]
    exact Nat.one_pos
  · rw [hb.scale_eq]
    omega
  · rw [hb.scale_eq]
    omega

/-- …and is appended. -/
theorem IpcBlockBounds.Admits.yields {srcEnd dstEnd src dst len : ℕ}
    (hb : b.Admits srcEnd dstEnd) (h : IpcBlock.Within srcEnd dstEnd ⟨src, dst, len⟩) :
    Yields (IpcBlock.Within srcEnd dstEnd) (appendIpcBlockChecked b src dst len) := by
  refine ⟨_, appendIpcBlockChecked_eq_ok.mpr ⟨hb.fits h, rfl⟩, fun rec hrec => ?_⟩
  rw [mem_singleton.mp hrec]
  exact h

/-! ## Reads that may leave their array -/

theorem vecAt_of_lt {v : List ℕ} {i : ℕ} (h : i < v.length) : vecAt v i = .ok (v.getD i 0) := by
  rw [vecAt_eq_ok, getD_eq_getElem?_getD, getElem?_eq_getElem h, Option.getD_some]

theorem getD_of_some {table : List ℕ} {i id : ℕ} (h : table[i]? = some id) :
    i < table.length ∧ table.getD i 0 = id :=
  ⟨(List.getElem?_eq_some_iff.mp h).1, by rw [getD_eq_getElem?_getD, h, Option.getD_some]⟩

/-- A table of distinct blocks has each at one place. -/
theorem getD_inj {table : List ℕ} (hdistinct : table.Nodup) {i j : ℕ} (hi : i < table.length)
    (hj : j < table.length) (h : table.getD i 0 = table.getD j 0) : i = j := by
  rw [getD_eq_getElem?_getD, getD_eq_getElem?_getD, getElem?_eq_getElem hi,
    getElem?_eq_getElem hj, Option.getD_some, Option.getD_some] at h
  exact hdistinct.getElem_inj_iff.mp h

/-- An unchecked `v[i]`. -/
def vecIdx {α : Type*} (v : List α) (i : ℕ) : Except Fault α :=
  match v[i]? with
  | some x => .ok x
  | none => .error .undefined

theorem vecIdx_of_some {α : Type*} {v : List α} {i : ℕ} {x : α} (h : v[i]? = some x) :
    vecIdx v i = .ok x := by
  unfold vecIdx
  rw [h]

/-- `a / b`, undefined when `b` is zero. -/
def checkedDiv (a b : ℕ) : Except Fault ℕ :=
  if b = 0 then .error .undefined else .ok (a / b)

theorem checkedDiv_of_pos {a b : ℕ} (h : 0 < b) : checkedDiv a b = .ok (a / b) := if_neg h.ne'

/-! ## The shared loops -/

/-- `ParseBlockFunc`: what a call appends to each list of `send_blocks`. -/
abbrev ParseBlockFunc := WorkerInfo → WorkerInfo → BitVec maxTpSize → ℕ → ℕ → ReqSendTask →
  Except Fault (List (List IpcBlock))

/-- `send_blocks.resize(n)` with only the first list appended to. -/
def firstOf (n : ℕ) (out : List IpcBlock) : List (List IpcBlock) :=
  out :: List.replicate (n - 1) []

/-- `do_parse_block_send_p_eq_d`: both sides have the same rows, a run of tokens is one record. -/
def doParseBlockSendPEqD (env : EnvCfg) (blockSize tokenSize : ℕ) (task : ReqSendTask)
    (bounds : IpcBlockBounds) : Except Fault (List IpcBlock) := do
  let quotient ← checkedDiv blockSize tokenSize
  let ntpb := u32 quotient
  cassert env.ndebug (ntpb * tokenSize = blockSize)
  let srcBlocks ← vecIdx task.req.srcBlocks 0
  let dstBlocks ← vecIdx task.req.dstBlocks 0
  -- the `reserve` divides by `src_ntpb` before the loop does
  let _ ← checkedDiv task.newTokens ntpb
  walk (toBoundary ntpb) (fun wrote tokens => do
    cassert env.ndebug (wrote / ntpb < srcBlocks.length)
    let srcBlock ← vecAt srcBlocks (wrote / ntpb)
    cassert env.ndebug (wrote / ntpb < dstBlocks.length)
    let dstBlock ← vecAt dstBlocks (wrote / ntpb)
    appendIpcBlockChecked bounds (srcBlock * blockSize + wrote % ntpb * tokenSize)
      (dstBlock * blockSize + wrote % ntpb * tokenSize) (tokens * tokenSize))
    task.newTokens task.seenTokens task.newTokens

/-- One round of `parse_block_send_gt`: the `tokens` left of one block, one record each. -/
def parseBlockSendGtRound (env : EnvCfg) (pTokenSize pKSize dTokenSize ntpb groupOff : ℕ)
    (pBlocks dBlocks : List ℕ) (bounds : IpcBlockBounds) (swapOffsets : Bool)
    (wroteTokens tokens : ℕ) : Except Fault (List IpcBlock) := do
  let blockIdx ← checkedDiv wroteTokens ntpb
  cassert env.ndebug (blockIdx < pBlocks.length ∧ blockIdx < dBlocks.length)
  let tokenIdxBase := wroteTokens % ntpb
  let pBlock ← vecAt pBlocks blockIdx
  let dBlock ← vecAt dBlocks blockIdx
  emitAll (fun idx =>
    let tokenIdx := tokenIdxBase + idx
    let pkTokenOff := pBlock * (pTokenSize * ntpb) + tokenIdx * pTokenSize
    let dkTokenOff := dBlock * (dTokenSize * ntpb) + tokenIdx * dTokenSize + groupOff * pKSize
    appendIpcBlockChecked bounds (if swapOffsets then dkTokenOff else pkTokenOff)
      (if swapOffsets then pkTokenOff else dkTokenOff) pKSize) (List.range tokens)

/-- `parse_block_send_gt`: the `p` side holds one group's share of each `d` row, so every token is a
record of its own. -/
def parseBlockSendGt (env : EnvCfg) (pTokenSize pKSize dTokenSize ntpb groupOff : ℕ)
    (pBlocks dBlocks : List ℕ) (wroteTokens leftTokens : ℕ) (bounds : IpcBlockBounds)
    (swapOffsets : Bool) : Except Fault (List IpcBlock) := do
  cassert env.ndebug (pKSize = pTokenSize ∨ pKSize * 2 = pTokenSize)
  let pKSize := if env.bf162fp8Conversion then pKSize / 2 else pKSize
  walk (toBoundary ntpb) (parseBlockSendGtRound env pTokenSize pKSize dTokenSize ntpb groupOff
    pBlocks dBlocks bounds swapOffsets) leftTokens wroteTokens leftTokens

/-- `emit_zero_fill_segments`. -/
def emitZeroFillSegments (env : EnvCfg) (zeroSrcOff dstOff length maxSeg : ℕ)
    (bounds : IpcBlockBounds) : Except Fault (List IpcBlock) := do
  cassert env.ndebug (0 < maxSeg)
  walk (fun _ left => min maxSeg left)
    (fun done seg => appendIpcBlockChecked bounds zeroSrcOff (dstOff + done) seg) length 0 length

/-! ## What the token loop emits -/

/-- Where token `t` of a request starts in a cache with rows of `tokenSize`. -/
def tokenOffset (table : List ℕ) (ntpb tokenSize t : ℕ) : ℕ :=
  (table.getD (t / ntpb) 0 * ntpb + t % ntpb) * tokenSize

/-- The record `parse_block_send_gt` emits for token `t`. -/
def gtRecord (pTokenSize pKSize dTokenSize ntpb groupOff : ℕ) (pBlocks dBlocks : List ℕ)
    (swapOffsets : Bool) (t : ℕ) : IpcBlock :=
  let pOff := tokenOffset pBlocks ntpb pTokenSize t
  let dOff := tokenOffset dBlocks ntpb dTokenSize t + groupOff * pKSize
  if swapOffsets then ⟨dOff, pOff, pKSize⟩ else ⟨pOff, dOff, pKSize⟩

/-- **The block cut does not show**: the loop emits one record for each token of the range. -/
theorem parseBlockSendGt_perm {pTok pK dTok ntpb g : ℕ} {pBlocks dBlocks : List ℕ}
    {wrote left : ℕ} {swap : Bool} (hfp8 : env.bf162fp8Conversion = false)
    (hk : pK = pTok ∨ pK * 2 = pTok) (hntpb : 0 < ntpb)
    (hrange : ∀ t, wrote ≤ t → t < wrote + left →
      t / ntpb < pBlocks.length ∧ t / ntpb < dBlocks.length ∧
      b.Fits (gtRecord pTok pK dTok ntpb g pBlocks dBlocks swap t).srcOffset
        (gtRecord pTok pK dTok ntpb g pBlocks dBlocks swap t).dstOffset pK) :
    ∃ out, parseBlockSendGt env pTok pK dTok ntpb g pBlocks dBlocks wrote left b swap = .ok out ∧
      out.Perm ((List.range' wrote left).map
        (gtRecord pTok pK dTok ntpb g pBlocks dBlocks swap)) := by
  rw [parseBlockSendGt, cassert_of hk, hfp8, map_eq_flatMap]
  refine exists_walk_perm (advances_toBoundary hntpb) wrote left fun p l hp hl he => ?_
  obtain ⟨hpB, hdB, -⟩ := hrange p hp (by omega)
  refine ⟨(List.range (toBoundary ntpb p l)).flatMap fun i =>
    [gtRecord pTok pK dTok ntpb g pBlocks dBlocks swap (p + i)], ?_, ?_⟩
  · simp only [parseBlockSendGtRound, checkedDiv_of_pos hntpb, cassert_of (And.intro hpB hdB),
      vecAt_of_lt hpB, vecAt_of_lt hdB, bind, Except.bind]
    refine emitAll_ok fun i hi => ?_
    have hlt : i < min (ntpb - p % ntpb) l := mem_range.mp hi
    obtain ⟨hdiv, hmod⟩ := divMod_add_of_lt (show i < ntpb - p % ntpb by omega)
    obtain ⟨-, -, hfit⟩ := hrange (p + i) (by omega) (by omega)
    have hsrc : ∀ x y : ℕ, x * (y * ntpb) + (p % ntpb + i) * y
        = (x * ntpb + (p + i) % ntpb) * y := fun x y => by rw [hmod]; ring
    simp only [hsrc]
    cases swap <;>
      exact appendIpcBlockChecked_eq_ok.mpr ⟨by simpa [gtRecord, tokenOffset, hdiv] using hfit,
        by simp [gtRecord, tokenOffset, hdiv]⟩
  · rw [range'_eq_map_range, flatMap_map]

end LlumnixKv
