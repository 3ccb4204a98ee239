import LlumnixKv.Parse.Hybrid

/-!
# Parse/FlashInfer — pages with the heads outside the tokens

    page           (2, num_kv_heads, block_size, head_dim)
                   [ K head 0 : t₀ t₁ … | K head 1 : t₀ t₁ … | … | V head 0 : t₀ t₁ … | … ]

FLASHINFER and QWEN3_NEXT_FLASHINFER keep the tokens of a head together, so a run of tokens is one
record for each head and half.  P > D merges the head sections of `attn_group_n` senders, each behind
the `per_group_kv_size` bytes of the ones before it; the hybrid shape runs the same functions as
QWEN3_NEXT_FLASH for its recurrent state and its indexer.
-/

open Machinery

namespace LlumnixKv

/-- `static_cast<size_t>` of an `int`. -/
def toSize (x : ℤ) : ℕ := (x % 2 ^ 64).toNat

theorem toSize_of_lt {n : ℕ} (h : n < 2 ^ 64) : toSize n = n := by
  unfold toSize
  omega

/-! ## The head loop -/

/-- One side of the head loop: where the kernel block starts, what a head and a half of it take, and
the token the run starts at. -/
structure HndRun where
  blkOff : ℕ
  headSectionSize : ℕ
  kvSectionSize : ℕ
  tokenIdx : ℕ
  deriving DecidableEq, Repr

/-- Where the run of a head starts in the K half. -/
def HndRun.kOff (s : HndRun) (headDimSize headIdx : ℕ) : ℕ :=
  s.blkOff + headIdx * s.headSectionSize + s.tokenIdx * headDimSize

/-- The K and V records of a run of `length` bytes, head by head; the `d` side's heads start
`groupOff` bytes into each half. -/
def hndHeads (p d : HndRun) (headDimSize groupOff length : ℕ) (numKvHeads : ℤ)
    (bounds : IpcBlockBounds) (swapOffsets : Bool) : Except Fault (List IpcBlock) :=
  emitAll (fun headIdx => do
    let pkOff := p.kOff headDimSize headIdx
    let pvOff := pkOff + p.kvSectionSize
    let dkOff := d.kOff headDimSize headIdx + groupOff
    let dvOff := dkOff + d.kvSectionSize
    let k ← appendIpcBlockChecked bounds (if swapOffsets then dkOff else pkOff)
      (if swapOffsets then pkOff else dkOff) length
    let v ← appendIpcBlockChecked bounds (if swapOffsets then dvOff else pvOff)
      (if swapOffsets then pvOff else dvOff) length
    return k ++ v) (List.range numKvHeads.toNat)

variable (env : EnvCfg)

/-- `head_dim_size`: the bytes of a head in a K (or V) row. -/
def headDimOf (tokenSize : ℕ) (numKvHeads : ℤ) : Except Fault ℕ := do
  cassert env.ndebug (0 < numKvHeads)
  cassert env.ndebug (tokenSize % (2 * toSize numKvHeads) = 0)
  checkedDiv (tokenSize / 2) (toSize numKvHeads)

/-- `parse_flashinfer_HND_block`: the two sides have the same block tokens. -/
def parseFlashinferHNDBlock (pTokenSize pBlockSize dBlockSize ntpb : ℕ)
    (srcBlocks dstBlocks : List ℕ) (wroteTokens leftTokens attnGroupN attnGroupOff : ℕ)
    (numKvHeads : ℤ) (bounds : IpcBlockBounds) (swapOffsets : Bool) :
    Except Fault (List IpcBlock) := do
  let headDimSize ← headDimOf env pTokenSize numKvHeads
  let headSectionSize := ntpb * headDimSize
  let perGroupKvSize := toSize numKvHeads * headSectionSize
  cassert env.ndebug (perGroupKvSize * attnGroupN = dBlockSize / 2)
  walk (toBoundary ntpb) (fun wrote tokens => do
    let blockIdx ← checkedDiv wrote ntpb
    let srcBlock ← vecAt srcBlocks blockIdx
    let dstBlock ← vecAt dstBlocks blockIdx
    hndHeads ⟨srcBlock * pBlockSize, headSectionSize, pBlockSize / 2, wrote % ntpb⟩
      ⟨dstBlock * dBlockSize, headSectionSize, dBlockSize / 2, wrote % ntpb⟩ headDimSize
      (attnGroupOff * perGroupKvSize) (tokens * headDimSize) numKvHeads bounds swapOffsets)
    leftTokens wroteTokens leftTokens

variable (p d : HybridSide)

/-- One round of `parse_hybrid_flashinfer_HND_block`: the tokens left in the kernel block of either
side. -/
def hybridHndRound (headDimSize groupOff : ℕ) (numKvHeads : ℤ) (bounds : IpcBlockBounds)
    (swapOffsets : Bool) (wrote tokens : ℕ) :
    Except Fault (List IpcBlock) := do
  let pPos ← hybridPos 1 p.ntpb p.kernelBlkNtpb p.kernelBlkSize wrote
  let dPos ← hybridPos 1 d.ntpb d.kernelBlkNtpb d.kernelBlkSize wrote
  cassert env.ndebug (pPos.blkIdx < p.blocks.length ∧ dPos.blkIdx < d.blocks.length)
  let pBlock ← vecAt p.blocks pPos.blkIdx
  let dBlock ← vecAt d.blocks dPos.blkIdx
  hndHeads
    ⟨p.kernelBlkOff pBlock pPos 0, p.kernelBlkNtpb * headDimSize, p.kernelBlkSize / 2,
      pPos.tokenIdxBase⟩
    ⟨d.kernelBlkOff dBlock dPos 0, d.kernelBlkNtpb * headDimSize, d.kernelBlkSize / 2,
      dPos.tokenIdxBase⟩
    headDimSize groupOff (tokens * headDimSize) numKvHeads bounds swapOffsets

/-- `parse_hybrid_flashinfer_HND_block`. -/
def parseHybridFlashinferHNDBlock (wroteTokens leftTokens : ℕ) (attnGroupN attnGroupOff : ℕ)
    (numKvHeads : ℤ) (bounds : IpcBlockBounds) (swapOffsets : Bool) :
    Except Fault (List IpcBlock) := do
  cassert env.ndebug (p.kernelBlkSize / 2 * 2 = p.kernelBlkSize)
  cassert env.ndebug (d.kernelBlkSize / 2 * 2 = d.kernelBlkSize)
  let headDimSize ← headDimOf env p.tokenSize numKvHeads
  let perGroupKvSize := toSize numKvHeads * (d.kernelBlkNtpb * headDimSize)
  cassert env.ndebug (perGroupKvSize * attnGroupN = d.kernelBlkSize / 2)
  walk (toBoundaries p.kernelBlkNtpb d.kernelBlkNtpb)
    (hybridHndRound env p d headDimSize (attnGroupOff * perGroupKvSize) numKvHeads bounds
      swapOffsets) leftTokens wroteTokens leftTokens

/-- The zero records of the tail of each head's K and V section, `length` bytes each. -/
def hndZeroFill (d : HndRun) (headDimSize groupOff length : ℕ) (numKvHeads : ℤ)
    (zeroSrcOff pBlockSize : ℕ) (bounds : IpcBlockBounds) : Except Fault (List IpcBlock) :=
  emitAll (fun headIdx => do
    let dkOff := d.kOff headDimSize headIdx + groupOff
    let dvOff := dkOff + d.kvSectionSize
    let k ← emitZeroFillSegments env zeroSrcOff dkOff length pBlockSize bounds
    let v ← emitZeroFillSegments env zeroSrcOff dvOff length pBlockSize bounds
    return k ++ v) (List.range numKvHeads.toNat)

/-- `fill_last_hybrid_flashinfer_HND_block`: zeros for the unused tail of the last destination block,
read from request block 0. -/
def fillLastHybridFlashinferHNDBlock (totalTokens : ℕ) (attnGroupOff : ℕ) (numKvHeads : ℤ)
    (bounds : IpcBlockBounds) :
    Except Fault (List IpcBlock) := do
  if totalTokens = 0 then return []
  let dBlkIdx ← checkedDiv totalTokens d.ntpb
  let filled := totalTokens % d.ntpb
  if filled = 0 then return []
  let remaining := d.ntpb - filled
  cassert env.ndebug (dBlkIdx < d.blocks.length)
  let headDimSize ← headDimOf env p.tokenSize numKvHeads
  let perGroupKvSize := toSize numKvHeads * (d.ntpb * headDimSize)
  let zeroBlock ← vecAt p.blocks 0
  let dBlock ← vecAt d.blocks dBlkIdx
  hndZeroFill env ⟨dBlock * d.blockSize, d.ntpb * headDimSize, d.ntpb * d.tokenSize / 2, filled⟩
    headDimSize (attnGroupOff * perGroupKvSize) (remaining * headDimSize) numKvHeads
    (zeroBlock * p.blockSize) p.blockSize bounds

/-! ## FLASHINFER -/

/-- `per_tp_kv_heads` of the FLASHINFER functions: the rank's share of the heads.  With fewer heads
than ranks it is the number of all heads, not the one the rank holds. -/
def flashinferTpKvHeads (p : WorkerInfo) : ℤ :=
  if 0 < p.numKvHeads ∧ (p.engineTpSize : ℤ) ≤ p.numKvHeads then p.numKvHeads / p.engineTpSize
  else max 1 p.numKvHeads

/-- What the two FLASHINFER functions do after their entry checks. -/
def sendFlashinfer (p d : WorkerInfo) (attnGroupN attnGroupOff : ℕ) (task : ReqSendTask) :
    Except Fault (List (List IpcBlock)) := do
  cassert env.ndebug (p.tokenSizes.length = 1)
  cassert env.ndebug (d.tokenSizes.length = 1)
  cassert env.ndebug (p.blockSizes.length = 1)
  cassert env.ndebug (d.blockSizes.length = 1)
  let pTokenSize ← vecAt p.tokenSizes 0
  let dTokenSize ← vecAt d.tokenSizes 0
  let pBlockSize ← vecAt p.blockSizes 0
  let dBlockSize ← vecAt d.blockSizes 0
  let srcQuotient ← checkedDiv pBlockSize pTokenSize
  let dstQuotient ← checkedDiv dBlockSize dTokenSize
  cassert env.ndebug (u32 srcQuotient = u32 dstQuotient)
  let srcBlocks ← vecAt task.req.srcBlocks 0
  let dstBlocks ← vecAt task.req.dstBlocks 0
  let bounds ← makeIpcBlockBounds env p d 0
  let out ← parseFlashinferHNDBlock env pTokenSize pBlockSize dBlockSize (u32 srcQuotient) srcBlocks
    dstBlocks task.seenTokens task.newTokens attnGroupN attnGroupOff (flashinferTpKvHeads p) bounds
    false
  return [out]

/-- `vllm_parse_flashinfer_block_send_p_eq_d`. -/
def vllmParseFlashinferBlockSendPEqD : ParseBlockFunc :=
  fun p d _ kvtTpSize _ task => do
    cassert env.ndebug (kvtTpSize = d.engineTpSize)
    sendFlashinfer env p d 1 0 task

/-- `vllm_parse_flashinfer_block_send_p_gt_d`. -/
def vllmParseFlashinferBlockSendPGtD : ParseBlockFunc :=
  fun p d validRanks kvtTpSize kvtTpRank task => do
    if validRanks.getLsbD p.workerTpRank = false then return []
    let attnGroupN ← checkedDiv (Bitset.count validRanks) d.engineTpSize
    let group ← checkedDiv kvtTpRank attnGroupN
    let attnGroupOff := kvtTpRank % attnGroupN
    cassert env.ndebug (d.engineTpSize < kvtTpSize)
    cassert env.ndebug (group = d.workerTpRank)
    sendFlashinfer env p d attnGroupN attnGroupOff task

/-! ## QWEN3_NEXT_FLASHINFER, P > D -/

/-- `per_tp_kv_heads` of the hybrid functions. -/
def perTpKvHeads (info : WorkerInfo) : ℤ := max 1 (info.numKvHeads.tdiv info.engineTpSize)

/-- The attention records of a valid rank, and the zero tail of a complete request. -/
def hybridHndPart (attnGroupN attnGroupOff : ℕ) (srcHeadsPerRank : ℤ) (task : ReqSendTask)
    (bounds : IpcBlockBounds) :
    Except Fault (List IpcBlock) := do
  let attn ← parseHybridFlashinferHNDBlock env p d task.seenTokens task.newTokens attnGroupN
    attnGroupOff srcHeadsPerRank bounds false
  let fill ← (if env.padLastAttnBlock && task.reachLastToken then
      fillLastHybridFlashinferHNDBlock env p d (task.seenTokens + task.newTokens) attnGroupOff
        srcHeadsPerRank bounds
    else .ok [])
  return attn ++ fill

/-- `vllm_parse_qwen3_next_flashinfer_block_send_p_gt_d`. -/
def vllmParseQwen3NextFlashinferBlockSendPGtD : ParseBlockFunc :=
  fun src dst validRanks _ kvtTpRank task => do
    cassert env.ndebug (dst.engineTpSize < src.engineTpSize)
    let gdnGroupN ← checkedDiv src.engineTpSize dst.engineTpSize
    cassert env.ndebug (src.engineTpSize % dst.engineTpSize = 0)
    let gdnGroup ← checkedDiv src.workerTpRank gdnGroupN
    let gdnGroupOff := src.workerTpRank % gdnGroupN
    cassert env.ndebug (gdnGroup = dst.workerTpRank)
    let attnGroupN := Bitset.count validRanks / dst.engineTpSize
    let attnGroupOff := if 0 < attnGroupN then kvtTpRank % attnGroupN else 0
    cassert env.ndebug (src.tokenSizes.length = 1)
    cassert env.ndebug (dst.tokenSizes.length = 1)
    cassert env.ndebug (src.blockSizes.length = 1)
    cassert env.ndebug (dst.blockSizes.length = 1)
    let pTokenSize ← vecAt src.tokenSizes 0
    let dTokenSize ← vecAt dst.tokenSizes 0
    let pBlockSize ← vecAt src.blockSizes 0
    let dBlockSize ← vecAt dst.blockSizes 0
    let srcHeadsPerRank := perTpKvHeads src
    let srcQuotient ← checkedDiv pBlockSize pTokenSize
    let dstQuotient ← checkedDiv dBlockSize dTokenSize
    let srcNtpb := u32 srcQuotient
    let dstNtpb := u32 dstQuotient
    cassert env.ndebug (srcNtpb * pTokenSize = pBlockSize)
    cassert env.ndebug (dstNtpb * dTokenSize = dBlockSize)
    cassert env.ndebug (src.attnKernelBlkNtpb = srcNtpb)
    cassert env.ndebug (dst.attnKernelBlkNtpb = dstNtpb)
    let bounds ← makeIpcBlockBounds env src dst 0
    let srcBlocks := task.req.srcBlocks
    let dstBlocks := task.req.dstBlocks
    cassert env.ndebug (src.numGdnLayers < srcBlocks.length)
    cassert env.ndebug (src.numGdnLayers < dstBlocks.length)
    cassert env.ndebug ((src.indexerBlkNtpb = 0 ∧ dst.indexerBlkNtpb = 0) ∨
      (0 < src.indexerBlkNtpb ∧ 0 < dst.indexerBlkNtpb))
    let state ← hybridStatePart env pBlockSize dBlockSize gdnGroupN gdnGroupOff src task bounds
    let indexer ← hybridIndexerPart env pBlockSize dBlockSize gdnGroupN src dst task bounds
    cassert env.ndebug (attnGroupOffset src dst < srcBlocks.length)
    cassert env.ndebug (attnGroupOffset src dst < dstBlocks.length)
    if validRanks.getLsbD src.workerTpRank then
      let srcAttn ← vecAt srcBlocks (attnGroupOffset src dst)
      let dstAttn ← vecAt dstBlocks (attnGroupOffset src dst)
      let attn ← hybridHndPart env
        ⟨srcNtpb, pTokenSize, pBlockSize, srcAttn, src.attnKernelBlkNtpb⟩
        ⟨dstNtpb, dTokenSize, dBlockSize, dstAttn, dst.attnKernelBlkNtpb⟩
        attnGroupN attnGroupOff srcHeadsPerRank task bounds
      return firstOf src.tokenSizes.length (state ++ indexer ++ attn)
    else return firstOf src.tokenSizes.length (state ++ indexer)

end LlumnixKv
