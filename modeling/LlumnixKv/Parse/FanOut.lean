import LlumnixKv.Parse.FlashInfer
import LlumnixKv.Parse.Recurrent

/-!
# Parse/FanOut — the hybrid parse functions for P < D

    P rank p      [ slice 0 | slice 1 | … | slice attn_group_n-1 ]      heads of a row
                        ╲          ╲
    D rank d      [ slice (d / replicas) % attn_group_n ]

One P rank serves `d_tp / p_tp` D ranks.  With no more heads than P ranks both sides hold the same
rows, and whole blocks are copied.  With more heads a P row is cut into `attn_group_n` slices, each for
`replicas` D ranks: the loops of P > D run with the two sides exchanged and the records turned around
(`swap_offsets`), and what they leave of the D blocks is filled with zeros.
-/

open Machinery

namespace LlumnixKv

/-! ## The tail of the D blocks -/

/-- `end_tokens`: the tokens the D blocks of a request have room for. -/
def tailEnd (numBlocks ntpb : ℕ) : ℕ := u32 (u32 numBlocks * ntpb)

variable (env : EnvCfg)

/-- `fill_tail_hybrid_attn_block_p_lt_d`: zeros from `total_tokens` to the end of the D blocks, read
from request block 0. -/
def fillTailHybridAttnBlockPLtD (pBlockSize : ℕ) (d : HybridSide) (attnPackSize : ℕ)
    (srcBlocks : List ℕ) (totalTokens : ℕ) (bounds : IpcBlockBounds) :
    Except Fault (List IpcBlock) := do
  let pack := packOf attnPackSize
  let perLayerDst := if pack = 1 then d.ntpb else d.ntpb / pack
  cassert env.ndebug (perLayerDst * pack = d.ntpb)
  cassert env.ndebug (perLayerDst % d.kernelBlkNtpb = 0)
  cassert env.ndebug (d.tokenStepLength * 2 = d.tokenSize)
  let endTokens := tailEnd d.blocks.length perLayerDst
  if endTokens ≤ totalTokens then return []
  let zeroBlock ← vecAt srcBlocks 0
  walk (toBoundary d.kernelBlkNtpb) (fun dstPos tokens => do
    let dBlkIdx ← checkedDiv dstPos perLayerDst
    let dKernelInVllm ← checkedDiv (dstPos % perLayerDst) d.kernelBlkNtpb
    cassert env.ndebug (dBlkIdx < d.blocks.length)
    let dBlock ← vecAt d.blocks dBlkIdx
    let pos : HybridPos := ⟨dBlkIdx, dstPos % d.kernelBlkNtpb, dKernelInVllm * pack * d.kernelBlkSize⟩
    emitAll (fun sub => do
      let dkOff := d.kernelBlkOff dBlock pos sub + pos.tokenIdxBase * d.tokenStepLength
      let dvOff := dkOff + d.kernelBlkSize / 2
      let k ← emitZeroFillSegments env (zeroBlock * pBlockSize) dkOff (tokens * d.tokenStepLength)
        pBlockSize bounds
      let v ← emitZeroFillSegments env (zeroBlock * pBlockSize) dvOff (tokens * d.tokenStepLength)
        pBlockSize bounds
      return k ++ v) (List.range pack))
    (endTokens - totalTokens) totalTokens (endTokens - totalTokens)

/-- `fill_tail_hybrid_flashinfer_HND_block_p_lt_d`. -/
def fillTailHybridFlashinferHNDBlockPLtD (pBlockSize : ℕ) (d : HybridSide) (headDimSize : ℕ)
    (dstHeadsPerRank : ℤ) (srcBlocks : List ℕ) (totalTokens : ℕ) (bounds : IpcBlockBounds) :
    Except Fault (List IpcBlock) := do
  let endTokens := tailEnd d.blocks.length d.ntpb
  if endTokens ≤ totalTokens then return []
  let zeroBlock ← vecAt srcBlocks 0
  walk (toBoundary d.ntpb) (fun dstPos tokens => do
    let dBlkIdx ← checkedDiv dstPos d.ntpb
    cassert env.ndebug (dBlkIdx < d.blocks.length)
    let dBlock ← vecAt d.blocks dBlkIdx
    hndZeroFill env
      ⟨dBlock * d.blockSize, d.ntpb * headDimSize, d.blockSize / 2, dstPos % d.ntpb⟩
      headDimSize 0 (tokens * headDimSize) dstHeadsPerRank (zeroBlock * pBlockSize) pBlockSize
      bounds)
    (endTokens - totalTokens) totalTokens (endTokens - totalTokens)

/-! ## The recurrent state -/

/-- `parse_hybrid_short_conv_block_send_p_lt_d`: every D rank gets the replicated state, by the loop
the first rank of a P > D group runs. -/
def parseHybridShortConvBlockSendPLtD (pBlockSize dBlockSize : ℕ)
    (numPleLayers pleBlockGroup gdnGroupN gdnGroupOff : ℕ) (src : WorkerInfo)
    (srcBlocks dstBlocks : List (List ℕ)) (bounds : IpcBlockBounds) :
    Except Fault (List IpcBlock) := do
  if numPleLayers = 0 then return []
  cassert env.ndebug (src.pleConvStateShape ≠ [])
  cassert env.ndebug (0 < gdnGroupN)
  cassert env.ndebug (gdnGroupOff < gdnGroupN)
  parseHybridShortConvBlockSendPGtD env pBlockSize dBlockSize numPleLayers pleBlockGroup gdnGroupN 0
    src srcBlocks dstBlocks bounds

/-- What is sent once the request is complete: this D rank's share of the state. -/
def hybridStatePartPLtD (pBlockSize dBlockSize gdnGroupN gdnGroupOff : ℕ) (src : WorkerInfo)
    (task : ReqSendTask) (bounds : IpcBlockBounds) : Except Fault (List IpcBlock) :=
  if task.reachLastToken then do
    let gdn ← parseHybridGdnBlockSendPLtD env pBlockSize dBlockSize src.numGdnLayers gdnGroupN
      gdnGroupOff src task.req.srcBlocks task.req.dstBlocks bounds
    let conv ← parseHybridShortConvBlockSendPLtD env pBlockSize dBlockSize src.numPleLayers
      src.pleBlockGroup gdnGroupN gdnGroupOff src task.req.srcBlocks task.req.dstBlocks bounds
    return gdn ++ conv
  else return []

/-! ## The two regimes -/

/-- `attn_group_offset` where the indexer group is found on P alone. -/
def attnGroupOffsetPLtD (src : WorkerInfo) : ℕ :=
  src.numGdnLayers + if 0 < src.indexerBlkNtpb then 1 else 0

/-- The indexer records, `send` being the copy of the regime. -/
def fanOutIndexer (src : WorkerInfo) (task : ReqSendTask)
    (send : List ℕ → List ℕ → Except Fault (List IpcBlock)) : Except Fault (List IpcBlock) :=
  if 0 < src.indexerBlkNtpb then do
    let srcIndexer ← vecAt task.req.srcBlocks src.numGdnLayers
    let dstIndexer ← vecAt task.req.dstBlocks src.numGdnLayers
    send srcIndexer dstIndexer
  else return []

/-- The replicated regime: P and D hold the same rows, indexer and attention blocks are copied whole.
QWEN3_NEXT_FLASHINFER asserts that the attention group is there, QWEN3_NEXT_FLASH does not. -/
def fanOutReplicated (assertGroup : Bool) (blockSize attnNtpb : ℕ) (src : WorkerInfo)
    (task : ReqSendTask) (bounds : IpcBlockBounds) : Except Fault (List IpcBlock) := do
  let indexer ← fanOutIndexer src task fun srcBlks dstBlks =>
    doParseBlockAlignedSend env blockSize task srcBlks dstBlks src.indexerBlkNtpb bounds
  if assertGroup then
    cassert env.ndebug (attnGroupOffsetPLtD src < task.req.srcBlocks.length)
    cassert env.ndebug (attnGroupOffsetPLtD src < task.req.dstBlocks.length)
  let srcAttn ← vecAt task.req.srcBlocks (attnGroupOffsetPLtD src)
  let dstAttn ← vecAt task.req.dstBlocks (attnGroupOffsetPLtD src)
  let attn ← doParseBlockAlignedSend env blockSize task srcAttn dstAttn attnNtpb bounds
  return indexer ++ attn

/-- `attn_group_n` and `attn_group_off` of the sliced regime: how many D rows a P row holds, and which
of them this D rank gets. -/
def attnSlice (pTokenSize dTokenSize pTp dTp dRank : ℕ) : Except Fault (ℕ × ℕ) := do
  cassert env.ndebug (dTokenSize < pTokenSize)
  let quotient ← checkedDiv pTokenSize dTokenSize
  cassert env.ndebug (pTokenSize % dTokenSize = 0)
  let attnGroupN := u32 quotient
  let replicas ← checkedDiv dTp (u32 (pTp * attnGroupN))
  cassert env.ndebug (dTp % u32 (pTp * attnGroupN) = 0)
  let share ← checkedDiv dRank replicas
  let _ ← checkedDiv share attnGroupN
  return (attnGroupN, share % attnGroupN)

/-- The sliced regime: the indexer token by token, then the attention records `send` emits for the two
tables. -/
def fanOutSliced (pBlockSize dBlockSize : ℕ) (src dst : WorkerInfo) (task : ReqSendTask)
    (bounds : IpcBlockBounds) (send : List ℕ → List ℕ → Except Fault (List IpcBlock)) :
    Except Fault (List IpcBlock) := do
  let indexer ← fanOutIndexer src task fun srcBlks dstBlks =>
    parseHybridIndexerBlock env pBlockSize dBlockSize task.seenTokens task.newTokens srcBlks dstBlks
      src.indexerBlkNtpb dst.indexerBlkNtpb src.hybridIndexerTokenSize bounds
  cassert env.ndebug (attnGroupOffsetPLtD src < task.req.srcBlocks.length)
  cassert env.ndebug (attnGroupOffsetPLtD src < task.req.dstBlocks.length)
  let srcAttn ← vecAt task.req.srcBlocks (attnGroupOffsetPLtD src)
  let dstAttn ← vecAt task.req.dstBlocks (attnGroupOffsetPLtD src)
  let attn ← send srcAttn dstAttn
  return indexer ++ attn

/-! ## QWEN3_NEXT_FLASH -/

/-- The attention records of the sliced regime: `parse_hybrid_attn_block` with D as the narrow side,
its records turned around, and the zero tail of a complete request. -/
def slicedAttnPart (p d : HybridSide) (attnGroupOff pack : ℕ) (task : ReqSendTask)
    (bounds : IpcBlockBounds) : Except Fault (List IpcBlock) := do
  let attn ← parseHybridAttnBlock env d p task.seenTokens task.newTokens attnGroupOff pack bounds true
  let fill ← (if env.padLastAttnBlock && task.reachLastToken then
      fillTailHybridAttnBlockPLtD env p.blockSize d pack p.blocks (task.seenTokens + task.newTokens)
        bounds
    else .ok [])
  return attn ++ fill

/-- `vllm_parse_hybrid_block_send_p_lt_d`. -/
def vllmParseHybridBlockSendPLtD : ParseBlockFunc := fun src dst _ _ _ task => do
  cassert env.ndebug (src.engineTpSize < dst.engineTpSize)
  let gdnGroupN ← checkedDiv dst.engineTpSize src.engineTpSize
  cassert env.ndebug (dst.engineTpSize % src.engineTpSize = 0)
  let gdnGroup ← checkedDiv dst.workerTpRank gdnGroupN
  let gdnGroupOff := dst.workerTpRank % gdnGroupN
  cassert env.ndebug (gdnGroup = src.workerTpRank)
  cassert env.ndebug (src.tokenSizes.length = 1)
  cassert env.ndebug (src.blockSizes.length = 1)
  cassert env.ndebug (dst.tokenSizes.length = 1)
  cassert env.ndebug (dst.blockSizes.length = 1)
  let pTokenSize ← vecAt src.tokenSizes 0
  let pBlockSize ← vecAt src.blockSizes 0
  let dTokenSize ← vecAt dst.tokenSizes 0
  let dBlockSize ← vecAt dst.blockSizes 0
  let bounds ← makeIpcBlockBounds env src dst 0
  let pack := packOf src.attnPackSize
  cassert env.ndebug ((src.indexerBlkNtpb = 0 ∧ dst.indexerBlkNtpb = 0) ∨
    (0 < src.indexerBlkNtpb ∧ 0 < dst.indexerBlkNtpb))
  cassert env.ndebug (src.attnPackSize = dst.attnPackSize)
  let attn ← (if pTokenSize = dTokenSize then do
      cassert env.ndebug (pBlockSize = dBlockSize)
      let quotient ← checkedDiv pBlockSize pTokenSize
      cassert env.ndebug (quotient % pack = 0)
      cassert env.ndebug (src.attnKernelBlkNtpb = dst.attnKernelBlkNtpb)
      cassert env.ndebug (src.indexerBlkNtpb = dst.indexerBlkNtpb)
      fanOutReplicated env false pBlockSize (u32 (quotient / pack)) src task bounds
    else do
      let slice ← attnSlice env pTokenSize dTokenSize src.engineTpSize dst.engineTpSize
        dst.workerTpRank
      cassert env.ndebug (src.numKvHeads ≤ 0 ∨ src.numKvHeads % src.engineTpSize = 0)
      let srcQuotient ← checkedDiv pBlockSize pTokenSize
      let dstQuotient ← checkedDiv dBlockSize dTokenSize
      let srcNtpb := u32 srcQuotient
      let dstNtpb := u32 dstQuotient
      cassert env.ndebug (srcNtpb * pTokenSize = pBlockSize)
      cassert env.ndebug (dstNtpb * dTokenSize = dBlockSize)
      fanOutSliced env pBlockSize dBlockSize src dst task bounds fun srcAttn dstAttn =>
        slicedAttnPart env ⟨srcNtpb, pTokenSize, pBlockSize, srcAttn, src.attnKernelBlkNtpb⟩
          ⟨dstNtpb, dTokenSize, dBlockSize, dstAttn, dst.attnKernelBlkNtpb⟩ slice.2 pack task bounds)
  let state ← hybridStatePartPLtD env pBlockSize dBlockSize gdnGroupN gdnGroupOff src task bounds
  return firstOf src.tokenSizes.length (attn ++ state)

/-! ## QWEN3_NEXT_FLASHINFER -/

/-- `dst_heads_per_rank`, the comparison being one of `uint32_t`. -/
def dstHeadsPerRank (numKvHeads : ℤ) (dTp : ℕ) : ℤ :=
  if (dTp : ℤ) ≤ numKvHeads % 2 ^ 32 then numKvHeads.tdiv dTp else 1

/-- The attention records of the sliced regime, and the zero tail of a complete request. -/
def slicedHndPart (p d : HybridSide) (slice : ℕ × ℕ) (headDimSize : ℕ) (dstHeads : ℤ)
    (task : ReqSendTask) (bounds : IpcBlockBounds) :
    Except Fault (List IpcBlock) := do
  let attn ← parseHybridFlashinferHNDBlock env d p task.seenTokens task.newTokens slice.1 slice.2
    dstHeads bounds true
  let fill ← (if env.padLastAttnBlock && task.reachLastToken then
      fillTailHybridFlashinferHNDBlockPLtD env p.blockSize d headDimSize dstHeads p.blocks
        (task.seenTokens + task.newTokens) bounds
    else .ok [])
  return attn ++ fill

/-- `vllm_parse_qwen3_next_flashinfer_block_send_p_lt_d`. -/
def vllmParseQwen3NextFlashinferBlockSendPLtD : ParseBlockFunc :=
  fun src dst _ _ _ task => do
    cassert env.ndebug (src.engineTpSize < dst.engineTpSize)
    let gdnGroupN ← checkedDiv dst.engineTpSize src.engineTpSize
    cassert env.ndebug (dst.engineTpSize % src.engineTpSize = 0)
    let gdnGroup ← checkedDiv dst.workerTpRank gdnGroupN
    let gdnGroupOff := dst.workerTpRank % gdnGroupN
    cassert env.ndebug (gdnGroup = src.workerTpRank)
    cassert env.ndebug (src.tokenSizes.length = 1)
    cassert env.ndebug (src.blockSizes.length = 1)
    cassert env.ndebug (dst.tokenSizes.length = 1)
    cassert env.ndebug (dst.blockSizes.length = 1)
    let pTokenSize ← vecAt src.tokenSizes 0
    let pBlockSize ← vecAt src.blockSizes 0
    let dTokenSize ← vecAt dst.tokenSizes 0
    let dBlockSize ← vecAt dst.blockSizes 0
    let srcQuotient ← checkedDiv pBlockSize pTokenSize
    let dstQuotient ← checkedDiv dBlockSize dTokenSize
    let srcNtpb := u32 srcQuotient
    let dstNtpb := u32 dstQuotient
    cassert env.ndebug (srcNtpb * pTokenSize = pBlockSize)
    cassert env.ndebug (dstNtpb * dTokenSize = dBlockSize)
    cassert env.ndebug (src.attnKernelBlkNtpb = srcNtpb)
    cassert env.ndebug (dst.attnKernelBlkNtpb = dstNtpb)
    let bounds ← makeIpcBlockBounds env src dst 0
    cassert env.ndebug (src.numGdnLayers < task.req.srcBlocks.length)
    cassert env.ndebug (src.numGdnLayers < task.req.dstBlocks.length)
    cassert env.ndebug ((src.indexerBlkNtpb = 0 ∧ dst.indexerBlkNtpb = 0) ∨
      (0 < src.indexerBlkNtpb ∧ 0 < dst.indexerBlkNtpb))
    let attn ← (if pTokenSize = dTokenSize then do
        cassert env.ndebug (pBlockSize = dBlockSize)
        cassert env.ndebug (src.indexerBlkNtpb = dst.indexerBlkNtpb)
        fanOutReplicated env true pBlockSize srcNtpb src task bounds
      else do
        let slice ← attnSlice env pTokenSize dTokenSize src.engineTpSize dst.engineTpSize
          dst.workerTpRank
        cassert env.ndebug (0 < src.numKvHeads)
        let dstHeads := dstHeadsPerRank src.numKvHeads dst.engineTpSize
        cassert env.ndebug (dTokenSize % (2 * toSize dstHeads) = 0)
        let headDimSize ← checkedDiv (dTokenSize / 2) (toSize dstHeads)
        fanOutSliced env pBlockSize dBlockSize src dst task bounds fun srcAttn dstAttn =>
          slicedHndPart env ⟨srcNtpb, pTokenSize, pBlockSize, srcAttn, src.attnKernelBlkNtpb⟩
            ⟨dstNtpb, dTokenSize, dBlockSize, dstAttn, dst.attnKernelBlkNtpb⟩ slice headDimSize
            dstHeads task bounds)
    let state ← hybridStatePartPLtD env pBlockSize dBlockSize gdnGroupN gdnGroupOff src task bounds
    return firstOf src.tokenSizes.length (attn ++ state)

end LlumnixKv
