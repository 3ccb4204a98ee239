import LlumnixKv.Parse.FanOut

/-!
# Parse/WholePages — the hybrid parse functions for P = D

With equal TP sizes both sides have the same pages, whatever is in them: attention and indexer blocks
are sent whole, and so are the pages of the recurrent state once the request is complete.  TURBOQUANT
has no functions of its own and runs those of QWEN3_NEXT_FLASH.
-/

open Machinery

namespace LlumnixKv

variable (env : EnvCfg)

/-- The pages of the groups from `firstGroup` on, whole. -/
def wholePages (blockSize firstGroup numGroups : ℕ) (srcBlocks dstBlocks : List (List ℕ))
    (bounds : IpcBlockBounds) : Except Fault (List IpcBlock) :=
  emitAll (fun groupIdx => do
    cassert env.ndebug (groupIdx < srcBlocks.length ∧ groupIdx < dstBlocks.length)
    let srcGrp ← vecAt srcBlocks groupIdx
    let dstGrp ← vecAt dstBlocks groupIdx
    cassert env.ndebug (srcGrp.length = dstGrp.length)
    emitAll (sendPage blockSize blockSize blockSize srcGrp dstGrp bounds)
      (List.range srcGrp.length)) (List.range' firstGroup numGroups)

/-- `parse_hybrid_gdn_block_send_p_eq_d`. -/
def parseHybridGdnBlockSendPEqD (blockSize numGdnLayers : ℕ) (srcBlocks dstBlocks : List (List ℕ))
    (bounds : IpcBlockBounds) : Except Fault (List IpcBlock) :=
  wholePages env blockSize 0 numGdnLayers srcBlocks dstBlocks bounds

/-- `parse_hybrid_short_conv_block_send_p_eq_d`. -/
def parseHybridShortConvBlockSendPEqD (blockSize numPleLayers pleBlockGroup : ℕ)
    (srcBlocks dstBlocks : List (List ℕ)) (bounds : IpcBlockBounds) :
    Except Fault (List IpcBlock) :=
  wholePages env blockSize pleBlockGroup numPleLayers srcBlocks dstBlocks bounds

/-- What is sent once the request is complete. -/
def wholeStatePart (blockSize : ℕ) (src : WorkerInfo) (task : ReqSendTask) (bounds : IpcBlockBounds)
    : Except Fault (List IpcBlock) :=
  if task.reachLastToken then do
    let gdn ← parseHybridGdnBlockSendPEqD env blockSize src.numGdnLayers task.req.srcBlocks
      task.req.dstBlocks bounds
    let conv ← parseHybridShortConvBlockSendPEqD env blockSize src.numPleLayers src.pleBlockGroup
      task.req.srcBlocks task.req.dstBlocks bounds
    return gdn ++ conv
  else return []

/-- `vllm_parse_hybrid_block_send_p_eq_d_block_aligned`; its indexer and attention blocks are sent as in
the replicated regime of P < D. -/
def vllmParseHybridBlockSendPEqDBlockAligned : ParseBlockFunc :=
  fun src dst _ kvtTpSize _ task => do
    cassert env.ndebug (src.engineTpSize = dst.engineTpSize)
    cassert env.ndebug (kvtTpSize = dst.engineTpSize)
    cassert env.ndebug (src.workerTpRank = dst.workerTpRank)
    cassert env.ndebug (src.tokenSizes = dst.tokenSizes)
    cassert env.ndebug (src.blockSizes = dst.blockSizes)
    cassert env.ndebug (src.tokenSizes.length = src.blockSizes.length)
    cassert env.ndebug (dst.tokenSizes.length = dst.blockSizes.length)
    cassert env.ndebug (src.tokenSizes.length = 1)
    cassert env.ndebug (src.blockSizes.length = 1)
    let bounds ← makeIpcBlockBounds env src dst 0
    let pack := packOf src.attnPackSize
    let blockSize ← vecAt src.blockSizes 0
    let tokenSize ← vecAt src.tokenSizes 0
    let quotient ← checkedDiv blockSize tokenSize
    cassert env.ndebug (quotient % pack = 0)
    cassert env.ndebug (src.attnKernelBlkNtpb = dst.attnKernelBlkNtpb)
    cassert env.ndebug (src.indexerBlkNtpb = dst.indexerBlkNtpb)
    cassert env.ndebug (src.attnPackSize = dst.attnPackSize)
    let attn ← fanOutReplicated env false blockSize (u32 (quotient / pack)) src task bounds
    let state ← wholeStatePart env blockSize src task bounds
    return firstOf src.tokenSizes.length (attn ++ state)

/-- `turboquant_parse_block_send_p_eq_d`. -/
def turboquantParseBlockSendPEqD : ParseBlockFunc :=
  vllmParseHybridBlockSendPEqDBlockAligned env

/-- `turboquant_parse_block_send_p_gt_d`. -/
def turboquantParseBlockSendPGtD : ParseBlockFunc := vllmParseHybridBlockSendPGtD env

/-- `vllm_parse_qwen3_next_flashinfer_block_send_p_eq_d`: the head sections are in the same places on
both sides, the blocks are sent whole. -/
def vllmParseQwen3NextFlashinferBlockSendPEqD : ParseBlockFunc :=
  fun src dst _ kvtTpSize _ task => do
    cassert env.ndebug (src.engineTpSize = dst.engineTpSize)
    cassert env.ndebug (kvtTpSize = dst.engineTpSize)
    cassert env.ndebug (src.workerTpRank = dst.workerTpRank)
    cassert env.ndebug (src.tokenSizes = dst.tokenSizes)
    cassert env.ndebug (src.blockSizes = dst.blockSizes)
    cassert env.ndebug (src.tokenSizes.length = 1)
    cassert env.ndebug (src.blockSizes.length = 1)
    let pTokenSize ← vecAt src.tokenSizes 0
    let _ ← vecAt dst.tokenSizes 0
    let pBlockSize ← vecAt src.blockSizes 0
    let _ ← vecAt dst.blockSizes 0
    let quotient ← checkedDiv pBlockSize pTokenSize
    let ntpb := u32 quotient
    cassert env.ndebug (ntpb * pTokenSize = pBlockSize)
    cassert env.ndebug (src.attnKernelBlkNtpb = ntpb)
    cassert env.ndebug (dst.attnKernelBlkNtpb = ntpb)
    let bounds ← makeIpcBlockBounds env src dst 0
    cassert env.ndebug (src.numGdnLayers < task.req.srcBlocks.length)
    cassert env.ndebug (src.numGdnLayers < task.req.dstBlocks.length)
    cassert env.ndebug (src.indexerBlkNtpb = dst.indexerBlkNtpb)
    let attn ← fanOutReplicated env true pBlockSize ntpb src task bounds
    let state ← wholeStatePart env pBlockSize src task bounds
    return firstOf src.tokenSizes.length (attn ++ state)

end LlumnixKv
