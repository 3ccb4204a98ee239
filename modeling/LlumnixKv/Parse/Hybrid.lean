import LlumnixKv.Machinery.Bitset
import LlumnixKv.Parse.Common

/-!
# Parse/Hybrid — the QWEN3_NEXT_FLASH parse function for P > D

    block groups   [ GDN layers … | indexer? | attention ]
    page           [ L0K0 | L1K0 | … | L(pack-1)K0 | L0K1 | … ]     kernel blocks of all layers
    kernel block   [ K rows | V rows ]                              kernel_ntpb tokens each

Attention pages hold `pack` layers, interleaved by kernel block; P and D may have different page and
kernel sizes, so one loop walks the tokens with a position on either side.  The recurrent (GDN and
short-convolution) state is sent when the request is complete, and the unused tail of the last
destination block is filled with zeros.
-/

open Machinery

namespace LlumnixKv

/-! ## Attention -/

/-- Where a token lies on one side: the entry of the block table, the token's index in its kernel
block, and the offset of the kernel block of layer 0 in the page. -/
structure HybridPos where
  blkIdx : ℕ
  tokenIdxBase : ℕ
  kernelBlkOffBase : ℕ
  deriving DecidableEq, Repr

/-- The position of a token, for both layouts of `parse_hybrid_attn_block`. -/
def hybridPos (pack ntpb kernelBlkNtpb kernelBlkSize pos : ℕ) : Except Fault HybridPos :=
  if pack = 1 then do
    -- legacy layout: a vLLM block may hold several kernel blocks
    let blkIdx ← checkedDiv pos ntpb
    let kernelBlkIdx ← checkedDiv (pos - blkIdx * ntpb) kernelBlkNtpb
    return ⟨blkIdx, pos % kernelBlkNtpb, kernelBlkIdx * kernelBlkSize⟩
  else do
    let perLayerVllmNtpb := ntpb / pack
    let blkIdx ← checkedDiv pos perLayerVllmNtpb
    let kernelInVllm ← checkedDiv (pos % perLayerVllmNtpb) kernelBlkNtpb
    return ⟨blkIdx, pos % kernelBlkNtpb, kernelInVllm * pack * kernelBlkSize⟩

/-- What the two sides of `parse_hybrid_attn_block` are called with. -/
structure HybridSide where
  ntpb : ℕ
  tokenSize : ℕ
  blockSize : ℕ
  blocks : List ℕ
  kernelBlkNtpb : ℕ
  deriving DecidableEq, Repr

/-- `kernel_blk_ntpb * token_size`. -/
def HybridSide.kernelBlkSize (s : HybridSide) : ℕ := s.kernelBlkNtpb * s.tokenSize

/-- `token_size / 2`: a token's K row, or its V row. -/
def HybridSide.tokenStepLength (s : HybridSide) : ℕ := s.tokenSize / 2

/-- `kernel_blk_off`: the kernel block of layer `sub`. -/
def HybridSide.kernelBlkOff (s : HybridSide) (block : ℕ) (pos : HybridPos) (sub : ℕ) : ℕ :=
  block * s.blockSize + pos.kernelBlkOffBase + sub * s.kernelBlkSize

/-- The K and V records of a token of layer `sub`, `idx` tokens into the round. -/
def hybridAttnToken (p d : HybridSide) (attnGroupOff : ℕ) (bounds : IpcBlockBounds)
    (swapOffsets : Bool) (pBlock dBlock : ℕ) (pPos dPos : HybridPos) (sub idx : ℕ) :
    Except Fault (List IpcBlock) := do
  let pkTokenOff := p.kernelBlkOff pBlock pPos sub + (pPos.tokenIdxBase + idx) * p.tokenStepLength
  let pvTokenOff := pkTokenOff + p.kernelBlkSize / 2
  let dkTokenOff := d.kernelBlkOff dBlock dPos sub + (dPos.tokenIdxBase + idx) * d.tokenStepLength
    + attnGroupOff * p.tokenStepLength
  let dvTokenOff := dkTokenOff + d.kernelBlkSize / 2
  let k ← appendIpcBlockChecked bounds (if swapOffsets then dkTokenOff else pkTokenOff)
    (if swapOffsets then pkTokenOff else dkTokenOff) p.tokenStepLength
  let v ← appendIpcBlockChecked bounds (if swapOffsets then dvTokenOff else pvTokenOff)
    (if swapOffsets then pvTokenOff else dvTokenOff) p.tokenStepLength
  return k ++ v

variable (env : EnvCfg)

/-- One round of the token loop: the tokens left in the kernel block of either side. -/
def hybridAttnRound (p d : HybridSide) (attnGroupOff pack : ℕ) (bounds : IpcBlockBounds)
    (swapOffsets : Bool) (wrote tokens : ℕ) :
    Except Fault (List IpcBlock) := do
  if pack ≠ 1 then
    cassert env.ndebug (p.ntpb / pack * pack = p.ntpb)
    cassert env.ndebug (d.ntpb / pack * pack = d.ntpb)
    cassert env.ndebug (p.ntpb / pack % p.kernelBlkNtpb = 0)
    cassert env.ndebug (d.ntpb / pack % d.kernelBlkNtpb = 0)
  let pPos ← hybridPos pack p.ntpb p.kernelBlkNtpb p.kernelBlkSize wrote
  let dPos ← hybridPos pack d.ntpb d.kernelBlkNtpb d.kernelBlkSize wrote
  cassert env.ndebug (pPos.blkIdx < p.blocks.length ∧ dPos.blkIdx < d.blocks.length)
  let pBlock ← vecAt p.blocks pPos.blkIdx
  let dBlock ← vecAt d.blocks dPos.blkIdx
  cassert env.ndebug (p.tokenStepLength * 2 = p.tokenSize)
  cassert env.ndebug (d.tokenStepLength * 2 = d.tokenSize)
  emitAll (fun sub => emitAll (hybridAttnToken p d attnGroupOff bounds swapOffsets pBlock dBlock
    pPos dPos sub) (List.range tokens)) (List.range pack)

/-- `attn_pack_size == 0 ? 1 : attn_pack_size`. -/
def packOf (attnPackSize : ℕ) : ℕ := if attnPackSize = 0 then 1 else attnPackSize

/-- `parse_hybrid_attn_block`. -/
def parseHybridAttnBlock (p d : HybridSide) (attnWroteTokens attnLeftTokens : ℕ)
    (attnGroupOff attnPackSize : ℕ) (bounds : IpcBlockBounds) (swapOffsets : Bool) :
    Except Fault (List IpcBlock) :=
  walk (toBoundaries p.kernelBlkNtpb d.kernelBlkNtpb)
    (hybridAttnRound env p d attnGroupOff (packOf attnPackSize) bounds swapOffsets)
    attnLeftTokens attnWroteTokens attnLeftTokens

/-- The zero records of a tail token of layer `sub`. -/
def zeroFillToken (p d : HybridSide) (attnGroupOff : ℕ) (bounds : IpcBlockBounds)
    (zeroSrcOff dBlock : ℕ) (dPos : HybridPos) (sub idx : ℕ) : Except Fault (List IpcBlock) := do
  let dkTokenOff := d.kernelBlkOff dBlock dPos sub + (dPos.tokenIdxBase + idx) * d.tokenStepLength
    + attnGroupOff * p.tokenStepLength
  let dvTokenOff := dkTokenOff + d.kernelBlkSize / 2
  let k ← emitZeroFillSegments env zeroSrcOff dkTokenOff p.tokenStepLength p.blockSize bounds
  let v ← emitZeroFillSegments env zeroSrcOff dvTokenOff p.tokenStepLength p.blockSize bounds
  return k ++ v

/-- `fill_last_hybrid_attn_block`: zeros for the unused tail of the last destination block, read
from request block 0. -/
def fillLastHybridAttnBlock (p d : HybridSide) (totalTokens : ℕ) (attnGroupOff attnPackSize : ℕ)
    (bounds : IpcBlockBounds) : Except Fault (List IpcBlock) := do
  if totalTokens = 0 then return []
  let pack := packOf attnPackSize
  let perLayerSrc := if pack = 1 then p.ntpb else p.ntpb / pack
  let perLayerDst := if pack = 1 then d.ntpb else d.ntpb / pack
  cassert env.ndebug (perLayerSrc * pack = p.ntpb)
  cassert env.ndebug (perLayerDst * pack = d.ntpb)
  let _ ← checkedDiv totalTokens perLayerDst
  let filled := totalTokens % perLayerDst
  if filled = 0 then return []
  let toFill := perLayerDst - filled
  cassert env.ndebug (p.tokenStepLength * 2 = p.tokenSize)
  cassert env.ndebug (d.tokenStepLength * 2 = d.tokenSize)
  let zeroBlock ← vecAt p.blocks 0
  walk (fun srcPos left => min (p.kernelBlkNtpb - srcPos % p.kernelBlkNtpb)
      (min (d.kernelBlkNtpb - (totalTokens + srcPos) % d.kernelBlkNtpb) left))
    (fun srcPos tokens => do
      let pPos ← hybridPos pack p.ntpb p.kernelBlkNtpb p.kernelBlkSize srcPos
      let dPos ← hybridPos pack d.ntpb d.kernelBlkNtpb d.kernelBlkSize (totalTokens + srcPos)
      cassert env.ndebug (pPos.blkIdx = 0)
      cassert env.ndebug (dPos.blkIdx < d.blocks.length)
      let dBlock ← vecAt d.blocks dPos.blkIdx
      emitAll (fun sub => emitAll (zeroFillToken env p d attnGroupOff bounds
        (zeroBlock * p.blockSize) dBlock dPos sub) (List.range tokens)) (List.range pack))
    toFill 0 toFill

/-! ## The indexer and the recurrent state -/

/-- `parse_hybrid_indexer_block`; the offsets in a page and the length are `uint32_t` products. -/
def parseHybridIndexerBlock (pBlockSize dBlockSize wroteTokens leftTokens : ℕ)
    (srcBlocks dstBlocks : List ℕ) (pNtpb dNtpb indexerTokenSize : ℕ) (bounds : IpcBlockBounds) :
    Except Fault (List IpcBlock) := do
  cassert env.ndebug (0 < indexerTokenSize)
  walk (toBoundaries pNtpb dNtpb) (fun wrote tokens => do
    let srcBlockIdx ← checkedDiv wrote pNtpb
    let dstBlockIdx ← checkedDiv wrote dNtpb
    cassert env.ndebug (srcBlockIdx < srcBlocks.length)
    cassert env.ndebug (dstBlockIdx < dstBlocks.length)
    let srcBlock ← vecAt srcBlocks srcBlockIdx
    let dstBlock ← vecAt dstBlocks dstBlockIdx
    appendIpcBlockChecked bounds (srcBlock * pBlockSize + u32 (wrote % pNtpb * indexerTokenSize))
      (dstBlock * dBlockSize + u32 (wrote % dNtpb * indexerTokenSize))
      (u32 (tokens * indexerTokenSize)))
    leftTokens wroteTokens leftTokens

/-- The q/k/v segments of one convolution row: each is a group's share of D's segment. -/
def gdnConvRow (env : EnvCfg) (pConvDimSize elemSize groupN groupOff pRow dRow : ℕ)
    (bounds : IpcBlockBounds) : List ℕ → ℕ → Except Fault (List IpcBlock)
  | [], inner => do
    cassert env.ndebug (inner = pConvDimSize)
    return []
  | dim :: dims, inner => do
    let stepLength := dim * elemSize
    let out ← appendIpcBlockChecked bounds (pRow + inner)
      (dRow + groupN * inner + groupOff * stepLength) stepLength
    let rest ← gdnConvRow env pConvDimSize elemSize groupN groupOff pRow dRow bounds dims
      (inner + stepLength)
    return out ++ rest

/-- `parse_hybrid_gdn_block_send_p_gt_d`. -/
def parseHybridGdnBlockSendPGtD (pBlockSize dBlockSize numGdnLayers : ℕ) (gdnGroupN gdnGroupOff : ℕ)
    (src : WorkerInfo) (srcBlocks dstBlocks : List (List ℕ)) (bounds : IpcBlockBounds) :
    Except Fault (List IpcBlock) := do
  cassert env.ndebug (numGdnLayers ≤ srcBlocks.length)
  cassert env.ndebug (numGdnLayers ≤ dstBlocks.length)
  cassert env.ndebug (src.convStateShape ≠ [])
  cassert env.ndebug (src.ssmStateShape ≠ [])
  cassert env.ndebug (src.gdnConvChannelDims ≠ [])
  let convRows ← vecAt src.convStateShape 1
  let convCols ← vecAt src.convStateShape 2
  let ssm1 ← vecAt src.ssmStateShape 1
  let ssm2 ← vecAt src.ssmStateShape 2
  let ssm3 ← vecAt src.ssmStateShape 3
  let pConvDimSize := convCols * src.gdnConvElemSize
  let pConvBlockSize := convRows * pConvDimSize
  let pSsmBlockSize := ssm1 * ssm2 * ssm3 * src.gdnSsmElemSize
  let dConvDimSize := gdnGroupN * pConvDimSize
  emitAll (fun groupIdx => do
    let srcGrp ← vecAt srcBlocks groupIdx
    let dstGrp ← vecAt dstBlocks groupIdx
    emitAll (fun blkIdx => do
      let srcBlk ← vecAt srcGrp blkIdx
      let dstBlk ← vecAt dstGrp blkIdx
      let pGdnOff := srcBlk * pBlockSize
      let dGdnOff := dstBlk * dBlockSize
      let conv ← emitAll (fun convDim => gdnConvRow env pConvDimSize src.gdnConvElemSize gdnGroupN
        gdnGroupOff (pGdnOff + convDim * pConvDimSize) (dGdnOff + convDim * dConvDimSize) bounds
        src.gdnConvChannelDims 0) (List.range convRows)
      let ssm ← appendIpcBlockChecked bounds (pGdnOff + pConvBlockSize)
        (dGdnOff + gdnGroupN * pConvBlockSize + gdnGroupOff * pSsmBlockSize) pSsmBlockSize
      return conv ++ ssm) (List.range srcGrp.length)) (List.range numGdnLayers)

/-- `parse_hybrid_short_conv_block_send_p_gt_d`: the state is replicated, one rank of each group
sends it. -/
def parseHybridShortConvBlockSendPGtD (pBlockSize dBlockSize : ℕ)
    (numPleLayers pleBlockGroup gdnGroupN gdnGroupOff : ℕ) (src : WorkerInfo)
    (srcBlocks dstBlocks : List (List ℕ)) (bounds : IpcBlockBounds) :
    Except Fault (List IpcBlock) := do
  if numPleLayers = 0 then return []
  cassert env.ndebug (src.pleConvStateShape ≠ [])
  cassert env.ndebug (0 < gdnGroupN)
  cassert env.ndebug (gdnGroupOff < gdnGroupN)
  if gdnGroupOff ≠ 0 then return []
  cassert env.ndebug (src.pleConvStateShape.length = 3)
  let rows ← vecAt src.pleConvStateShape 1
  let cols ← vecAt src.pleConvStateShape 2
  let convStateSize := rows * cols * src.pleConvElemSize
  cassert env.ndebug (convStateSize ≤ pBlockSize)
  cassert env.ndebug (convStateSize ≤ dBlockSize)
  emitAll (fun i => do
    let groupIdx := pleBlockGroup + i
    cassert env.ndebug (groupIdx < srcBlocks.length ∧ groupIdx < dstBlocks.length)
    let srcGrp ← vecAt srcBlocks groupIdx
    let dstGrp ← vecAt dstBlocks groupIdx
    cassert env.ndebug (srcGrp.length = dstGrp.length)
    emitAll (fun blkIdx => do
      let srcBlk ← vecAt srcGrp blkIdx
      let dstBlk ← vecAt dstGrp blkIdx
      appendIpcBlockChecked bounds (srcBlk * pBlockSize) (dstBlk * dBlockSize) convStateSize)
      (List.range srcGrp.length)) (List.range numPleLayers)

/-! ## The whole function -/

/-- What is sent once the request is complete: the GDN and the short-convolution state. -/
def hybridStatePart (pBlockSize dBlockSize gdnGroupN gdnGroupOff : ℕ) (src : WorkerInfo)
    (task : ReqSendTask) (bounds : IpcBlockBounds) : Except Fault (List IpcBlock) :=
  if task.reachLastToken then do
    let gdn ← parseHybridGdnBlockSendPGtD env pBlockSize dBlockSize src.numGdnLayers gdnGroupN
      gdnGroupOff src task.req.srcBlocks task.req.dstBlocks bounds
    let conv ← parseHybridShortConvBlockSendPGtD env pBlockSize dBlockSize src.numPleLayers
      src.pleBlockGroup gdnGroupN gdnGroupOff src task.req.srcBlocks task.req.dstBlocks bounds
    return gdn ++ conv
  else return []

/-- `p_indexer_ntpb > 0 and d_indexer_ntpb > 0`. -/
def hasIndexer (src dst : WorkerInfo) : Bool :=
  decide (0 < src.indexerBlkNtpb) && decide (0 < dst.indexerBlkNtpb)

/-- `attn_group_offset`: the attention group comes after the indexer's, if there is one. -/
def attnGroupOffset (src dst : WorkerInfo) : ℕ :=
  src.numGdnLayers + if hasIndexer src dst then 1 else 0

/-- The indexer records, sent by the first P rank of each D rank's subgroup. -/
def hybridIndexerPart (pBlockSize dBlockSize gdnGroupN : ℕ) (src dst : WorkerInfo)
    (task : ReqSendTask) (bounds : IpcBlockBounds) : Except Fault (List IpcBlock) := do
  if hasIndexer src dst = false then return []
  let _ ← checkedDiv src.workerTpRank gdnGroupN
  if src.workerTpRank % gdnGroupN = 0 then
    let srcIndexer ← vecAt task.req.srcBlocks src.numGdnLayers
    let dstIndexer ← vecAt task.req.dstBlocks src.numGdnLayers
    parseHybridIndexerBlock env pBlockSize dBlockSize task.seenTokens task.newTokens srcIndexer
      dstIndexer src.indexerBlkNtpb dst.indexerBlkNtpb src.hybridIndexerTokenSize bounds
  else return []

/-- The attention records of a valid rank, and the zero tail of a complete request. -/
def hybridAttnPart (p d : HybridSide) (attnGroupOff pack : ℕ) (task : ReqSendTask)
    (bounds : IpcBlockBounds) : Except Fault (List IpcBlock) := do
  let attn ← parseHybridAttnBlock env p d task.seenTokens task.newTokens attnGroupOff pack bounds
    false
  let fill ← (if env.padLastAttnBlock && task.reachLastToken then
      fillLastHybridAttnBlock env p d (task.seenTokens + task.newTokens) attnGroupOff pack bounds
    else .ok [])
  return attn ++ fill

/-- `do_parse_hybrid_block_send_p_gt_d`. -/
def doParseHybridBlockSendPGtD (pTokenSize dTokenSize srcNtpb dstNtpb : ℕ)
    (attnGroupOff gdnGroupN gdnGroupOff : ℕ) (validRanks : BitVec maxTpSize) (src dst : WorkerInfo)
    (task : ReqSendTask) (bounds : IpcBlockBounds) :
    Except Fault (List IpcBlock) := do
  let pBlockSize := pTokenSize * srcNtpb
  let dBlockSize := dTokenSize * dstNtpb
  let srcBlocks := task.req.srcBlocks
  let dstBlocks := task.req.dstBlocks
  let srcAttnPackSize := packOf src.attnPackSize
  let dstAttnPackSize := packOf dst.attnPackSize
  cassert env.ndebug (srcAttnPackSize = dstAttnPackSize)
  cassert env.ndebug (src.numGdnLayers < srcBlocks.length)
  cassert env.ndebug (src.numGdnLayers < dstBlocks.length)
  let state ← hybridStatePart env pBlockSize dBlockSize gdnGroupN gdnGroupOff src task bounds
  cassert env.ndebug ((src.indexerBlkNtpb = 0 ∧ dst.indexerBlkNtpb = 0) ∨
    (0 < src.indexerBlkNtpb ∧ 0 < dst.indexerBlkNtpb))
  let indexer ← hybridIndexerPart env pBlockSize dBlockSize gdnGroupN src dst task bounds
  cassert env.ndebug (attnGroupOffset src dst < srcBlocks.length)
  cassert env.ndebug (attnGroupOffset src dst < dstBlocks.length)
  if validRanks.getLsbD src.workerTpRank then
    let srcAttn ← vecAt srcBlocks (attnGroupOffset src dst)
    let dstAttn ← vecAt dstBlocks (attnGroupOffset src dst)
    let attn ← hybridAttnPart env
      ⟨srcNtpb, pTokenSize, pBlockSize, srcAttn, src.attnKernelBlkNtpb⟩
      ⟨dstNtpb, dTokenSize, dBlockSize, dstAttn, dst.attnKernelBlkNtpb⟩
      attnGroupOff srcAttnPackSize task bounds
    return state ++ indexer ++ attn
  else return state ++ indexer

/-- **A valid rank's records hold those of its `parse_hybrid_attn_block` call in one piece.** -/
theorem exists_attn_of_doParse {env : EnvCfg} {pTok dTok srcNtpb dstNtpb attnOff gdnN gdnOff : ℕ}
    {validRanks : BitVec maxTpSize} {src dst : WorkerInfo} {task : ReqSendTask}
    {bounds : IpcBlockBounds} {out : List IpcBlock}
    (hvalid : validRanks.getLsbD src.workerTpRank = true)
    (h : doParseHybridBlockSendPGtD env pTok dTok srcNtpb dstNtpb attnOff gdnN gdnOff validRanks
      src dst task bounds = .ok out) :
    ∃ srcAttn dstAttn before attn after,
      vecAt task.req.srcBlocks (attnGroupOffset src dst) = .ok srcAttn ∧
      vecAt task.req.dstBlocks (attnGroupOffset src dst) = .ok dstAttn ∧
      parseHybridAttnBlock env ⟨srcNtpb, pTok, pTok * srcNtpb, srcAttn, src.attnKernelBlkNtpb⟩
        ⟨dstNtpb, dTok, dTok * dstNtpb, dstAttn, dst.attnKernelBlkNtpb⟩ task.seenTokens
        task.newTokens attnOff (packOf src.attnPackSize) bounds false = .ok attn ∧
      out = before ++ attn ++ after := by
  simp only [doParseHybridBlockSendPGtD, hvalid, if_true] at h
  obtain ⟨-, -, h⟩ := bind_eq_ok.mp h
  obtain ⟨-, -, h⟩ := bind_eq_ok.mp h
  obtain ⟨-, -, h⟩ := bind_eq_ok.mp h
  obtain ⟨state, -, h⟩ := bind_eq_ok.mp h
  obtain ⟨-, -, h⟩ := bind_eq_ok.mp h
  obtain ⟨indexer, -, h⟩ := bind_eq_ok.mp h
  obtain ⟨-, -, h⟩ := bind_eq_ok.mp h
  obtain ⟨-, -, h⟩ := bind_eq_ok.mp h
  obtain ⟨srcAttn, hsrc, h⟩ := bind_eq_ok.mp h
  obtain ⟨dstAttn, hdst, h⟩ := bind_eq_ok.mp h
  obtain ⟨part, hpart, h⟩ := bind_eq_ok.mp h
  obtain ⟨attn, hattn, hpart⟩ := bind_eq_ok.mp hpart
  obtain ⟨fill, -, hpart⟩ := bind_eq_ok.mp hpart
  refine ⟨srcAttn, dstAttn, state ++ indexer, attn, fill, hsrc, hdst, hattn, ?_⟩
  rw [← Except.ok.inj h, ← Except.ok.inj hpart, ← List.append_assoc]

/-- `vllm_parse_hybrid_block_send_p_gt_d`. -/
def vllmParseHybridBlockSendPGtD : ParseBlockFunc :=
  fun src dst validRanks _ kvtTpRank task => do
    cassert env.ndebug (dst.engineTpSize < src.engineTpSize)
    let gdnGroupN ← checkedDiv src.engineTpSize dst.engineTpSize
    cassert env.ndebug (src.engineTpSize % dst.engineTpSize = 0)
    let gdnGroup ← checkedDiv src.workerTpRank gdnGroupN
    cassert env.ndebug (gdnGroup = dst.workerTpRank)
    let gdnGroupOff := src.workerTpRank % gdnGroupN
    let attnGroupN ← checkedDiv (Bitset.count validRanks) dst.engineTpSize
    let _ ← checkedDiv kvtTpRank attnGroupN
    let attnGroupOff := kvtTpRank % attnGroupN
    cassert env.ndebug (src.tokenSizes.length = 1)
    cassert env.ndebug (dst.tokenSizes.length = 1)
    cassert env.ndebug (src.blockSizes.length = 1)
    cassert env.ndebug (dst.blockSizes.length = 1)
    let pTokenSize ← vecAt src.tokenSizes 0
    let dTokenSize ← vecAt dst.tokenSizes 0
    let pBlockSize ← vecAt src.blockSizes 0
    let dBlockSize ← vecAt dst.blockSizes 0
    cassert env.ndebug (dTokenSize = pTokenSize * attnGroupN)
    let srcQuotient ← checkedDiv pBlockSize pTokenSize
    let dstQuotient ← checkedDiv dBlockSize dTokenSize
    let srcNtpb := u32 srcQuotient
    let dstNtpb := u32 dstQuotient
    cassert env.ndebug (srcNtpb * pTokenSize = pBlockSize)
    cassert env.ndebug (dstNtpb * dTokenSize = dBlockSize)
    let bounds ← makeIpcBlockBounds env src dst 0
    let out ← doParseHybridBlockSendPGtD env pTokenSize dTokenSize srcNtpb dstNtpb attnGroupOff
      gdnGroupN gdnGroupOff validRanks src dst task bounds
    return firstOf src.tokenSizes.length out

end LlumnixKv
