import LlumnixKv.Parse.BlockAligned
import LlumnixKv.Parse.Hybrid

/-!
# Parse/Recurrent — recurrent state, one page at a time

A page of a linear-attention layer holds `[conv | recurrent | padding]`.  Both parts are sharded
over the TP ranks, the convolution by channel:

    row-major    [ q k v ] [ q k v ] …    one row for each step of history     GDN, KDA
    dim-first    [ q … ] [ k … ] [ v … ]  all history of a channel together    KDA

P > D merges the pages of several senders into a wide one, P < D splits a wide page among several
targets.  The hybrid functions send the GDN pages; KDA has functions of its own, which KIMI_K3 runs
after those of its MLA cache.
-/

open Machinery

namespace LlumnixKv

/-! ## Pages of the state groups -/

/-- The pages of the state groups, in the order of the tables. -/
def statePages (numLayers pStride dStride : ℕ) (srcBlocks dstBlocks : List (List ℕ))
    (page : ℕ → ℕ → Except Fault (List IpcBlock)) : Except Fault (List IpcBlock) :=
  emitAll (fun groupIdx => do
    let srcGrp ← vecAt srcBlocks groupIdx
    let dstGrp ← vecAt dstBlocks groupIdx
    emitAll (fun blkIdx => do
      let srcBlk ← vecAt srcGrp blkIdx
      let dstBlk ← vecAt dstGrp blkIdx
      page (srcBlk * pStride) (dstBlk * dStride)) (List.range srcGrp.length)) (List.range numLayers)

/-! ## GDN -/

variable (env : EnvCfg)

/-- The body of `parse_hybrid_gdn_block_send_p_gt_d` for one page. -/
def gdnPagePGtD (convRows pConvDimSize pSsmBlockSize elemSize groupN groupOff : ℕ)
    (channelDims : List ℕ) (bounds : IpcBlockBounds) (pGdnOff dGdnOff : ℕ) :
    Except Fault (List IpcBlock) := do
  let conv ← emitAll (fun convDim => gdnConvRow env pConvDimSize elemSize groupN groupOff
    (pGdnOff + convDim * pConvDimSize) (dGdnOff + convDim * (groupN * pConvDimSize)) bounds
    channelDims 0) (List.range convRows)
  let ssm ← appendIpcBlockChecked bounds (pGdnOff + convRows * pConvDimSize)
    (dGdnOff + groupN * (convRows * pConvDimSize) + groupOff * pSsmBlockSize) pSsmBlockSize
  return conv ++ ssm

/-- The q/k/v segments of one convolution row of P, each cut into the groups' shares. -/
def gdnConvRowPLtD (env : EnvCfg) (pConvDimSize dConvDimSize elemSize groupN groupOff : ℕ)
    (pRow dRow : ℕ) (bounds : IpcBlockBounds) : List ℕ → ℕ → ℕ → Except Fault (List IpcBlock)
  | [], pInner, dInner => do
    cassert env.ndebug (pInner = pConvDimSize)
    cassert env.ndebug (dInner = dConvDimSize)
    return []
  | dim :: dims, pInner, dInner => do
    let pStep := dim * elemSize
    cassert env.ndebug (pStep % groupN = 0)
    let dStep := pStep / groupN
    let out ← appendIpcBlockChecked bounds (pRow + pInner + groupOff * dStep) (dRow + dInner) dStep
    let rest ← gdnConvRowPLtD env pConvDimSize dConvDimSize elemSize groupN groupOff pRow dRow
      bounds dims (pInner + pStep) (dInner + dStep)
    return out ++ rest

/-- The body of `parse_hybrid_gdn_block_send_p_lt_d` for one page. -/
def gdnPagePLtD (convRows pConvDimSize pSsmBlockSize elemSize groupN groupOff : ℕ)
    (channelDims : List ℕ) (bounds : IpcBlockBounds) (pGdnOff dGdnOff : ℕ) :
    Except Fault (List IpcBlock) := do
  let dConvDimSize := pConvDimSize / groupN
  let dSsmBlockSize := pSsmBlockSize / groupN
  let conv ← emitAll (fun convDim => gdnConvRowPLtD env pConvDimSize dConvDimSize elemSize groupN
    groupOff (pGdnOff + convDim * pConvDimSize) (dGdnOff + convDim * dConvDimSize) bounds
    channelDims 0 0) (List.range convRows)
  let ssm ← appendIpcBlockChecked bounds
    (pGdnOff + convRows * pConvDimSize + groupOff * dSsmBlockSize)
    (dGdnOff + convRows * dConvDimSize) dSsmBlockSize
  return conv ++ ssm

/-- `parse_hybrid_gdn_block_send_p_lt_d`. -/
def parseHybridGdnBlockSendPLtD (pBlockSize dBlockSize numGdnLayers : ℕ) (gdnGroupN gdnGroupOff : ℕ)
    (src : WorkerInfo) (srcBlocks dstBlocks : List (List ℕ)) (bounds : IpcBlockBounds) :
    Except Fault (List IpcBlock) := do
  cassert env.ndebug (numGdnLayers ≤ srcBlocks.length)
  cassert env.ndebug (numGdnLayers ≤ dstBlocks.length)
  cassert env.ndebug (src.convStateShape ≠ [])
  cassert env.ndebug (src.ssmStateShape ≠ [])
  cassert env.ndebug (src.gdnConvChannelDims ≠ [])
  cassert env.ndebug (0 < gdnGroupN)
  let convRows ← vecAt src.convStateShape 1
  let convCols ← vecAt src.convStateShape 2
  let ssm1 ← vecAt src.ssmStateShape 1
  let ssm2 ← vecAt src.ssmStateShape 2
  let ssm3 ← vecAt src.ssmStateShape 3
  let pConvDimSize := convCols * src.gdnConvElemSize
  let pSsmBlockSize := ssm1 * ssm2 * ssm3 * src.gdnSsmElemSize
  cassert env.ndebug (pConvDimSize % gdnGroupN = 0)
  cassert env.ndebug (pSsmBlockSize % gdnGroupN = 0)
  let _ ← checkedDiv pConvDimSize gdnGroupN
  statePages numGdnLayers pBlockSize dBlockSize srcBlocks dstBlocks
    (gdnPagePLtD env convRows pConvDimSize pSsmBlockSize src.gdnConvElemSize gdnGroupN gdnGroupOff
      src.gdnConvChannelDims bounds)

/-! ## KDA -/

/-- `KdaStateLayout`. -/
structure KdaStateLayout where
  stateLen : ℕ
  qkvChannels : ℕ
  convSize : ℕ
  recurrentSize : ℕ
  deriving DecidableEq, Repr

/-- `get_kda_page_stride`. -/
def getKdaPageStride (w : WorkerInfo) : Except Fault ℕ := do
  cassert env.ndebug (w.blockSizes.length = 1)
  if w.kdaPageStride ≠ 0 then return w.kdaPageStride else vecAt w.blockSizes 0

/-- `get_kda_state_layout`. -/
def getKdaStateLayout (w : WorkerInfo) : Except Fault KdaStateLayout := do
  cassert env.ndebug (w.convStateShape.length = 3)
  cassert env.ndebug (w.ssmStateShape.length = 4)
  cassert env.ndebug (w.gdnConvChannelDims.length = 3)
  cassert env.ndebug (0 < w.gdnConvElemSize)
  cassert env.ndebug (0 < w.gdnSsmElemSize)
  let stateLen ← vecAt w.convStateShape (if w.kdaConvDimFirst then 2 else 1)
  let qkvChannels ← vecAt w.convStateShape (if w.kdaConvDimFirst then 1 else 2)
  cassert env.ndebug (0 < stateLen)
  cassert env.ndebug (0 < qkvChannels)
  cassert env.ndebug (w.gdnConvChannelDims.sum = qkvChannels)
  let ssm1 ← vecAt w.ssmStateShape 1
  let ssm2 ← vecAt w.ssmStateShape 2
  let ssm3 ← vecAt w.ssmStateShape 3
  return ⟨stateLen, qkvChannels, stateLen * qkvChannels * w.gdnConvElemSize,
    ssm1 * ssm2 * ssm3 * w.gdnSsmElemSize⟩

/-- `check_kda_block_groups`. -/
def checkKdaBlockGroups (numLayers : ℕ) (srcBlocks dstBlocks : List (List ℕ)) :
    Except Fault Unit := do
  cassert env.ndebug (0 < numLayers)
  cassert env.ndebug (numLayers ≤ srcBlocks.length)
  cassert env.ndebug (numLayers ≤ dstBlocks.length)
  cassert env.ndebug (∀ i < numLayers, (srcBlocks.getD i []).length = (dstBlocks.getD i []).length)

variable (src dst : WorkerInfo)

/-- `prepare_kda_parse`. -/
def prepareKdaParse (task : ReqSendTask) :
    Except Fault Unit := do
  cassert env.ndebug (src.blockSizes.length = 1)
  cassert env.ndebug (dst.blockSizes.length = 1)
  checkKdaBlockGroups env src.numGdnLayers task.req.srcBlocks task.req.dstBlocks

/-- `emit_kda_block_p_gt_d`.  A channel of the dim-first layout is the row of GDN with `state_len`
elements to a channel. -/
def emitKdaBlockPGtD (groupN groupOff : ℕ) (src : WorkerInfo) (pLayout : KdaStateLayout)
    (bounds : IpcBlockBounds) (pBlockOffset dBlockOffset : ℕ) :
    Except Fault (List IpcBlock) := do
  let elemSize := src.gdnConvElemSize
  let pRowSize := pLayout.qkvChannels * elemSize
  let conv ← if src.kdaConvDimFirst then
      gdnConvRow env pLayout.convSize (pLayout.stateLen * elemSize) groupN groupOff pBlockOffset
        dBlockOffset bounds src.gdnConvChannelDims 0
    else emitAll (fun stateIdx => gdnConvRow env pRowSize elemSize groupN groupOff
      (pBlockOffset + stateIdx * pRowSize) (dBlockOffset + stateIdx * (groupN * pRowSize)) bounds
      src.gdnConvChannelDims 0) (List.range pLayout.stateLen)
  let recurrent ← appendIpcBlockChecked bounds (pBlockOffset + pLayout.convSize)
    (dBlockOffset + groupN * pLayout.convSize + groupOff * pLayout.recurrentSize)
    pLayout.recurrentSize
  return conv ++ recurrent

/-- The channel loop of `emit_kda_block_p_lt_d`; only the row-major layout checks where it ends on
the D side. -/
def kdaConvRowPLtD (env : EnvCfg) (pEnd : ℕ) (dEnd : Option ℕ) (unitSize groupN groupOff : ℕ)
    (pRow dRow : ℕ) (bounds : IpcBlockBounds) : List ℕ → ℕ → ℕ → Except Fault (List IpcBlock)
  | [], pInner, dInner => do
    cassert env.ndebug (pInner = pEnd)
    cassert env.ndebug (dEnd.all (· = dInner) = true)
    return []
  | dim :: dims, pInner, dInner => do
    cassert env.ndebug (dim % groupN = 0)
    let componentSize := dim / groupN * unitSize
    let out ← appendIpcBlockChecked bounds (pRow + pInner + groupOff * componentSize)
      (dRow + dInner) componentSize
    let rest ← kdaConvRowPLtD env pEnd dEnd unitSize groupN groupOff pRow dRow bounds dims
      (pInner + groupN * componentSize) (dInner + componentSize)
    return out ++ rest

/-- `emit_kda_block_p_lt_d`. -/
def emitKdaBlockPLtD (groupN groupOff : ℕ) (src : WorkerInfo) (pLayout : KdaStateLayout)
    (bounds : IpcBlockBounds) (pBlockOffset dBlockOffset : ℕ) :
    Except Fault (List IpcBlock) := do
  let elemSize := src.gdnConvElemSize
  cassert env.ndebug (pLayout.recurrentSize % groupN = 0)
  let dRecurrentSize ← checkedDiv pLayout.recurrentSize groupN
  let (conv, dConvSize) ← if src.kdaConvDimFirst then do
      let unitSize := pLayout.stateLen * elemSize
      let conv ← kdaConvRowPLtD env pLayout.convSize none unitSize groupN groupOff pBlockOffset
        dBlockOffset bounds src.gdnConvChannelDims 0 0
      -- `d_inner_offset`, at the end of the loop
      pure (conv, (src.gdnConvChannelDims.map fun dim => dim / groupN * unitSize).sum)
    else do
      let pRowSize := pLayout.qkvChannels * elemSize
      cassert env.ndebug (pRowSize % groupN = 0)
      let dRowSize := pRowSize / groupN
      let conv ← emitAll (fun stateIdx => kdaConvRowPLtD env pRowSize (some dRowSize) elemSize
        groupN groupOff (pBlockOffset + stateIdx * pRowSize) (dBlockOffset + stateIdx * dRowSize)
        bounds src.gdnConvChannelDims 0 0) (List.range pLayout.stateLen)
      pure (conv, pLayout.convSize / groupN)
  let recurrent ← appendIpcBlockChecked bounds
    (pBlockOffset + pLayout.convSize + groupOff * dRecurrentSize) (dBlockOffset + dConvSize)
    dRecurrentSize
  return conv ++ recurrent

/-- `parse_kda_block_send_p_eq_d`. -/
def parseKdaBlockSendPEqD (task : ReqSendTask) :
    Except Fault (List IpcBlock) := do
  prepareKdaParse env src dst task
  cassert env.ndebug (src.engineTpSize = dst.engineTpSize)
  cassert env.ndebug (src.workerTpRank = dst.workerTpRank)
  let srcPageStride ← getKdaPageStride env src
  let dstPageStride ← getKdaPageStride env dst
  cassert env.ndebug (srcPageStride = dstPageStride)
  if task.reachLastToken = false then return []
  let bounds ← makeIpcBlockBounds env src dst 0
  statePages src.numGdnLayers srcPageStride dstPageStride task.req.srcBlocks task.req.dstBlocks
    fun pOff dOff => appendIpcBlockChecked bounds pOff dOff srcPageStride

/-- `parse_kda_block_send_p_gt_d`. -/
def parseKdaBlockSendPGtD (task : ReqSendTask) :
    Except Fault (List IpcBlock) := do
  prepareKdaParse env src dst task
  cassert env.ndebug (dst.engineTpSize < src.engineTpSize)
  let groupN ← checkedDiv src.engineTpSize dst.engineTpSize
  cassert env.ndebug (src.engineTpSize % dst.engineTpSize = 0)
  let group ← checkedDiv src.workerTpRank groupN
  cassert env.ndebug (group = dst.workerTpRank)
  let groupOff := src.workerTpRank % groupN
  if task.reachLastToken = false then return []
  let pBlockSize ← getKdaPageStride env src
  let dBlockSize ← getKdaPageStride env dst
  let pLayout ← getKdaStateLayout env src
  cassert env.ndebug (groupN * (pLayout.convSize + pLayout.recurrentSize) ≤ dBlockSize)
  cassert env.ndebug (pLayout.convSize + pLayout.recurrentSize ≤ pBlockSize)
  let bounds ← makeIpcBlockBounds env src dst 0
  statePages src.numGdnLayers pBlockSize dBlockSize task.req.srcBlocks task.req.dstBlocks
    (emitKdaBlockPGtD env groupN groupOff src pLayout bounds)

/-- `parse_kda_block_send_p_lt_d`. -/
def parseKdaBlockSendPLtD (task : ReqSendTask) :
    Except Fault (List IpcBlock) := do
  prepareKdaParse env src dst task
  cassert env.ndebug (src.engineTpSize < dst.engineTpSize)
  let groupN ← checkedDiv dst.engineTpSize src.engineTpSize
  cassert env.ndebug (dst.engineTpSize % src.engineTpSize = 0)
  let group ← checkedDiv dst.workerTpRank groupN
  cassert env.ndebug (group = src.workerTpRank)
  let groupOff := dst.workerTpRank % groupN
  if task.reachLastToken = false then return []
  let pBlockSize ← getKdaPageStride env src
  let dBlockSize ← getKdaPageStride env dst
  let pLayout ← getKdaStateLayout env src
  cassert env.ndebug (pLayout.convSize % groupN = 0)
  cassert env.ndebug (pLayout.recurrentSize % groupN = 0)
  cassert env.ndebug (pLayout.convSize + pLayout.recurrentSize ≤ pBlockSize)
  cassert env.ndebug ((pLayout.convSize + pLayout.recurrentSize) / groupN ≤ dBlockSize)
  let bounds ← makeIpcBlockBounds env src dst 0
  statePages src.numGdnLayers pBlockSize dBlockSize task.req.srcBlocks task.req.dstBlocks
    (emitKdaBlockPLtD env groupN groupOff src pLayout bounds)

/-! ## KIMI_K3: the MLA cache and the KDA state in one page -/

/-- A call of `parse_replicated_mla_blocks`, and one for the state. -/
def kimiK3Mla (entry : Prop) [Decidable entry] (src dst : WorkerInfo)
    (validRanks : BitVec maxTpSize) (task : ReqSendTask) (kda : Except Fault (List IpcBlock)) :
    Except Fault (List (List IpcBlock)) := do
  cassert env.ndebug entry
  let mla ← parseReplicatedMlaBlocks env src dst validRanks task
  let state ← kda
  return [mla ++ state]

/-- `parse_kimi_k3_mla_block_send_p_eq_d`. -/
def parseKimiK3MlaBlockSendPEqD : ParseBlockFunc :=
  fun src dst validRanks _ _ task =>
    kimiK3Mla env (src.engineTpSize = dst.engineTpSize ∧ src.workerTpRank = dst.workerTpRank) src
      dst validRanks task (parseKdaBlockSendPEqD env src dst task)

/-- `parse_kimi_k3_mla_block_send_p_gt_d`. -/
def parseKimiK3MlaBlockSendPGtD : ParseBlockFunc :=
  fun src dst validRanks _ _ task =>
    kimiK3Mla env (dst.engineTpSize < src.engineTpSize) src dst validRanks task
      (parseKdaBlockSendPGtD env src dst task)

/-- `parse_kimi_k3_mla_block_send_p_lt_d`. -/
def parseKimiK3MlaBlockSendPLtD : ParseBlockFunc :=
  fun src dst validRanks _ _ task =>
    kimiK3Mla env (src.engineTpSize < dst.engineTpSize) src dst validRanks task
      (parseKdaBlockSendPLtD env src dst task)

end LlumnixKv
