import LlumnixKv.Parse.Common

/-!
# Parse/HeadSplit — the RAGGED_FLASH and DPSK_V32 parse functions

    cache shape [num_gpu_blocks, block_size, 2, num_kv_heads, head_dim]

A token's row is its K heads followed by its V heads.  When the two TP sizes differ, the side with
the larger one holds a slice of the other side's heads: `group_n` ranks share a row, and `group_off`
is a rank's place among them.  The one-tensor (RAGGED) and many-tensor (DPSK) functions run the same
body on each tensor, `sendTensor`.
-/

open Machinery

namespace LlumnixKv

/-! ## One tensor -/

/-- The V record of a K record: the same slice, half a row later on each side. -/
def vRecord (swapOffsets : Bool) (pKSize dKSize : ℕ) (sb : IpcBlock) : IpcBlock :=
  ⟨sb.srcOffset + (if swapOffsets then dKSize else pKSize),
    sb.dstOffset + (if swapOffsets then pKSize else dKSize), pKSize⟩

variable (env : EnvCfg)

/-- The second loop of the body: a V record for each K record the first loop appended. -/
def sendVRecords (pKSize dKSize : ℕ) (bounds : IpcBlockBounds) (swapOffsets : Bool)
    (kRecords : List IpcBlock) : Except Fault (List IpcBlock) :=
  emitAll (fun sb => do
    cassert env.ndebug (pKSize = sb.length)
    let v := vRecord swapOffsets pKSize dKSize sb
    appendIpcBlockChecked bounds v.srcOffset v.dstOffset pKSize) kRecords

/-- The body `do_parse_block_send_internal` and `do_multi_tensor_parse_block_send` run on a tensor.
The group size comes from the effective TP size, the group offset from the engine's rank. -/
def sendTensor (pTpSize dTpSize pRank dRank : ℕ) (pBlockSize dBlockSize pTokenSize dTokenSize : ℕ)
    (pBlocks dBlocks : List ℕ) (wroteTokens leftTokens : ℕ) (bounds : IpcBlockBounds)
    (swapOffsets : Bool) :
    Except Fault (List IpcBlock) := do
  cassert env.ndebug (dTpSize < pTpSize)
  let groupN ← checkedDiv pTpSize dTpSize
  cassert env.ndebug (pTpSize % dTpSize = 0)
  let group ← checkedDiv pRank groupN
  cassert env.ndebug (group = dRank)
  let groupOff := pRank % groupN
  cassert env.ndebug (dTokenSize = pTokenSize * groupN)
  cassert env.ndebug (dTokenSize % 2 = 0)
  cassert env.ndebug (pTokenSize % 2 = 0)
  let pKSize := pTokenSize / 2
  let dKSize := dTokenSize / 2
  cassert env.ndebug (dKSize = pKSize * groupN)
  let quotient ← checkedDiv pBlockSize pTokenSize
  let ntpb := u32 quotient
  cassert env.ndebug (ntpb * pTokenSize = pBlockSize)
  cassert env.ndebug (ntpb * dTokenSize = dBlockSize)
  let kRecords ← parseBlockSendGt env pTokenSize pKSize dTokenSize ntpb groupOff pBlocks dBlocks
    wroteTokens leftTokens bounds swapOffsets
  let vRecords ← sendVRecords env pKSize dKSize bounds swapOffsets kRecords
  return kRecords ++ vRecords

/-! ### What the body emits

Sizes are written through the K slice `pK` of a group member: its row is `2 · pK` bytes, the row it
shares `2 · pK · G`. -/

theorem sendVRecords_ok {env : EnvCfg} {pK dK : ℕ} {b : IpcBlockBounds} {swap : Bool}
    {ks : List IpcBlock} (h : ∀ sb ∈ ks, sb.length = pK ∧
      b.Fits (vRecord swap pK dK sb).srcOffset (vRecord swap pK dK sb).dstOffset pK) :
    sendVRecords env pK dK b swap ks = .ok (ks.map (vRecord swap pK dK)) := by
  rw [List.map_eq_flatMap]
  refine emitAll_ok fun sb hsb => ?_
  obtain ⟨hlen, hfit⟩ := h sb hsb
  rw [cassert_of hlen.symm]
  exact appendIpcBlockChecked_eq_ok.mpr ⟨hfit, rfl⟩

section Body

variable {env : EnvCfg} {d G pRank dRank ntpb pK : ℕ} {pBlocks dBlocks : List ℕ}
  {wrote left : ℕ} {b : IpcBlockBounds} {swap : Bool}

/-- **The body emits a K and a V record for each token.** -/
theorem sendTensor_ok (hfp8 : env.bf162fp8Conversion = false) (hd : 0 < d) (hG : 1 < G)
    (hrank : env.ndebug = true ∨ pRank / G = dRank) (hpK : 0 < pK) (hntpb : 0 < ntpb)
    (hlt : ntpb < 2 ^ 32)
    (hrange : ∀ t, wrote ≤ t → t < wrote + left →
      t / ntpb < pBlocks.length ∧ t / ntpb < dBlocks.length ∧
      ∀ r ∈ [gtRecord (2 * pK) pK (2 * pK * G) ntpb (pRank % G) pBlocks dBlocks swap t,
        vRecord swap pK (pK * G)
          (gtRecord (2 * pK) pK (2 * pK * G) ntpb (pRank % G) pBlocks dBlocks swap t)],
        b.Fits r.srcOffset r.dstOffset pK) :
    ∃ ks, sendTensor env (d * G) d pRank dRank (ntpb * (2 * pK)) (ntpb * (2 * pK * G)) (2 * pK)
        (2 * pK * G) pBlocks dBlocks wrote left b swap
          = .ok (ks ++ ks.map (vRecord swap pK (pK * G))) ∧
      ks.Perm ((List.range' wrote left).map
        (gtRecord (2 * pK) pK (2 * pK * G) ntpb (pRank % G) pBlocks dBlocks swap)) := by
  obtain ⟨ks, hks, hperm⟩ : ∃ ks, parseBlockSendGt env (2 * pK) pK (2 * pK * G) ntpb (pRank % G)
      pBlocks dBlocks wrote left b swap = .ok ks ∧ ks.Perm ((List.range' wrote left).map
        (gtRecord (2 * pK) pK (2 * pK * G) ntpb (pRank % G) pBlocks dBlocks swap)) :=
    parseBlockSendGt_perm hfp8 (.inr (Nat.mul_comm pK 2)) hntpb fun t h1 h2 =>
      ⟨(hrange t h1 h2).1, (hrange t h1 h2).2.1, (hrange t h1 h2).2.2 _ List.mem_cons_self⟩
  refine ⟨ks, ?_, hperm⟩
  have hvs : sendVRecords env pK (pK * G) b swap ks = .ok (ks.map (vRecord swap pK (pK * G))) := by
    refine sendVRecords_ok fun sb hsb => ?_
    obtain ⟨t, ht, rfl⟩ := List.mem_map.mp (hperm.mem_iff.mp hsb)
    obtain ⟨h1, h2⟩ := List.mem_range'_1.mp ht
    exact ⟨by unfold gtRecord; cases swap <;> rfl, (hrange t h1 h2).2.2 _ (by simp)⟩
  have hgroup : cassert env.ndebug (pRank / G = dRank) = .ok () := cassert_eq_ok.mpr hrank
  have hdG : d < d * G := (Nat.lt_mul_iff_one_lt_right hd).mpr hG
  have hpk : 2 * pK / 2 = pK := by omega
  have hdk : 2 * pK * G / 2 = pK * G := by rw [Nat.mul_assoc, Nat.mul_div_cancel_left _ two_pos]
  have hq : u32 (ntpb * (2 * pK) / (2 * pK)) = ntpb := by
    rw [Nat.mul_div_cancel _ (by omega), u32_of_lt hlt]
  simp only [sendTensor, cassert_of hdG, checkedDiv_of_pos hd, Nat.mul_div_cancel_left G hd,
    cassert_of (Nat.mul_mod_right d G), checkedDiv_of_pos (show 0 < G by omega),
    hgroup, cassert_of trivial, cassert_of (Nat.mul_mod_right 2 pK), hpk, hdk,
    cassert_of (show 2 * pK * G % 2 = 0 by rw [Nat.mul_assoc, Nat.mul_mod_right]),
    checkedDiv_of_pos (show 0 < 2 * pK by omega), hq, hks, hvs, bind, Except.bind, pure,
    Except.pure]

/-- With asserts on, a rank outside its D rank's group stops the body. -/
theorem sendTensor_abort (hnd : env.ndebug = false) (hd : 0 < d) (hG : 1 < G)
    (hrank : pRank / G ≠ dRank) (pBlockSize dBlockSize pTokenSize dTokenSize : ℕ) :
    sendTensor env (d * G) d pRank dRank pBlockSize dBlockSize pTokenSize dTokenSize pBlocks
      dBlocks wrote left b swap = .error .abort := by
  have hdG : d < d * G := (Nat.lt_mul_iff_one_lt_right hd).mpr hG
  have hstop : cassert env.ndebug (pRank / G = dRank) = .error .abort := by
    rw [cassert, if_neg (by simp [hnd, hrank])]
  simp only [sendTensor, cassert_of hdG, checkedDiv_of_pos hd, Nat.mul_div_cancel_left G hd,
    cassert_of (Nat.mul_mod_right d G), checkedDiv_of_pos (show 0 < G by omega), hstop, bind,
    Except.bind]

end Body

/-! ## RAGGED_FLASH -/

/-- `parse_block_send_p_eq_d`. -/
def parseBlockSendPEqD : ParseBlockFunc := fun src dst _ kvtTpSize _ task => do
  cassert env.ndebug (kvtTpSize = dst.engineTpSize)
  cassert env.ndebug (src.workerTpRank = dst.workerTpRank)
  cassert env.ndebug (src.tokenSizes = dst.tokenSizes)
  cassert env.ndebug (src.blockSizes = dst.blockSizes)
  cassert env.ndebug (src.tokenSizes.length = src.blockSizes.length)
  cassert env.ndebug (dst.tokenSizes.length = dst.blockSizes.length)
  cassert env.ndebug (src.tokenSizes.length = 1)
  cassert env.ndebug (src.blockSizes.length = 1)
  let bounds ← makeIpcBlockBounds env src dst 0
  let blockSize ← vecIdx src.blockSizes 0
  let tokenSize ← vecIdx src.tokenSizes 0
  let out ← doParseBlockSendPEqD env blockSize tokenSize task bounds
  return firstOf src.tokenSizes.length out

/-- `parse_block_send_p_gt_d_dpsk`: the cache is the same on every P rank, rank 0 sends it. -/
def parseBlockSendPGtDDpsk : ParseBlockFunc := fun p d _ _ _ task => do
  cassert env.ndebug (p.tokenSizes = d.tokenSizes)
  if p.workerTpRank ≠ 0 then return []
  cassert env.ndebug (d.workerTpRank = 0)
  cassert env.ndebug (p.blockSizes = d.blockSizes)
  cassert env.ndebug (p.tokenSizes.length = p.blockSizes.length)
  cassert env.ndebug (p.tokenSizes.length = 1)
  cassert env.ndebug (p.blockSizes.length = 1)
  let bounds ← makeIpcBlockBounds env p d 0
  let blockSize ← vecIdx p.blockSizes 0
  let tokenSize ← vecIdx p.tokenSizes 0
  let out ← doParseBlockSendPEqD env blockSize tokenSize task bounds
  return firstOf p.tokenSizes.length out

/-- `do_parse_block_send_internal`. -/
def doParseBlockSendInternal (pInfo : WorkerInfo) (pTpSize : ℕ) (pBlocks : List ℕ)
    (dInfo : WorkerInfo) (dTpSize : ℕ) (dBlocks : List ℕ) (wroteTokens leftTokens : ℕ)
    (bounds : IpcBlockBounds) (swapOffsets : Bool) : Except Fault (List (List IpcBlock)) := do
  cassert env.ndebug (pInfo.blockSizes.length = dInfo.blockSizes.length)
  cassert env.ndebug (pInfo.tokenSizes.length = dInfo.tokenSizes.length)
  cassert env.ndebug (pInfo.blockSizes.length = pInfo.tokenSizes.length)
  cassert env.ndebug (pInfo.tokenSizes.length = 1)
  cassert env.ndebug (dInfo.tokenSizes.length = 1)
  cassert env.ndebug (pInfo.blockSizes.length = 1)
  cassert env.ndebug (dInfo.blockSizes.length = 1)
  let pBlockSize ← vecAt pInfo.blockSizes 0
  let dBlockSize ← vecAt dInfo.blockSizes 0
  let pTokenSize ← vecAt pInfo.tokenSizes 0
  let dTokenSize ← vecAt dInfo.tokenSizes 0
  let out ← sendTensor env pTpSize dTpSize pInfo.workerTpRank dInfo.workerTpRank pBlockSize
    dBlockSize pTokenSize dTokenSize pBlocks dBlocks wroteTokens leftTokens bounds swapOffsets
  return firstOf pInfo.tokenSizes.length out

/-- `parse_block_send_p_gt_d`. -/
def parseBlockSendPGtD : ParseBlockFunc := fun p d _ kvtTpSize _ task => do
  let bounds ← makeIpcBlockBounds env p d 0
  let srcBlocks ← vecIdx task.req.srcBlocks 0
  let dstBlocks ← vecIdx task.req.dstBlocks 0
  doParseBlockSendInternal env p kvtTpSize srcBlocks d d.engineTpSize dstBlocks task.seenTokens
    task.newTokens bounds false

/-- `parse_block_send_p_lt_d`: the helper's `p` side is the larger TP, which is D's. -/
def parseBlockSendPLtD : ParseBlockFunc := fun p d _ kvtTpSize _ task => do
  let bounds ← makeIpcBlockBounds env p d 0
  let dstBlocks ← vecIdx task.req.dstBlocks 0
  let srcBlocks ← vecIdx task.req.srcBlocks 0
  doParseBlockSendInternal env d d.engineTpSize dstBlocks p kvtTpSize srcBlocks task.seenTokens
    task.newTokens bounds true

/-! ## DPSK_V32 -/

/-- `do_multi_tensor_parse_block_send`. -/
def doMultiTensorParseBlockSend (pInfo : WorkerInfo) (pTpSize : ℕ) (pBlocks : List ℕ)
    (dInfo : WorkerInfo) (dTpSize : ℕ) (dBlocks : List ℕ) (wroteTokens leftTokens : ℕ)
    (actualSrcInfo actualDstInfo : WorkerInfo) (swapOffsets : Bool) :
    Except Fault (List (List IpcBlock)) := do
  cassert env.ndebug (pInfo.blockSizes.length = dInfo.blockSizes.length)
  cassert env.ndebug (pInfo.tokenSizes.length = dInfo.tokenSizes.length)
  cassert env.ndebug (pInfo.blockSizes.length = pInfo.tokenSizes.length)
  let lists ← emitAll (fun cacheIdx => do
    let pBlockSize ← vecAt pInfo.blockSizes cacheIdx
    let dBlockSize ← vecAt dInfo.blockSizes cacheIdx
    let pTokenSize ← vecAt pInfo.tokenSizes cacheIdx
    let dTokenSize ← vecAt dInfo.tokenSizes cacheIdx
    let bounds ← makeIpcBlockBounds env actualSrcInfo actualDstInfo cacheIdx
    let out ← sendTensor env pTpSize dTpSize pInfo.workerTpRank dInfo.workerTpRank pBlockSize
      dBlockSize pTokenSize dTokenSize pBlocks dBlocks wroteTokens leftTokens bounds swapOffsets
    return [out]) (List.range pInfo.blockSizes.length)
  return lists ++ List.replicate (pInfo.tokenSizes.length - lists.length) []

/-- The loop the DPSK functions run when both sides hold the same rows. -/
def sendEqualTensors (src dst : WorkerInfo) (task : ReqSendTask) :
    Except Fault (List (List IpcBlock)) :=
  emitAll (fun i => do
    let bounds ← makeIpcBlockBounds env src dst i
    let blockSize ← vecAt src.blockSizes i
    let tokenSize ← vecAt src.tokenSizes i
    let out ← doParseBlockSendPEqD env blockSize tokenSize task bounds
    return [out]) (List.range src.tokenSizes.length)

/-- `vllm_parse_block_send_multi_tensor_p_eq_d`. -/
def vllmParseBlockSendMultiTensorPEqD : ParseBlockFunc :=
  fun src dst validRanks kvtTpSize kvtTpRank task => do
    if validRanks.getLsbD src.workerTpRank = false then return []
    cassert env.ndebug (kvtTpSize = dst.engineTpSize)
    cassert env.ndebug (kvtTpRank = dst.workerTpRank)
    cassert env.ndebug (src.tokenSizes = dst.tokenSizes)
    cassert env.ndebug (src.blockSizes = dst.blockSizes)
    cassert env.ndebug (src.tokenSizes.length = src.blockSizes.length)
    cassert env.ndebug (dst.tokenSizes.length = dst.blockSizes.length)
    sendEqualTensors env src dst task

/-- `vllm_parse_block_send_multi_tensor_p_gt_d`. -/
def vllmParseBlockSendMultiTensorPGtD : ParseBlockFunc :=
  fun p d _ kvtTpSize _ task => do
    if p.tokenSizes = d.tokenSizes then
      if p.workerTpRank ≠ 0 then return []
      cassert env.ndebug (d.workerTpRank = 0)
      cassert env.ndebug (p.blockSizes = d.blockSizes)
      cassert env.ndebug (p.tokenSizes.length = p.blockSizes.length)
      sendEqualTensors env p d task
    else
      let srcBlocks ← vecAt task.req.srcBlocks 0
      let dstBlocks ← vecAt task.req.dstBlocks 0
      doMultiTensorParseBlockSend env p kvtTpSize srcBlocks d d.engineTpSize dstBlocks
        task.seenTokens task.newTokens p d false

/-- `vllm_parse_block_send_multi_tensor_p_lt_d`. -/
def vllmParseBlockSendMultiTensorPLtD : ParseBlockFunc :=
  fun p d _ kvtTpSize _ task => do
    let dstBlocks ← vecAt task.req.dstBlocks 0
    let srcBlocks ← vecAt task.req.srcBlocks 0
    doMultiTensorParseBlockSend env d d.engineTpSize dstBlocks p kvtTpSize srcBlocks
      task.seenTokens task.newTokens p d true

end LlumnixKv
