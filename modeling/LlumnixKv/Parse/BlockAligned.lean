import LlumnixKv.Parse.Common

/-!
# Parse/BlockAligned — pages sent whole

Where both sides have the same pages, a block of a request is sent as one record.  A request comes in
chunks that start and end anywhere, so a block is sent by the chunk that completes it, and the last
chunk sends what is left of the tables:

    tokens     0        ntpb      2·ntpb     3·ntpb     …      total      B·ntpb
    chunks     |── chunk ──|─ chunk ─|───── last chunk ────────|
    sent       .        [0]          [1]                        [2] … [B-1]

`do_parse_block_aligned_send` (QWEN3_NEXT) decides this block by block, from where the chunk starts and
ends in it; `parse_replicated_mla_blocks` (KIMI_K3) has the closed form.  `alignedSend_exactlyOnce_iff`
says that the two agree and that every block is sent once — as long as the first block after the
request is computed without wrapping.
-/

open List Machinery

namespace LlumnixKv

/-! ## A page at a time -/

/-- The record of block `i` of the tables: `len` bytes from the start of its page. -/
def pageRecord (srcStride dstStride len : ℕ) (srcBlocks dstBlocks : List ℕ) (i : ℕ) : IpcBlock :=
  ⟨srcBlocks.getD i 0 * srcStride, dstBlocks.getD i 0 * dstStride, len⟩

/-- …and the code that appends it. -/
def sendPage (srcStride dstStride len : ℕ) (srcBlocks dstBlocks : List ℕ) (bounds : IpcBlockBounds)
    (i : ℕ) : Except Fault (List IpcBlock) := do
  let srcBlock ← vecAt srcBlocks i
  let dstBlock ← vecAt dstBlocks i
  appendIpcBlockChecked bounds (srcBlock * srcStride) (dstBlock * dstStride) len

/-- Every block of the tables has a page on both sides. -/
structure PagesFit (bounds : IpcBlockBounds) (srcStride dstStride len : ℕ)
    (srcBlocks dstBlocks : List ℕ) : Prop where
  length_eq : srcBlocks.length = dstBlocks.length
  fits : ∀ i < srcBlocks.length,
    bounds.Fits (srcBlocks.getD i 0 * srcStride) (dstBlocks.getD i 0 * dstStride) len

section Pages

variable {srcStride dstStride len : ℕ} {srcBlocks dstBlocks : List ℕ} {bounds : IpcBlockBounds}

theorem PagesFit.sendPage (h : PagesFit bounds srcStride dstStride len srcBlocks dstBlocks) {i : ℕ}
    (hi : i < srcBlocks.length) :
    sendPage srcStride dstStride len srcBlocks dstBlocks bounds i =
      .ok [pageRecord srcStride dstStride len srcBlocks dstBlocks i] := by
  rw [LlumnixKv.sendPage, vecAt_of_lt hi, ok_bind, vecAt_of_lt (h.length_eq ▸ hi), ok_bind]
  exact appendIpcBlockChecked_eq_ok.mpr ⟨h.fits i hi, rfl⟩

/-- A loop over blocks sends their pages. -/
theorem PagesFit.emitAll_sendPage (h : PagesFit bounds srcStride dstStride len srcBlocks dstBlocks)
    {blks : List ℕ} (hblks : ∀ i ∈ blks, i < srcBlocks.length) :
    emitAll (LlumnixKv.sendPage srcStride dstStride len srcBlocks dstBlocks bounds) blks =
      .ok (blks.map (pageRecord srcStride dstStride len srcBlocks dstBlocks)) := by
  rw [emitAll_ok fun i hi => h.sendPage (hblks i hi), map_eq_flatMap]

end Pages

/-! ## Block by block -/

variable (env : EnvCfg)

/-- `length`: what the round of a block sends, `tokens` of it from `tokenIdx` on. -/
def alignedLength (blockSize ntpb : ℕ) (reachLastToken : Bool) (tokenIdx tokens : ℕ) :
    Except Fault ℕ :=
  if tokens ≠ ntpb then
    if reachLastToken then .ok blockSize
    else if tokenIdx = 0 then .ok 0
    else if tokenIdx + tokens = ntpb then .ok blockSize
    else do
      cassert env.ndebug (tokenIdx + tokens < ntpb)
      return 0
  else .ok blockSize

/-- One round of `do_parse_block_aligned_send`. -/
def alignedRound (blockSize ntpb : ℕ) (reachLastToken : Bool) (srcBlocks dstBlocks : List ℕ)
    (bounds : IpcBlockBounds) (wroteTokens tokens : ℕ) :
    Except Fault (List IpcBlock) := do
  let blkIdx ← checkedDiv wroteTokens ntpb
  cassert env.ndebug (blkIdx < srcBlocks.length ∧ blkIdx < dstBlocks.length)
  let srcBlock ← vecAt srcBlocks blkIdx
  let dstBlock ← vecAt dstBlocks blkIdx
  let length ← alignedLength env blockSize ntpb reachLastToken (wroteTokens % ntpb) tokens
  if 0 < length then
    appendIpcBlockChecked bounds (srcBlock * blockSize) (dstBlock * blockSize) length
  else return []

/-- `next_blk`: the first block after the tokens, rounded up in `uint32_t`. -/
def nextBlk (ntpb wroteTokens : ℕ) : ℕ := u32 (wroteTokens + ntpb - 1) / ntpb

/-- `do_parse_block_aligned_send`. -/
def doParseBlockAlignedSend (blockSize : ℕ) (task : ReqSendTask) (srcBlocks dstBlocks : List ℕ)
    (ntpb : ℕ) (bounds : IpcBlockBounds) :
    Except Fault (List IpcBlock) := do
  let out ← walk (toBoundary ntpb)
    (alignedRound env blockSize ntpb task.reachLastToken srcBlocks dstBlocks bounds)
    task.newTokens task.seenTokens task.newTokens
  if task.reachLastToken then
    let _ ← checkedDiv (u32 (task.endTokens + ntpb - 1)) ntpb
    cassert env.ndebug (srcBlocks.length = dstBlocks.length)
    let next := nextBlk ntpb task.endTokens
    let tail ← emitAll (sendPage blockSize blockSize blockSize srcBlocks dstBlocks bounds)
      (List.range' next (srcBlocks.length - next))
    return out ++ tail
  else return out

/-- The blocks a call sends. -/
def alignedBlocks (ntpb numBlks : ℕ) (task : ReqSendTask) : List ℕ :=
  let first := task.seenTokens / ntpb
  if task.reachLastToken then
    let next := nextBlk ntpb task.endTokens
    List.range' first ((task.endTokens - 1) / ntpb + 1 - first) ++ List.range' next (numBlks - next)
  else List.range' first (task.endTokens / ntpb - first)

/-! ## The rank-replicated MLA cache -/

/-- The equal-TP branch of `parse_replicated_mla_blocks`. -/
def replicatedMlaPEqD (srcManagerNtpb dstManagerNtpb : ℕ)
    (srcPhysicalPageSize dstPhysicalPageSize hybridAttnTokenSize : ℕ) (task : ReqSendTask)
    (srcBlocks dstBlocks : List ℕ) (bounds : IpcBlockBounds) : Except Fault (List IpcBlock) := do
  cassert env.ndebug (srcManagerNtpb = dstManagerNtpb)
  cassert env.ndebug (srcBlocks.length = dstBlocks.length)
  let firstBlock ← checkedDiv task.seenTokens srcManagerNtpb
  let endBlock := if task.reachLastToken then srcBlocks.length else task.endTokens / srcManagerNtpb
  cassert env.ndebug (firstBlock ≤ endBlock)
  cassert env.ndebug (endBlock ≤ srcBlocks.length)
  emitAll (sendPage srcPhysicalPageSize dstPhysicalPageSize (srcManagerNtpb * hybridAttnTokenSize)
    srcBlocks dstBlocks bounds) (List.range' firstBlock (endBlock - firstBlock))

/-- One side of the unequal-TP branch. -/
structure MlaSide where
  managerNtpb : ℕ
  physicalPageSize : ℕ
  blocks : List ℕ
  deriving DecidableEq, Repr

/-- The offset of the kernel page of token `pos`. -/
def MlaSide.kernelPageOff (side : MlaSide) (env : EnvCfg) (kernelNtpb kernelMlaPageSize pos : ℕ) :
    Except Fault ℕ := do
  let blockIdx ← checkedDiv pos side.managerNtpb
  let kernelIdx ← checkedDiv (pos % side.managerNtpb) kernelNtpb
  cassert env.ndebug (blockIdx < side.blocks.length)
  let block ← vecAt side.blocks blockIdx
  return block * side.physicalPageSize + kernelIdx * kernelMlaPageSize

/-- The unequal-TP branch: kernel pages, each sent once it is complete. -/
def replicatedMlaKernelPages (src dst : MlaSide) (kernelNtpb : ℕ) (hybridAttnTokenSize : ℕ)
    (task : ReqSendTask) (bounds : IpcBlockBounds) : Except Fault (List IpcBlock) :=
  walk (toBoundary kernelNtpb) (fun wrote tokens => do
    let srcOff ← src.kernelPageOff env kernelNtpb (kernelNtpb * hybridAttnTokenSize) wrote
    let dstOff ← dst.kernelPageOff env kernelNtpb (kernelNtpb * hybridAttnTokenSize) wrote
    if tokens = kernelNtpb ∨ task.reachLastToken = true ∨ wrote % kernelNtpb + tokens = kernelNtpb
    then appendIpcBlockChecked bounds srcOff dstOff (kernelNtpb * hybridAttnTokenSize)
    else return []) task.newTokens task.seenTokens task.newTokens

/-- …and the rest of D's token region, filled from the first block of the request. -/
def replicatedMlaFill (src dst : MlaSide) (hybridAttnTokenSize : ℕ) (task : ReqSendTask)
    (bounds : IpcBlockBounds) : Except Fault (List IpcBlock) :=
  if env.padLastAttnBlock = false ∨ task.reachLastToken = false then .ok []
  else
    let capacity := dst.blocks.length * dst.managerNtpb
    if capacity ≤ task.endTokens then .ok []
    else do
      cassert env.ndebug (src.blocks ≠ [])
      let fillBlock ← vecAt src.blocks 0
      walk (toBoundary dst.managerNtpb) (fun dstPos tokens => do
        let block ← vecAt dst.blocks (dstPos / dst.managerNtpb)
        emitZeroFillSegments env (fillBlock * src.physicalPageSize)
          (block * dst.physicalPageSize + dstPos % dst.managerNtpb * hybridAttnTokenSize)
          (tokens * hybridAttnTokenSize) src.physicalPageSize bounds)
        (capacity - task.endTokens) task.endTokens (capacity - task.endTokens)

/-- `kda_page_stride`, or the logical block size where it is not set. -/
def physicalPageSize (w : WorkerInfo) (logicalBlockSize : ℕ) : ℕ :=
  if w.kdaPageStride ≠ 0 then w.kdaPageStride else logicalBlockSize

/-- What `parse_replicated_mla_blocks` finds of one side. -/
def mlaSide (w : WorkerInfo) (groups : List (List ℕ)) (groupIdx kernelNtpb : ℕ)
    (hybridAttnTokenSize : ℕ) : Except Fault MlaSide := do
  cassert env.ndebug (w.blockSizes.length = 1)
  cassert env.ndebug (w.tokenSizes.length = 1)
  cassert env.ndebug (w.attnPackSize = 1)
  cassert env.ndebug (groups.length = groupIdx + 1)
  let blocks ← vecAt groups groupIdx
  let logicalBlockSize ← vecAt w.blockSizes 0
  let registeredTokenSize ← vecAt w.tokenSizes 0
  cassert env.ndebug (0 < registeredTokenSize)
  cassert env.ndebug (logicalBlockSize % registeredTokenSize = 0)
  let quotient ← checkedDiv logicalBlockSize registeredTokenSize
  let managerNtpb := u32 quotient
  cassert env.ndebug (0 < managerNtpb)
  cassert env.ndebug (managerNtpb % kernelNtpb = 0)
  let physicalPageSize := physicalPageSize w logicalBlockSize
  cassert env.ndebug (managerNtpb * hybridAttnTokenSize ≤ physicalPageSize)
  return ⟨managerNtpb, physicalPageSize, blocks⟩

/-- `parse_replicated_mla_blocks`. -/
def parseReplicatedMlaBlocks (src dst : WorkerInfo) (validRanks : BitVec maxTpSize)
    (task : ReqSendTask) : Except Fault (List IpcBlock) :=
  -- `test` checks its argument
  if maxTpSize ≤ src.workerTpRank then .error .outOfRange
  else if validRanks.getLsbD src.workerTpRank = false then .ok []
  else do
    cassert env.ndebug (0 < src.hybridAttnTokenSize)
    cassert env.ndebug (0 < src.attnKernelBlkNtpb)
    cassert env.ndebug (src.attnKernelBlkNtpb = dst.attnKernelBlkNtpb)
    cassert env.ndebug (src.hybridAttnTokenSize = dst.hybridAttnTokenSize)
    let srcSide ← mlaSide env src task.req.srcBlocks src.numGdnLayers src.attnKernelBlkNtpb
      src.hybridAttnTokenSize
    let dstSide ← mlaSide env dst task.req.dstBlocks src.numGdnLayers src.attnKernelBlkNtpb
      src.hybridAttnTokenSize
    let bounds ← makeIpcBlockBounds env src dst 0
    if src.engineTpSize = dst.engineTpSize then
      replicatedMlaPEqD env srcSide.managerNtpb dstSide.managerNtpb srcSide.physicalPageSize
        dstSide.physicalPageSize src.hybridAttnTokenSize task srcSide.blocks dstSide.blocks bounds
    else
      let pages ← replicatedMlaKernelPages env srcSide dstSide src.attnKernelBlkNtpb
        src.hybridAttnTokenSize task bounds
      let fill ← replicatedMlaFill env srcSide dstSide src.hybridAttnTokenSize task bounds
      return pages ++ fill

/-! ## One chunk -/

section Chunk

variable {env : EnvCfg} {ntpb blockSize : ℕ} {srcBlocks dstBlocks : List ℕ}
  {bounds : IpcBlockBounds} {task : ReqSendTask}

/-- Whether a round sends its block depends on where the chunk ends, and not on where the round
starts. -/
theorem alignedLength_eq (reachLastToken : Bool) (hntpb : 0 < ntpb) (p l : ℕ) :
    alignedLength env blockSize ntpb reachLastToken (p % ntpb) (toBoundary ntpb p l) =
      .ok (if reachLastToken = true ∨ p / ntpb < (p + l) / ntpb then blockSize else 0) := by
  have hmod := Nat.mod_lt p hntpb
  have hdiv := Nat.div_add_mod' p ntpb
  have hcomplete : p / ntpb < (p + l) / ntpb ↔ ntpb - p % ntpb ≤ l := by
    rw [Nat.lt_iff_add_one_le, Nat.le_div_iff_mul_le hntpb, Nat.succ_mul]
    omega
  simp only [hcomplete]
  unfold alignedLength toBoundary
  by_cases hle : ntpb - p % ntpb ≤ l
  · -- the block is complete
    rw [min_eq_left hle, if_pos (Or.inr hle)]
    split
    · next hne =>
      have hstart : p % ntpb ≠ 0 := fun h => hne (by omega)
      rw [if_neg hstart, if_pos (show p % ntpb + (ntpb - p % ntpb) = ntpb by omega), ite_self]
    · rfl
  · rw [min_eq_right (by omega), if_pos (show l ≠ ntpb by omega)]
    cases reachLastToken with
    | true => simp
    | false =>
      have hdefer : ¬(false = true ∨ ntpb - p % ntpb ≤ l) := by simp [hle]
      rw [if_neg Bool.false_ne_true, if_neg (show ¬p % ntpb + l = ntpb by omega),
        cassert_of (show p % ntpb + l < ntpb by omega), if_neg hdefer]
      exact ite_self _

theorem alignedRound_eq (hfits : PagesFit bounds blockSize blockSize blockSize srcBlocks dstBlocks)
    (reachLastToken : Bool) (hntpb : 0 < ntpb) {p : ℕ} (l : ℕ) (hp : p / ntpb < srcBlocks.length) :
    alignedRound env blockSize ntpb reachLastToken srcBlocks dstBlocks bounds p
        (toBoundary ntpb p l) =
      .ok (if reachLastToken = true ∨ p / ntpb < (p + l) / ntpb then
        [pageRecord blockSize blockSize blockSize srcBlocks dstBlocks (p / ntpb)] else []) := by
  have hdst : p / ntpb < dstBlocks.length := hfits.length_eq ▸ hp
  have hsend := hfits.sendPage hp
  rw [sendPage, vecAt_of_lt hp, ok_bind, vecAt_of_lt hdst, ok_bind] at hsend
  rw [alignedRound, checkedDiv_of_pos hntpb, ok_bind, cassert_of ⟨hp, hdst⟩, ok_bind,
    vecAt_of_lt hp, ok_bind, vecAt_of_lt hdst, ok_bind, alignedLength_eq reachLastToken hntpb p l,
    ok_bind]
  split
  · rw [if_pos (hfits.fits _ hp).len_pos, hsend]
  · rfl

/-- The blocks below `stop`, of a range that reaches it. -/
theorem flatMap_range'_below {β : Type*} (f : ℕ → β) {first n stop : ℕ} (hstop : stop ≤ first + n) :
    ((List.range' first n).flatMap fun i => if i < stop then [f i] else []) =
      (List.range' first (stop - first)).map f := by
  obtain ⟨k, rfl⟩ : ∃ k, n = stop - first + k := ⟨n - (stop - first), by omega⟩
  have hbelow : ∀ i ∈ List.range' first (stop - first),
      (if i < stop then [f i] else []) = [f i] := fun i hi => by
    have := mem_range'_1.mp hi
    exact if_pos (by omega)
  have habove : ∀ i ∈ List.range' (first + (stop - first)) k,
      (if i < stop then [f i] else []) = [] := fun i hi => by
    have := mem_range'_1.mp hi
    exact if_neg (by omega)
  rw [← range'_append_1, flatMap_append, flatMap_congr hbelow,
    flatMap_congr habove, map_eq_flatMap]
  simp

/-- **A call sends the blocks of its chunk.** -/
theorem doParseBlockAlignedSend_eq (env : EnvCfg)
    (hfits : PagesFit bounds blockSize blockSize blockSize srcBlocks dstBlocks) (hntpb : 0 < ntpb)
    (hnew : 0 < task.newTokens) (hend : task.endTokens ≤ srcBlocks.length * ntpb) :
    doParseBlockAlignedSend env blockSize task srcBlocks dstBlocks ntpb bounds =
      .ok ((alignedBlocks ntpb srcBlocks.length task).map
        (pageRecord blockSize blockSize blockSize srcBlocks dstBlocks)) := by
  have hpos : 0 < task.endTokens := Nat.add_pos_right _ hnew
  -- the loop
  have hwalk : walk (toBoundary ntpb)
      (alignedRound env blockSize ntpb task.reachLastToken srcBlocks dstBlocks bounds)
      task.newTokens task.seenTokens task.newTokens = .ok ((List.range' (task.seenTokens / ntpb)
        ((task.endTokens - 1) / ntpb + 1 - task.seenTokens / ntpb)).flatMap fun i =>
          if task.reachLastToken = true ∨ i < task.endTokens / ntpb then
            [pageRecord blockSize blockSize blockSize srcBlocks dstBlocks i] else []) := by
    refine walk_blocks hntpb le_rfl hnew fun p l _ hl he => ?_
    have hblock : p / ntpb < srcBlocks.length := by
      rw [Nat.div_lt_iff_lt_mul hntpb]
      have : p + l = task.endTokens := he
      omega
    rw [alignedRound_eq hfits task.reachLastToken hntpb l hblock, he]
    rfl
  rw [doParseBlockAlignedSend, hwalk, ok_bind, alignedBlocks]
  rcases Bool.eq_false_or_eq_true task.reachLastToken with hlast | hlast
  · have htail : emitAll (sendPage blockSize blockSize blockSize srcBlocks dstBlocks bounds)
        (List.range' (nextBlk ntpb task.endTokens)
          (srcBlocks.length - nextBlk ntpb task.endTokens)) = _ :=
      hfits.emitAll_sendPage fun i hi => by
        have := mem_range'_1.mp hi
        omega
    simp only [hlast, true_or, if_true, checkedDiv_of_pos hntpb, ok_bind,
      cassert_of hfits.length_eq, htail]
    rw [map_append, ← map_eq_flatMap]
    rfl
  · have hstop : task.endTokens / ntpb ≤ task.seenTokens / ntpb +
        ((task.endTokens - 1) / ntpb + 1 - task.seenTokens / ntpb) := by
      have hle : task.endTokens / ntpb ≤ (task.endTokens - 1) / ntpb + 1 := by
        rw [← Nat.add_div_right _ hntpb]
        exact Nat.div_le_div_right (by omega)
      omega
    simp only [hlast, Bool.false_eq_true, false_or, if_false]
    rw [flatMap_range'_below _ hstop]
    rfl

/-- **The equal-TP branch of KIMI_K3 in closed form.** -/
theorem replicatedMlaPEqD_eq {srcPage dstPage tokenSize : ℕ}
    (hfits : PagesFit bounds srcPage dstPage (ntpb * tokenSize) srcBlocks dstBlocks)
    (hntpb : 0 < ntpb) (hend : task.endTokens ≤ srcBlocks.length * ntpb) :
    replicatedMlaPEqD env ntpb ntpb srcPage dstPage tokenSize task srcBlocks dstBlocks bounds =
      .ok ((List.range' (task.seenTokens / ntpb) ((if task.reachLastToken then srcBlocks.length
          else task.endTokens / ntpb) - task.seenTokens / ntpb)).map
        (pageRecord srcPage dstPage (ntpb * tokenSize) srcBlocks dstBlocks)) := by
  have hstop : task.endTokens / ntpb ≤ srcBlocks.length := by
    rw [← Nat.mul_div_cancel srcBlocks.length hntpb]
    exact Nat.div_le_div_right hend
  have hfirst : task.seenTokens / ntpb ≤ task.endTokens / ntpb :=
    Nat.div_le_div_right (Nat.le_add_right _ _)
  have hle : (if task.reachLastToken then srcBlocks.length else task.endTokens / ntpb) ≤
      srcBlocks.length := by split <;> omega
  have hle' : task.seenTokens / ntpb ≤
      (if task.reachLastToken then srcBlocks.length else task.endTokens / ntpb) := by
    split <;> omega
  rw [replicatedMlaPEqD, cassert_of rfl, ok_bind, cassert_of hfits.length_eq, ok_bind,
    checkedDiv_of_pos hntpb, ok_bind]
  dsimp only
  rw [cassert_of hle', ok_bind, cassert_of hle, ok_bind]
  refine hfits.emitAll_sendPage fun i hi => ?_
  have := mem_range'_1.mp hi
  omega

end Chunk

/-! ## All chunks of a request -/

/-- The tasks are the chunks of `[start, total)`: consecutive, none of them empty, and the last one
the only one that is flagged. -/
def Chunked (total : ℕ) : ℕ → List ReqSendTask → Prop
  | _, [] => False
  | start, [task] => task.seenTokens = start ∧ 0 < task.newTokens ∧ task.endTokens = total ∧
      task.reachLastToken = true
  | start, task :: tasks => task.seenTokens = start ∧ 0 < task.newTokens ∧
      task.reachLastToken = false ∧ Chunked total task.endTokens tasks

/-- What is common to all chunks. -/
theorem Chunked.forall {total : ℕ} : ∀ {start : ℕ} {tasks : List ReqSendTask},
    Chunked total start tasks → start < total ∧ total < 2 ^ 32 ∧ ∀ task ∈ tasks,
      0 < task.newTokens ∧ task.endTokens ≤ total ∧
      (task.reachLastToken = true → task.endTokens = total)
  | _, [task], ⟨rfl, hnew, hend, _⟩ => by
      refine ⟨?_, hend ▸ task.endTokens_lt, fun task' h => ?_⟩
      · rw [← hend]
        exact Nat.lt_add_of_pos_right hnew
      · obtain rfl := mem_singleton.mp h
        exact ⟨hnew, hend.le, fun _ => hend⟩
  | _, task :: task₁ :: tasks, ⟨rfl, hnew, hlast, hrest⟩ => by
      obtain ⟨hlt, hu32, hall⟩ := Chunked.forall hrest
      refine ⟨(Nat.le_add_right _ _).trans_lt hlt, hu32, fun task' h => ?_⟩
      rcases mem_cons.mp h with rfl | h
      · exact ⟨hnew, hlt.le, fun h => (by cases hlast.symm.trans h)⟩
      · exact hall task' h

/-- Ranges that meet are one range. -/
theorem range'_append_range' {a b c : ℕ} (hab : a ≤ b) (hbc : b ≤ c) :
    List.range' a (b - a) ++ List.range' b (c - b) = List.range' a (c - a) := by
  obtain ⟨k, rfl⟩ := Nat.exists_eq_add_of_le hab
  rw [Nat.add_sub_cancel_left, range'_append_1]
  congr 1
  omega

/-- **The chunks send the blocks of the request in order**, and then those after `nextBlk`. -/
theorem Chunked.flatMap_alignedBlocks {ntpb numBlks total : ℕ} :
    ∀ {start : ℕ} {tasks : List ReqSendTask}, Chunked total start tasks →
    tasks.flatMap (alignedBlocks ntpb numBlks) =
      List.range' (start / ntpb) ((total - 1) / ntpb + 1 - start / ntpb) ++
        List.range' (nextBlk ntpb total) (numBlks - nextBlk ntpb total)
  | _, [task], ⟨rfl, _, hend, hlast⟩ => by
      rw [flatMap_singleton, alignedBlocks, hlast, if_pos rfl, hend]
  | _, task :: task₁ :: tasks, ⟨rfl, hnew, hlast, hrest⟩ => by
      have hseen : task.seenTokens / ntpb ≤ task.endTokens / ntpb :=
        Nat.div_le_div_right (Nat.le_add_right _ _)
      have htotal : task.endTokens / ntpb ≤ (total - 1) / ntpb :=
        Nat.div_le_div_right (Nat.le_sub_one_of_lt hrest.forall.1)
      rw [flatMap_cons, Chunked.flatMap_alignedBlocks hrest, alignedBlocks, hlast,
        if_neg Bool.false_ne_true, ← append_assoc,
        range'_append_range' hseen (htotal.trans (Nat.le_succ _))]

/-- Where `nextBlk` rounds up, a chunk sends the blocks of the closed form. -/
theorem alignedBlocks_eq {ntpb numBlks : ℕ} {task : ReqSendTask} (hntpb : 0 < ntpb)
    (hnew : 0 < task.newTokens) (hend : task.endTokens ≤ numBlks * ntpb)
    (hnext : task.reachLastToken = true →
      nextBlk ntpb task.endTokens = (task.endTokens - 1) / ntpb + 1) :
    alignedBlocks ntpb numBlks task = List.range' (task.seenTokens / ntpb)
      ((if task.reachLastToken then numBlks else task.endTokens / ntpb) -
        task.seenTokens / ntpb) := by
  have hpos : 0 < task.endTokens := Nat.add_pos_right _ hnew
  have hseen : task.seenTokens / ntpb ≤ (task.endTokens - 1) / ntpb :=
    Nat.div_le_div_right (Nat.le_sub_one_of_lt (Nat.lt_add_of_pos_right hnew))
  have hlt : (task.endTokens - 1) / ntpb < numBlks := by
    rw [Nat.div_lt_iff_lt_mul hntpb]
    omega
  unfold alignedBlocks
  rcases Bool.eq_false_or_eq_true task.reachLastToken with hlast | hlast
  · simp only [hlast, if_true]
    rw [hnext hlast, range'_append_range' (hseen.trans (Nat.le_succ _)) hlt]
  · simp only [hlast, Bool.false_eq_true, if_false]

/-- Where the rounding up does not wrap, it rounds up. -/
theorem nextBlk_of_le {ntpb total : ℕ} (hntpb : 0 < ntpb) (htotal : 0 < total)
    (h : total + ntpb ≤ 2 ^ 32) : nextBlk ntpb total = (total - 1) / ntpb + 1 := by
  rw [nextBlk, u32_of_lt (by omega), show total + ntpb - 1 = total - 1 + ntpb by omega,
    Nat.add_div_right _ hntpb]

/-- …and where it does, it falls back into the request. -/
theorem nextBlk_of_lt {ntpb total : ℕ} (hntpb : ntpb < 2 ^ 32) (htotal : total < 2 ^ 32)
    (h : 2 ^ 32 < total + ntpb) : nextBlk ntpb total ≤ (total - 1) / ntpb := by
  have hwrap : u32 (total + ntpb - 1) = total + ntpb - 1 - 2 ^ 32 := by
    rw [u32, Nat.mod_eq_sub_mod (by omega), Nat.mod_eq_of_lt (by omega)]
  rw [nextBlk, hwrap]
  exact Nat.div_le_div_right (by omega)

/-- **Block-aligned chunks send every block exactly once if and only if the first block after the
request is computed without wrapping.**  Each chunk sends the blocks KIMI_K3's closed form sends, and
one that is not the last sends only blocks it completes. -/
theorem alignedSend_exactlyOnce_iff (env : EnvCfg) {ntpb blockSize start total : ℕ}
    {srcPage dstPage tokenSize : ℕ} {srcBlocks dstBlocks : List ℕ} {bounds mlaBounds : IpcBlockBounds}
    {tasks : List ReqSendTask} (hntpb : 0 < ntpb) (hu32 : ntpb < 2 ^ 32)
    (hfits : PagesFit bounds blockSize blockSize blockSize srcBlocks dstBlocks)
    (hmla : PagesFit mlaBounds srcPage dstPage (ntpb * tokenSize) srcBlocks dstBlocks)
    (htotal : total ≤ srcBlocks.length * ntpb) (hchunks : Chunked total start tasks) :
    (emitAll (fun task => doParseBlockAlignedSend env blockSize task srcBlocks dstBlocks ntpb bounds)
        tasks = .ok ((List.range' (start / ntpb) (srcBlocks.length - start / ntpb)).map
          (pageRecord blockSize blockSize blockSize srcBlocks dstBlocks)) ∧
      ∀ task ∈ tasks, ∃ blks : List ℕ,
        doParseBlockAlignedSend env blockSize task srcBlocks dstBlocks ntpb bounds =
          .ok (blks.map (pageRecord blockSize blockSize blockSize srcBlocks dstBlocks)) ∧
        replicatedMlaPEqD env ntpb ntpb srcPage dstPage tokenSize task srcBlocks dstBlocks
            mlaBounds =
          .ok (blks.map (pageRecord srcPage dstPage (ntpb * tokenSize) srcBlocks dstBlocks)) ∧
        (task.reachLastToken = false → ∀ i ∈ blks, (i + 1) * ntpb ≤ task.endTokens)) ↔
    total + ntpb ≤ 2 ^ 32 := by
  obtain ⟨hlt, htotal', hall⟩ := hchunks.forall
  have hcall (task : ReqSendTask) (h : task ∈ tasks) :=
    doParseBlockAlignedSend_eq env hfits hntpb (hall task h).1
      ((hall task h).2.1.trans htotal)
  have hout : emitAll (fun task => doParseBlockAlignedSend env blockSize task srcBlocks dstBlocks
      ntpb bounds) tasks = .ok ((List.range' (start / ntpb) ((total - 1) / ntpb + 1 - start / ntpb)
        ++ List.range' (nextBlk ntpb total) (srcBlocks.length - nextBlk ntpb total)).map
          (pageRecord blockSize blockSize blockSize srcBlocks dstBlocks)) := by
    rw [emitAll_ok hcall, ← map_flatMap, hchunks.flatMap_alignedBlocks]
  have hlast : (total - 1) / ntpb < srcBlocks.length := by
    rw [Nat.div_lt_iff_lt_mul hntpb]
    omega
  have hfirst : start / ntpb ≤ (total - 1) / ntpb := Nat.div_le_div_right (by omega)
  constructor
  · rintro ⟨honce, -⟩
    by_contra hwrap
    have hnext := nextBlk_of_lt hu32 htotal' (not_le.mp hwrap)
    have hlen := congrArg List.length (Except.ok.inj (hout.symm.trans honce))
    simp only [length_map, length_append, length_range'] at hlen
    omega
  · intro hle
    have hnext := nextBlk_of_le hntpb (by omega) hle
    refine ⟨?_, fun task htask => ⟨_, hcall task htask, ?_, fun hmore i hi => ?_⟩⟩
    · rw [hout, hnext, range'_append_range' (by omega) hlast]
    · obtain ⟨hnew, hend, hflag⟩ := hall task htask
      rw [replicatedMlaPEqD_eq hmla hntpb (hend.trans htotal),
        alignedBlocks_eq hntpb hnew (hend.trans htotal) fun h => by rw [hflag h, hnext]]
    · rw [alignedBlocks, hmore, if_neg Bool.false_ne_true] at hi
      have hi := mem_range'_1.mp hi
      exact (Nat.le_div_iff_mul_le hntpb).mp (by omega)

/-- Three blocks of two tokens, `[0, 3)` and then the rest of five tokens. -/
def threeBlocks : List ReqSendTask :=
  [⟨⟨0, "req", [[4, 5, 6]], [[7, 8, 9]]⟩, 0, 3, false, by decide⟩,
    ⟨⟨0, "req", [[4, 5, 6]], [[7, 8, 9]]⟩, 3, 2, true, by decide⟩]

theorem alignedSend_exactlyOnce_threeBlocks :
    emitAll (fun task => doParseBlockAlignedSend {} 4 task [4, 5, 6] [7, 8, 9] 2 ⟨40, 40, 1, 0⟩)
      threeBlocks = .ok [⟨16, 28, 4⟩, ⟨20, 32, 4⟩, ⟨24, 36, 4⟩] := by
  have hpage {stride len : ℕ} (hlen : 0 < len) (hle : len ≤ stride) (hstride : stride ≤ 4) :
      PagesFit ⟨40, 40, 1, 0⟩ stride stride len [4, 5, 6] [7, 8, 9] := by
    refine ⟨rfl, fun i hi => ?_⟩
    obtain rfl | rfl | rfl : i = 0 ∨ i = 1 ∨ i = 2 := by
      have : i < 3 := hi
      omega
    all_goals
      refine ⟨hlen, by decide, ?_, ?_, ?_⟩ <;> simp only [sizeMax, getD_cons_zero,
        getD_cons_succ] <;> omega
  have hfits : PagesFit ⟨40, 40, 1, 0⟩ 4 4 4 [4, 5, 6] [7, 8, 9] :=
    hpage (by decide) le_rfl le_rfl
  have hmla : PagesFit ⟨40, 40, 1, 0⟩ 3 3 (2 * 1) [4, 5, 6] [7, 8, 9] :=
    hpage (by decide) (by decide) (by decide)
  have hchunks : Chunked 5 0 threeBlocks := ⟨rfl, by decide, rfl, rfl, by decide, rfl, rfl⟩
  exact ((alignedSend_exactlyOnce_iff {} (by decide) (by decide) hfits hmla (by decide)
    hchunks).mpr (by decide)).1

/-- **Where it wraps, a block is sent twice**: one block of `2³² - 1` tokens, two of them computed. -/
theorem alignedSend_wraps :
    doParseBlockAlignedSend {} 4294967295 ⟨⟨0, "req", [[0]], [[0]]⟩, 0, 2, true, by decide⟩ [0] [0]
      4294967295 ⟨4294967295, 4294967295, 1, 0⟩ =
      .ok [⟨0, 0, 4294967295⟩, ⟨0, 0, 4294967295⟩] := by decide +kernel

end LlumnixKv
