import LlumnixKv.Parse.HeadSplit
import LlumnixKv.Parse.Memory

/-!
# Parse/Flash — the FLASH parse functions, and the P > D transfer is byte exact

    cache shape [2, num_blocks, block_size, num_kv_heads, head_dim]

    K plane │ row │ row │ …        V plane │ row │ row │ …
            └ layer_num_blocks · ntpb rows ┘

All K rows come before all V rows, so a V row lies one K plane behind its K row; the planes of P and
D differ in row width and in the number of blocks.  With P > D the `n` valid ranks of a D rank fill
`n` slices of each of its rows.
-/

open List Machinery

namespace LlumnixKv

open HybridTransfer (DisjointDst)

/-! ## The functions -/

/-- The V record of a K record: the same row in the other plane. -/
def planeRecord (srcLayerSize dstLayerSize : ℕ) (sb : IpcBlock) : IpcBlock :=
  ⟨sb.srcOffset + srcLayerSize, sb.dstOffset + dstLayerSize, sb.length⟩

/-- The second loop: a V record for each K record the first loop appended. -/
def sendVPlane (srcLayerSize dstLayerSize : ℕ) (bounds : IpcBlockBounds)
    (kRecords : List IpcBlock) : Except Fault (List IpcBlock) :=
  emitAll (fun sb => appendIpcBlockChecked bounds (sb.srcOffset + srcLayerSize)
    (sb.dstOffset + dstLayerSize) sb.length) kRecords

/-- `vllm_parse_block_send_p_eq_d`. -/
def vllmParseBlockSendPEqD (env : EnvCfg) : ParseBlockFunc := fun src dst _ kvtTpSize _ task => do
  cassert env.ndebug (kvtTpSize = dst.engineTpSize)
  cassert env.ndebug (src.tokenSizes = dst.tokenSizes)
  cassert env.ndebug (src.blockSizes = dst.blockSizes)
  cassert env.ndebug (src.workerTpRank = dst.workerTpRank)
  cassert env.ndebug (src.tokenSizes.length = src.blockSizes.length)
  cassert env.ndebug (dst.tokenSizes.length = dst.blockSizes.length)
  cassert env.ndebug (src.tokenSizes.length = 1)
  cassert env.ndebug (src.blockSizes.length = 1)
  let kvTokenSize ← vecAt src.tokenSizes 0
  let kvBlockSize ← vecAt src.blockSizes 0
  let kTokenSize := kvTokenSize / 2
  let kBlockSize := kvBlockSize / 2
  cassert env.ndebug (2 * kTokenSize = kvTokenSize)
  cassert env.ndebug (2 * kBlockSize = kvBlockSize)
  let bounds ← makeIpcBlockBounds env src dst 0
  let kRecords ← doParseBlockSendPEqD env kBlockSize kTokenSize task bounds
  let vRecords ← sendVPlane (kBlockSize * src.layerNumBlocks) (kBlockSize * dst.layerNumBlocks)
    bounds kRecords
  return firstOf src.tokenSizes.length (kRecords ++ vRecords)

/-- `vllm_parse_block_send_p_gt_d`. -/
def vllmParseBlockSendPGtD (env : EnvCfg) : ParseBlockFunc :=
  fun p d validRanks kvtTpSize kvtTpRank task => do
    if validRanks.getLsbD p.workerTpRank = false then return []
    cassert env.ndebug (d.engineTpSize < kvtTpSize)
    let groupN ← checkedDiv (Bitset.count validRanks) d.engineTpSize
    cassert env.ndebug (0 < groupN)
    let group ← checkedDiv kvtTpRank groupN
    cassert env.ndebug (group = d.workerTpRank)
    let groupOff := kvtTpRank % groupN
    cassert env.ndebug (p.tokenSizes.length = 1)
    cassert env.ndebug (d.tokenSizes.length = 1)
    cassert env.ndebug (p.blockSizes.length = 1)
    cassert env.ndebug (d.blockSizes.length = 1)
    let pTokenSize ← vecAt p.tokenSizes 0
    let dTokenSize ← vecAt d.tokenSizes 0
    let pBlockSize ← vecAt p.blockSizes 0
    let dBlockSize ← vecAt d.blockSizes 0
    cassert env.ndebug (dTokenSize = pTokenSize * groupN)
    cassert env.ndebug (dTokenSize % 2 = 0)
    cassert env.ndebug (pTokenSize % 2 = 0)
    let pKSize := pTokenSize / 2
    let dKSize := dTokenSize / 2
    cassert env.ndebug (dKSize = pKSize * groupN)
    let quotient ← checkedDiv pBlockSize pTokenSize
    let ntpb := u32 quotient
    cassert env.ndebug (ntpb * pTokenSize = pBlockSize)
    cassert env.ndebug (ntpb * dTokenSize = dBlockSize)
    let bounds ← makeIpcBlockBounds env p d 0
    let srcBlocks ← vecIdx task.req.srcBlocks 0
    let dstBlocks ← vecIdx task.req.dstBlocks 0
    let kRecords ← parseBlockSendGt env pKSize pKSize dKSize ntpb groupOff srcBlocks dstBlocks
      task.seenTokens task.newTokens bounds false
    let vRecords ← sendVPlane (ntpb * pKSize * p.layerNumBlocks)
      (ntpb * dKSize * d.layerNumBlocks) bounds kRecords
    return firstOf p.tokenSizes.length (kRecords ++ vRecords)

/-! ## The transfer -/

/-- The address of the row of token `t` in plane `kv` of a cache of `blocks` blocks. -/
def planeAddr (ntpb kRow blocks : ℕ) (table : List ℕ) (kv t : ℕ) : ℕ :=
  tokenOffset table ntpb kRow t + kv * (ntpb * kRow * blocks)

/-- A worker registered two planes with rows of `kRow` bytes, and the blocks of the range are among
them. -/
structure HoldsPlanes (w : WorkerInfo) (tp rank ntpb kRow : ℕ) (table : List ℕ)
    (task : ReqSendTask) : Prop where
  engineTpSize : w.engineTpSize = tp
  workerTpRank : w.workerTpRank = rank
  tokenSizes : w.tokenSizes = [2 * kRow]
  blockSizes : w.blockSizes = [ntpb * (2 * kRow)]
  layerNumBlocks_pos : 0 < w.layerNumBlocks
  capacity : ntpb * (2 * kRow) * w.layerNumBlocks ≤ sizeMax
  covered : ∀ t, task.seenTokens ≤ t → t < task.endTokens →
    ∃ id, table[t / ntpb]? = some id ∧ id < w.layerNumBlocks

/-- A P > D transfer of a token range, fp8 off, to distinct destination blocks: the heads are
accepted by `compute_valid_ranks_pd`, and the valid ranks are more than the D ranks and divide among
them. -/
structure FlashTransfer where
  env : EnvCfg
  dInst : DInstId
  pTp : ℕ
  H : ℤ
  validRanks : BitVec maxTpSize
  ntpb : ℕ
  pKSize : ℕ
  task : ReqSendTask
  srcTable : List ℕ
  dstTable : List ℕ
  srcInfo : ℕ → WorkerInfo
  dstInfo : ℕ → WorkerInfo
  fp8_off : env.bf162fp8Conversion = false
  accepted : computeValidRanksPd false pTp dInst.dstTpsize H = .ok validRanks
  dTp_dvd : dInst.dstTpsize ∣ Bitset.count validRanks
  wide : dInst.dstTpsize < Bitset.count validRanks
  ntpb_pos : 0 < ntpb
  ntpb_lt : ntpb < 2 ^ 32
  pKSize_pos : 0 < pKSize
  srcBlocks : task.req.srcBlocks[0]? = some srcTable
  dstBlocks : task.req.dstBlocks[0]? = some dstTable
  src_holds : ∀ r < pTp, HoldsPlanes (srcInfo r) pTp r ntpb pKSize srcTable task
  dst_holds : ∀ x < dInst.dstTpsize, HoldsPlanes (dstInfo x) dInst.dstTpsize x ntpb
    (pKSize * (Bitset.count validRanks / dInst.dstTpsize)) dstTable task
  distinct : dstTable.Nodup

namespace FlashTransfer

variable (X : FlashTransfer)

abbrev dTp : ℕ := X.dInst.dstTpsize

/-- `group_n`. -/
def groupN : ℕ := Bitset.count X.validRanks / X.dTp

/-- `group_off`. -/
def groupOff (r : ℕ) : ℕ := kvtTpRank X.validRanks r % X.groupN

/-- `d_k_size`. -/
def dKSize : ℕ := X.pKSize * X.groupN

/-- The valid P ranks of D rank `x`. -/
def senders (X : FlashTransfer) (x : ℕ) : List ℕ :=
  LlumnixKv.senders X.validRanks X.pTp X.dInst x

/-- What P rank `r` emits for D rank `x`. -/
def parse (r x : ℕ) : Except Fault (List (List IpcBlock)) :=
  vllmParseBlockSendPGtD X.env (X.srcInfo r) (X.dstInfo x) X.validRanks
    (Bitset.count X.validRanks) (kvtTpRank X.validRanks r) X.task

/-- The rows of the task's range: plane and token. -/
def rows : List (ℕ × ℕ) :=
  (List.range 2).product (List.range' X.task.seenTokens X.task.newTokens)

/-- The address of a row on P rank `r`… -/
def srcAddr (r kv t : ℕ) : ℕ :=
  planeAddr X.ntpb X.pKSize (X.srcInfo r).layerNumBlocks X.srcTable kv t

/-- …and on D rank `x`. -/
def dstAddr (x kv t : ℕ) : ℕ :=
  planeAddr X.ntpb X.dKSize (X.dstInfo x).layerNumBlocks X.dstTable kv t

/-- The record of a row: the row of the sender, to the slice of its group offset. -/
def record (r x off : ℕ) (i : ℕ × ℕ) : IpcBlock :=
  ⟨X.srcAddr r i.1 i.2, X.dstAddr x i.1 i.2 + off * X.pKSize, X.pKSize⟩

/-- **The senders of D rank `x` fill its K and V rows exactly.** -/
structure Exact (X : FlashTransfer) (x : ℕ) (out : ℕ → List IpcBlock) : Prop where
  /-- there is one sender for each slice of a row -/
  offsets : (X.senders x).map X.groupOff = List.range X.groupN
  /-- a sender emits its slice of every row of the range, once, and nothing else -/
  slices : ∀ r ∈ X.senders x, (out r).Perm (X.rows.map (X.record r x (X.groupOff r)))
  /-- no two records overlap -/
  disjoint : ((X.senders x).flatMap out).Pairwise DisjointDst
  /-- every byte of every row is written once -/
  once : ∀ kv t, (kv, t) ∈ X.rows → ∀ o < X.dKSize, ((X.senders x).flatMap out).countP
    (fun r => decide (r.dstOffset ≤ X.dstAddr x kv t + o ∧
      X.dstAddr x kv t + o < r.dstOffset + r.length)) = 1

variable {X : FlashTransfer}

theorem exists_grouped (X : FlashTransfer) :
    ∃ s, 1 < X.groupN ∧ Grouped X.pTp X.dTp X.validRanks s X.groupN := by
  obtain ⟨s, n, h⟩ := computeValidRanksPd_grouped X.accepted X.dTp_dvd
    (Nat.zero_lt_of_lt X.wide)
  have hgroup : X.groupN = n := by
    rw [groupN, h.count, Nat.mul_div_cancel_left _ X.dInst.dstTpsize_pos]
  have hwide := X.wide
  rw [h.count] at hwide
  have hn : 1 < n := (Nat.lt_mul_iff_one_lt_right X.dInst.dstTpsize_pos).mp hwide
  exact ⟨s, hgroup ▸ hn, hgroup ▸ h⟩

theorem groupN_pos (X : FlashTransfer) : 0 < X.groupN :=
  let ⟨_, hn, _⟩ := X.exists_grouped
  Nat.zero_lt_of_lt hn

theorem map_groupOff {x : ℕ} (hx : x < X.dTp) :
    (X.senders x).map X.groupOff = List.range X.groupN :=
  let ⟨_, _, h⟩ := X.exists_grouped
  h.map_kvtTpRank_mod hx

/-- A sender's place in its group. -/
theorem sender_spec {r x : ℕ} (hr : r ∈ X.senders x) : r < X.pTp ∧
    X.validRanks.getLsbD r = true ∧ kvtTpRank X.validRanks r / X.groupN = x ∧
    X.groupOff r < X.groupN := by
  obtain ⟨s, -, h⟩ := X.exists_grouped
  obtain ⟨hlt, hsel⟩ := mem_filter.mp hr
  obtain ⟨hvalid, hdist⟩ := Bool.and_eq_true_iff.mp hsel
  obtain ⟨k, hk, rfl⟩ := h.exists_mul hvalid
  rw [h.getDist_mul, decide_eq_true_eq, map_singleton, mem_singleton] at hdist
  rw [h.kvtTpRank_mul hk]
  exact ⟨mem_range.mp hlt, hvalid, hdist.symm, Nat.mod_lt _ X.groupN_pos⟩

theorem mem_rows {kv t : ℕ} : (kv, t) ∈ X.rows ↔
    kv < 2 ∧ X.task.seenTokens ≤ t ∧ t < X.task.endTokens := by
  rw [rows, pair_mem_product, mem_range, mem_range'_1, ReqSendTask.endTokens]

end FlashTransfer

/-! ### Rows and planes -/

/-- The offsets the code adds up are a mixed-radix numeral. -/
theorem planeAddr_eq (ntpb kRow blocks : ℕ) (table : List ℕ) (kv t : ℕ) :
    planeAddr ntpb kRow blocks table kv t =
      ((kv * blocks + table.getD (t / ntpb) 0) * ntpb + t % ntpb) * kRow := by
  rw [planeAddr, tokenOffset]
  ring

namespace HoldsPlanes

variable {w : WorkerInfo} {tp rank ntpb kRow : ℕ} {table : List ℕ} {task : ReqSendTask} {t : ℕ}

theorem block_at (h : HoldsPlanes w tp rank ntpb kRow table task) (h1 : task.seenTokens ≤ t)
    (h2 : t < task.endTokens) :
    t / ntpb < table.length ∧ table.getD (t / ntpb) 0 < w.layerNumBlocks := by
  obtain ⟨id, hid, hlt⟩ := h.covered t h1 h2
  obtain ⟨hlook, rfl⟩ := getD_of_some hid
  exact ⟨hlook, hlt⟩

/-- Rows stay inside the cache. -/
theorem planeAddr_add_le (h : HoldsPlanes w tp rank ntpb kRow table task) (hntpb : 0 < ntpb)
    {kv off len : ℕ} (hkv : kv < 2) (h1 : task.seenTokens ≤ t) (h2 : t < task.endTokens)
    (hlen : off + len ≤ kRow) :
    planeAddr ntpb kRow w.layerNumBlocks table kv t + off + len ≤
      ntpb * (2 * kRow) * w.layerNumBlocks :=
  calc planeAddr ntpb kRow w.layerNumBlocks table kv t + off + len
      = ((kv * w.layerNumBlocks + table.getD (t / ntpb) 0) * ntpb + t % ntpb) * kRow + off + len :=
        by rw [planeAddr_eq]
    _ ≤ 2 * w.layerNumBlocks * ntpb * kRow := Radix.span_le (Radix.digit_lt
        (Radix.digit_lt hkv (h.block_at h1 h2).2) (Nat.mod_lt t hntpb)) hlen
    _ = ntpb * (2 * kRow) * w.layerNumBlocks := by ring

end HoldsPlanes

namespace FlashTransfer

variable {X : FlashTransfer} {r x : ℕ}

/-- The bounds of the pair. -/
def bounds (X : FlashTransfer) (r x : ℕ) : IpcBlockBounds :=
  ⟨X.ntpb * (2 * X.pKSize) * (X.srcInfo r).layerNumBlocks,
    X.ntpb * (2 * X.dKSize) * (X.dstInfo x).layerNumBlocks, 1, 0⟩

theorem makeIpcBlockBounds_eq (hr : r < X.pTp) (hx : x < X.dTp) :
    makeIpcBlockBounds X.env (X.srcInfo r) (X.dstInfo x) 0 = .ok (X.bounds r x) :=
  makeIpcBlockBounds_of_le X.fp8_off (by rw [(X.src_holds r hr).blockSizes]; rfl)
    (by rw [(X.dst_holds x hx).blockSizes]; rfl) (X.src_holds r hr).layerNumBlocks_pos
    (X.dst_holds x hx).layerNumBlocks_pos (X.src_holds r hr).capacity (X.dst_holds x hx).capacity

/-- A record passes the bounds check. -/
theorem record_fits (hr : r < X.pTp) (hx : x < X.dTp) {off kv t : ℕ} (hoff : off < X.groupN)
    (hrow : (kv, t) ∈ X.rows) :
    (X.bounds r x).Fits (X.record r x off (kv, t)).srcOffset (X.record r x off (kv, t)).dstOffset
      X.pKSize := by
  obtain ⟨hkv, h1, h2⟩ := mem_rows.mp hrow
  have hsrc := (X.src_holds r hr).planeAddr_add_le X.ntpb_pos hkv h1 h2 (zero_add _).le
  have hslice : off * X.pKSize + X.pKSize ≤ X.dKSize := by
    rw [dKSize, mul_comm X.pKSize, ← Nat.succ_mul]
    exact Nat.mul_le_mul_right _ hoff
  have hdst := (X.dst_holds x hx).planeAddr_add_le X.ntpb_pos hkv h1 h2 hslice
  have hcap := (X.src_holds r hr).capacity
  exact ⟨X.pKSize_pos, one_pos, by rw [bounds, mul_one]; omega,
    by rw [bounds, mul_one]; exact hsrc, hdst⟩

/-- The K record of the token loop. -/
theorem gtRecord_eq_record (off t : ℕ) :
    gtRecord X.pKSize X.pKSize X.dKSize X.ntpb off X.srcTable X.dstTable false t =
      X.record r x off (0, t) := by
  simp only [gtRecord, record, srcAddr, dstAddr, planeAddr, zero_mul, add_zero,
    Bool.false_eq_true, if_false]

/-- Its V record is the same row, one plane on. -/
theorem planeRecord_record (off t : ℕ) :
    planeRecord (X.ntpb * X.pKSize * (X.srcInfo r).layerNumBlocks)
        (X.ntpb * X.dKSize * (X.dstInfo x).layerNumBlocks) (X.record r x off (0, t)) =
      X.record r x off (1, t) := by
  simp only [planeRecord, record, srcAddr, dstAddr, planeAddr, IpcBlock.mk.injEq, and_true]
  exact ⟨by ring, by ring⟩

theorem row_mem {kv t : ℕ} (hkv : kv < 2)
    (ht : t ∈ List.range' X.task.seenTokens X.task.newTokens) : (kv, t) ∈ X.rows :=
  pair_mem_product.mpr ⟨mem_range.mpr hkv, ht⟩

/-- The first loop emits the K rows. -/
theorem exists_kRecords_ok (hx : x < X.dTp) (hr : r ∈ X.senders x) :
    ∃ ks, parseBlockSendGt X.env X.pKSize X.pKSize X.dKSize X.ntpb (X.groupOff r) X.srcTable
        X.dstTable X.task.seenTokens X.task.newTokens (X.bounds r x) false = .ok ks ∧
      ks.Perm ((List.range' X.task.seenTokens X.task.newTokens).map fun t =>
        X.record r x (X.groupOff r) (0, t)) := by
  obtain ⟨hlt, -, -, hoff⟩ := sender_spec hr
  simp only [← gtRecord_eq_record]
  refine parseBlockSendGt_perm X.fp8_off (.inl rfl) X.ntpb_pos fun t h1 h2 => ?_
  rw [gtRecord_eq_record (r := r) (x := x)]
  exact ⟨((X.src_holds r hlt).block_at h1 h2).1, ((X.dst_holds x hx).block_at h1 h2).1,
    record_fits hlt hx hoff (row_mem two_pos (mem_range'_1.mpr ⟨h1, h2⟩))⟩

/-- The second loop emits the V rows. -/
theorem sendVPlane_ok (hx : x < X.dTp) (hr : r ∈ X.senders x) {ks : List IpcBlock}
    (hks : ∀ k ∈ ks, ∃ t ∈ List.range' X.task.seenTokens X.task.newTokens,
      X.record r x (X.groupOff r) (0, t) = k) :
    sendVPlane (X.ntpb * X.pKSize * (X.srcInfo r).layerNumBlocks)
        (X.ntpb * X.dKSize * (X.dstInfo x).layerNumBlocks) (X.bounds r x) ks =
      .ok (ks.map (planeRecord (X.ntpb * X.pKSize * (X.srcInfo r).layerNumBlocks)
        (X.ntpb * X.dKSize * (X.dstInfo x).layerNumBlocks))) := by
  obtain ⟨hlt, -, -, hoff⟩ := sender_spec hr
  rw [map_eq_flatMap]
  refine emitAll_ok fun sb hsb => ?_
  obtain ⟨t, ht, rfl⟩ := hks sb hsb
  have hfits := record_fits hlt hx hoff (row_mem one_lt_two ht)
  rw [← planeRecord_record] at hfits
  exact appendIpcBlockChecked_eq_ok.mpr ⟨hfits, rfl⟩

/-- A sender passes the entry assertions. -/
theorem parse_eq (hx : x < X.dTp) (hr : r ∈ X.senders x) :
    X.parse r x = (do
      let kRecords ← parseBlockSendGt X.env X.pKSize X.pKSize X.dKSize X.ntpb (X.groupOff r)
        X.srcTable X.dstTable X.task.seenTokens X.task.newTokens (X.bounds r x) false
      let vRecords ← sendVPlane (X.ntpb * X.pKSize * (X.srcInfo r).layerNumBlocks)
        (X.ntpb * X.dKSize * (X.dstInfo x).layerNumBlocks) (X.bounds r x) kRecords
      return [kRecords ++ vRecords]) := by
  obtain ⟨hlt, hvalid, hgroup, -⟩ := sender_spec hr
  have hsrc := X.src_holds r hlt
  have hdst := X.dst_holds x hx
  have hn : 0 < Bitset.count X.validRanks / X.dInst.dstTpsize := X.groupN_pos
  have htoken : 2 * (X.pKSize * (Bitset.count X.validRanks / X.dInst.dstTpsize)) =
      2 * X.pKSize * (Bitset.count X.validRanks / X.dInst.dstTpsize) := by
    rw [mul_assoc]
  have hquotient : X.ntpb * (2 * X.pKSize) / (2 * X.pKSize) = X.ntpb :=
    Nat.mul_div_cancel _ (mul_pos two_pos X.pKSize_pos)
  have hsrcTable : vecIdx X.task.req.srcBlocks 0 = .ok X.srcTable := by
    rw [vecIdx, X.srcBlocks]
  have hdstTable : vecIdx X.task.req.dstBlocks 0 = .ok X.dstTable := by
    rw [vecIdx, X.dstBlocks]
  simp only [parse, vllmParseBlockSendPGtD, hdst.engineTpSize, hsrc.workerTpRank,
    hdst.workerTpRank, hsrc.tokenSizes, hdst.tokenSizes, hsrc.blockSizes, hdst.blockSizes, hvalid,
    Bool.true_eq_false, if_false, cassert_of X.wide, checkedDiv_of_pos X.dInst.dstTpsize_pos,
    cassert_of hn, checkedDiv_of_pos hn, length_singleton, cassert_of trivial, vecAt_singleton,
    cassert_of htoken, cassert_of (Nat.mul_mod_right 2 _),
    Nat.mul_div_cancel_left _ two_pos, checkedDiv_of_pos (mul_pos two_pos X.pKSize_pos),
    hquotient, u32_of_lt X.ntpb_lt, makeIpcBlockBounds_eq hlt hx, hsrcTable, hdstTable, ok_bind]
  have hgroup : kvtTpRank X.validRanks r / (Bitset.count X.validRanks / X.dInst.dstTpsize) = x :=
    hgroup
  rw [cassert_of hgroup]
  rfl

/-- **A sender emits its slice of every row of the range.** -/
theorem exists_parse_ok (hx : x < X.dTp) (hr : r ∈ X.senders x) :
    ∃ out, X.parse r x = .ok [out] ∧ out.Perm (X.rows.map (X.record r x (X.groupOff r))) := by
  obtain ⟨ks, hks, hperm⟩ := exists_kRecords_ok hx hr
  have hmem (k : IpcBlock) (hk : k ∈ ks) :
      ∃ t ∈ List.range' X.task.seenTokens X.task.newTokens,
        X.record r x (X.groupOff r) (0, t) = k :=
    mem_map.mp (hperm.mem_iff.mp hk)
  refine ⟨_, by rw [parse_eq hx hr, hks, ok_bind, sendVPlane_ok hx hr hmem]; rfl, ?_⟩
  have hrows : X.rows.map (X.record r x (X.groupOff r)) =
      (List.range' X.task.seenTokens X.task.newTokens).map
          (fun t => X.record r x (X.groupOff r) (0, t)) ++
        (List.range' X.task.seenTokens X.task.newTokens).map
          fun t => X.record r x (X.groupOff r) (1, t) := by
    simp only [rows, List.product, range_succ_eq_map, range_zero, map_nil,
      map_cons, flatMap_cons, flatMap_nil, append_nil, map_append,
      map_map]
    rfl
  have hv := hperm.map (planeRecord (X.ntpb * X.pKSize * (X.srcInfo r).layerNumBlocks)
    (X.ntpb * X.dKSize * (X.dstInfo x).layerNumBlocks))
  rw [map_map] at hv
  rw [hrows]
  refine hperm.append (hv.trans (Perm.of_eq (map_congr_left fun t _ => ?_)))
  exact planeRecord_record _ t

theorem parse_of_not_valid (hr : r < X.pTp) (hvalid : X.validRanks.getLsbD r = false) (x : ℕ) :
    X.parse r x = .ok [] := by
  rw [parse, vllmParseBlockSendPGtD, (X.src_holds r hr).workerTpRank, if_pos hvalid]
  rfl

/-! ### Bytes -/

/-- The slice of the D cache a record fills, in units of a sender's row. -/
def cell (X : FlashTransfer) (x : ℕ) (k : ℕ × ℕ × ℕ) : ℕ :=
  ((k.2.1 * (X.dstInfo x).layerNumBlocks + X.dstTable.getD (k.2.2 / X.ntpb) 0) * X.ntpb
    + k.2.2 % X.ntpb) * X.groupN + X.groupOff k.1

theorem record_dstOffset (r x : ℕ) (i : ℕ × ℕ) :
    (X.record r x (X.groupOff r) i).dstOffset = X.cell x (r, i) * X.pKSize := by
  rw [record, dstAddr, planeAddr_eq, cell, dKSize]
  ring

theorem nodup_senders (X : FlashTransfer) (x : ℕ) : (X.senders x).Nodup :=
  nodup_range.filter _

/-- **Different senders and rows fill different slices.** -/
theorem cell_inj (hx : x < X.dTp) {k k' : ℕ × ℕ × ℕ} (hk : k ∈ (X.senders x).product X.rows)
    (hk' : k' ∈ (X.senders x).product X.rows) (h : X.cell x k = X.cell x k') : k = k' := by
  obtain ⟨r, kv, t⟩ := k
  obtain ⟨r', kv', t'⟩ := k'
  obtain ⟨hr, hrow⟩ := pair_mem_product.mp hk
  obtain ⟨hr', hrow'⟩ := pair_mem_product.mp hk'
  obtain ⟨-, h1, h2⟩ := mem_rows.mp hrow
  obtain ⟨-, h1', h2'⟩ := mem_rows.mp hrow'
  have hdst := X.dst_holds x hx
  obtain ⟨hlook, hid⟩ := hdst.block_at h1 h2
  obtain ⟨hlook', hid'⟩ := hdst.block_at h1' h2'
  obtain ⟨h, hoff⟩ := Radix.digit_inj (sender_spec hr).2.2.2 (sender_spec hr').2.2.2 h
  obtain ⟨h, hidx⟩ := Radix.digit_inj (Nat.mod_lt t X.ntpb_pos) (Nat.mod_lt t' X.ntpb_pos) h
  obtain ⟨rfl, hblock⟩ := Radix.digit_inj hid hid' h
  have hpage : t / X.ntpb = t' / X.ntpb := getD_inj X.distinct hlook hlook' hblock
  have hoffs : ((X.senders x).map X.groupOff).Nodup := by
    rw [map_groupOff hx]
    exact nodup_range
  obtain rfl := inj_on_of_nodup_map hoffs hr hr' hoff
  obtain rfl : t = t' := by rw [← Nat.div_add_mod' t X.ntpb, hpage, hidx, Nat.div_add_mod']
  rfl

/-- **What the senders emit fills the rows exactly.** -/
theorem exact_of_perm (hx : x < X.dTp) {out : ℕ → List IpcBlock}
    (h : ∀ r ∈ X.senders x, (out r).Perm (X.rows.map (X.record r x (X.groupOff r)))) :
    X.Exact x out := by
  have hall : ((X.senders x).flatMap out).Perm (((X.senders x).product X.rows).map fun k =>
      X.record k.1 x (X.groupOff k.1) k.2) := by
    rw [List.product, map_flatMap]
    simp only [map_map]
    exact Perm.flatMap_left _ h
  have hdisj : ((X.senders x).flatMap out).Pairwise DisjointDst := by
    refine (hall.pairwise_iff fun hab => Or.symm hab).mpr (pairwise_cells
      ((X.nodup_senders x).product (nodup_range.product nodup_range'))
      (fun k => ⟨record_dstOffset k.1 x k.2, rfl⟩) fun k hk k' hk' => cell_inj hx hk hk')
  refine ⟨map_groupOff hx, h, hdisj, fun kv t hrow o ho => ?_⟩
  rw [dKSize, mul_comm] at ho
  obtain ⟨g, hg, b, hb, rfl⟩ := Radix.exists_digit ho
  obtain ⟨r, hr, rfl⟩ : ∃ r ∈ X.senders x, X.groupOff r = g := by
    rw [← mem_map, map_groupOff hx]
    exact mem_range.mpr hg
  have hmem : X.record r x (X.groupOff r) (kv, t) ∈ (X.senders x).flatMap out :=
    mem_flatMap.mpr ⟨r, hr, (h r hr).mem_iff.mpr (mem_map_of_mem hrow)⟩
  refine countP_eq_one_of_disjoint ?_ ?_ hdisj hmem
  · change X.dstAddr x kv t + X.groupOff r * X.pKSize ≤ _
    omega
  · change _ < X.dstAddr x kv t + X.groupOff r * X.pKSize + X.pKSize
    omega

end FlashTransfer

/-- **The FLASH P > D transfer is byte exact.**  Of the P ranks of a D rank those that are not valid
emit nothing; the parse of each valid one succeeds, and together they write every K row and every V
row of the range once. -/
theorem flash_exact (X : FlashTransfer) (x : Fin X.dTp) :
    (∀ r < X.pTp, X.validRanks.getLsbD r = false → X.parse r x = .ok []) ∧
    ∃ out : ℕ → List IpcBlock, (∀ r ∈ X.senders x, X.parse r x = .ok [out r]) ∧ X.Exact x out := by
  refine ⟨fun r hr hvalid => FlashTransfer.parse_of_not_valid hr hvalid x, ?_⟩
  choose! out hout using fun r (hr : r ∈ X.senders x) => FlashTransfer.exists_parse_ok x.isLt hr
  exact ⟨out, fun r hr => (hout r hr).1,
    FlashTransfer.exact_of_perm x.isLt fun r hr => (hout r hr).2⟩

/-- Four P ranks over two heads, one D rank with more blocks: ranks 0 and 2 send. -/
def flashPair : FlashTransfer where
  env := {}
  dInst := ⟨"d", 0, 1, Nat.one_pos⟩
  pTp := 4
  H := 2
  validRanks := 5
  ntpb := 1
  pKSize := 1
  task := .first ⟨0, "req", [[1, 0]], [[2, 1]]⟩ 2 true
  srcTable := [1, 0]
  dstTable := [2, 1]
  srcInfo r := { engineTpSize := 4, workerTpRank := r, tokenSizes := [2], blockSizes := [2],
                 layerNumBlocks := 2, numKvHeads := 2 }
  dstInfo x := { engineTpSize := 1, workerTpRank := x, tokenSizes := [4], blockSizes := [4],
                 layerNumBlocks := 3, numKvHeads := 2 }
  fp8_off := EnvCfg.fp8_off
  accepted := by decide
  dTp_dvd := by decide
  wide := by decide
  ntpb_pos := Nat.one_pos
  ntpb_lt := one_lt_u32
  pKSize_pos := Nat.one_pos
  srcBlocks := rfl
  dstBlocks := rfl
  src_holds r _ := by
    refine ⟨rfl, rfl, rfl, rfl, two_pos, by decide +revert, fun t _ ht => ?_⟩
    obtain rfl | rfl : t = 0 ∨ t = 1 := by
      have : t < 2 := ht
      omega
    · exact ⟨1, rfl, one_lt_two⟩
    · exact ⟨0, rfl, two_pos⟩
  dst_holds x _ := by
    refine ⟨rfl, rfl, rfl, rfl, three_pos, by decide +revert, fun t _ ht => ?_⟩
    obtain rfl | rfl : t = 0 ∨ t = 1 := by
      have : t < 2 := ht
      omega
    · exact ⟨2, rfl, Nat.lt_succ_self 2⟩
    · exact ⟨1, rfl, Nat.lt_of_succ_lt (Nat.lt_succ_self 2)⟩
  distinct := by decide

theorem flashPair_exact : flashPair.senders 0 = [0, 2] ∧ flashPair.parse 1 0 = .ok [] ∧
    ∃ out : ℕ → List IpcBlock,
      (∀ r ∈ flashPair.senders 0, flashPair.parse r 0 = .ok [out r]) ∧ flashPair.Exact 0 out := by
  obtain ⟨hnone, hexact⟩ := flash_exact flashPair ⟨0, by decide⟩
  exact ⟨by decide, hnone 1 (by decide) (by decide), hexact⟩

end LlumnixKv
