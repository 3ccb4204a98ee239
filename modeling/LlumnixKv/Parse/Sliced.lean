import LlumnixKv.Parse.FanOut
import LlumnixKv.Parse.Memory

/-!
# Parse/Sliced — P < D delivers each D rank its heads

    heads          0 … H-1
    P rank p       p·(G·c) … (p+1)·(G·c)        G·c heads
    D rank d       (d/r)·c … (d/r + 1)·c        c heads, the same for r ranks

Both head regimes are one split: `H = p_tp · G · c` and `d_tp = p_tp · G · r`, with `r = 1` where the D
ranks share the heads out and `c = 1` where they replicate them.  So the heads of D rank `d` are slice
`(d / r) % G` of the row of P rank `d / (G · r)` — which is what the code computes — and it remains that
the loops of P > D, turned around, copy each byte of that slice once, in either page layout.
-/

open List Machinery

namespace LlumnixKv

/-! ## The heads of a pair -/

/-- A P < D pair with more KV heads than P ranks: P splits them evenly, D splits them too or gives
each rank one. -/
structure SlicedHeads where
  pTp : ℕ
  dTp : ℕ
  numKvHeads : ℕ
  headDim : ℕ
  pTp_pos : 0 < pTp
  pTp_lt : pTp < dTp
  pTp_dvd : pTp ∣ dTp
  heads_gt : pTp < numKvHeads
  heads_dvd : pTp ∣ numKvHeads
  regime : dTp ∣ numKvHeads ∨ numKvHeads ∣ dTp
  headDim_pos : 0 < headDim
  dTp_lt : dTp < 2 ^ 32
  heads_lt : numKvHeads < 2 ^ 31

namespace SlicedHeads

variable {S : SlicedHeads}

/-- The P rank that serves D rank `d`. -/
def sender (S : SlicedHeads) (d : ℕ) : ℕ := d / (S.dTp / S.pTp)

/-- How many heads a P rank holds. -/
def pHeads (S : SlicedHeads) : ℕ := S.numKvHeads / S.pTp

/-- …and a D rank. -/
def dHeads (S : SlicedHeads) : ℕ :=
  if S.dTp ≤ S.numKvHeads then S.numKvHeads / S.dTp else 1

/-- The place of a head in the row of a rank. -/
def headIdx (S : SlicedHeads) (tp r h : ℕ) : ℕ := (heldHeads tp S.numKvHeads r).idxOf h

/-- A P row is `G` slices of `c` heads, and `r` D ranks get each. -/
structure Split (S : SlicedHeads) (G c r : ℕ) : Prop where
  slices : 1 < G
  heads_pos : 0 < c
  replicas_pos : 0 < r
  heads : S.numKvHeads = S.pTp * (G * c)
  dTp : S.dTp = S.pTp * (G * r)
  dHeads : S.dHeads = c
  held : ∀ d, heldHeads S.dTp S.numKvHeads d = List.range' (d / r * c) c

/-- **Both regimes are such a split.** -/
theorem exists_split (S : SlicedHeads) : ∃ G c r, S.Split G c r := by
  have hp := S.pTp_pos
  have hlt := S.pTp_lt
  have hgt := S.heads_gt
  rcases S.regime with ⟨c, hc⟩ | ⟨r, hr⟩
  · -- the D ranks share the heads out
    obtain ⟨G, hG⟩ := S.pTp_dvd
    have hd : 0 < S.dTp := by omega
    have hc0 : 0 < c := Nat.pos_of_ne_zero fun h => by rw [h, mul_zero] at hc; omega
    have hle : S.dTp ≤ S.numKvHeads := by rw [hc]; exact Nat.le_mul_of_pos_right _ hc0
    have hshare : S.numKvHeads / S.dTp = c := by rw [hc, Nat.mul_div_cancel_left _ hd]
    refine ⟨G, c, 1, ?_, hc0, one_pos, ?_, ?_, ?_, fun d => ?_⟩
    · rw [hG] at hlt
      exact (Nat.lt_mul_iff_one_lt_right hp).mp hlt
    · rw [← mul_assoc, ← hG, hc]
    · rw [mul_one, hG]
    · rw [SlicedHeads.dHeads, if_pos hle, hshare]
    · rw [heldHeads, if_pos hle, hshare, Nat.div_one]
  · -- each of them holds one
    obtain ⟨G, hG⟩ := S.heads_dvd
    have hH : 0 < S.numKvHeads := by omega
    have hr0 : 0 < r := Nat.pos_of_ne_zero fun h => by rw [h, mul_zero] at hr; omega
    have hone : S.dTp ≤ S.numKvHeads → r = 1 := fun hle => by
      rw [hr] at hle
      have : r ≤ 1 := Nat.le_of_mul_le_mul_left (by rwa [mul_one]) hH
      omega
    refine ⟨G, 1, r, ?_, one_pos, hr0, ?_, ?_, ?_, fun d => ?_⟩
    · rw [hG] at hgt
      exact (Nat.lt_mul_iff_one_lt_right hp).mp hgt
    · rw [mul_one, hG]
    · rw [← mul_assoc, ← hG, hr]
    · rw [SlicedHeads.dHeads]
      split_ifs with hle
      · rw [hr, hone hle, mul_one, Nat.div_self hH]
      · rfl
    · rw [heldHeads]
      split_ifs with hle
      · rw [hr, hone hle, mul_one, Nat.div_self hH, Nat.div_one]
      · rw [hr, mul_comm S.numKvHeads, Nat.mul_div_mul_right _ _ hH, mul_one]
        rfl

namespace Split

variable {G c r : ℕ}

theorem pHeads (h : S.Split G c r) : S.pHeads = G * c := by
  rw [SlicedHeads.pHeads, h.heads, Nat.mul_div_cancel_left _ S.pTp_pos]

theorem slices_pos (h : S.Split G c r) : 0 < G := Nat.zero_lt_of_lt h.slices

theorem off_lt (h : S.Split G c r) (d : ℕ) : d / r % G < G := Nat.mod_lt _ h.slices_pos

theorem sender (h : S.Split G c r) (d : ℕ) : S.sender d = d / r / G := by
  rw [SlicedHeads.sender, h.dTp, Nat.mul_div_cancel_left _ S.pTp_pos, mul_comm,
    Nat.div_div_eq_div_mul]

theorem pTp_mul_le (h : S.Split G c r) : S.pTp * G ≤ S.dTp := by
  rw [h.dTp, ← mul_assoc]
  exact Nat.le_mul_of_pos_right _ h.replicas_pos

/-- **The code's slice.** -/
theorem attnSlice_eq (h : S.Split G c r) (env : EnvCfg) (d : ℕ) :
    attnSlice env (2 * (S.pHeads * S.headDim)) (2 * (S.dHeads * S.headDim)) S.pTp S.dTp d
      = .ok (G, d / r % G) := by
  have hrow : 0 < 2 * (c * S.headDim) := mul_pos two_pos (mul_pos h.heads_pos S.headDim_pos)
  have hwide : 2 * (S.pHeads * S.headDim) = 2 * (c * S.headDim) * G := by rw [h.pHeads]; ring
  have hlt : 2 * (c * S.headDim) < 2 * (c * S.headDim) * G :=
    (Nat.lt_mul_iff_one_lt_right hrow).mpr h.slices
  have hle := h.pTp_mul_le
  have hd := S.dTp_lt
  have hG : u32 G = G := u32_of_lt (by have := Nat.le_mul_of_pos_left G S.pTp_pos; omega)
  have hpG : u32 (S.pTp * G) = S.pTp * G := u32_of_lt (by omega)
  have hpos : 0 < S.pTp * G := mul_pos S.pTp_pos h.slices_pos
  have hdTp : S.dTp = S.pTp * G * r := by rw [h.dTp, mul_assoc]
  have hrep : S.dTp / (S.pTp * G) = r := by rw [hdTp, Nat.mul_div_cancel_left _ hpos]
  have hmod : S.dTp % (S.pTp * G) = 0 := by rw [hdTp, Nat.mul_mod_right]
  simp only [attnSlice, h.dHeads, hwide, cassert_of hlt, checkedDiv_of_pos hrow,
    Nat.mul_div_cancel_left _ hrow, cassert_of (Nat.mul_mod_right _ _), hG, hpG,
    checkedDiv_of_pos hpos, hrep, cassert_of hmod, checkedDiv_of_pos h.replicas_pos,
    checkedDiv_of_pos h.slices_pos, ok_bind]
  rfl

end Split

theorem idxOf_range' {s n i : ℕ} (hi : i < n) : (List.range' s n).idxOf (s + i) = i := by
  have hlen : i < (List.range' s n).length := by rwa [length_range']
  have hget : (List.range' s n)[i] = s + i := by rw [getElem_range', one_mul]
  rw [← hget]
  exact Nodup.idxOf_getElem nodup_range' i hlen

/-- **The slice index is the head index**: the `j`-th head of a D rank is head `off · c + j` of its
sender's row. -/
theorem Split.headIdx {G c r d j : ℕ} (h : S.Split G c r) (hj : j < c) :
    S.headIdx S.dTp d (d / r * c + j) = j ∧
    S.headIdx S.pTp (S.sender d) (d / r * c + j) = d / r % G * c + j := by
  have hp : heldHeads S.pTp S.numKvHeads (S.sender d)
      = List.range' (d / r / G * (G * c)) (G * c) := by
    rw [heldHeads, if_pos S.heads_gt.le, h.heads, Nat.mul_div_cancel_left _ S.pTp_pos, h.sender]
  have hhead : d / r * c + j = d / r / G * (G * c) + (d / r % G * c + j) := by
    rw [← mul_assoc, ← add_assoc, ← add_mul, Nat.div_add_mod']
  refine ⟨?_, ?_⟩
  · rw [SlicedHeads.headIdx, h.held]
    exact idxOf_range' hj
  · rw [SlicedHeads.headIdx, hp, hhead]
    exact idxOf_range' (Radix.digit_lt (h.off_lt d) hj)

end SlicedHeads

/-! ## What is to be delivered -/

/-- A byte of a K or V row: the row — token, layer, half — the head it is of and its place there. -/
abbrev KvByte := (ℕ × ℕ × ℕ) × ℕ × ℕ

/-- The bytes of these heads in the rows of a token range. -/
def kvBytes (layers wrote left : ℕ) (heads : List ℕ) (headDim : ℕ) : List KvByte :=
  (attnRows layers wrote left).product (heads.product (List.range headDim))

/-- A page layout: where byte `b` of a rank's `j`-th head lies, given the row. -/
abbrev HeadLayout := ℕ × ℕ × ℕ → ℕ → ℕ → ℕ

/-- A task of P rank `sender rank` for D rank `rank`. -/
structure SlicedPair extends SlicedHeads where
  env : EnvCfg
  rank : ℕ
  src : WorkerInfo
  dst : WorkerInfo
  validRanks : BitVec maxTpSize
  kvtTpSize : ℕ
  kvtTpRank : ℕ
  task : ReqSendTask
  srcTable : List ℕ
  dstTable : List ℕ
  src_heads : src.numKvHeads = numKvHeads
  srcTable_eq : task.req.srcBlocks[attnGroupOffsetPLtD src]? = some srcTable
  dstTable_eq : task.req.dstBlocks[attnGroupOffsetPLtD src]? = some dstTable

/-- The blocks of the task's range are in the worker's cache. -/
structure InCache (w : WorkerInfo) (blockSize ntpb : ℕ) (table : List ℕ) (task : ReqSendTask) :
    Prop where
  capacity : blockSize * w.layerNumBlocks ≤ sizeMax
  blocks_pos : 0 < w.layerNumBlocks
  block : ∀ t, task.seenTokens ≤ t → t < task.endTokens →
    ∃ id, table[t / ntpb]? = some id ∧ id < w.layerNumBlocks

variable {attn : List IpcBlock} {task : ReqSendTask}

namespace SlicedPair

variable {X : SlicedPair}

/-- The rows of the task's range. -/
def rows (X : SlicedPair) (layers : ℕ) : List (ℕ × ℕ × ℕ) :=
  attnRows layers X.task.seenTokens X.task.newTokens

/-- The bytes the D rank is to get. -/
def dBytes (X : SlicedPair) (layers : ℕ) : List KvByte :=
  kvBytes layers X.task.seenTokens X.task.newTokens (heldHeads X.dTp X.numKvHeads X.rank) X.headDim

/-- A byte's copy: from its place in the sender's row to its place in the D row. -/
def copyOf (X : SlicedPair) (src dst : HeadLayout) (i : KvByte) : ℕ × ℕ :=
  (src i.1 (X.headIdx X.pTp (X.sender X.rank) i.2.1) i.2.2, dst i.1 (X.headIdx X.dTp X.rank i.2.1) i.2.2)

/-- **The records deliver the D rank's heads.** -/
structure Delivers (X : SlicedPair) (layers : ℕ) (src dst : HeadLayout) (attn : List IpcBlock) :
    Prop where
  /-- the sender holds the D rank's heads -/
  held : ∀ h ∈ heldHeads X.dTp X.numKvHeads X.rank, h ∈ heldHeads X.pTp X.numKvHeads (X.sender X.rank)
  /-- each byte of their K and V is copied once, from its place to its place, and no other is -/
  bytes : (attn.flatMap IpcBlock.bytes).Perm ((X.dBytes layers).map (X.copyOf src dst))
  /-- with distinct blocks no byte of the D cache is written twice -/
  once : X.dstTable.Nodup → ((attn.flatMap IpcBlock.bytes).map Prod.snd).Nodup

/-- The copies of slice `off` of a row, head by head. -/
def sliceCopies (X : SlicedPair) (src dst : HeadLayout) (c off : ℕ) (i : ℕ × ℕ × ℕ) : List (ℕ × ℕ) :=
  (List.range c).flatMap fun j => (List.range X.headDim).map fun b =>
    (src i (off * c + j) b, dst i j b)

section Delivers

variable {G c r layers : ℕ} {src dst : HeadLayout}

theorem map_copyOf (h : X.Split G c r) : (X.dBytes layers).map (X.copyOf src dst) =
    (X.rows layers).flatMap (X.sliceCopies src dst c (X.rank / r % G)) := by
  simp only [dBytes, kvBytes, rows, List.product, map_flatMap, map_map, h.held,
    range'_eq_map_range, flatMap_map]
  refine flatMap_congr fun i _ => flatMap_congr fun j hj => map_congr_left fun b _ => ?_
  obtain ⟨hd, hp⟩ := h.headIdx (d := X.rank) (mem_range.mp hj)
  simp only [Function.comp_apply, copyOf, hd, hp]

/-- What it takes to deliver: the slices' copies, and distinct places for them. -/
theorem delivers_of_perm (h : X.Split G c r)
    (hperm : (attn.flatMap IpcBlock.bytes).Perm
      ((X.rows layers).flatMap (X.sliceCopies src dst c (X.rank / r % G))))
    (hinj : X.dstTable.Nodup → ∀ i ∈ X.rows layers, ∀ i' ∈ X.rows layers, ∀ j < c, ∀ j' < c,
      ∀ b < X.headDim, ∀ b' < X.headDim, dst i j b = dst i' j' b' → i = i' ∧ j = j' ∧ b = b') :
    X.Delivers layers src dst attn where
  held k hk := by
    rw [h.held, mem_range'_1] at hk
    obtain ⟨j, rfl⟩ := Nat.exists_eq_add_of_le hk.1
    have hj : j < c := by omega
    have hidx := (h.headIdx (d := X.rank) hj).2
    refine idxOf_lt_length_iff.mp ?_
    have hlt : X.rank / r % G * c + j < G * c := Radix.digit_lt (h.off_lt X.rank) hj
    rw [SlicedHeads.headIdx] at hidx
    rw [hidx, heldHeads, if_pos X.heads_gt.le, length_range', ← SlicedHeads.pHeads, h.pHeads]
    exact hlt
  bytes := by rwa [map_copyOf h]
  once hdistinct := by
    -- the D places, indexed by row, head and byte
    have hkeys : ((X.rows layers).flatMap (X.sliceCopies src dst c (X.rank / r % G))).map Prod.snd =
        ((X.rows layers).product ((List.range c).product (List.range X.headDim))).map
          fun i => dst i.1 i.2.1 i.2.2 := by
      simp only [sliceCopies, List.product, map_flatMap, map_map]
      rfl
    refine (hperm.map Prod.snd).nodup_iff.mpr ?_
    rw [hkeys]
    refine Nodup.map_on ?_ ((nodup_attnRows _ _ _).product
      (nodup_range.product nodup_range))
    rintro ⟨i, j, b⟩ hi ⟨i', j', b'⟩ hi' heq
    simp only [pair_mem_product, mem_range] at hi hi'
    obtain ⟨rfl, rfl, rfl⟩ := hinj hdistinct i hi.1 i' hi'.1 j hi.2.1 j' hi'.2.1 b hi.2.2 b' hi'.2.2 heq
    rfl

end Delivers

end SlicedPair

/-! ## The two tables and the bounds -/

theorem InCache.block_at {w : WorkerInfo} {blockSize ntpb : ℕ} {table : List ℕ}
    (h : InCache w blockSize ntpb table task) {t : ℕ} (h1 : task.seenTokens ≤ t)
    (h2 : t < task.endTokens) :
    t / ntpb < table.length ∧ table.getD (t / ntpb) 0 < w.layerNumBlocks := by
  obtain ⟨id, hid, hlt⟩ := h.block t h1 h2
  obtain ⟨hlook, rfl⟩ := getD_of_some hid
  exact ⟨hlook, hlt⟩

/-- Both caches being of a size a `size_t` holds, the bounds are their sizes. -/
theorem makeIpcBlockBounds_of_inCache {env : EnvCfg} {src dst : WorkerInfo}
    {srcSize dstSize srcNtpb dstNtpb : ℕ} {srcTable dstTable : List ℕ}
    (hfp8 : env.bf162fp8Conversion = false) (hsrcSize : src.blockSizes = [srcSize])
    (hdstSize : dst.blockSizes = [dstSize]) (hsrc : InCache src srcSize srcNtpb srcTable task)
    (hdst : InCache dst dstSize dstNtpb dstTable task) :
    makeIpcBlockBounds env src dst 0 =
      .ok ⟨srcSize * src.layerNumBlocks, dstSize * dst.layerNumBlocks, 1, 0⟩ :=
  makeIpcBlockBounds_of_le hfp8 (by rw [hsrcSize]; rfl) (by rw [hdstSize]; rfl) hsrc.blocks_pos
    hdst.blocks_pos hsrc.capacity hdst.capacity

/-- The attention records of the sliced regime come last, for the tables of the attention group. -/
theorem SlicedPair.exists_send_of_fanOutSliced {X : SlicedPair} {pBlockSize dBlockSize : ℕ}
    {bounds : IpcBlockBounds} {send : List ℕ → List ℕ → Except Fault (List IpcBlock)}
    {out : List IpcBlock}
    (h : fanOutSliced X.env pBlockSize dBlockSize X.src X.dst X.task bounds send = .ok out) :
    ∃ indexer attn, send X.srcTable X.dstTable = .ok attn ∧ out = indexer ++ attn := by
  obtain ⟨indexer, -, h⟩ := bind_eq_ok.mp h
  replace h := after_check h
  replace h := after_check h
  obtain ⟨srcAttn, hs, h⟩ := bind_eq_ok.mp h
  obtain ⟨dstAttn, hd, h⟩ := bind_eq_ok.mp h
  obtain ⟨attn, hattn, h⟩ := bind_eq_ok.mp h
  rw [Option.some.inj ((vecAt_eq_ok.mp hs).symm.trans X.srcTable_eq),
    Option.some.inj ((vecAt_eq_ok.mp hd).symm.trans X.dstTable_eq)] at hattn
  exact ⟨indexer, attn, hattn, (Except.ok.inj h).symm⟩

/-! ## Token-major pages -/

/-- The heads of a token lie together: `[token][head][byte]`. -/
def tokenMajor (g : PageGeometry) (table : List ℕ) (headDim : ℕ) : HeadLayout :=
  fun i j b => g.rowAddr table i.1 i.2.1 i.2.2 + (j * headDim + b)

/-- A QWEN3_NEXT_FLASH task of a sliced pair. -/
structure FlashSliced extends SlicedPair where
  p : PageGeometry
  d : PageGeometry
  p_step : p.step = toSlicedHeads.pHeads * headDim
  d_step : d.step = toSlicedHeads.dHeads * headDim
  pack_eq : d.pack = p.pack
  ntpb_lt : p.ntpb < 2 ^ 32 ∧ d.ntpb < 2 ^ 32
  src_holds : HoldsPages src pTp (toSlicedHeads.sender rank) p
  dst_holds : HoldsPages dst dTp rank d

namespace FlashSliced

open PageGeometry

variable {X : FlashSliced}

/-- What the P rank emits for the D rank. -/
def parse (X : FlashSliced) : Except Fault (List (List IpcBlock)) :=
  vllmParseHybridBlockSendPLtD X.env X.src X.dst X.validRanks X.kvtTpSize X.kvtTpRank X.task

/-- Its call of `parse_hybrid_attn_block`. -/
def attnCall (X : FlashSliced) : Except Fault (List IpcBlock) := do
  let bounds ← makeIpcBlockBounds X.env X.src X.dst 0
  let slice ← attnSlice X.env X.p.tokenSize X.d.tokenSize X.pTp X.dTp X.rank
  parseHybridAttnBlock X.env (X.d.side X.dstTable) (X.p.side X.srcTable) X.task.seenTokens
    X.task.newTokens slice.2 X.d.pack bounds true

/-- The attention records deliver the D rank's heads. -/
def Delivered (X : FlashSliced) (attn : List IpcBlock) : Prop :=
  X.Delivers X.d.pack (tokenMajor X.p X.srcTable X.headDim) (tokenMajor X.d X.dstTable X.headDim) attn

/-- The blocks of the range are in both caches, and bytes are copied as they are. -/
structure Covered (X : FlashSliced) : Prop where
  fp8_off : X.env.bf162fp8Conversion = false
  src : InCache X.src X.p.blockSize X.p.perLayer X.srcTable X.task
  dst : InCache X.dst X.d.blockSize X.d.perLayer X.dstTable X.task

variable {G c r : ℕ}

theorem attnSlice_eq (h : X.Split G c r) :
    attnSlice X.env X.p.tokenSize X.d.tokenSize X.pTp X.dTp X.rank = .ok (G, X.rank / r % G) := by
  rw [tokenSize, tokenSize, X.p_step, X.d_step]
  exact h.attnSlice_eq X.env X.rank

theorem d_step_eq (h : X.Split G c r) : X.d.step = c * X.headDim := by rw [X.d_step, h.dHeads]

theorem p_step_eq (h : X.Split G c r) : X.p.step = G * X.d.step := by
  rw [X.p_step, h.pHeads, d_step_eq h, mul_assoc]

theorem attnCall_eq_ok (h : X.Split G c r) (hattn : X.attnCall = .ok attn) :
    ∃ bounds, parseHybridAttnBlock X.env (X.d.side X.dstTable) (X.p.side X.srcTable)
      X.task.seenTokens X.task.newTokens (X.rank / r % G) X.d.pack bounds true = .ok attn := by
  obtain ⟨bounds, -, hattn⟩ := bind_eq_ok.mp hattn
  rw [attnSlice_eq h, ok_bind] at hattn
  exact ⟨bounds, hattn⟩

/-- A record is the copies of a slice. -/
theorem bytes_record (h : X.Split G c r) (i : ℕ × ℕ × ℕ) :
    ((attnRecord X.d X.p X.dstTable X.srcTable (X.rank / r % G) i.1 i.2.1 i.2.2).turned true).bytes =
      X.sliceCopies (tokenMajor X.p X.srcTable X.headDim) (tokenMajor X.d X.dstTable X.headDim) c
        (X.rank / r % G) i := by
  have hrec : (attnRecord X.d X.p X.dstTable X.srcTable (X.rank / r % G) i.1 i.2.1 i.2.2).turned true
      = ⟨X.p.rowAddr X.srcTable i.1 i.2.1 i.2.2 + X.rank / r % G * (c * X.headDim),
        X.d.rowAddr X.dstTable i.1 i.2.1 i.2.2, c * X.headDim⟩ := by
    rw [attnRecord, IpcBlock.turned, d_step_eq h]
  rw [hrec, IpcBlock.bytes_mul, SlicedPair.sliceCopies]
  refine flatMap_congr fun j _ => map_congr_left fun b _ => Prod.ext ?_ ?_
  · dsimp only [tokenMajor]
    ring
  · dsimp only [tokenMajor]
    ring

/-- **A call that succeeds delivers the heads.** -/
theorem delivered (hattn : X.attnCall = .ok attn) : X.Delivered attn := by
  obtain ⟨G, c, r, h⟩ := X.exists_split
  obtain ⟨bounds, hout⟩ := attnCall_eq_ok h hattn
  refine SlicedPair.delivers_of_perm h ?_ fun hdistinct i hi i' hi' j hj j' hj' b hb b' hb' heq => ?_
  · have hperm := (parseHybridAttnBlock_perm X.pack_eq hout).flatMap_right IpcBlock.bytes
    simp only [flatMap_map, bytes_record h] at hperm
    exact hperm
  · obtain ⟨t, l, kv⟩ := i
    obtain ⟨t', l', kv'⟩ := i'
    obtain ⟨⟨h1, h2⟩, hl, hkv⟩ := mem_attnRows.mp hi
    obtain ⟨⟨h1', h2'⟩, hl', hkv'⟩ := mem_attnRows.mp hi'
    have hlook := (parseHybridAttnBlock_lookup X.pack_eq hout t h1 h2).1
    have hlook' := (parseHybridAttnBlock_lookup X.pack_eq hout t' h1' h2').1
    simp only [tokenMajor, rowAddr_eq, d_step_eq h] at heq
    obtain ⟨hrow, hplace⟩ := Radix.digit_inj (Radix.digit_lt hj hb) (Radix.digit_lt hj' hb') heq
    obtain ⟨rfl, rfl⟩ := Radix.digit_inj hb hb' hplace
    exact ⟨X.d.row_inj hdistinct hl hl' hkv hkv' hlook hlook' hrow, rfl, rfl⟩

/-- The blocks of the range being in both caches, the call succeeds. -/
theorem exists_attnCall_ok (hc : X.Covered) : ∃ attn, X.attnCall = .ok attn := by
  obtain ⟨G, c, r, h⟩ := X.exists_split
  rw [attnCall, makeIpcBlockBounds_of_inCache hc.fp8_off X.src_holds.blockSizes
    X.dst_holds.blockSizes hc.src hc.dst, ok_bind, attnSlice_eq h, ok_bind]
  refine exists_parseHybridAttnBlock_ok X.pack_eq fun t h1 h2 => ?_
  obtain ⟨hdlen, hdN⟩ := hc.dst.block_at h1 h2
  obtain ⟨hslen, hsN⟩ := hc.src.block_at h1 h2
  refine ⟨⟨hdlen, hslen⟩, fun l hl kv hkv => ?_⟩
  have hslice : X.rank / r % G * X.d.step + X.d.step ≤ X.p.step := by
    rw [p_step_eq h, ← Nat.succ_mul]
    exact Nat.mul_le_mul_right _ (h.off_lt X.rank)
  have hsrc := X.p.rowAddr_add_le hsN (X.pack_eq ▸ hl) hkv hslice
  have hdst := X.d.rowAddr_add_le hdN hl hkv le_rfl
  have hcap := hc.dst.capacity
  have hstep : X.d.step ≤ sizeMax := by omega
  exact ⟨X.d.step_pos, one_pos, by rw [mul_one]; exact hstep,
    by rw [mul_one]; rw [← add_assoc] at hsrc; exact hsrc, hdst⟩

/-- **A parse that returns holds the records of its attention call in one piece.** -/
theorem exists_attn_of_parse {recs : List (List IpcBlock)} (hparse : X.parse = .ok recs) :
    ∃ before attn after, X.attnCall = .ok attn ∧ recs = [before ++ attn ++ after] := by
  have hsrc := X.src_holds
  have hdst := X.dst_holds
  have hp := X.pTp_pos
  have hgdn : 0 < X.dTp / X.pTp := Nat.div_pos X.pTp_lt.le hp
  obtain ⟨G, c, r, h⟩ := X.exists_split
  have hne : X.p.tokenSize ≠ X.d.tokenSize := fun heq => by
    rw [tokenSize, tokenSize, p_step_eq h] at heq
    have := (Nat.lt_mul_iff_one_lt_left X.d.step_pos).mpr h.slices
    omega
  simp only [parse, vllmParseHybridBlockSendPLtD, hsrc.engineTpSize, hdst.engineTpSize,
    hsrc.workerTpRank, hdst.workerTpRank, hsrc.tokenSizes, hdst.tokenSizes, hsrc.blockSizes,
    hdst.blockSizes, cassert_of X.pTp_lt, checkedDiv_of_pos hp,
    cassert_of (Nat.mod_eq_zero_of_dvd X.pTp_dvd), checkedDiv_of_pos hgdn, vecAt_singleton, ok_bind,
    if_neg hne, length_singleton, cassert_of trivial] at hparse
  replace hparse := after_check hparse
  obtain ⟨bounds, hbounds, hparse⟩ := bind_eq_ok.mp hparse
  replace hparse := after_check hparse
  replace hparse := after_check hparse
  obtain ⟨out, hout, hparse⟩ := bind_eq_ok.mp hparse
  obtain ⟨state, -, hparse⟩ := bind_eq_ok.mp hparse
  simp only [attnSlice_eq h, checkedDiv_of_pos X.p.tokenSize_pos,
    checkedDiv_of_pos X.d.tokenSize_pos, ntpb_of_blockSize X.ntpb_lt.1,
    ntpb_of_blockSize X.ntpb_lt.2, cassert_of X.p.ntpb_mul_tokenSize,
    cassert_of X.d.ntpb_mul_tokenSize, ok_bind] at hout
  replace hout := after_check hout
  obtain ⟨indexer, part, hpart, rfl⟩ := SlicedPair.exists_send_of_fanOutSliced hout
  obtain ⟨attn, hattn, hpart⟩ := bind_eq_ok.mp hpart
  obtain ⟨fill, -, hpart⟩ := bind_eq_ok.mp hpart
  rw [hsrc.attnPackSize, hsrc.attnKernelBlkNtpb, hdst.attnKernelBlkNtpb, ← X.pack_eq] at hattn
  refine ⟨indexer, attn, fill ++ state, ?_, ?_⟩
  · rw [attnCall, hbounds, ok_bind, attnSlice_eq h, ok_bind]
    exact hattn
  · rw [← Except.ok.inj hparse, ← Except.ok.inj hpart]
    simp only [firstOf, append_assoc]
    rfl

end FlashSliced

end LlumnixKv
