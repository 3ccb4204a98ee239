import LlumnixKv.Parse.Sliced

/-!
# Parse/SlicedHnd — …with the heads outside the tokens

    head address   page · page_bytes + half · half_bytes + head · section + idx · head_dim
                 = (((page·2 + half)·heads + head)·ntpb + idx) · head_dim

A run of tokens is one record for each head and half, and the two sides cut the runs at their own page
ends.  Byte by byte the cut does not show (`walk_flatMap_perm`), so the head-major records deliver the
same bytes as the token-major ones, only to other addresses.
-/

open List Machinery

namespace LlumnixKv

/-! ## Head-major pages -/

/-- HND pages: a half holds a section of `ntpb` tokens for each head. -/
structure HndGeometry where
  heads : ℕ
  ntpb : ℕ
  headDim : ℕ
  heads_pos : 0 < heads
  ntpb_pos : 0 < ntpb
  headDim_pos : 0 < headDim

namespace HndGeometry

variable (g : HndGeometry)

def tokenSize : ℕ := 2 * (g.heads * g.headDim)

def blockSize : ℕ := g.ntpb * g.tokenSize

/-- What the HND functions are called with for this side. -/
def side (table : List ℕ) : HybridSide :=
  ⟨g.ntpb, g.tokenSize, g.blockSize, table, g.ntpb⟩

/-- Where head `j` of token `t` lies in half `kv`. -/
def headAddr (table : List ℕ) (t kv j : ℕ) : ℕ :=
  table.getD (t / g.ntpb) 0 * g.blockSize + kv * (g.blockSize / 2) + j * (g.ntpb * g.headDim)
    + t % g.ntpb * g.headDim

/-- The head's number in the cache. -/
def headIndex (block kv j idx : ℕ) : ℕ :=
  ((block * 2 + kv) * g.heads + j) * g.ntpb + idx

variable {g : HndGeometry} {table : List ℕ} {t kv j : ℕ}

theorem tokenSize_pos (g : HndGeometry) : 0 < g.tokenSize :=
  mul_pos two_pos (mul_pos g.heads_pos g.headDim_pos)

theorem blockSize_half : g.blockSize / 2 = g.ntpb * (g.heads * g.headDim) := by
  rw [blockSize, tokenSize, mul_left_comm, Nat.mul_div_cancel_left _ two_pos]

theorem headAddr_eq (g : HndGeometry) (table : List ℕ) (t kv j : ℕ) : g.headAddr table t kv j =
    g.headIndex (table.getD (t / g.ntpb) 0) kv j (t % g.ntpb) * g.headDim := by
  rw [headAddr, blockSize_half, headIndex, blockSize, tokenSize]
  ring

/-- **With distinct blocks, a head's number determines its token, half and head.** -/
theorem head_inj (hdistinct : table.Nodup) {t' kv' j' : ℕ} (hkv : kv < 2) (hkv' : kv' < 2)
    (hj : j < g.heads) (hj' : j' < g.heads) (hlook : t / g.ntpb < table.length)
    (hlook' : t' / g.ntpb < table.length)
    (h : g.headIndex (table.getD (t / g.ntpb) 0) kv j (t % g.ntpb)
      = g.headIndex (table.getD (t' / g.ntpb) 0) kv' j' (t' % g.ntpb)) :
    t = t' ∧ kv = kv' ∧ j = j' := by
  obtain ⟨hhead, hidx⟩ := Radix.digit_inj (Nat.mod_lt t g.ntpb_pos) (Nat.mod_lt t' g.ntpb_pos) h
  obtain ⟨hhalf, rfl⟩ := Radix.digit_inj hj hj' hhead
  obtain ⟨hblock, rfl⟩ := Radix.digit_inj hkv hkv' hhalf
  have hpage := getD_inj hdistinct hlook hlook' hblock
  refine ⟨?_, rfl, rfl⟩
  rw [← Nat.div_add_mod' t g.ntpb, hpage, hidx, Nat.div_add_mod']

/-- A run of one page stays inside the cache. -/
theorem headAddr_add_le {N n : ℕ} (hid : table.getD (t / g.ntpb) 0 < N) (hkv : kv < 2)
    (hj : j < g.heads) (hn : t % g.ntpb + n ≤ g.ntpb) :
    g.headAddr table t kv j + n * g.headDim ≤ g.blockSize * N := by
  have hhead := Radix.digit_lt (Radix.digit_lt hid hkv) hj
  have hspan := Radix.span_le hhead hn
  calc g.headAddr table t kv j + n * g.headDim
      = (g.headIndex (table.getD (t / g.ntpb) 0) kv j (t % g.ntpb) + n) * g.headDim := by
        rw [headAddr_eq, add_mul]
    _ ≤ N * 2 * g.heads * g.ntpb * g.headDim := Nat.mul_le_mul_right _ hspan
    _ = g.blockSize * N := by rw [blockSize, tokenSize]; ring

/-- The tokens of a page follow each other in a head's section. -/
theorem headAddr_add {i : ℕ} (hi : i < g.ntpb - t % g.ntpb) :
    g.headAddr table (t + i) kv j = g.headAddr table t kv j + i * g.headDim := by
  obtain ⟨hdiv, hmod⟩ := divMod_add_of_lt hi
  rw [headAddr, headAddr, hdiv, hmod]
  ring

end HndGeometry

/-! ## What the loop emits -/

open HndGeometry

/-- A page is one kernel block. -/
theorem hybridPos_one {ntpb : ℕ} (h : 0 < ntpb) (size t : ℕ) :
    hybridPos 1 ntpb ntpb size t = .ok ⟨t / ntpb, t % ntpb, 0⟩ := by
  have hmod : t - t / ntpb * ntpb = t % ntpb := by rw [mul_comm, Nat.mod_eq_sub_mul_div]
  simp only [hybridPos, if_true, checkedDiv_of_pos h, ok_bind, hmod,
    Nat.div_eq_of_lt (Nat.mod_lt t h), zero_mul]
  rfl

/-- The record of half `kv` of the narrow side's head `j`, for `tokens` tokens from `t` on: it is head
`off · heads + j` of the wide side. -/
def hndRecord (n w : HndGeometry) (nTable wTable : List ℕ) (off tokens t j kv : ℕ) : IpcBlock :=
  ⟨n.headAddr nTable t kv j, w.headAddr wTable t kv (off * n.heads + j), tokens * n.headDim⟩

section Emission

variable {env : EnvCfg} {n w : HndGeometry} {nTable wTable : List ℕ} {G off : ℕ} {b : IpcBlockBounds}
  {swap : Bool}

theorem kOff_eq (g : HndGeometry) (table : List ℕ) (t j : ℕ) :
    HndRun.kOff ⟨(g.side table).kernelBlkOff (table.getD (t / g.ntpb) 0) ⟨t / g.ntpb, t % g.ntpb, 0⟩ 0,
      g.ntpb * g.headDim, g.blockSize / 2, t % g.ntpb⟩ g.headDim j = g.headAddr table t 0 j := by
  simp only [HndRun.kOff, HybridSide.kernelBlkOff, side, headAddr, zero_mul, add_zero]

theorem headAddr_half (g : HndGeometry) (table : List ℕ) (t j : ℕ) :
    g.headAddr table t 0 j + g.blockSize / 2 = g.headAddr table t 1 j := by
  rw [headAddr, headAddr]
  ring

variable (hdim : w.headDim = n.headDim)
include hdim

theorem headAddr_group (t j : ℕ) : w.headAddr wTable t 0 j + off * (n.heads * (w.ntpb * n.headDim))
      = w.headAddr wTable t 0 (off * n.heads + j) := by
  rw [headAddr, headAddr, hdim]
  ring

variable {out : List IpcBlock} {wrote left : ℕ}

/-- **A round emits a run of each head.** -/
theorem hybridHndRound_eq_ok {wrote tokens : ℕ} :
    hybridHndRound env (n.side nTable) (w.side wTable) n.headDim
        (off * (n.heads * (w.ntpb * n.headDim))) n.heads b swap wrote tokens = .ok out ↔
      (wrote / n.ntpb < nTable.length ∧ wrote / w.ntpb < wTable.length) ∧
      (∀ j ∈ List.range n.heads, ∀ kv < 2,
        ((hndRecord n w nTable wTable off tokens wrote j kv).turned swap).FitsIn b) ∧
      out = (List.range n.heads).flatMap fun j => (List.range 2).map fun kv =>
        (hndRecord n w nTable wTable off tokens wrote j kv).turned swap := by
  have hpos : ∀ (g : HndGeometry) (table : List ℕ), hybridPos 1 (g.side table).ntpb
      (g.side table).kernelBlkNtpb (g.side table).kernelBlkSize wrote
        = .ok ⟨wrote / g.ntpb, wrote % g.ntpb, 0⟩ := fun g table => hybridPos_one g.ntpb_pos _ _
  have htables : ∀ {table : List ℕ} {g : HndGeometry}, (g.side table).blocks = table := rfl
  have hkernel : ∀ {table : List ℕ} {g : HndGeometry}, (g.side table).kernelBlkNtpb = g.ntpb ∧
    (g.side table).kernelBlkSize = g.blockSize := ⟨rfl, rfl⟩
  simp only [hybridHndRound, hpos, ok_bind, htables]
  by_cases hlook : wrote / n.ntpb < nTable.length ∧ wrote / w.ntpb < wTable.length
  · rw [cassert_of hlook, ok_bind, vecAt_of_lt hlook.1, ok_bind, vecAt_of_lt hlook.2, ok_bind,
      and_iff_right hlook, hndHeads, Int.toNat_natCast]
    refine emitAll_eq_ok fun j _ x => ?_
    have hwide := kOff_eq w wTable wrote j
    rw [hdim] at hwide
    simp only [hkernel, kOff_eq n nTable wrote j, hwide, headAddr_group hdim, headAddr_half,
      bind_eq_ok, appendIpcBlockChecked_turned]
    constructor
    · rintro ⟨k, ⟨hk, rfl⟩, v, ⟨hv, rfl⟩, hout⟩
      refine ⟨fun kv hkv => ?_, (Except.ok.inj hout).symm⟩
      obtain rfl | rfl : kv = 0 ∨ kv = 1 := by omega
      · exact hk
      · exact hv
    · rintro ⟨hfit, rfl⟩
      exact ⟨_, ⟨hfit 0 two_pos, rfl⟩, _, ⟨hfit 1 one_lt_two, rfl⟩, rfl⟩
  · refine iff_of_false (fun h => hlook ?_) fun h => hlook h.1
    replace h := after_check h
    obtain ⟨_, hs, h⟩ := bind_eq_ok.mp h
    obtain ⟨_, hdst, -⟩ := bind_eq_ok.mp h
    exact ⟨lt_of_vecAt_eq_ok hs, lt_of_vecAt_eq_ok hdst⟩

/-- Runs of one page stay inside both caches. -/
theorem hndRecord_within {N M tokens t j kv : ℕ} (hn : nTable.getD (t / n.ntpb) 0 < N)
    (hw : wTable.getD (t / w.ntpb) 0 < M) (hpos : 0 < tokens) (hnrun : tokens ≤ n.ntpb - t % n.ntpb)
    (hwrun : tokens ≤ w.ntpb - t % w.ntpb) (hj : j < n.heads) (hhead : off * n.heads + j < w.heads)
    (hkv : kv < 2) : IpcBlock.Within (n.blockSize * N) (w.blockSize * M)
      (hndRecord n w nTable wTable off tokens t j kv) := by
  have hnmod := Nat.mod_lt t n.ntpb_pos
  have hwmod := Nat.mod_lt t w.ntpb_pos
  have hdst := w.headAddr_add_le (n := tokens) hw hkv hhead (by omega)
  rw [hdim] at hdst
  exact ⟨mul_pos hpos n.headDim_pos, n.headAddr_add_le hn hkv hj (by omega), hdst⟩

omit hdim in
/-- The code finds the size of a head. -/
theorem headDimOf_side {g : HndGeometry} (table : List ℕ) (hlt : g.heads < 2 ^ 64) :
    headDimOf env (g.side table).tokenSize g.heads = .ok g.headDim := by
  have hpos : (0 : ℤ) < g.heads := Int.natCast_pos.mpr g.heads_pos
  have hrow : (g.side table).tokenSize = 2 * g.heads * g.headDim := (mul_assoc _ _ _).symm
  have hhalf : 2 * g.heads * g.headDim / 2 = g.heads * g.headDim := by
    rw [mul_assoc, Nat.mul_div_cancel_left _ two_pos]
  rw [headDimOf, toSize_of_lt hlt, cassert_of hpos, ok_bind, hrow,
    cassert_of (Nat.mul_mod_right _ _), ok_bind, hhalf, checkedDiv_of_pos g.heads_pos,
    Nat.mul_div_cancel_left _ g.heads_pos]

variable (hheads : w.heads = G * n.heads)
include hheads

/-- The checks at the entry of `parse_hybrid_flashinfer_HND_block` pass. -/
theorem parseHybridFlashinferHNDBlock_eq (hlt : n.heads < 2 ^ 64) (wrote left : ℕ) :
    parseHybridFlashinferHNDBlock env (n.side nTable) (w.side wTable) wrote left G off n.heads b swap
      = walk (toBoundaries n.ntpb w.ntpb) (hybridHndRound env (n.side nTable) (w.side wTable) n.headDim
          (off * (n.heads * (w.ntpb * n.headDim))) n.heads b swap) left wrote left := by
  have hhalves : ∀ (g : HndGeometry) (table : List ℕ),
      (g.side table).kernelBlkSize / 2 * 2 = (g.side table).kernelBlkSize := fun g table => by
    have hsize : (g.side table).kernelBlkSize = g.blockSize := rfl
    rw [hsize, blockSize_half, blockSize, tokenSize]
    ring
  have hgroups : n.heads * ((w.side wTable).kernelBlkNtpb * n.headDim) * G
      = (w.side wTable).kernelBlkSize / 2 := by
    have hsize : (w.side wTable).kernelBlkSize = w.blockSize := rfl
    have hntpb : (w.side wTable).kernelBlkNtpb = w.ntpb := rfl
    rw [hsize, hntpb, blockSize_half, hheads, hdim]
    ring
  rw [parseHybridFlashinferHNDBlock, cassert_of (hhalves n nTable), ok_bind,
    cassert_of (hhalves w wTable), ok_bind, headDimOf_side nTable hlt, ok_bind,
    toSize_of_lt hlt]
  dsimp only
  rw [cassert_of hgroups, ok_bind]
  rfl

/-- **The loop copies each byte of the range's heads once**, the runs cut as they may. -/
theorem parseHybridFlashinferHNDBlock_bytes (hlt : n.heads < 2 ^ 64) (h :
      parseHybridFlashinferHNDBlock env (n.side nTable) (w.side wTable) wrote left G off n.heads b
      swap = .ok out) : (out.flatMap IpcBlock.bytes).Perm ((List.range' wrote left).flatMap fun t =>
      (List.range 2).flatMap fun kv => (List.range n.heads).flatMap fun j =>
        ((hndRecord n w nTable wTable off 1 t j kv).turned swap).bytes) := by
  rw [parseHybridFlashinferHNDBlock_eq hdim hheads hlt] at h
  refine walk_flatMap_perm (advances_toBoundaries n.ntpb_pos w.ntpb_pos) le_rfl
    (fun t l x ht hl he hx => ?_) h
  obtain ⟨hn, hw⟩ := toBoundaries_le n.ntpb w.ntpb t l
  obtain ⟨-, -, rfl⟩ := (hybridHndRound_eq_ok hdim).mp hx
  -- a run, token by token
  have hrun : ∀ j kv, ((hndRecord n w nTable wTable off (toBoundaries n.ntpb w.ntpb t l) t j kv).turned
      swap).bytes = (List.range (toBoundaries n.ntpb w.ntpb t l)).flatMap fun i =>
        ((hndRecord n w nTable wTable off 1 (t + i) j kv).turned swap).bytes := fun j kv => by
    have htoken : ∀ i ∈ List.range (toBoundaries n.ntpb w.ntpb t l),
        hndRecord n w nTable wTable off 1 (t + i) j kv =
          ⟨n.headAddr nTable t kv j + i * n.headDim,
            w.headAddr wTable t kv (off * n.heads + j) + i * n.headDim, n.headDim⟩ := fun i hi => by
      have hi := mem_range.mp hi
      rw [hndRecord, n.headAddr_add (by omega), w.headAddr_add (by omega), hdim, one_mul]
    rw [flatMap_congr fun i hi => by rw [htoken i hi]]
    cases swap with
    | false => exact IpcBlock.bytes_mul _ _ _ _
    | true => exact IpcBlock.bytes_mul _ _ _ _
  simp only [flatMap_assoc, flatMap_map, hrun]
  rw [range'_eq_map_range, flatMap_map]
  -- head, half, token: to token, half, head
  refine (Perm.flatMap_left _ fun j _ => flatMap_comm_perm (fun kv i =>
    ((hndRecord n w nTable wTable off 1 (t + i) j kv).turned swap).bytes) _ _).trans ?_
  refine (flatMap_comm_perm (fun j i => (List.range 2).flatMap fun kv =>
    ((hndRecord n w nTable wTable off 1 (t + i) j kv).turned swap).bytes) _ _).trans ?_
  exact Perm.flatMap_left _ fun i _ => flatMap_comm_perm (fun j kv =>
    ((hndRecord n w nTable wTable off 1 (t + i) j kv).turned swap).bytes) _ _

/-- …having found each token's blocks. -/
theorem parseHybridFlashinferHNDBlock_lookup (hlt : n.heads < 2 ^ 64) (h :
      parseHybridFlashinferHNDBlock env (n.side nTable) (w.side wTable) wrote left G off n.heads b
      swap = .ok out) (t : ℕ) (h1 : wrote ≤ t) (h2 : t < wrote + left) :
    t / n.ntpb < nTable.length ∧ t / w.ntpb < wTable.length := by
  rw [parseHybridFlashinferHNDBlock_eq hdim hheads hlt] at h
  refine walk_forall (Q := fun t => t / n.ntpb < nTable.length ∧ t / w.ntpb < wTable.length)
    (advances_toBoundaries n.ntpb_pos w.ntpb_pos) le_rfl
    (fun u l x hu hl he hx t ht1 ht2 => ?_) h t h1 h2
  obtain ⟨hn, hw⟩ := toBoundaries_le n.ntpb w.ntpb u l
  obtain ⟨hlook, -⟩ := (hybridHndRound_eq_ok hdim).mp hx
  have ht2 : t < u + toBoundaries n.ntpb w.ntpb u l := ht2
  obtain ⟨i, rfl⟩ := Nat.exists_eq_add_of_le ht1
  rw [(divMod_add_of_lt (show i < n.ntpb - u % n.ntpb by omega)).1,
    (divMod_add_of_lt (show i < w.ntpb - u % w.ntpb by omega)).1]
  exact hlook

/-- …and it succeeds when they are in the tables and the runs inside the caches. -/
theorem exists_parseHybridFlashinferHNDBlock_ok (hlt : n.heads < 2 ^ 64) (hrange : ∀ t, wrote ≤ t →
      t < wrote + left → (t / n.ntpb < nTable.length ∧ t / w.ntpb < wTable.length) ∧ ∀ tokens, 0 <
      tokens → tokens ≤ n.ntpb - t % n.ntpb → tokens ≤ w.ntpb - t % w.ntpb → ∀ j < n.heads, ∀ kv <
      2, ((hndRecord n w nTable wTable off tokens t j kv).turned swap).FitsIn b) :
    ∃ out, parseHybridFlashinferHNDBlock env (n.side nTable) (w.side wTable) wrote left G off n.heads b
      swap = .ok out := by
  have hadv := advances_toBoundaries n.ntpb_pos w.ntpb_pos
  rw [parseHybridFlashinferHNDBlock_eq hdim hheads hlt]
  refine exists_walk_ok hadv left wrote left fun t l ht hl he => ?_
  obtain ⟨hn, hw⟩ := toBoundaries_le n.ntpb w.ntpb t l
  obtain ⟨hlook, hfit⟩ := hrange t ht (by omega)
  exact ⟨_, (hybridHndRound_eq_ok hdim).mpr ⟨hlook, fun j hj kv hkv =>
    hfit _ (hadv t l hl).1 hn hw j (mem_range.mp hj) kv hkv, rfl⟩⟩

end Emission

/-! ## The transfer -/

/-- The tokens of a head lie together: `[head][token][byte]`. -/
def headMajor (g : HndGeometry) (table : List ℕ) : HeadLayout :=
  fun i j b => g.headAddr table i.1 i.2.2 j + b

/-- A worker registered these pages for its attention layers. -/
structure HoldsHnd (w : WorkerInfo) (tp rank : ℕ) (g : HndGeometry) : Prop where
  engineTpSize : w.engineTpSize = tp
  workerTpRank : w.workerTpRank = rank
  tokenSizes : w.tokenSizes = [g.tokenSize]
  blockSizes : w.blockSizes = [g.blockSize]
  attnKernelBlkNtpb : w.attnKernelBlkNtpb = g.ntpb

/-- A QWEN3_NEXT_FLASHINFER task of a sliced pair. -/
structure FlashinferSliced extends SlicedPair where
  p : HndGeometry
  d : HndGeometry
  p_heads : p.heads = toSlicedHeads.pHeads
  d_heads : d.heads = toSlicedHeads.dHeads
  p_dim : p.headDim = headDim
  d_dim : d.headDim = headDim
  ntpb_lt : p.ntpb < 2 ^ 32 ∧ d.ntpb < 2 ^ 32
  src_holds : HoldsHnd src pTp (toSlicedHeads.sender rank) p
  dst_holds : HoldsHnd dst dTp rank d

namespace FlashinferSliced

variable {X : FlashinferSliced}

/-- What the P rank emits for the D rank. -/
def parse (X : FlashinferSliced) : Except Fault (List (List IpcBlock)) :=
  vllmParseQwen3NextFlashinferBlockSendPLtD X.env X.src X.dst X.validRanks X.kvtTpSize X.kvtTpRank
    X.task

/-- Its call of `parse_hybrid_flashinfer_HND_block`. -/
def attnCall (X : FlashinferSliced) : Except Fault (List IpcBlock) := do
  let bounds ← makeIpcBlockBounds X.env X.src X.dst 0
  let slice ← attnSlice X.env X.p.tokenSize X.d.tokenSize X.pTp X.dTp X.rank
  parseHybridFlashinferHNDBlock X.env (X.d.side X.dstTable) (X.p.side X.srcTable) X.task.seenTokens
    X.task.newTokens slice.1 slice.2 (dstHeadsPerRank X.src.numKvHeads X.dTp) bounds true

/-- The attention records deliver the D rank's heads; a page holds one layer. -/
def Delivered (X : FlashinferSliced) (attn : List IpcBlock) : Prop :=
  X.Delivers 1 (headMajor X.p X.srcTable) (headMajor X.d X.dstTable) attn

/-- The blocks of the range are in both caches, and bytes are copied as they are. -/
structure Covered (X : FlashinferSliced) : Prop where
  fp8_off : X.env.bf162fp8Conversion = false
  src : InCache X.src X.p.blockSize X.p.ntpb X.srcTable X.task
  dst : InCache X.dst X.d.blockSize X.d.ntpb X.dstTable X.task

variable {G c r : ℕ} {attn : List IpcBlock}

theorem attnSlice_eq (h : X.Split G c r) :
    attnSlice X.env X.p.tokenSize X.d.tokenSize X.pTp X.dTp X.rank = .ok (G, X.rank / r % G) := by
  rw [tokenSize, tokenSize, X.p_heads, X.p_dim, X.d_heads, X.d_dim]
  exact h.attnSlice_eq X.env X.rank

theorem dim_eq (X : FlashinferSliced) : X.p.headDim = X.d.headDim := X.p_dim.trans X.d_dim.symm

theorem d_heads_eq (h : X.Split G c r) : X.d.heads = c := X.d_heads.trans h.dHeads

theorem p_heads_eq (h : X.Split G c r) : X.p.heads = G * X.d.heads := by
  rw [X.p_heads, h.pHeads, d_heads_eq h]

/-- The code counts the D rank's heads right. -/
theorem dstHeadsPerRank_eq (X : FlashinferSliced) :
    dstHeadsPerRank X.src.numKvHeads X.dTp = X.d.heads := by
  have hlt := X.heads_lt
  have hmod : (X.numKvHeads : ℤ) % 2 ^ 32 = X.numKvHeads := by omega
  rw [dstHeadsPerRank, X.src_heads, hmod, X.d_heads, SlicedHeads.dHeads]
  by_cases hle : X.dTp ≤ X.numKvHeads
  · rw [if_pos hle, if_pos (Int.ofNat_le.mpr hle)]
    exact (Int.ofNat_tdiv _ _).symm
  · rw [if_neg hle, if_neg fun h => hle (Int.ofNat_le.mp h)]
    rfl

theorem d_heads_lt (h : X.Split G c r) : X.d.heads < 2 ^ 64 := by
  have hlt := X.heads_lt
  have hle : c ≤ X.numKvHeads := by
    rw [h.heads, ← mul_assoc]
    exact Nat.le_mul_of_pos_left _ (mul_pos X.pTp_pos h.slices_pos)
  rw [d_heads_eq h]
  omega

theorem attnCall_eq_ok (h : X.Split G c r) (hattn : X.attnCall = .ok attn) :
    ∃ bounds, parseHybridFlashinferHNDBlock X.env (X.d.side X.dstTable) (X.p.side X.srcTable)
      X.task.seenTokens X.task.newTokens G (X.rank / r % G) X.d.heads bounds true = .ok attn := by
  obtain ⟨bounds, -, hattn⟩ := bind_eq_ok.mp hattn
  rw [attnSlice_eq h, ok_bind, dstHeadsPerRank_eq] at hattn
  exact ⟨bounds, hattn⟩

/-- The copies of a token, as the loop emits them, are those of its two rows. -/
theorem bytes_record (h : X.Split G c r) (t kv : ℕ) :
    ((List.range X.d.heads).flatMap fun j => ((hndRecord X.d X.p X.dstTable X.srcTable
      (X.rank / r % G) 1 t j kv).turned true).bytes) =
      X.sliceCopies (headMajor X.p X.srcTable) (headMajor X.d X.dstTable) c (X.rank / r % G)
        (t, 0, kv) := by
  rw [SlicedPair.sliceCopies, d_heads_eq h]
  refine flatMap_congr fun j _ => ?_
  rw [hndRecord, IpcBlock.turned, IpcBlock.bytes, one_mul, X.d_dim, d_heads_eq h]
  rfl

/-- **A call that succeeds delivers the heads.** -/
theorem delivered (hattn : X.attnCall = .ok attn) : X.Delivered attn := by
  obtain ⟨G, c, r, h⟩ := X.exists_split
  obtain ⟨bounds, hout⟩ := attnCall_eq_ok h hattn
  refine SlicedPair.delivers_of_perm h ?_ fun hdistinct i hi i' hi' j hj j' hj' b hb b' hb' heq => ?_
  · have hperm := parseHybridFlashinferHNDBlock_bytes X.dim_eq (p_heads_eq h) (d_heads_lt h) hout
    have hrows : (X.rows 1).flatMap (X.sliceCopies (headMajor X.p X.srcTable)
        (headMajor X.d X.dstTable) c (X.rank / r % G)) =
        (List.range' X.task.seenTokens X.task.newTokens).flatMap fun t =>
          (List.range 2).flatMap fun kv => X.sliceCopies (headMajor X.p X.srcTable)
            (headMajor X.d X.dstTable) c (X.rank / r % G) (t, 0, kv) := by
      simp only [SlicedPair.rows, attnRows, List.product, flatMap_assoc, flatMap_map,
        range_one, flatMap_singleton]
    simp only [bytes_record h] at hperm
    rw [hrows]
    exact hperm
  · obtain ⟨t, l, kv⟩ := i
    obtain ⟨t', l', kv'⟩ := i'
    obtain ⟨⟨h1, h2⟩, hl, hkv⟩ := mem_attnRows.mp hi
    obtain ⟨⟨h1', h2'⟩, hl', hkv'⟩ := mem_attnRows.mp hi'
    obtain ⟨rfl, rfl⟩ : l = 0 ∧ l' = 0 := by omega
    have hlook := parseHybridFlashinferHNDBlock_lookup X.dim_eq (p_heads_eq h) (d_heads_lt h) hout
    simp only [headMajor, headAddr_eq, X.d_dim] at heq
    obtain ⟨hhead, rfl⟩ := Radix.digit_inj hb hb' heq
    rw [← d_heads_eq h] at hj hj'
    obtain ⟨rfl, rfl, rfl⟩ := X.d.head_inj hdistinct hkv hkv' hj hj' (hlook t h1 h2).1
      (hlook t' h1' h2').1 hhead
    exact ⟨rfl, rfl, rfl⟩

/-- The blocks of the range being in both caches, the call succeeds. -/
theorem exists_attnCall_ok (hc : X.Covered) : ∃ attn, X.attnCall = .ok attn := by
  obtain ⟨G, c, r, h⟩ := X.exists_split
  rw [attnCall, makeIpcBlockBounds_of_inCache hc.fp8_off X.src_holds.blockSizes
    X.dst_holds.blockSizes hc.src hc.dst, ok_bind, attnSlice_eq h, ok_bind, dstHeadsPerRank_eq]
  refine exists_parseHybridFlashinferHNDBlock_ok X.dim_eq (p_heads_eq h) (d_heads_lt h)
    fun t h1 h2 => ?_
  obtain ⟨hdlen, hdN⟩ := hc.dst.block_at h1 h2
  obtain ⟨hslen, hsN⟩ := hc.src.block_at h1 h2
  refine ⟨⟨hdlen, hslen⟩, fun tokens hpos hdt hst j hj kv hkv => ?_⟩
  have hhead : X.rank / r % G * X.d.heads + j < X.p.heads := by
    rw [p_heads_eq h]
    exact Radix.digit_lt (h.off_lt X.rank) hj
  obtain ⟨hlen, hdst, hsrc⟩ := hndRecord_within X.dim_eq hdN hsN hpos hdt hst hj hhead hkv
  exact IpcBlockBounds.Admits.fits ⟨rfl, hc.src.capacity, le_rfl, le_rfl⟩ ⟨hlen, hsrc, hdst⟩

/-- **A parse that returns holds the records of its attention call in one piece.** -/
theorem exists_attn_of_parse {recs : List (List IpcBlock)} (hparse : X.parse = .ok recs) :
    ∃ before attn after, X.attnCall = .ok attn ∧ recs = [before ++ attn ++ after] := by
  have hsrc := X.src_holds
  have hdst := X.dst_holds
  have hp := X.pTp_pos
  have hgdn : 0 < X.dTp / X.pTp := Nat.div_pos X.pTp_lt.le hp
  have hntpb : ∀ g : HndGeometry, g.blockSize / g.tokenSize = g.ntpb := fun g =>
    Nat.mul_div_cancel _ g.tokenSize_pos
  obtain ⟨G, c, r, h⟩ := X.exists_split
  have hne : X.p.tokenSize ≠ X.d.tokenSize := fun heq => by
    have hpos := X.d.tokenSize_pos
    have hwide : X.p.tokenSize = G * X.d.tokenSize := by
      rw [tokenSize, p_heads_eq h, X.dim_eq, tokenSize]
      ring
    have := (Nat.lt_mul_iff_one_lt_left hpos).mpr h.slices
    omega
  simp only [parse, vllmParseQwen3NextFlashinferBlockSendPLtD, hsrc.engineTpSize, hdst.engineTpSize,
    hsrc.workerTpRank, hdst.workerTpRank, hsrc.tokenSizes, hdst.tokenSizes, hsrc.blockSizes,
    hdst.blockSizes, cassert_of X.pTp_lt, checkedDiv_of_pos hp,
    cassert_of (Nat.mod_eq_zero_of_dvd X.pTp_dvd), checkedDiv_of_pos hgdn, vecAt_singleton,
    checkedDiv_of_pos X.p.tokenSize_pos, checkedDiv_of_pos X.d.tokenSize_pos, hntpb,
    u32_of_lt X.ntpb_lt.1, u32_of_lt X.ntpb_lt.2, ok_bind, if_neg hne, length_singleton,
    cassert_of trivial] at hparse
  replace hparse := after_check hparse
  replace hparse := after_check hparse
  replace hparse := after_check hparse
  replace hparse := after_check hparse
  replace hparse := after_check hparse
  obtain ⟨bounds, hbounds, hparse⟩ := bind_eq_ok.mp hparse
  replace hparse := after_check hparse
  replace hparse := after_check hparse
  replace hparse := after_check hparse
  obtain ⟨out, hout, hparse⟩ := bind_eq_ok.mp hparse
  obtain ⟨state, -, hparse⟩ := bind_eq_ok.mp hparse
  simp only [attnSlice_eq h, ok_bind] at hout
  replace hout := after_check hout
  replace hout := after_check hout
  obtain ⟨headDimSize, -, hout⟩ := bind_eq_ok.mp hout
  obtain ⟨indexer, part, hpart, rfl⟩ := SlicedPair.exists_send_of_fanOutSliced hout
  obtain ⟨attn, hattn, hpart⟩ := bind_eq_ok.mp hpart
  obtain ⟨fill, -, hpart⟩ := bind_eq_ok.mp hpart
  rw [hsrc.attnKernelBlkNtpb, hdst.attnKernelBlkNtpb] at hattn
  refine ⟨indexer, attn, fill ++ state, ?_, ?_⟩
  · rw [attnCall, hbounds, ok_bind, attnSlice_eq h, ok_bind]
    exact hattn
  · rw [← Except.ok.inj hparse, ← Except.ok.inj hpart]
    simp only [firstOf, append_assoc]
    rfl

end FlashinferSliced

/-- **P < D delivers each D rank its heads**, in both page layouts.  A parse holds its attention records
in one piece; the call succeeds when the blocks of the range are in both caches; and a call that
succeeds copies each byte of the K and V of the D rank's heads once, from the place those heads have in
the sender's row. -/
theorem sliced_delivers :
    (∀ X : FlashSliced,
      (∀ recs, X.parse = .ok recs →
        ∃ before attn after, X.attnCall = .ok attn ∧ recs = [before ++ attn ++ after]) ∧
      (X.Covered → ∃ attn, X.attnCall = .ok attn) ∧
      ∀ attn, X.attnCall = .ok attn → X.Delivered attn) ∧
    (∀ X : FlashinferSliced,
      (∀ recs, X.parse = .ok recs →
        ∃ before attn after, X.attnCall = .ok attn ∧ recs = [before ++ attn ++ after]) ∧
      (X.Covered → ∃ attn, X.attnCall = .ok attn) ∧
      ∀ attn, X.attnCall = .ok attn → X.Delivered attn) :=
  ⟨fun _ => ⟨fun _ h => FlashSliced.exists_attn_of_parse h,
      fun hc => FlashSliced.exists_attnCall_ok hc, fun _ h => FlashSliced.delivered h⟩,
    fun _ => ⟨fun _ h => FlashinferSliced.exists_attn_of_parse h,
      fun hc => FlashinferSliced.exists_attnCall_ok hc, fun _ h => FlashinferSliced.delivered h⟩⟩

/-- Two heads on one P rank, four D ranks with one head each. -/
def twoOnFour : SlicedHeads where
  pTp := 1
  dTp := 4
  numKvHeads := 2
  headDim := 1
  pTp_pos := Nat.one_pos
  pTp_lt := by decide
  pTp_dvd := Nat.one_dvd _
  heads_gt := Nat.one_lt_two
  heads_dvd := Nat.one_dvd _
  regime := .inr (by decide)
  headDim_pos := Nat.one_pos
  dTp_lt := by decide
  heads_lt := by decide

/-- Two tokens for D rank 3: P pages of one token, D pages of two, two layers in each. -/
def packedFanOut : FlashSliced where
  toSlicedHeads := twoOnFour
  env := {}
  rank := 3
  src := { engineTpSize := 1, tokenSizes := [4], blockSizes := [8], layerNumBlocks := 2,
           numKvHeads := 2, numGdnLayers := 0, attnKernelBlkNtpb := 1, attnPackSize := 2 }
  dst := { engineTpSize := 4, workerTpRank := 3, tokenSizes := [2], blockSizes := [8],
           attnKernelBlkNtpb := 1, attnPackSize := 2 }
  validRanks := 1
  kvtTpSize := 1
  kvtTpRank := 0
  task := .first ⟨0, "req", [[0, 1]], [[0]]⟩ 2 false
  srcTable := [0, 1]
  dstTable := [0]
  src_heads := rfl
  srcTable_eq := rfl
  dstTable_eq := rfl
  p := ⟨2, 1, 1, 2, Nat.two_pos, Nat.one_pos, Nat.one_pos, Nat.two_pos⟩
  d := ⟨2, 2, 1, 1, Nat.two_pos, Nat.two_pos, Nat.one_pos, Nat.one_pos⟩
  p_step := rfl
  d_step := rfl
  pack_eq := rfl
  ntpb_lt := by decide
  src_holds := ⟨rfl, rfl, rfl, rfl, rfl, rfl⟩
  dst_holds := ⟨rfl, rfl, rfl, rfl, rfl, rfl⟩

/-- …and with the heads outside the tokens. -/
def hndFanOut : FlashinferSliced where
  toSlicedHeads := twoOnFour
  env := {}
  rank := 3
  src := { engineTpSize := 1, tokenSizes := [4], blockSizes := [4], layerNumBlocks := 2,
           numKvHeads := 2, numGdnLayers := 0, attnKernelBlkNtpb := 1 }
  dst := { engineTpSize := 4, workerTpRank := 3, tokenSizes := [2], blockSizes := [4],
           attnKernelBlkNtpb := 2 }
  validRanks := 1
  kvtTpSize := 1
  kvtTpRank := 0
  task := .first ⟨0, "req", [[0, 1]], [[0]]⟩ 2 false
  srcTable := [0, 1]
  dstTable := [0]
  src_heads := rfl
  srcTable_eq := rfl
  dstTable_eq := rfl
  p := ⟨2, 1, 1, Nat.two_pos, Nat.one_pos, Nat.one_pos⟩
  d := ⟨1, 2, 1, Nat.one_pos, Nat.two_pos, Nat.one_pos⟩
  p_heads := rfl
  d_heads := rfl
  p_dim := rfl
  d_dim := rfl
  ntpb_lt := by decide
  src_holds := ⟨rfl, rfl, rfl, rfl, rfl⟩
  dst_holds := ⟨rfl, rfl, rfl, rfl, rfl⟩

/-- Tokens 0 and 1 are in these caches, block by block on P and in one block on D. -/
theorem inCache_twoTokens {src dst : WorkerInfo} {task : ReqSendTask} (hseen : task.seenTokens = 0)
    (hnew : task.newTokens = 2) (hsrc : src.layerNumBlocks = 2) (hdst : dst.layerNumBlocks = 1)
    {srcSize dstSize : ℕ} (hs : srcSize * 2 ≤ sizeMax) (hd : dstSize * 1 ≤ sizeMax) :
    InCache src srcSize 1 [0, 1] task ∧ InCache dst dstSize 2 [0] task := by
  have htokens : ∀ t, t < task.endTokens → t = 0 ∨ t = 1 := fun t ht => by
    rw [ReqSendTask.endTokens, hseen, hnew] at ht
    omega
  refine ⟨⟨by rwa [hsrc], by omega, fun t _ ht => ?_⟩, ⟨by rwa [hdst], by omega, fun t _ ht => ?_⟩⟩
  · obtain rfl | rfl := htokens t ht
    · exact ⟨0, rfl, by omega⟩
    · exact ⟨1, rfl, by omega⟩
  · obtain rfl | rfl := htokens t ht
    · exact ⟨0, rfl, by omega⟩
    · exact ⟨0, rfl, by omega⟩

/-- D rank 3 gets head 1 of both tokens. -/
theorem sliced_delivers_twoOnFour :
    (∃ attn, packedFanOut.attnCall = .ok attn ∧ packedFanOut.Delivered attn) ∧
    (∃ attn, hndFanOut.attnCall = .ok attn ∧ hndFanOut.Delivered attn) := by
  obtain ⟨hflash, hhnd⟩ := sliced_delivers
  have hcache : InCache packedFanOut.src 8 1 [0, 1] packedFanOut.task ∧
      InCache packedFanOut.dst 8 2 [0] packedFanOut.task :=
    inCache_twoTokens rfl rfl rfl rfl (by decide) (by decide)
  have hcache' : InCache hndFanOut.src 4 1 [0, 1] hndFanOut.task ∧
      InCache hndFanOut.dst 4 2 [0] hndFanOut.task :=
    inCache_twoTokens rfl rfl rfl rfl (by decide) (by decide)
  refine ⟨?_, ?_⟩
  · obtain ⟨-, hok, hdelivers⟩ := hflash packedFanOut
    obtain ⟨attn, hattn⟩ := hok ⟨rfl, hcache.1, hcache.2⟩
    exact ⟨attn, hattn, hdelivers attn hattn⟩
  · obtain ⟨-, hok, hdelivers⟩ := hhnd hndFanOut
    obtain ⟨attn, hattn⟩ := hok ⟨rfl, hcache'.1, hcache'.2⟩
    exact ⟨attn, hattn, hdelivers attn hattn⟩

/-- **Kernel blocks have to tile the pages.**  With one layer to a page nothing asserts it: a D page of
three tokens and kernel blocks of two passes every check, and two rows are written to one place. -/
theorem sliced_overlaps_untiled : ∃ attn,
    vllmParseHybridBlockSendPLtD { ndebug := false }
      { engineTpSize := 1, tokenSizes := [4], blockSizes := [24], numKvHeads := 2, numGdnLayers := 0,
        attnKernelBlkNtpb := 6 }
      { engineTpSize := 2, tokenSizes := [2], blockSizes := [6], layerNumBlocks := 2,
        attnKernelBlkNtpb := 2 }
      1 1 0 ⟨⟨0, "req", [[0]], [[0, 1]]⟩, 0, 6, false, by decide⟩ = .ok [attn] ∧
    ∃ a ∈ attn, ∃ b ∈ attn, a.srcOffset ≠ b.srcOffset ∧ a.dstOffset = b.dstOffset := by
  refine ⟨_, rfl, ?_⟩
  decide +kernel

end LlumnixKv
