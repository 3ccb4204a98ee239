import LlumnixKv.Parse.Hybrid
import LlumnixKv.Ranks.ValidRanks
import Mathlib.Data.List.ProdSigma

/-!
# Parse/HybridExact — the P > D attention transfer is byte exact

    row address    page · page_bytes + (k·pack + layer) · kernel_bytes + half · half_bytes + idx · row
                 = ((((page·kernels + k)·pack + layer)·2 + half)·kernel_ntpb + idx) · row

The left side is how the code adds offsets up, the right side the same number as a mixed-radix
numeral.  A numeral determines its digits, so distinct (token, layer, half) have distinct rows, the
`n` senders of a D rank write distinct slices of each, and together they fill it.
-/

open List Machinery

namespace LlumnixKv

open Radix

/-! ## Pages -/

/-- One side's attention pages: `pack` layers of `kernels` kernel blocks of `kernelNtpb` tokens, a
K (or V) row of `step` bytes each. -/
structure PageGeometry where
  pack : ℕ
  kernels : ℕ
  kernelNtpb : ℕ
  step : ℕ
  pack_pos : 0 < pack
  kernels_pos : 0 < kernels
  kernelNtpb_pos : 0 < kernelNtpb
  step_pos : 0 < step

namespace PageGeometry

variable (g : PageGeometry)

/-- The tokens of one layer in a page. -/
def perLayer : ℕ := g.kernelNtpb * g.kernels

def ntpb : ℕ := g.perLayer * g.pack

def tokenSize : ℕ := 2 * g.step

def blockSize : ℕ := g.tokenSize * g.ntpb

def kernelBlkSize : ℕ := g.kernelNtpb * g.tokenSize

theorem tokenSize_pos : 0 < g.tokenSize := mul_pos two_pos g.step_pos

theorem ntpb_mul_tokenSize : g.ntpb * g.tokenSize = g.blockSize := mul_comm _ _

theorem ntpb_of_blockSize {g : PageGeometry} (hlt : g.ntpb < 2 ^ 32) :
    u32 (g.blockSize / g.tokenSize) = g.ntpb := by
  rw [blockSize, Nat.mul_div_cancel_left _ g.tokenSize_pos, u32_of_lt hlt]

/-- What `parse_hybrid_attn_block` is called with for this side. -/
def side (table : List ℕ) : HybridSide :=
  ⟨g.ntpb, g.tokenSize, g.blockSize, table, g.kernelNtpb⟩

/-- The address of the row of token `t`, layer `l`, half `kv`: its page, the kernel block
`k · pack + l` of the page, the half of the block and the token's index in it. -/
def rowAddr (table : List ℕ) (t l kv : ℕ) : ℕ :=
  table.getD (t / g.perLayer) 0 * g.blockSize
    + (t % g.perLayer / g.kernelNtpb * g.pack + l) * g.kernelBlkSize
    + kv * (g.kernelBlkSize / 2) + t % g.kernelNtpb * g.step

/-- The row's number in the cache. -/
def rowIndex (block k l kv idx : ℕ) : ℕ :=
  (((block * g.kernels + k) * g.pack + l) * 2 + kv) * g.kernelNtpb + idx

variable {g : PageGeometry}

theorem kernelBlkSize_half : g.kernelBlkSize / 2 = g.kernelNtpb * g.step := by
  rw [kernelBlkSize, tokenSize, mul_left_comm, Nat.mul_div_cancel_left _ two_pos]

theorem perLayer_pos : 0 < g.perLayer := mul_pos g.kernelNtpb_pos g.kernels_pos

/-- **The offsets the code adds up are a mixed-radix numeral.** -/
theorem rowAddr_eq (table : List ℕ) (t l kv : ℕ) :
    g.rowAddr table t l kv = g.rowIndex (table.getD (t / g.perLayer) 0)
      (t % g.perLayer / g.kernelNtpb) l kv (t % g.kernelNtpb) * g.step := by
  rw [rowAddr, kernelBlkSize_half, rowIndex, blockSize, ntpb, perLayer, kernelBlkSize, tokenSize]
  ring

/-- **A row's number determines the row.** -/
theorem rowIndex_inj {b b' k k' l l' kv kv' i i' : ℕ} (hk : k < g.kernels) (hk' : k' < g.kernels)
    (hl : l < g.pack) (hl' : l' < g.pack) (hkv : kv < 2) (hkv' : kv' < 2) (hi : i < g.kernelNtpb)
    (hi' : i' < g.kernelNtpb) (h : g.rowIndex b k l kv i = g.rowIndex b' k' l' kv' i') :
    b = b' ∧ k = k' ∧ l = l' ∧ kv = kv' ∧ i = i' := by
  obtain ⟨hhalf, rfl⟩ := digit_inj hi hi' h
  obtain ⟨hlayer, rfl⟩ := digit_inj hkv hkv' hhalf
  obtain ⟨hkernel, rfl⟩ := digit_inj hl hl' hlayer
  obtain ⟨rfl, rfl⟩ := digit_inj hk hk' hkernel
  exact ⟨rfl, rfl, rfl, rfl, rfl⟩

theorem rowIndex_lt {N b k l kv i : ℕ} (hb : b < N) (hk : k < g.kernels) (hl : l < g.pack)
    (hkv : kv < 2) (hi : i < g.kernelNtpb) :
    g.rowIndex b k l kv i < N * g.kernels * g.pack * 2 * g.kernelNtpb :=
  digit_lt (digit_lt (digit_lt (digit_lt hb hk) hl) hkv) hi

theorem kernel_lt (t : ℕ) : t % g.perLayer / g.kernelNtpb < g.kernels := by
  rw [perLayer, Nat.mod_mul_right_div_self]
  exact Nat.mod_lt _ g.kernels_pos

/-- Rows stay inside the cache. -/
theorem rowAddr_add_le {table : List ℕ} {N t l kv len : ℕ}
    (hid : table.getD (t / g.perLayer) 0 < N) (hl : l < g.pack) (hkv : kv < 2)
    (hlen : len ≤ g.step) : g.rowAddr table t l kv + len ≤ g.blockSize * N := by
  have hlt := g.rowIndex_lt hid (g.kernel_lt t) hl hkv (Nat.mod_lt t g.kernelNtpb_pos)
  calc g.rowAddr table t l kv + len
      ≤ g.rowIndex (table.getD (t / g.perLayer) 0) (t % g.perLayer / g.kernelNtpb) l kv
          (t % g.kernelNtpb) * g.step + 0 + g.step := by rw [rowAddr_eq]; omega
    _ ≤ N * g.kernels * g.pack * 2 * g.kernelNtpb * g.step := span_le hlt (zero_add _).le
    _ = g.blockSize * N := by rw [blockSize, tokenSize, ntpb, perLayer]; ring

/-- A token is its page, its kernel block and its index there. -/
theorem token_eq (t : ℕ) :
    t = t / g.perLayer * g.perLayer + (t % g.perLayer / g.kernelNtpb * g.kernelNtpb
      + t % g.kernelNtpb) := by
  have hmod : t % g.perLayer % g.kernelNtpb = t % g.kernelNtpb := by
    rw [perLayer, Nat.mod_mul_right_mod]
  rw [← hmod, Nat.div_add_mod', Nat.div_add_mod']

/-- **With distinct blocks, a row's number determines its token, layer and half.** -/
theorem row_inj {table : List ℕ} (hdistinct : table.Nodup) {t t' l l' kv kv' : ℕ} (hl : l < g.pack)
    (hl' : l' < g.pack) (hkv : kv < 2) (hkv' : kv' < 2) (hlook : t / g.perLayer < table.length)
    (hlook' : t' / g.perLayer < table.length)
    (h : g.rowIndex (table.getD (t / g.perLayer) 0) (t % g.perLayer / g.kernelNtpb) l kv
        (t % g.kernelNtpb)
      = g.rowIndex (table.getD (t' / g.perLayer) 0) (t' % g.perLayer / g.kernelNtpb) l' kv'
        (t' % g.kernelNtpb)) : (t, l, kv) = (t', l', kv') := by
  obtain ⟨hblock, hkernel, rfl, rfl, hidx⟩ := rowIndex_inj (g.kernel_lt t) (g.kernel_lt t')
    hl hl' hkv hkv' (Nat.mod_lt t g.kernelNtpb_pos) (Nat.mod_lt t' g.kernelNtpb_pos) h
  have hpage : t / g.perLayer = t' / g.perLayer := getD_inj hdistinct hlook hlook' hblock
  have htoken : t = t' := by
    rw [g.token_eq t, g.token_eq t', hpage, hkernel, hidx]
  rw [htoken]

/-- Tokens of one kernel block share their page and kernel block. -/
theorem add_of_lt {t i : ℕ} (hi : i < g.kernelNtpb - t % g.kernelNtpb) :
    (t + i) / g.perLayer = t / g.perLayer ∧
    (t + i) % g.perLayer / g.kernelNtpb = t % g.perLayer / g.kernelNtpb ∧
    (t + i) % g.kernelNtpb = t % g.kernelNtpb + i := by
  obtain ⟨hdiv, hmod⟩ := divMod_add_of_lt hi
  rw [perLayer, ← Nat.div_div_eq_div_mul, ← Nat.div_div_eq_div_mul, Nat.mod_mul_right_div_self,
    Nat.mod_mul_right_div_self, hdiv]
  exact ⟨rfl, rfl, hmod⟩

/-- **Both layouts of the code find the same position.** -/
theorem hybridPos_eq (t : ℕ) :
    hybridPos g.pack g.ntpb g.kernelNtpb g.kernelBlkSize t = .ok ⟨t / g.perLayer,
      t % g.kernelNtpb, t % g.perLayer / g.kernelNtpb * g.pack * g.kernelBlkSize⟩ := by
  have hpos := g.perLayer_pos
  unfold hybridPos
  split_ifs with hpack
  · have hntpb : g.ntpb = g.perLayer := by rw [ntpb, hpack, mul_one]
    have hmod : t - t / g.perLayer * g.perLayer = t % g.perLayer := by
      rw [mul_comm, Nat.mod_eq_sub_mul_div]
    rw [hntpb, hpack, checkedDiv_of_pos hpos, mul_one]
    simp only [bind, Except.bind, hmod, checkedDiv_of_pos g.kernelNtpb_pos]
    rfl
  · have hntpb : g.ntpb / g.pack = g.perLayer := Nat.mul_div_cancel _ g.pack_pos
    simp only [hntpb, checkedDiv_of_pos hpos, checkedDiv_of_pos g.kernelNtpb_pos]
    rfl

end PageGeometry

/-! ## What the loop emits -/

open PageGeometry

/-- The record of half `kv` of layer `l` of token `t`, from a sender with group offset `off`. -/
def attnRecord (p d : PageGeometry) (srcTable dstTable : List ℕ) (off t l kv : ℕ) : IpcBlock :=
  ⟨p.rowAddr srcTable t l kv, d.rowAddr dstTable t l kv + off * p.step, p.step⟩

section Emission

variable {env : EnvCfg} {p d : PageGeometry} {srcTable dstTable : List ℕ} {off : ℕ}
  {b : IpcBlockBounds} {swap : Bool} (g : PageGeometry) (table : List ℕ)

theorem side_tokenStepLength :
    (g.side table).tokenStepLength = g.step := Nat.mul_div_cancel_left _ two_pos

theorem side_kernelBlkSize :
    (g.side table).kernelBlkSize = g.kernelBlkSize := rfl

/-- The offsets of a token of the round are its row's address. -/
theorem kernelBlkOff_add {g : PageGeometry} {t i : ℕ} (l : ℕ)
    (hi : i < g.kernelNtpb - t % g.kernelNtpb) :
    (g.side table).kernelBlkOff (table.getD (t / g.perLayer) 0) ⟨t / g.perLayer, t % g.kernelNtpb,
        t % g.perLayer / g.kernelNtpb * g.pack * g.kernelBlkSize⟩ l
      + (t % g.kernelNtpb + i) * g.step = g.rowAddr table (t + i) l 0 := by
  obtain ⟨hpage, hkernel, hidx⟩ := g.add_of_lt hi
  rw [rowAddr, hpage, hkernel, hidx, HybridSide.kernelBlkOff, side_kernelBlkSize]
  simp only [side]
  ring

theorem rowAddr_half (t l : ℕ) :
    g.rowAddr table t l 0 + g.kernelBlkSize / 2 = g.rowAddr table t l 1 := by
  rw [rowAddr, rowAddr]
  ring

variable {out : List IpcBlock} {wrote left : ℕ}

theorem hybridAttnToken_eq_ok {t i l : ℕ}
    (hp : i < p.kernelNtpb - t % p.kernelNtpb) (hd : i < d.kernelNtpb - t % d.kernelNtpb) :
    hybridAttnToken (p.side srcTable) (d.side dstTable) off b swap
        (srcTable.getD (t / p.perLayer) 0) (dstTable.getD (t / d.perLayer) 0)
        ⟨t / p.perLayer, t % p.kernelNtpb,
          t % p.perLayer / p.kernelNtpb * p.pack * p.kernelBlkSize⟩
        ⟨t / d.perLayer, t % d.kernelNtpb,
          t % d.perLayer / d.kernelNtpb * d.pack * d.kernelBlkSize⟩ l i = .ok out ↔
      (∀ kv < 2, ((attnRecord p d srcTable dstTable off (t + i) l kv).turned swap).FitsIn b) ∧
      out = (List.range 2).map fun kv =>
        (attnRecord p d srcTable dstTable off (t + i) l kv).turned swap := by
  have hvdst : d.rowAddr dstTable (t + i) l 0 + off * p.step + d.kernelBlkSize / 2
      = d.rowAddr dstTable (t + i) l 1 + off * p.step := by
    rw [← rowAddr_half]
    ring
  simp only [hybridAttnToken, side_tokenStepLength, side_kernelBlkSize,
    kernelBlkOff_add srcTable l hp, kernelBlkOff_add dstTable l hd, rowAddr_half, hvdst, bind_eq_ok,
    appendIpcBlockChecked_turned]
  constructor
  · rintro ⟨k, ⟨hk, rfl⟩, v, ⟨hv, rfl⟩, hout⟩
    refine ⟨fun kv hkv => ?_, (Except.ok.inj hout).symm⟩
    obtain rfl | rfl : kv = 0 ∨ kv = 1 := by omega
    · exact hk
    · exact hv
  · rintro ⟨hfit, rfl⟩
    exact ⟨_, ⟨hfit 0 two_pos, rfl⟩, _, ⟨hfit 1 one_lt_two, rfl⟩, rfl⟩

/-- **A round emits the rows of its tokens**, layer by layer. -/
theorem hybridAttnRound_eq_ok (hpack : p.pack = d.pack) {wrote tokens : ℕ}
    (hp : tokens ≤ p.kernelNtpb - wrote % p.kernelNtpb)
    (hd : tokens ≤ d.kernelNtpb - wrote % d.kernelNtpb) :
    hybridAttnRound env (p.side srcTable) (d.side dstTable) off p.pack b swap wrote tokens
        = .ok out ↔
      (wrote / p.perLayer < srcTable.length ∧ wrote / d.perLayer < dstTable.length) ∧
      (∀ l ∈ List.range p.pack, ∀ i ∈ List.range tokens, ∀ kv < 2,
        ((attnRecord p d srcTable dstTable off (wrote + i) l kv).turned swap).FitsIn b) ∧
      out = (List.range p.pack).flatMap fun l => (List.range tokens).flatMap fun i =>
        (List.range 2).map fun kv =>
          (attnRecord p d srcTable dstTable off (wrote + i) l kv).turned swap := by
  have hlayers : ∀ (g : PageGeometry) (table : List ℕ),
      (g.side table).ntpb / g.pack * g.pack = (g.side table).ntpb ∧
      (g.side table).ntpb / g.pack % (g.side table).kernelBlkNtpb = 0 := fun g table => by
    have hdiv : (g.side table).ntpb / g.pack = g.perLayer := Nat.mul_div_cancel _ g.pack_pos
    rw [hdiv]
    exact ⟨rfl, Nat.mul_mod_right _ _⟩
  have hstep : ∀ (g : PageGeometry) (table : List ℕ),
      (g.side table).tokenStepLength * 2 = (g.side table).tokenSize := fun g table => by
    rw [side_tokenStepLength, mul_comm]
    rfl
  have hpos : ∀ (g : PageGeometry) (table : List ℕ), hybridPos g.pack (g.side table).ntpb
      (g.side table).kernelBlkNtpb (g.side table).kernelBlkSize wrote = .ok ⟨wrote / g.perLayer,
        wrote % g.kernelNtpb, wrote % g.perLayer / g.kernelNtpb * g.pack * g.kernelBlkSize⟩ :=
    fun g table => g.hybridPos_eq wrote
  have hdlayers := hlayers d dstTable
  rw [← hpack] at hdlayers
  have hdpos : hybridPos p.pack (d.side dstTable).ntpb (d.side dstTable).kernelBlkNtpb
      (d.side dstTable).kernelBlkSize wrote = .ok ⟨wrote / d.perLayer, wrote % d.kernelNtpb,
        wrote % d.perLayer / d.kernelNtpb * d.pack * d.kernelBlkSize⟩ := by
    rw [hpack]
    exact hpos d dstTable
  simp only [hybridAttnRound, cassert_of (hlayers p srcTable).1, cassert_of (hlayers p srcTable).2,
    cassert_of hdlayers.1, cassert_of hdlayers.2, hpos p srcTable, hdpos, ok_bind, ite_self]
  have htables : ∀ {table : List ℕ} {g : PageGeometry}, (g.side table).blocks = table := rfl
  simp only [htables]
  by_cases hlook : wrote / p.perLayer < srcTable.length ∧ wrote / d.perLayer < dstTable.length
  · rw [cassert_of hlook, ok_bind, vecAt_of_lt hlook.1, ok_bind, vecAt_of_lt hlook.2, ok_bind,
      cassert_of (hstep p srcTable), ok_bind, cassert_of (hstep d dstTable), ok_bind]
    rw [and_iff_right hlook]
    refine emitAll_eq_ok fun l _ x => emitAll_eq_ok fun i hi y => ?_
    have hi : i < tokens := mem_range.mp hi
    exact hybridAttnToken_eq_ok (by omega) (by omega)
  · refine iff_of_false (fun h => hlook ?_) fun h => hlook h.1
    obtain ⟨-, -, h⟩ := bind_eq_ok.mp h
    obtain ⟨_, hs, h⟩ := bind_eq_ok.mp h
    obtain ⟨_, hdst, -⟩ := bind_eq_ok.mp h
    exact ⟨lt_of_vecAt_eq_ok hs, lt_of_vecAt_eq_ok hdst⟩

/-- The rows of a token range: token, layer, half. -/
def attnRows (pack wrote left : ℕ) : List (ℕ × ℕ × ℕ) :=
  (List.range' wrote left).product ((List.range pack).product (List.range 2))

theorem mem_attnRows {pack wrote left t l kv : ℕ} : (t, l, kv) ∈ attnRows pack wrote left ↔
    (wrote ≤ t ∧ t < wrote + left) ∧ l < pack ∧ kv < 2 := by
  rw [attnRows, pair_mem_product, pair_mem_product, mem_range'_1, mem_range,
    mem_range]

theorem nodup_attnRows (pack wrote left : ℕ) : (attnRows pack wrote left).Nodup :=
  List.Nodup.product nodup_range' (List.Nodup.product nodup_range nodup_range)

theorem packOf_pack : packOf g.pack = g.pack := if_neg g.pack_pos.ne'

/-- **The loop emits each row of the range once.** -/
theorem parseHybridAttnBlock_perm (hpack : p.pack = d.pack)
    (h : parseHybridAttnBlock env (p.side srcTable) (d.side dstTable) wrote left off p.pack b swap
      = .ok out) :
    out.Perm ((attnRows p.pack wrote left).map fun i =>
      (attnRecord p d srcTable dstTable off i.1 i.2.1 i.2.2).turned swap) := by
  have hrows : ((attnRows p.pack wrote left).map fun i =>
      (attnRecord p d srcTable dstTable off i.1 i.2.1 i.2.2).turned swap) =
      (List.range' wrote left).flatMap fun t => (List.range p.pack).flatMap fun l =>
        (List.range 2).map fun kv => (attnRecord p d srcTable dstTable off t l kv).turned swap := by
    simp only [attnRows, List.product, map_flatMap, map_map]
    rfl
  rw [hrows]
  rw [parseHybridAttnBlock, packOf_pack] at h
  refine walk_perm (advances_toBoundaries p.kernelNtpb_pos d.kernelNtpb_pos) le_rfl
    (fun t l x ht hl he hx => ?_) h
  obtain ⟨hp, hd⟩ := toBoundaries_le p.kernelNtpb d.kernelNtpb t l
  obtain ⟨-, -, rfl⟩ := (hybridAttnRound_eq_ok hpack hp hd).mp hx
  rw [range'_eq_map_range, flatMap_map]
  exact flatMap_comm_perm (fun l i => (List.range 2).map fun kv =>
    (attnRecord p d srcTable dstTable off (t + i) l kv).turned swap) _ _

/-- …having found each token's blocks. -/
theorem parseHybridAttnBlock_lookup (hpack : p.pack = d.pack)
    (h : parseHybridAttnBlock env (p.side srcTable) (d.side dstTable) wrote left off p.pack b swap
      = .ok out) (t : ℕ) (h1 : wrote ≤ t) (h2 : t < wrote + left) :
    t / p.perLayer < srcTable.length ∧ t / d.perLayer < dstTable.length := by
  rw [parseHybridAttnBlock, packOf_pack] at h
  refine walk_forall (Q := fun t => t / p.perLayer < srcTable.length ∧
      t / d.perLayer < dstTable.length) (advances_toBoundaries p.kernelNtpb_pos d.kernelNtpb_pos)
    le_rfl (fun u l x hu hl he hx t ht1 ht2 => ?_) h t h1 h2
  obtain ⟨hp, hd⟩ := toBoundaries_le p.kernelNtpb d.kernelNtpb u l
  obtain ⟨hlook, -⟩ := (hybridAttnRound_eq_ok hpack hp hd).mp hx
  have ht2 : t < u + toBoundaries p.kernelNtpb d.kernelNtpb u l := ht2
  obtain ⟨i, rfl⟩ := Nat.exists_eq_add_of_le ht1
  rw [(p.add_of_lt (show i < _ by omega)).1, (d.add_of_lt (show i < _ by omega)).1]
  exact hlook

/-- …and it succeeds when they are in the tables and the rows inside the caches. -/
theorem exists_parseHybridAttnBlock_ok (hpack : p.pack = d.pack)
    (hrange : ∀ t, wrote ≤ t → t < wrote + left →
      (t / p.perLayer < srcTable.length ∧ t / d.perLayer < dstTable.length) ∧
      ∀ l < p.pack, ∀ kv < 2,
        ((attnRecord p d srcTable dstTable off t l kv).turned swap).FitsIn b) :
    ∃ out, parseHybridAttnBlock env (p.side srcTable) (d.side dstTable) wrote left off p.pack b
      swap = .ok out := by
  have hadv := advances_toBoundaries p.kernelNtpb_pos d.kernelNtpb_pos
  rw [parseHybridAttnBlock, packOf_pack]
  refine exists_walk_ok hadv left wrote left fun t l ht hl he => ?_
  obtain ⟨hp, hd⟩ := toBoundaries_le p.kernelNtpb d.kernelNtpb t l
  have hsize := (hadv t l hl).2
  refine ⟨_, (hybridAttnRound_eq_ok hpack hp hd).mpr
    ⟨(hrange t ht (by omega)).1, fun l hl i hi kv hkv => ?_, rfl⟩⟩
  have hi := mem_range.mp hi
  exact (hrange (t + i) (by omega) (by omega)).2 l (mem_range.mp hl) kv hkv

end Emission

/-! ## The transfer -/

/-- A worker registered these pages for its attention layers. -/
structure HoldsPages (w : WorkerInfo) (tp rank : ℕ) (g : PageGeometry) : Prop where
  engineTpSize : w.engineTpSize = tp
  workerTpRank : w.workerTpRank = rank
  tokenSizes : w.tokenSizes = [g.tokenSize]
  blockSizes : w.blockSizes = [g.blockSize]
  attnKernelBlkNtpb : w.attnKernelBlkNtpb = g.kernelNtpb
  attnPackSize : packOf w.attnPackSize = g.pack

/-- A P > D transfer that passes the entry assertions, with distinct destination blocks. -/
structure HybridTransfer where
  env : EnvCfg
  dInst : DInstId
  pTp : ℕ
  H : ℤ
  validRanks : BitVec maxTpSize
  p : PageGeometry
  d : PageGeometry
  task : ReqSendTask
  attnGroup : ℕ
  srcTable : List ℕ
  dstTable : List ℕ
  srcInfo : ℕ → WorkerInfo
  dstInfo : ℕ → WorkerInfo
  dTp_lt : dInst.dstTpsize < pTp
  dTp_dvd : dInst.dstTpsize ∣ pTp
  pTp_le : pTp ≤ maxTpSize
  heads : HeadsAccepted pTp dInst.dstTpsize H
  validRanks_eq : computeValidRanksPd env.ndebug pTp dInst.dstTpsize H = .ok validRanks
  pack_eq : p.pack = d.pack
  width : d.step = Bitset.count validRanks / dInst.dstTpsize * p.step
  ntpb_lt : p.ntpb < 2 ^ 32 ∧ d.ntpb < 2 ^ 32
  src_holds : ∀ r < pTp, HoldsPages (srcInfo r) pTp r p
  dst_holds : ∀ x < dInst.dstTpsize, HoldsPages (dstInfo x) dInst.dstTpsize x d
  attnGroup_eq : ∀ r < pTp, ∀ x < dInst.dstTpsize,
    attnGroupOffset (srcInfo r) (dstInfo x) = attnGroup
  srcTable_eq : task.req.srcBlocks[attnGroup]? = some srcTable
  dstTable_eq : task.req.dstBlocks[attnGroup]? = some dstTable
  distinct : dstTable.Nodup

namespace HybridTransfer

variable {X : HybridTransfer}

abbrev dTp (X : HybridTransfer) : ℕ := X.dInst.dstTpsize

/-- `attn_group_n`. -/
def attnGroupN (X : HybridTransfer) : ℕ := Bitset.count X.validRanks / X.dTp

/-- `attn_group_off`. -/
def attnGroupOff (X : HybridTransfer) (r : ℕ) : ℕ := kvtTpRank X.validRanks r % X.attnGroupN

/-- The valid P ranks of D rank `x`. -/
def senders (X : HybridTransfer) (x : ℕ) : List ℕ :=
  LlumnixKv.senders X.validRanks X.pTp X.dInst x

/-- What P rank `r` emits for D rank `x`, for all its layers. -/
def parse (X : HybridTransfer) (r x : ℕ) : Except Fault (List (List IpcBlock)) :=
  vllmParseHybridBlockSendPGtD X.env (X.srcInfo r) (X.dstInfo x) X.validRanks
    (Bitset.count X.validRanks) (kvtTpRank X.validRanks r) X.task

/-- Its call of `parse_hybrid_attn_block`. -/
def attnCall (X : HybridTransfer) (r x : ℕ) : Except Fault (List IpcBlock) := do
  let bounds ← makeIpcBlockBounds X.env (X.srcInfo r) (X.dstInfo x) 0
  parseHybridAttnBlock X.env (X.p.side X.srcTable) (X.d.side X.dstTable) X.task.seenTokens
    X.task.newTokens (X.attnGroupOff r) X.p.pack bounds false

/-- The rows of the task's range. -/
def rows (X : HybridTransfer) : List (ℕ × ℕ × ℕ) :=
  attnRows X.p.pack X.task.seenTokens X.task.newTokens

/-- Byte `o` of the D row of token `t`, layer `l`, half `kv` is byte `src` of the sender's row. -/
def RowByte (X : HybridTransfer) (r t l kv o src dst : ℕ) : Prop :=
  (t, l, kv) ∈ X.rows ∧ o < X.d.step ∧ X.attnGroupOff r = o / X.p.step ∧
    src = X.p.rowAddr X.srcTable t l kv + o % X.p.step ∧
    dst = X.d.rowAddr X.dstTable t l kv + o

/-- The records write disjoint ranges. -/
def DisjointDst (a b : IpcBlock) : Prop :=
  a.dstOffset + a.length ≤ b.dstOffset ∨ b.dstOffset + b.length ≤ a.dstOffset

/-- **The senders of D rank `x` fill its rows exactly.** -/
structure Exact (X : HybridTransfer) (x : ℕ) (attn : ℕ → List IpcBlock) : Prop where
  /-- there is one sender for each slice of a row -/
  offsets : (X.senders x).map X.attnGroupOff = List.range X.attnGroupN
  /-- no byte is written twice -/
  disjoint : ((X.senders x).flatMap attn).Pairwise DisjointDst
  /-- every byte of every row is written, by the sender of its slice -/
  written : ∀ t l kv, (t, l, kv) ∈ X.rows → ∀ o < X.d.step, ∃ r ∈ X.senders x, ∃ rec ∈ attn r,
    ∃ src dst, rec.Copies src dst ∧ X.RowByte r t l kv o src dst
  /-- and nothing else is -/
  only : ∀ r ∈ X.senders x, ∀ rec ∈ attn r, ∀ src dst, rec.Copies src dst →
    ∃ t l kv o, X.RowByte r t l kv o src dst

/-- The blocks of the range are inside both caches, and bytes are copied as they are. -/
structure Covered (X : HybridTransfer) (x : ℕ) : Prop where
  fp8_off : X.env.bf162fp8Conversion = false
  src : ∀ r < X.pTp, X.p.blockSize * (X.srcInfo r).layerNumBlocks ≤ sizeMax ∧
    0 < (X.srcInfo r).layerNumBlocks ∧ ∀ t, X.task.seenTokens ≤ t → t < X.task.endTokens →
      ∃ id, X.srcTable[t / X.p.perLayer]? = some id ∧ id < (X.srcInfo r).layerNumBlocks
  dst : X.d.blockSize * (X.dstInfo x).layerNumBlocks ≤ sizeMax ∧
    0 < (X.dstInfo x).layerNumBlocks ∧ ∀ t, X.task.seenTokens ≤ t → t < X.task.endTokens →
      ∃ id, X.dstTable[t / X.d.perLayer]? = some id ∧ id < (X.dstInfo x).layerNumBlocks

/-! ### The senders -/

theorem exists_selects (X : HybridTransfer) :
    ∃ s, Selects X.pTp X.dTp X.H X.validRanks s X.attnGroupN := by
  obtain ⟨V, s, n, hV, hsel⟩ := computeValidRanksPd_selects X.env.ndebug X.dInst.dstTpsize_pos
    X.dTp_dvd X.dTp_lt.le X.pTp_le X.heads
  obtain rfl : V = X.validRanks := Except.ok.inj (hV.symm.trans X.validRanks_eq)
  have hn : X.attnGroupN = n := by
    rw [attnGroupN, hsel.count, Nat.mul_div_cancel_left _ X.dInst.dstTpsize_pos]
  exact ⟨s, hn ▸ hsel⟩

theorem map_attnGroupOff {x : ℕ} (hx : x < X.dTp) :
    (X.senders x).map X.attnGroupOff = List.range X.attnGroupN :=
  let ⟨_, h⟩ := X.exists_selects
  h.map_kvtTpRank_mod hx

theorem exists_sender {x j : ℕ} (hx : x < X.dTp) (hj : j < X.attnGroupN) :
    ∃ r ∈ X.senders x, X.attnGroupOff r = j := by
  have hmem : j ∈ (X.senders x).map X.attnGroupOff := by
    rw [map_attnGroupOff hx]
    exact mem_range.mpr hj
  exact mem_map.mp hmem

theorem attnGroupOff_lt {x r : ℕ} (hx : x < X.dTp) (hr : r ∈ X.senders x) :
    X.attnGroupOff r < X.attnGroupN := by
  rw [← mem_range, ← map_attnGroupOff hx]
  exact mem_map_of_mem hr

theorem attnGroupN_pos (X : HybridTransfer) : 0 < X.attnGroupN :=
  let ⟨_, h⟩ := X.exists_selects
  h.groups_pos

/-! ### Bytes -/

variable {r x : ℕ} {out : List IpcBlock}

theorem attnCall_eq_ok (h : X.attnCall r x = .ok out) :
    ∃ bounds, parseHybridAttnBlock X.env (X.p.side X.srcTable) (X.d.side X.dstTable)
      X.task.seenTokens X.task.newTokens (X.attnGroupOff r) X.p.pack bounds false = .ok out :=
  let ⟨bounds, _, hout⟩ := bind_eq_ok.mp h
  ⟨bounds, hout⟩

/-- The record a sender with this offset emits for a row. -/
def record (X : HybridTransfer) (off : ℕ) (i : ℕ × ℕ × ℕ) : IpcBlock :=
  attnRecord X.p X.d X.srcTable X.dstTable off i.1 i.2.1 i.2.2

theorem attnCall_perm (h : X.attnCall r x = .ok out) :
    out.Perm (X.rows.map (X.record (X.attnGroupOff r))) :=
  let ⟨_, hout⟩ := attnCall_eq_ok h
  parseHybridAttnBlock_perm X.pack_eq hout

/-- A record copies one slice of a row. -/
theorem record_copies {r t l kv src dst : ℕ} (hoff : X.attnGroupOff r < X.attnGroupN)
    (hrow : (t, l, kv) ∈ X.rows) :
    (X.record (X.attnGroupOff r) (t, l, kv)).Copies src dst ↔
      ∃ o, X.RowByte r t l kv o src dst := by
  have hwidth : X.d.step = X.attnGroupN * X.p.step := X.width
  constructor
  · rintro ⟨b, hb, rfl, rfl⟩
    have hb : b < X.p.step := hb
    refine ⟨X.attnGroupOff r * X.p.step + b, hrow, ?_, (div_digit hb).symm, ?_, ?_⟩
    · rw [hwidth]
      exact digit_lt hoff hb
    · rw [mod_digit hb]
      rfl
    · rw [← add_assoc]
      rfl
  · rintro ⟨o, -, -, hdiv, rfl, rfl⟩
    refine ⟨o % X.p.step, Nat.mod_lt o X.p.step_pos, rfl, ?_⟩
    rw [record, attnRecord, hdiv, add_assoc, Nat.div_add_mod']

/-- The cell of the D cache a record fills, in units of a sender's row. -/
def cell (X : HybridTransfer) (off : ℕ) (i : ℕ × ℕ × ℕ) : ℕ :=
  X.d.rowIndex (X.dstTable.getD (i.1 / X.d.perLayer) 0)
    (i.1 % X.d.perLayer / X.d.kernelNtpb) i.2.1 i.2.2 (i.1 % X.d.kernelNtpb) * X.attnGroupN + off

theorem record_dstOffset (off : ℕ) (i : ℕ × ℕ × ℕ) :
    (X.record off i).dstOffset = X.cell off i * X.p.step := by
  have hwidth : X.d.step = X.attnGroupN * X.p.step := X.width
  calc (X.record off i).dstOffset = X.d.rowAddr X.dstTable i.1 i.2.1 i.2.2 + off * X.p.step := rfl
    _ = X.cell off i * X.p.step := by rw [rowAddr_eq, hwidth, cell]; ring

/-- **Different slices and rows fill different cells.** -/
theorem cell_inj {off off' : ℕ} {i i' : ℕ × ℕ × ℕ} (hoff : off < X.attnGroupN)
    (hoff' : off' < X.attnGroupN) (hi : i ∈ X.rows) (hi' : i' ∈ X.rows)
    (hlook : ∀ t, X.task.seenTokens ≤ t → t < X.task.seenTokens + X.task.newTokens →
      t / X.d.perLayer < X.dstTable.length)
    (h : X.cell off i = X.cell off' i') : off = off' ∧ i = i' := by
  obtain ⟨t, l, kv⟩ := i
  obtain ⟨t', l', kv'⟩ := i'
  obtain ⟨⟨h1, h2⟩, hl, hkv⟩ := mem_attnRows.mp hi
  obtain ⟨⟨h1', h2'⟩, hl', hkv'⟩ := mem_attnRows.mp hi'
  rw [X.pack_eq] at hl hl'
  obtain ⟨hrow, rfl⟩ := digit_inj hoff hoff' h
  exact ⟨rfl, X.d.row_inj X.distinct hl hl' hkv hkv' (hlook t h1 h2) (hlook t' h1' h2') hrow⟩

theorem pairwise_disjointDst {x : ℕ} (hx : x < X.dTp) {attn : ℕ → List IpcBlock}
    (h : ∀ r ∈ X.senders x, X.attnCall r x = .ok (attn r)) :
    ((X.senders x).flatMap attn).Pairwise DisjointDst := by
  have hlook : ∀ t, X.task.seenTokens ≤ t → t < X.task.seenTokens + X.task.newTokens →
      t / X.d.perLayer < X.dstTable.length := fun t h1 h2 => by
    obtain ⟨r, hr, -⟩ := exists_sender hx X.attnGroupN_pos
    obtain ⟨_, hout⟩ := attnCall_eq_ok (h r hr)
    exact (parseHybridAttnBlock_lookup X.pack_eq hout t h1 h2).2
  -- the senders' records, indexed by slice and row
  have hperm : ((X.senders x).flatMap attn).Perm
      (((List.range X.attnGroupN).product X.rows).map fun i => X.record i.1 i.2) := by
    have hall : ((List.range X.attnGroupN).product X.rows).map (fun i => X.record i.1 i.2)
        = (X.senders x).flatMap fun r => X.rows.map (X.record (X.attnGroupOff r)) := by
      rw [← map_attnGroupOff hx]
      simp only [List.product, map_flatMap, map_map, flatMap_map]
      rfl
    rw [hall]
    exact Perm.flatMap_left _ fun r hr => attnCall_perm (h r hr)
  refine (hperm.pairwise_iff fun hab => Or.symm hab).mpr (pairwise_map.mpr ?_)
  refine (List.Nodup.product nodup_range (nodup_attnRows _ _ _)).pairwise_of_forall_ne ?_
  rintro ⟨off, i⟩ hi ⟨off', i'⟩ hi' hne
  obtain ⟨hoff, hi⟩ := pair_mem_product.mp hi
  obtain ⟨hoff', hi'⟩ := pair_mem_product.mp hi'
  have hcell : X.cell off i ≠ X.cell off' i' := fun heq => hne <| by
    obtain ⟨rfl, rfl⟩ := cell_inj (mem_range.mp hoff) (mem_range.mp hoff') hi hi' hlook heq
    rfl
  have hdisj := cells_disjoint (b := X.p.step) hcell
  rw [← record_dstOffset, ← record_dstOffset] at hdisj
  exact hdisj

/-- **Calls that succeed fill the rows exactly.** -/
theorem exact_of_ok {x : ℕ} (hx : x < X.dTp) {attn : ℕ → List IpcBlock}
    (h : ∀ r ∈ X.senders x, X.attnCall r x = .ok (attn r)) : X.Exact x attn where
  offsets := map_attnGroupOff hx
  disjoint := pairwise_disjointDst hx h
  written t l kv hrow o ho := by
    have hwidth : X.d.step = X.attnGroupN * X.p.step := X.width
    have hslice : o / X.p.step < X.attnGroupN :=
      Nat.div_lt_of_lt_mul (by rwa [mul_comm, ← hwidth])
    obtain ⟨r, hr, hoff⟩ := exists_sender hx hslice
    have hbyte : X.RowByte r t l kv o _ _ := ⟨hrow, ho, hoff, rfl, rfl⟩
    exact ⟨r, hr, X.record (X.attnGroupOff r) (t, l, kv),
      (attnCall_perm (h r hr)).mem_iff.mpr (mem_map_of_mem hrow), _, _,
      (record_copies (hoff ▸ hslice) hrow).mpr ⟨o, hbyte⟩, hbyte⟩
  only r hr rec hrec src dst hcopy := by
    obtain ⟨⟨t, l, kv⟩, hrow, rfl⟩ := mem_map.mp ((attnCall_perm (h r hr)).mem_iff.mp hrec)
    obtain ⟨o, hbyte⟩ := (record_copies (attnGroupOff_lt hx hr) hrow).mp hcopy
    exact ⟨t, l, kv, o, hbyte⟩

/-! ### The calls -/

theorem makeIpcBlockBounds_eq (hr : r < X.pTp) (hx : x < X.dTp) (hc : X.Covered x) :
    makeIpcBlockBounds X.env (X.srcInfo r) (X.dstInfo x) 0 =
      .ok ⟨X.p.blockSize * (X.srcInfo r).layerNumBlocks,
        X.d.blockSize * (X.dstInfo x).layerNumBlocks, 1, 0⟩ := by
  obtain ⟨hsle, hspos, -⟩ := hc.src r hr
  obtain ⟨hdle, hdpos, -⟩ := hc.dst
  exact makeIpcBlockBounds_of_le hc.fp8_off (by rw [(X.src_holds r hr).blockSizes]; rfl)
    (by rw [(X.dst_holds x hx).blockSizes]; rfl) hspos hdpos hsle hdle

theorem mem_senders : r ∈ X.senders x ↔
    r < X.pTp ∧ X.validRanks.getLsbD r = true ∧ r / (X.pTp / X.dTp) = x := by
  rw [senders, LlumnixKv.senders, mem_filter, mem_range,
    getDist_of_dvd X.dTp_dvd X.dTp_lt.le, Bool.and_eq_true, decide_eq_true_iff, map_singleton,
    mem_singleton, eq_comm (a := x)]

/-- The blocks of the range being inside both caches, every sender's call succeeds. -/
theorem exists_attnCall_ok (hx : x < X.dTp) (hc : X.Covered x) (hr : r ∈ X.senders x) :
    ∃ out, X.attnCall r x = .ok out := by
  have hlt := (mem_senders.mp hr).1
  have hoff := attnGroupOff_lt hx hr
  have hwidth : X.d.step = X.attnGroupN * X.p.step := X.width
  rw [attnCall, makeIpcBlockBounds_eq hlt hx hc, ok_bind]
  refine exists_parseHybridAttnBlock_ok X.pack_eq fun t h1 h2 => ?_
  obtain ⟨sid, hsid, hsN⟩ := (hc.src r hlt).2.2 t h1 h2
  obtain ⟨did, hdid, hdN⟩ := hc.dst.2.2 t h1 h2
  obtain ⟨hslen, rfl⟩ := getD_of_some hsid
  obtain ⟨hdlen, rfl⟩ := getD_of_some hdid
  refine ⟨⟨hslen, hdlen⟩, fun l hl kv hkv => ?_⟩
  have hsrc := X.p.rowAddr_add_le hsN hl hkv le_rfl
  have hslice : X.attnGroupOff r * X.p.step + X.p.step ≤ X.d.step := by
    rw [hwidth, ← Nat.succ_mul]
    exact Nat.mul_le_mul_right _ hoff
  have hdst := X.d.rowAddr_add_le hdN (X.pack_eq ▸ hl) hkv hslice
  have hcap := (hc.src r hlt).1
  have hstep : X.p.step ≤ sizeMax := by omega
  exact ⟨X.p.step_pos, one_pos, by rw [mul_one]; exact hstep,
    by rw [mul_one]; exact hsrc, by rw [← add_assoc] at hdst; exact hdst⟩

/-- **A sender's parse that returns holds the records of its attention call in one piece.** -/
theorem exists_attn_of_parse {recs : List (List IpcBlock)} (hx : x < X.dTp)
    (hr : r ∈ X.senders x) (h : X.parse r x = .ok recs) :
    ∃ before attn after, X.attnCall r x = .ok attn ∧ recs = [before ++ attn ++ after] := by
  obtain ⟨hlt, hvalid, hgroup⟩ := mem_senders.mp hr
  have hsrc := X.src_holds r hlt
  have hdst := X.dst_holds x hx
  have hd : 0 < X.dInst.dstTpsize := X.dInst.dstTpsize_pos
  have hgdn : 0 < X.pTp / X.dInst.dstTpsize := Nat.div_pos X.dTp_lt.le hd
  have hn : 0 < Bitset.count X.validRanks / X.dInst.dstTpsize := X.attnGroupN_pos
  have htoken : X.d.tokenSize = X.p.tokenSize * (Bitset.count X.validRanks / X.dInst.dstTpsize) := by
    rw [tokenSize, X.width, tokenSize]
    ring
  simp only [parse, vllmParseHybridBlockSendPGtD, hsrc.engineTpSize, hdst.engineTpSize,
    hsrc.workerTpRank, hdst.workerTpRank, hsrc.tokenSizes, hdst.tokenSizes, hsrc.blockSizes,
    hdst.blockSizes, cassert_of X.dTp_lt, checkedDiv_of_pos hd,
    cassert_of (Nat.mod_eq_zero_of_dvd X.dTp_dvd), checkedDiv_of_pos hgdn, cassert_of hgroup,
    checkedDiv_of_pos hn, length_singleton, cassert_of trivial, vecAt_singleton, cassert_of htoken,
    checkedDiv_of_pos X.p.tokenSize_pos, checkedDiv_of_pos X.d.tokenSize_pos,
    ntpb_of_blockSize X.ntpb_lt.1, ntpb_of_blockSize X.ntpb_lt.2,
    cassert_of X.p.ntpb_mul_tokenSize, cassert_of X.d.ntpb_mul_tokenSize, ok_bind] at h
  obtain ⟨bounds, hbounds, h⟩ := bind_eq_ok.mp h
  obtain ⟨out, hout, h⟩ := bind_eq_ok.mp h
  obtain ⟨srcAttn, dstAttn, before, attn, after, hs, hdt, hattn, rfl⟩ :=
    exists_attn_of_doParse (by rw [hsrc.workerTpRank]; exact hvalid) hout
  rw [X.attnGroup_eq r hlt x hx, vecAt_eq_ok] at hs hdt
  cases hs.symm.trans X.srcTable_eq
  cases hdt.symm.trans X.dstTable_eq
  rw [hsrc.attnPackSize, hsrc.attnKernelBlkNtpb, hdst.attnKernelBlkNtpb] at hattn
  refine ⟨before, attn, after, bind_eq_ok.mpr ⟨bounds, hbounds, hattn⟩, ?_⟩
  rw [← Except.ok.inj h]
  rfl

end HybridTransfer

/-- **The P > D attention transfer is byte exact.**  A sender's parse holds its attention records in
one piece; the calls succeed when the blocks of the range are inside both caches; and calls that
succeed fill the rows of the D rank exactly. -/
theorem hybridAttn_exact (X : HybridTransfer) (x : Fin X.dTp) :
    (∀ r ∈ X.senders x, ∀ recs, X.parse r x = .ok recs →
      ∃ before attn after, X.attnCall r x = .ok attn ∧ recs = [before ++ attn ++ after]) ∧
    (X.Covered x → ∀ r ∈ X.senders x, ∃ attn, X.attnCall r x = .ok attn) ∧
    (∀ attn : ℕ → List IpcBlock, (∀ r ∈ X.senders x, X.attnCall r x = .ok (attn r)) →
      X.Exact x attn) :=
  ⟨fun _ hr _ h => HybridTransfer.exists_attn_of_parse x.isLt hr h,
    fun hc _ hr => HybridTransfer.exists_attnCall_ok x.isLt hc hr,
    fun _ h => HybridTransfer.exact_of_ok x.isLt h⟩

/-- Two P ranks, one D rank with pages twice as large, two layers to a page, two tokens. -/
def packedPair : HybridTransfer where
  env := {}
  dInst := ⟨"d", 0, 1, by decide⟩
  pTp := 2
  H := 2
  validRanks := 3
  p := ⟨2, 1, 1, 1, by decide, by decide, by decide, by decide⟩
  d := ⟨2, 2, 1, 2, by decide, by decide, by decide, by decide⟩
  task := ⟨⟨0, "req", [[0, 1]], [[0]]⟩, 0, 2, false, by decide⟩
  attnGroup := 0
  srcTable := [0, 1]
  dstTable := [0]
  srcInfo r := { engineTpSize := 2, workerTpRank := r, tokenSizes := [2], blockSizes := [4],
                 layerNumBlocks := 2, numGdnLayers := 0, attnKernelBlkNtpb := 1, attnPackSize := 2 }
  dstInfo x := { engineTpSize := 1, workerTpRank := x, tokenSizes := [4], blockSizes := [16],
                 layerNumBlocks := 1, attnKernelBlkNtpb := 1, attnPackSize := 2 }
  dTp_lt := by decide
  dTp_dvd := by decide
  pTp_le := by decide
  heads := .inr (.inl (by decide))
  validRanks_eq := by decide
  pack_eq := rfl
  width := by decide
  ntpb_lt := by decide
  src_holds _ _ := ⟨rfl, rfl, rfl, rfl, rfl, rfl⟩
  dst_holds _ _ := ⟨rfl, rfl, rfl, rfl, rfl, rfl⟩
  attnGroup_eq _ _ _ _ := rfl
  srcTable_eq := rfl
  dstTable_eq := rfl
  distinct := by decide

theorem packedPair_covered : packedPair.Covered 0 where
  fp8_off := rfl
  src r _ := ⟨by decide +revert, two_pos, fun t _ ht => by
    obtain rfl | rfl : t = 0 ∨ t = 1 := by
      have : t < 2 := ht
      omega
    · exact ⟨0, rfl, two_pos⟩
    · exact ⟨1, rfl, one_lt_two⟩⟩
  dst := ⟨by decide, one_pos, fun t _ ht => by
    obtain rfl | rfl : t = 0 ∨ t = 1 := by
      have : t < 2 := ht
      omega
    · exact ⟨0, rfl, one_pos⟩
    · exact ⟨0, rfl, one_pos⟩⟩

/-- Its two senders fill the rows of both tokens. -/
theorem packedPair_exact : ∃ attn : ℕ → List IpcBlock,
    (∀ r ∈ packedPair.senders 0, packedPair.attnCall r 0 = .ok (attn r)) ∧
      packedPair.Exact 0 attn := by
  obtain ⟨-, hok, hexact⟩ := hybridAttn_exact packedPair ⟨0, by decide⟩
  choose! attn hattn using hok packedPair_covered
  exact ⟨attn, hattn, hexact attn hattn⟩

end LlumnixKv
