import LlumnixKv.Parse.SlicedHnd

/-!
# Parse/HeadSections — the bytes of a page half that go with a token

    half with `heads` sections        o = (head · ntpb + token) · head_dim + byte
    the token of a byte               o / head_dim % ntpb

FLASHINFER copies a run of tokens head by head, and finds the size of a head by dividing the row by the
head count it was given.  Read byte by byte (`mem_groupBytes`), that count decides one thing only: which
token each byte of a page half belongs to.
-/

open List Machinery

namespace LlumnixKv

open Radix

open HndGeometry

/-! ## The loop of FLASHINFER -/

variable (g : HndGeometry)

/-- The pages of a D rank that merges the heads of `G` senders. -/
def HndGeometry.widen (G : ℕ) (hG : 0 < G) : HndGeometry :=
  { g with heads := G * g.heads, heads_pos := mul_pos hG g.heads_pos }

theorem toBoundaries_self (b : ℕ) : toBoundaries b b = toBoundary b := by
  funext pos left
  unfold toBoundaries toBoundary
  omega

section Loop

variable {env : EnvCfg} {g : HndGeometry} {G : ℕ} {hG : 0 < G} {srcTable dstTable : List ℕ}
  {off : ℕ} {b : IpcBlockBounds} {swap : Bool}

/-- **With pages of equally many tokens the hybrid loop does the same**, asserts being off. -/
theorem parseFlashinferHNDBlock_eq (hrelease : env.ndebug = true) (hlt : g.heads < 2 ^ 64)
    (wrote left : ℕ) :
    parseFlashinferHNDBlock env g.tokenSize g.blockSize (g.widen G hG).blockSize g.ntpb srcTable
        dstTable wrote left G off g.heads b swap =
      parseHybridFlashinferHNDBlock env (g.side srcTable) ((g.widen G hG).side dstTable) wrote left G
        off g.heads b swap := by
  have hdim : headDimOf env g.tokenSize g.heads = .ok g.headDim := headDimOf_side srcTable hlt
  have hbody : hybridHndRound env (g.side srcTable) ((g.widen G hG).side dstTable) g.headDim
      (off * (g.heads * (g.ntpb * g.headDim))) g.heads b swap = (fun wrote tokens => do
        let blockIdx ← checkedDiv wrote g.ntpb
        let srcBlock ← vecAt srcTable blockIdx
        let dstBlock ← vecAt dstTable blockIdx
        hndHeads ⟨srcBlock * g.blockSize, g.ntpb * g.headDim, g.blockSize / 2, wrote % g.ntpb⟩
          ⟨dstBlock * (g.widen G hG).blockSize, g.ntpb * g.headDim, (g.widen G hG).blockSize / 2,
            wrote % g.ntpb⟩ g.headDim (off * (g.heads * (g.ntpb * g.headDim)))
          (tokens * g.headDim) g.heads b swap) := by
    funext wrote tokens
    have hpos : ∀ size, hybridPos 1 g.ntpb g.ntpb size wrote
        = .ok ⟨wrote / g.ntpb, wrote % g.ntpb, 0⟩ := fun size => hybridPos_one g.ntpb_pos size wrote
    simp only [hybridHndRound, cassert_release hrelease]
    simp only [side, widen, hpos, ok_bind, checkedDiv_of_pos g.ntpb_pos, HybridSide.kernelBlkOff,
      HybridSide.kernelBlkSize, blockSize, zero_mul, add_zero]
  have hntpb : (g.widen G hG).ntpb = g.ntpb := rfl
  rw [parseHybridFlashinferHNDBlock_eq (n := g) (w := g.widen G hG) rfl rfl hlt, hntpb, hbody,
    toBoundaries_self]
  simp only [parseFlashinferHNDBlock, hdim, ok_bind, toSize_of_lt hlt, cassert_release hrelease]

end Loop

/-! ## Bytes of a half -/

/-- The bytes of a page half on P. -/
def HndGeometry.half : ℕ := g.heads * g.ntpb * g.headDim

/-- The token a byte of a half belongs to. -/
def HndGeometry.tokenOf (o : ℕ) : ℕ := o / g.headDim % g.ntpb

/-- Byte `o` of half `kv` of the `i`-th page of the tables: its place on P, and its place in slice
`off` of `G` on D. -/
def halfByte (h G : ℕ) (srcTable dstTable : List ℕ) (off i kv o : ℕ) : ℕ × ℕ :=
  ((srcTable.getD i 0 * 2 + kv) * h + o, ((dstTable.getD i 0 * 2 + kv) * G + off) * h + o)

/-- The copies of a range of tokens of every head, a sender's heads being those of slice `off`. -/
def groupBytes (G : ℕ) (hG : 0 < G) (srcTable dstTable : List ℕ) (off wrote left : ℕ) :
    List (ℕ × ℕ) :=
  (List.range' wrote left).flatMap fun t => (List.range 2).flatMap fun kv =>
    (List.range g.heads).flatMap fun j =>
      (hndRecord g (g.widen G hG) srcTable dstTable off 1 t j kv).bytes

section Bytes

variable {g : HndGeometry} {G : ℕ} {hG : 0 < G} {srcTable dstTable : List ℕ} {off wrote left : ℕ}

theorem HndGeometry.headAddr_add_byte (g : HndGeometry) (table : List ℕ) (t kv j b : ℕ) :
    g.headAddr table t kv j + b =
      (table.getD (t / g.ntpb) 0 * 2 + kv) * g.half + ((j * g.ntpb + t % g.ntpb) * g.headDim + b) := by
  rw [headAddr_eq, headIndex, half]
  ring

/-- A byte of a head is a byte of the half. -/
theorem headAddr_eq_halfByte (t kv j b : ℕ) :
    (g.headAddr srcTable t kv j + b, (g.widen G hG).headAddr dstTable t kv (off * g.heads + j) + b) =
      halfByte g.half G srcTable dstTable off (t / g.ntpb) kv
        ((j * g.ntpb + t % g.ntpb) * g.headDim + b) := by
  refine Prod.ext (g.headAddr_add_byte srcTable t kv j b) ?_
  simp only [headAddr_eq, headIndex, halfByte, half, widen]
  ring

/-- **The copies of a range are the bytes whose token is in it.** -/
theorem mem_groupBytes {byte : ℕ × ℕ} :
    byte ∈ groupBytes g G hG srcTable dstTable off wrote left ↔
      ∃ i kv o, kv < 2 ∧ o < g.half ∧ wrote ≤ i * g.ntpb + g.tokenOf o ∧
        i * g.ntpb + g.tokenOf o < wrote + left ∧
        byte = halfByte g.half G srcTable dstTable off i kv o := by
  simp only [groupBytes, IpcBlock.bytes, hndRecord, one_mul, mem_flatMap, mem_map,
    mem_range, mem_range'_1, headAddr_eq_halfByte]
  constructor
  · rintro ⟨t, ⟨h1, h2⟩, kv, hkv, j, hj, b, hb, rfl⟩
    have hmod := Nat.mod_lt t g.ntpb_pos
    have hsection : j * g.ntpb + t % g.ntpb < g.heads * g.ntpb := digit_lt hj hmod
    have htoken : g.tokenOf ((j * g.ntpb + t % g.ntpb) * g.headDim + b) = t % g.ntpb := by
      rw [tokenOf, div_digit hb, mod_digit hmod]
    refine ⟨t / g.ntpb, kv, (j * g.ntpb + t % g.ntpb) * g.headDim + b, hkv,
      digit_lt hsection hb, ?_, ?_, rfl⟩
    · rwa [htoken, Nat.div_add_mod']
    · rwa [htoken, Nat.div_add_mod']
  · rintro ⟨i, kv, o, hkv, ho, h1, h2, rfl⟩
    obtain ⟨q, hq, b, hb, rfl⟩ := exists_digit ho
    obtain ⟨j, hj, s, hs, rfl⟩ := exists_digit hq
    rw [tokenOf, div_digit hb, mod_digit hs] at h1 h2
    refine ⟨i * g.ntpb + s, ⟨h1, h2⟩, kv, hkv, j, hj, b, hb, ?_⟩
    rw [div_digit hs, mod_digit hs]

/-- With distinct blocks a place on D is that of one byte. -/
theorem halfByte_inj (hdistinct : dstTable.Nodup) {h i kv o i' kv' o' : ℕ} (hoff : off < G)
    (hi : i < dstTable.length) (hi' : i' < dstTable.length) (hkv : kv < 2) (hkv' : kv' < 2)
    (ho : o < h) (ho' : o' < h) (heq : halfByte h G srcTable dstTable off i kv o
      = halfByte h G srcTable dstTable off i' kv' o') : i = i' ∧ kv = kv' ∧ o = o' := by
  obtain ⟨hslice, rfl⟩ := digit_inj ho ho' (Prod.ext_iff.mp heq).2
  obtain ⟨hhalf, -⟩ := digit_inj hoff hoff hslice
  obtain ⟨hblock, rfl⟩ := digit_inj hkv hkv' hhalf
  exact ⟨getD_inj hdistinct hi hi' hblock, rfl, rfl⟩

theorem length_groupBytes : (groupBytes g G hG srcTable dstTable off wrote left).length =
    left * (2 * (g.heads * g.headDim)) := by
  simp only [groupBytes, IpcBlock.bytes, hndRecord, one_mul, length_flatMap, length_map,
    length_range, map_const', sum_replicate_nat, length_range']

/-- …and each copy is made once. -/
theorem nodup_groupBytes (hdistinct : dstTable.Nodup) (hoff : off < G)
    (hlook : ∀ t, wrote ≤ t → t < wrote + left → t / g.ntpb < dstTable.length) :
    (groupBytes g G hG srcTable dstTable off wrote left).Nodup := by
  have hmap : groupBytes g G hG srcTable dstTable off wrote left =
      ((List.range' wrote left).product ((List.range 2).product
        ((List.range g.heads).product (List.range g.headDim)))).map fun c =>
          halfByte g.half G srcTable dstTable off (c.1 / g.ntpb) c.2.1
            ((c.2.2.1 * g.ntpb + c.1 % g.ntpb) * g.headDim + c.2.2.2) := by
    simp only [groupBytes, IpcBlock.bytes, hndRecord, one_mul, headAddr_eq_halfByte, List.product,
      map_flatMap, map_map]
    rfl
  rw [hmap]
  refine Nodup.map_on ?_ (List.Nodup.product nodup_range' (nodup_range.product
    (nodup_range.product nodup_range)))
  rintro ⟨t, kv, j, b⟩ hc ⟨t', kv', j', b'⟩ hc' heq
  simp only [pair_mem_product, mem_range, mem_range'_1] at hc hc'
  obtain ⟨⟨h1, h2⟩, hkv, hj, hb⟩ := hc
  obtain ⟨⟨h1', h2'⟩, hkv', hj', hb'⟩ := hc'
  have hlt : ∀ u j b : ℕ, j < g.heads → b < g.headDim →
      (j * g.ntpb + u % g.ntpb) * g.headDim + b < g.half := fun u j b hj hb =>
    digit_lt (digit_lt hj (Nat.mod_lt u g.ntpb_pos)) hb
  obtain ⟨hpage, rfl, ho⟩ := halfByte_inj hdistinct hoff (hlook t h1 h2) (hlook t' h1' h2') hkv hkv'
    (hlt t j b hj hb) (hlt t' j' b' hj' hb') heq
  obtain ⟨hrow, rfl⟩ := digit_inj hb hb' ho
  obtain ⟨rfl, hslot⟩ := digit_inj (Nat.mod_lt t g.ntpb_pos) (Nat.mod_lt t' g.ntpb_pos) hrow
  obtain rfl : t = t' := by rw [← Nat.div_add_mod' t g.ntpb, hpage, hslot, Nat.div_add_mod']
  rfl

end Bytes

/-! ## What the loop copies -/

/-- **The loop copies the range of every head**, the blocks of the range being in both caches. -/
theorem parseFlashinferHNDBlock_spec {env : EnvCfg} {g : HndGeometry} {G : ℕ} (hG : 0 < G)
    {srcTable dstTable : List ℕ} {off wrote left N M : ℕ} {b : IpcBlockBounds}
    (hrelease : env.ndebug = true) (hlt : g.heads < 2 ^ 64) (hoff : off < G)
    (hb : b.Admits (g.blockSize * N) ((g.widen G hG).blockSize * M))
    (hrange : ∀ t, wrote ≤ t → t < wrote + left →
      (t / g.ntpb < srcTable.length ∧ srcTable.getD (t / g.ntpb) 0 < N) ∧
      t / g.ntpb < dstTable.length ∧ dstTable.getD (t / g.ntpb) 0 < M) :
    ∃ out, parseFlashinferHNDBlock env g.tokenSize g.blockSize (g.widen G hG).blockSize g.ntpb srcTable
        dstTable wrote left G off g.heads b false = .ok out ∧
      (out.flatMap IpcBlock.bytes).Perm (groupBytes g G hG srcTable dstTable off wrote left) := by
  rw [parseFlashinferHNDBlock_eq hrelease hlt]
  have hheads : (g.widen G hG).heads = G * g.heads := rfl
  have hdim : (g.widen G hG).headDim = g.headDim := rfl
  obtain ⟨out, hout⟩ : ∃ out, parseHybridFlashinferHNDBlock env (g.side srcTable)
      ((g.widen G hG).side dstTable) wrote left G off g.heads b false = .ok out :=
    exists_parseHybridFlashinferHNDBlock_ok hdim hheads hlt fun t h1 h2 => by
      obtain ⟨⟨hslen, hsN⟩, hdlen, hdM⟩ := hrange t h1 h2
      exact ⟨⟨hslen, hdlen⟩, fun tokens hpos hst hdt j hj kv hkv =>
        hb.fits (hndRecord_within hdim hsN hdM hpos hst hdt hj (digit_lt hoff hj) hkv)⟩
  exact ⟨out, hout, parseHybridFlashinferHNDBlock_bytes hdim hheads hlt hout⟩

/-! ## A head count that does not divide the row -/

section Count

variable {env : EnvCfg} {tokenSize pBlockSize dBlockSize ntpb wrote left G off heads : ℕ}
  {srcTable dstTable : List ℕ} {b : IpcBlockBounds} {swap : Bool} {out : List IpcBlock}

theorem headDimOf_release (hrelease : env.ndebug = true) (hheads : 0 < heads)
    (hlt : heads < 2 ^ 64) : headDimOf env tokenSize heads = .ok (tokenSize / 2 / heads) := by
  simp only [headDimOf, cassert_release hrelease, ok_bind, toSize_of_lt hlt,
    checkedDiv_of_pos hheads]

theorem parseFlashinferHNDBlock_zero (hrelease : env.ndebug = true) (hheads : 0 < heads)
    (hlt : heads < 2 ^ 64) :
    parseFlashinferHNDBlock env tokenSize pBlockSize dBlockSize ntpb srcTable dstTable wrote 0 G off
      heads b swap = .ok [] := by
  simp only [parseFlashinferHNDBlock, headDimOf_release hrelease hheads hlt,
    cassert_release hrelease, ok_bind, walk_zero]

theorem length_hndHeads {p d : HndRun} {headDim groupOff length : ℕ}
    (h : hndHeads p d headDim groupOff length heads b swap = .ok out) :
    (out.flatMap IpcBlock.bytes).length = heads * (2 * length) := by
  have hout : ∃ f : ℕ → List IpcBlock, out = (List.range heads).flatMap f ∧
      ∀ j, (f j).map IpcBlock.length = [length, length] := by
    refine ⟨fun j => [IpcBlock.turned swap ⟨p.kOff headDim j, d.kOff headDim j + groupOff, length⟩,
      IpcBlock.turned swap ⟨p.kOff headDim j + p.kvSectionSize,
        d.kOff headDim j + groupOff + d.kvSectionSize, length⟩], ?_, fun j => by cases swap <;> rfl⟩
    rw [hndHeads, Int.toNat_natCast] at h
    refine emitAll_eq_of_ok (fun j _ x hx => ?_) h
    obtain ⟨k, hk, hx⟩ := bind_eq_ok.mp hx
    obtain ⟨v, hv, hx⟩ := bind_eq_ok.mp hx
    obtain ⟨-, rfl⟩ := appendIpcBlockChecked_turned.mp hk
    obtain ⟨-, rfl⟩ := appendIpcBlockChecked_turned.mp hv
    exact (Except.ok.inj hx).symm
  obtain ⟨f, rfl, hf⟩ := hout
  have hround : ∀ j, ((f j).flatMap IpcBlock.bytes).length = 2 * length := fun j => by
    have hbytes : (f j).map (fun rec => rec.bytes.length) = [length, length] := by
      rw [← hf j]
      exact map_congr_left fun rec _ => by rw [IpcBlock.bytes, length_map, length_range]
    rw [length_flatMap, hbytes]
    exact (Nat.two_mul length).symm
  simp only [flatMap_assoc, length_flatMap, hround, map_const', sum_replicate_nat,
    length_range]

/-- **The copies of a run that returns**: two for each head, of the head size the division gave. -/
theorem length_parseFlashinferHNDBlock (hrelease : env.ndebug = true) (hntpb : 0 < ntpb)
    (hheads : 0 < heads) (hlt : heads < 2 ^ 64)
    (h : parseFlashinferHNDBlock env tokenSize pBlockSize dBlockSize ntpb srcTable dstTable wrote left
      G off heads b swap = .ok out) :
    (out.flatMap IpcBlock.bytes).length = left * (2 * (heads * (tokenSize / 2 / heads))) := by
  simp only [parseFlashinferHNDBlock, headDimOf_release hrelease hheads hlt,
    cassert_release hrelease, ok_bind] at h
  have hunits : ∀ l l' : List Unit, l.length = l'.length → l.Perm l' := fun l l' hlen =>
    Perm.of_eq (ext_getElem hlen fun _ _ _ => rfl)
  have hperm := walk_flatMap_perm (f := fun rec : IpcBlock => rec.bytes.map fun _ => ())
    (g := fun _ => List.replicate (2 * (heads * (tokenSize / 2 / heads))) ())
    (advances_toBoundary hntpb) le_rfl (fun p l x _ _ _ hx => hunits _ _ ?_) h
  · have hlen := hperm.length_eq
    simp only [length_flatMap, length_replicate, map_const', sum_replicate_nat,
      length_range'] at hlen ⊢
    exact hlen
  · obtain ⟨_, -, hx⟩ := bind_eq_ok.mp hx
    obtain ⟨_, -, hx⟩ := bind_eq_ok.mp hx
    obtain ⟨_, -, hx⟩ := bind_eq_ok.mp hx
    have hlen := length_hndHeads hx
    simp only [length_flatMap, length_replicate, map_const', sum_replicate_nat,
      length_range'] at hlen ⊢
    rw [hlen]
    ring

end Count

end LlumnixKv
