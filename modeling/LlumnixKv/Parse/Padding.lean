import LlumnixKv.Parse.SlicedHnd

/-!
# Parse/Padding — what the tail of the last block is filled with

    src_blocks[0]     [ K row of token 0 | … ]
                        ╲          ╲
    D blocks          [ t₀ t₁ … | unused slots ]

When a request is complete the slots of the D blocks beyond its tokens are filled from the start of
request block 0, "which contains only zeros".  The token loops of the same functions take that block
to hold the first tokens of the request: its first bytes are the K row of token 0.  So a fill that
emits anything copies a computed token's K, and the tail is clear exactly where there is none
(`tailFill_clears_iff`).
-/

open List Machinery

namespace LlumnixKv

/-! ## Fill records -/

/-- Fill records: there are some, and each reads from `zeroSrcOff` on. -/
structure FillRecords (zeroSrcOff : ℕ) (out : List IpcBlock) : Prop where
  nonempty : out ≠ []
  reads : ∀ rec ∈ out, rec.srcOffset = zeroSrcOff ∧ 0 < rec.length

/-- The bytes of D a record writes. -/
def IpcBlock.dstBytes (rec : IpcBlock) : List ℕ := List.range' rec.dstOffset rec.length

/-- Records of at most `maxSeg` bytes, read from `zeroSrcOff` on, that write these bytes of D once
each. -/
abbrev Fills (zeroSrcOff maxSeg : ℕ) : List IpcBlock → List ℕ → Prop :=
  Emits (fun rec => rec.srcOffset = zeroSrcOff ∧ 0 < rec.length ∧ rec.length ≤ maxSeg)
    IpcBlock.dstBytes

section Segments

variable {env : EnvCfg} {z len maxSeg : ℕ} {b : IpcBlockBounds} {out : List IpcBlock}

/-- `emit_zero_fill_segments` fills its span. -/
theorem fills_emitZeroFillSegments {dstOff : ℕ} (hseg : 0 < maxSeg)
    (h : emitZeroFillSegments env z dstOff len maxSeg b = .ok out) :
    Fills z maxSeg out (List.range' dstOff len) := by
  replace h := after_check h
  have hadv : Advances fun _ left => min maxSeg left := fun _ left hl =>
    ⟨lt_min hseg hl, min_le_right _ _⟩
  have hspan : Fills z maxSeg out ((List.range' 0 len).flatMap fun o => [dstOff + o]) :=
    Emits.of_walk hadv le_rfl (fun pos left x _ hl _ hx => ?_) h
  · rwa [← map_eq_flatMap, map_add_range'] at hspan
  · obtain ⟨hfit, rfl⟩ := appendIpcBlockChecked_eq_ok.mp hx
    refine ⟨fun rec hrec => ?_, ?_⟩
    · rw [mem_singleton.mp hrec]
      exact ⟨rfl, hfit.len_pos, min_le_left _ _⟩
    · rw [← map_eq_flatMap, map_add_range', flatMap_singleton]
      exact List.Perm.refl _

/-- A K span and a V span. -/
theorem fills_halves (env : EnvCfg) {f : ℕ → ℕ} (hseg : 0 < maxSeg)
    (h : (do
      let k ← emitZeroFillSegments env z (f 0) len maxSeg b
      let v ← emitZeroFillSegments env z (f 1) len maxSeg b
      return k ++ v) = .ok out) :
    Fills z maxSeg out ((List.range 2).flatMap fun kv => List.range' (f kv) len) := by
  obtain ⟨k, hk, h⟩ := bind_eq_ok.mp h
  obtain ⟨v, hv, h⟩ := bind_eq_ok.mp h
  rw [← Except.ok.inj h, ← append_nil v]
  exact (fills_emitZeroFillSegments hseg hk).append
    ((fills_emitZeroFillSegments hseg hv).append Emits.nil)

end Segments

/-! ## The four routines

Each of them fills the slots from the request's end to `stop`, if there are any. -/

/-- What a fill routine does: what it reads is the start of request block 0. -/
def TailFill (srcTable : List ℕ) (pBlockSize total stop : ℕ) (slotBytes : ℕ → List ℕ)
    (out : List IpcBlock) : Prop :=
  (stop ≤ total ∧ out = []) ∨ (total < stop ∧ 0 < srcTable.length ∧
    Fills (srcTable.getD 0 0 * pBlockSize) pBlockSize out
      ((List.range' total (stop - total)).flatMap slotBytes))

/-- Where the block of the last of `total` tokens ends. -/
def lastEnd (ntpb total : ℕ) : ℕ :=
  if total % ntpb = 0 then total else total + (ntpb - total % ntpb)

/-- What a fill routine does, `noSlot` saying that there is nothing to fill: what it reads is the start
of request block 0. -/
def FillsOrNot (noSlot : Prop) (srcTable : List ℕ) (pBlockSize : ℕ) (out : List IpcBlock) : Prop :=
  (noSlot ∧ out = []) ∨
    (¬noSlot ∧ 0 < srcTable.length ∧ FillRecords (srcTable.getD 0 0 * pBlockSize) out)

variable {out : List IpcBlock} {srcTable : List ℕ}

theorem Fills.fillRecords {z maxSeg : ℕ} {bytes : List ℕ} {a : ℕ} (h : Fills z maxSeg out bytes)
    (ha : a ∈ bytes) : FillRecords z out where
  nonempty hnil := by
    rw [← h.perm.mem_iff, hnil] at ha
    cases ha
  reads rec hrec :=
    let ⟨hsrc, hpos, _⟩ := h.all rec hrec
    ⟨hsrc, hpos⟩

/-- …in terms of whether there is anything to fill. -/
theorem TailFill.fillsOrNot {pBlockSize total stop a : ℕ} {slotBytes : ℕ → List ℕ}
    (h : TailFill srcTable pBlockSize total stop slotBytes out) (ha : a ∈ slotBytes total) :
    FillsOrNot (stop ≤ total) srcTable pBlockSize out := by
  rcases h with h | ⟨hlt, htable, hfill⟩
  · exact .inl h
  · exact .inr ⟨not_le.mpr hlt, htable, hfill.fillRecords
      (mem_flatMap.mpr ⟨total, mem_range'_1.mpr ⟨le_rfl, by omega⟩, ha⟩)⟩

theorem lastEnd_le_iff {ntpb total : ℕ} (hntpb : 0 < ntpb) :
    lastEnd ntpb total ≤ total ↔ total % ntpb = 0 := by
  have := Nat.mod_lt total hntpb
  unfold lastEnd
  split <;> omega

section Routines

variable {env : EnvCfg} {srcTable dstTable : List ℕ} {total off : ℕ} {b : IpcBlockBounds}
  {out : List IpcBlock}

theorem zeroBlock_eq {v : ℕ} (h : vecAt srcTable 0 = .ok v) :
    0 < srcTable.length ∧ srcTable.getD 0 0 = v :=
  getD_of_some (vecAt_eq_ok.mp h)

section TokenMajor

variable {p d : PageGeometry}

open PageGeometry

variable (g : PageGeometry)

theorem blockSize_pos : 0 < g.blockSize :=
  mul_pos (mul_pos two_pos g.step_pos) (mul_pos g.perLayer_pos g.pack_pos)

/-- Both branches of the code compute the tokens of a layer. -/
theorem perLayer_eq (table : List ℕ) :
    (if packOf g.pack = 1 then (g.side table).ntpb else (g.side table).ntpb / packOf g.pack)
      = g.perLayer := by
  have hntpb : (g.side table).ntpb = g.perLayer * g.pack := rfl
  rw [packOf_pack, hntpb]
  split_ifs with h
  · rw [h, mul_one]
  · exact Nat.mul_div_cancel _ g.pack_pos

/-- The bytes of slot `t`: `len` bytes from `base` on of each of its rows. -/
def PageGeometry.slotBytes (table : List ℕ) (base len t : ℕ) : List ℕ :=
  (List.range g.pack).flatMap fun l => (List.range 2).flatMap fun kv =>
    List.range' (g.rowAddr table t l kv + base) len

theorem PageGeometry.first_mem_slotBytes {table : List ℕ} {base len t : ℕ} (hlen : 0 < len) :
    g.rowAddr table t 0 0 + base ∈ g.slotBytes table base len t := by
  simp only [slotBytes, mem_flatMap, mem_range, mem_range'_1]
  exact ⟨0, g.pack_pos, 0, two_pos, le_rfl, Nat.lt_add_of_pos_right hlen⟩

/-- The zeros of a slot of layer `sub`. -/
theorem fills_zeroFillToken {zeroBlock t sub idx : ℕ}
    (hidx : idx < d.kernelNtpb - t % d.kernelNtpb)
    (h : zeroFillToken env (p.side srcTable) (d.side dstTable) off b (zeroBlock * p.blockSize)
      (dstTable.getD (t / d.perLayer) 0) ⟨t / d.perLayer, t % d.kernelNtpb,
        t % d.perLayer / d.kernelNtpb * d.pack * d.kernelBlkSize⟩ sub idx = .ok out) :
    Fills (zeroBlock * p.blockSize) p.blockSize out ((List.range 2).flatMap fun kv =>
      List.range' (d.rowAddr dstTable (t + idx) sub kv + off * p.step) p.step) := by
  have hv : d.rowAddr dstTable (t + idx) sub 0 + off * p.step + d.kernelBlkSize / 2
      = d.rowAddr dstTable (t + idx) sub 1 + off * p.step := by
    rw [← rowAddr_half, add_right_comm]
  simp only [zeroFillToken, side_tokenStepLength, side_kernelBlkSize,
    kernelBlkOff_add dstTable sub hidx, hv] at h
  exact fills_halves env (f := fun kv => d.rowAddr dstTable (t + idx) sub kv + off * p.step)
    (blockSize_pos p) h

/-- **The P > D fill fills the sender's share of the slots up to the end of the last block.** -/
theorem fillLastHybridAttnBlock_fills
    (h : fillLastHybridAttnBlock env (p.side srcTable) (d.side dstTable) total off d.pack b
      = .ok out) :
    TailFill srcTable p.blockSize total (lastEnd d.perLayer total)
      (d.slotBytes dstTable (off * p.step) p.step) out := by
  rcases Nat.eq_zero_or_pos total with rfl | htotal
  · exact .inl ⟨(if_pos (Nat.zero_mod _)).le, (Except.ok.inj h).symm⟩
  simp only [fillLastHybridAttnBlock, if_neg htotal.ne', perLayer_eq d dstTable] at h
  replace h := after_check h
  replace h := after_check h
  replace h := after_check h
  split_ifs at h with hfull
  · exact .inl ⟨(if_pos hfull).le, (Except.ok.inj h).symm⟩
  have hlt := Nat.mod_lt total d.perLayer_pos
  rw [lastEnd, if_neg hfull]
  replace h := after_check h
  replace h := after_check h
  obtain ⟨block0, hblock0, h⟩ := bind_eq_ok.mp h
  obtain ⟨htable, rfl⟩ := zeroBlock_eq hblock0
  refine .inr ⟨by omega, htable, ?_⟩
  have hadv : Advances fun srcPos left => min ((p.side srcTable).kernelBlkNtpb
      - srcPos % (p.side srcTable).kernelBlkNtpb) (min ((d.side dstTable).kernelBlkNtpb
        - (total + srcPos) % (d.side dstTable).kernelBlkNtpb) left) := fun srcPos left hl => by
    have := Nat.mod_lt srcPos p.kernelNtpb_pos
    have := Nat.mod_lt (total + srcPos) d.kernelNtpb_pos
    simp only [side]
    omega
  have hwalk : Fills (srcTable.getD 0 0 * p.blockSize) p.blockSize out
      ((List.range' 0 (d.perLayer - total % d.perLayer)).flatMap fun srcPos =>
        d.slotBytes dstTable (off * p.step) p.step (total + srcPos)) :=
    Emits.of_walk hadv le_rfl (fun srcPos left x _ hl _ hx => ?_) h
  · rwa [Nat.add_sub_cancel_left, ← add_zero total, ← map_add_range', flatMap_map,
      add_zero]
  obtain ⟨_, -, hx⟩ := bind_eq_ok.mp hx
  obtain ⟨dPos, hdPos, hx⟩ := bind_eq_ok.mp hx
  replace hx := after_check hx
  replace hx := after_check hx
  obtain ⟨dBlock, hdBlock, hx⟩ := bind_eq_ok.mp hx
  rw [packOf_pack] at hdPos hx
  cases (d.hybridPos_eq (total + srcPos)).symm.trans hdPos
  obtain ⟨-, rfl⟩ := getD_of_some (vecAt_eq_ok.mp hdBlock)
  have htokens : ∀ {i}, i < min (p.kernelNtpb - srcPos % p.kernelNtpb)
      (min (d.kernelNtpb - (total + srcPos) % d.kernelNtpb) left) →
      i < d.kernelNtpb - (total + srcPos) % d.kernelNtpb := fun hi => by omega
  have hround := Emits.of_emitAll (fun sub _ y hy => Emits.of_emitAll (fun idx hidx w hw =>
    fills_zeroFillToken (htokens (mem_range.mp hidx)) hw) hy) hx
  refine ⟨hround.all, hround.perm.trans ?_⟩
  rw [range'_eq_map_range, flatMap_map]
  simp only [slotBytes, ← add_assoc]
  exact flatMap_comm_perm _ _ _

theorem rowAddr_add {t i l kv : ℕ} (hi : i < d.kernelNtpb - t % d.kernelNtpb) :
    d.rowAddr dstTable (t + i) l kv = d.rowAddr dstTable t l kv + i * d.step := by
  obtain ⟨hpage, hkernel, hidx⟩ := d.add_of_lt hi
  rw [rowAddr, rowAddr, hpage, hkernel, hidx]
  ring

/-- **The P < D fill fills the slots up to the end of the table.** -/
theorem fillTailHybridAttnBlockPLtD_fills
    (h : fillTailHybridAttnBlockPLtD env p.blockSize (d.side dstTable) d.pack srcTable total b
      = .ok out) :
    TailFill srcTable p.blockSize total (tailEnd dstTable.length d.perLayer)
      (d.slotBytes dstTable 0 d.step) out := by
  have hside : (d.side dstTable).blocks = dstTable ∧
      (d.side dstTable).kernelBlkNtpb = d.kernelNtpb := ⟨rfl, rfl⟩
  simp only [fillTailHybridAttnBlockPLtD, perLayer_eq d dstTable, hside] at h
  replace h := after_check h
  replace h := after_check h
  replace h := after_check h
  split_ifs at h with hfull
  · exact .inl ⟨hfull, (Except.ok.inj h).symm⟩
  obtain ⟨block0, hblock0, h⟩ := bind_eq_ok.mp h
  obtain ⟨htable, rfl⟩ := zeroBlock_eq hblock0
  refine .inr ⟨not_le.mp hfull, htable, ?_⟩
  refine Emits.of_walk (advances_toBoundary d.kernelNtpb_pos) le_rfl
    (fun t left x _ hl _ hx => ?_) h
  rw [checkedDiv_of_pos d.perLayer_pos, ok_bind, checkedDiv_of_pos d.kernelNtpb_pos, ok_bind] at hx
  replace hx := after_check hx
  obtain ⟨dBlock, hdBlock, hx⟩ := bind_eq_ok.mp hx
  obtain ⟨-, rfl⟩ := getD_of_some (vecAt_eq_ok.mp hdBlock)
  have hfirst : 0 < d.kernelNtpb - t % d.kernelNtpb := by
    have := Nat.mod_lt t d.kernelNtpb_pos
    omega
  have hrow : ∀ sub, (d.side dstTable).kernelBlkOff (dstTable.getD (t / d.perLayer) 0)
      ⟨t / d.perLayer, t % d.kernelNtpb, t % d.perLayer / d.kernelNtpb * d.pack * d.kernelBlkSize⟩
        sub
      + t % d.kernelNtpb * d.step = d.rowAddr dstTable t sub 0 := fun sub =>
    kernelBlkOff_add dstTable sub hfirst
  simp only [packOf_pack, side_tokenStepLength, side_kernelBlkSize, hrow, rowAddr_half] at hx
  have hround := Emits.of_emitAll (fun sub _ y hy =>
    fills_halves env (f := d.rowAddr dstTable t sub) (blockSize_pos p) hy) hx
  refine ⟨hround.all, hround.perm.trans ?_⟩
  have hruns (sub : ℕ) := flatMap_runs_perm (List.range 2) (r := fun t' => d.rowAddr dstTable t' sub)
    (t := t) (n := toBoundary d.kernelNtpb t left) (k := d.step) fun i hi kv =>
      rowAddr_add (hi.trans_le (min_le_left _ _))
  exact (Perm.flatMap_left _ fun sub _ => hruns sub).trans (flatMap_comm_perm _ _ _)

end TokenMajor

section HeadMajor

variable {p d : HndGeometry}

open HndGeometry

theorem hnd_blockSize_pos (g : HndGeometry) : 0 < g.blockSize :=
  mul_pos g.ntpb_pos g.tokenSize_pos

/-- The bytes of slot `t`: its run in the sections of `n` heads from `first` on. -/
def HndGeometry.slotBytes (g : HndGeometry) (table : List ℕ) (first n t : ℕ) : List ℕ :=
  (List.range n).flatMap fun j => (List.range 2).flatMap fun kv =>
    List.range' (g.headAddr table t kv (first + j)) g.headDim

/-- The zero records of each head's K and V section. -/
theorem fills_hndZeroFill {run : HndRun} {headDim groupOff len heads z maxSeg : ℕ}
    (hseg : 0 < maxSeg) (h : hndZeroFill env run headDim groupOff len heads z maxSeg b = .ok out) :
    Fills z maxSeg out ((List.range heads).flatMap fun j => (List.range 2).flatMap fun kv =>
      List.range' (run.kOff headDim j + groupOff + kv * run.kvSectionSize) len) := by
  rw [hndZeroFill, Int.toNat_natCast] at h
  refine Emits.of_emitAll (fun j _ x hx => ?_) h
  refine fills_halves env (f := fun kv => run.kOff headDim j + groupOff + kv * run.kvSectionSize)
    (b := b) hseg ?_
  rwa [zero_mul, add_zero, one_mul]

/-- **For a run of one page they fill its slots**, in the sections of `heads` heads from `first` on. -/
theorem fills_hndRun {t n first groupOff heads z maxSeg : ℕ}
    (hoff : groupOff = first * (d.ntpb * d.headDim)) (hn : n ≤ d.ntpb - t % d.ntpb)
    (hseg : 0 < maxSeg)
    (h : hndZeroFill env ⟨dstTable.getD (t / d.ntpb) 0 * d.blockSize, d.ntpb * d.headDim,
      d.blockSize / 2, t % d.ntpb⟩ d.headDim groupOff (n * d.headDim) heads z maxSeg b = .ok out) :
    Fills z maxSeg out ((List.range' t n).flatMap (d.slotBytes dstTable first heads)) := by
  have haddr (j kv : ℕ) : HndRun.kOff ⟨dstTable.getD (t / d.ntpb) 0 * d.blockSize,
      d.ntpb * d.headDim, d.blockSize / 2, t % d.ntpb⟩ d.headDim j + groupOff
        + kv * (d.blockSize / 2) = d.headAddr dstTable t kv (first + j) := by
    rw [hoff, HndRun.kOff, headAddr]
    ring
  have hheads := fills_hndZeroFill hseg h
  simp only [haddr] at hheads
  refine ⟨hheads.all, hheads.perm.trans ?_⟩
  have hruns (j : ℕ) := flatMap_runs_perm (List.range 2)
    (r := fun t' kv => d.headAddr dstTable t' kv (first + j)) (t := t) (n := n)
    (k := d.headDim) fun i hi kv => headAddr_add (hi.trans_le hn)
  exact (Perm.flatMap_left _ fun j _ => hruns j).trans (flatMap_comm_perm _ _ _)

/-- What the P > D fill comes to. -/
theorem fillLastHybridFlashinferHNDBlock_eq_ok (hlt : p.heads < 2 ^ 64)
    (h : fillLastHybridFlashinferHNDBlock env (p.side srcTable) (d.side dstTable) total off p.heads b
      = .ok out) :
    (lastEnd d.ntpb total = total ∧ out = []) ∨
    (lastEnd d.ntpb total = total + (d.ntpb - total % d.ntpb) ∧ 0 < srcTable.length ∧
      hndZeroFill env ⟨dstTable.getD (total / d.ntpb) 0 * d.blockSize, d.ntpb * p.headDim,
        d.blockSize / 2, total % d.ntpb⟩ p.headDim (off * (p.heads * (d.ntpb * p.headDim)))
        ((d.ntpb - total % d.ntpb) * p.headDim) p.heads (srcTable.getD 0 0 * p.blockSize)
        p.blockSize b = .ok out) := by
  rcases Nat.eq_zero_or_pos total with rfl | htotal
  · exact .inl ⟨if_pos (Nat.zero_mod _), (Except.ok.inj h).symm⟩
  have hside : (d.side dstTable).ntpb = d.ntpb ∧ (d.side dstTable).blocks = dstTable ∧
      (d.side dstTable).blockSize = d.blockSize ∧
        d.ntpb * (d.side dstTable).tokenSize = d.blockSize :=
    ⟨rfl, rfl, rfl, rfl⟩
  simp only [fillLastHybridFlashinferHNDBlock, if_neg htotal.ne', hside,
    headDimOf_side srcTable hlt, ok_bind, toSize_of_lt hlt] at h
  obtain ⟨dBlkIdx, hquotient, h⟩ := bind_eq_ok.mp h
  split_ifs at h with hfull
  · exact .inl ⟨if_pos hfull, (Except.ok.inj h).symm⟩
  replace h := after_check h
  obtain ⟨block0, hblock0, h⟩ := bind_eq_ok.mp h
  obtain ⟨dBlock, hdBlock, h⟩ := bind_eq_ok.mp h
  obtain ⟨htable, rfl⟩ := zeroBlock_eq hblock0
  rw [checkedDiv_of_pos d.ntpb_pos] at hquotient
  cases hquotient
  obtain ⟨-, rfl⟩ := getD_of_some (vecAt_eq_ok.mp hdBlock)
  exact .inr ⟨if_neg hfull, htable, h⟩

/-- **The P < D fill fills the slots up to the end of the table.** -/
theorem fillTailHybridFlashinferHNDBlockPLtD_fills
    (h : fillTailHybridFlashinferHNDBlockPLtD env p.blockSize (d.side dstTable) d.headDim d.heads
      srcTable total b = .ok out) :
    TailFill srcTable p.blockSize total (tailEnd dstTable.length d.ntpb)
      (d.slotBytes dstTable 0 d.heads) out := by
  have hside : (d.side dstTable).ntpb = d.ntpb ∧ (d.side dstTable).blocks = dstTable ∧
      (d.side dstTable).blockSize = d.blockSize := ⟨rfl, rfl, rfl⟩
  simp only [fillTailHybridFlashinferHNDBlockPLtD, hside] at h
  split_ifs at h with hfull
  · exact .inl ⟨hfull, (Except.ok.inj h).symm⟩
  obtain ⟨block0, hblock0, h⟩ := bind_eq_ok.mp h
  obtain ⟨htable, rfl⟩ := zeroBlock_eq hblock0
  refine .inr ⟨not_le.mp hfull, htable, ?_⟩
  refine Emits.of_walk (advances_toBoundary d.ntpb_pos) le_rfl (fun t left x _ hl _ hx => ?_) h
  rw [checkedDiv_of_pos d.ntpb_pos, ok_bind] at hx
  replace hx := after_check hx
  obtain ⟨dBlock, hdBlock, hx⟩ := bind_eq_ok.mp hx
  obtain ⟨-, rfl⟩ := getD_of_some (vecAt_eq_ok.mp hdBlock)
  exact fills_hndRun (zero_mul _).symm (min_le_left _ _) (hnd_blockSize_pos p) hx

end HeadMajor

end Routines

/-! ## What the tail holds -/

/-- No record reads a byte of a token. -/
def ReadsNoToken (tokenByte : ℕ → Prop) (fill : List IpcBlock) : Prop :=
  ∀ rec ∈ fill, ∀ c ∈ rec.bytes, ¬tokenByte c.1

/-- Whatever the tokens hold, the records write zeros: every other byte of P may be taken as zero. -/
def WritesZeros (tokenByte : ℕ → Prop) (fill : List IpcBlock) : Prop :=
  ∀ mem : ℕ → UInt8, (∀ a, ¬tokenByte a → mem a = 0) → ∀ rec ∈ fill, ∀ c ∈ rec.bytes, mem c.1 = 0

/-- **A fill clears the tail only where there is none**, block 0 starting with a token. -/
theorem FillsOrNot.clears_iff {noSlot : Prop} {pBlockSize : ℕ} {fill : List IpcBlock}
    {tokenByte : ℕ → Prop} (h : FillsOrNot noSlot srcTable pBlockSize fill)
    (htoken : 0 < srcTable.length → tokenByte (srcTable.getD 0 0 * pBlockSize)) :
    (ReadsNoToken tokenByte fill ↔ noSlot) ∧ (WritesZeros tokenByte fill ↔ noSlot) := by
  rcases h with ⟨hno, rfl⟩ | ⟨hslot, htable, hfill⟩
  · exact ⟨iff_of_true (fun _ h => absurd h not_mem_nil) hno,
      iff_of_true (fun _ _ _ h => absurd h not_mem_nil) hno⟩
  · have hbyte := htoken htable
    obtain ⟨rec, hrec⟩ := exists_mem_of_ne_nil fill hfill.nonempty
    obtain ⟨hsrc, hlen⟩ := hfill.reads rec hrec
    have hmem := IpcBlock.first_mem_bytes hlen
    rw [← hsrc] at hbyte
    refine ⟨iff_of_false (fun hreads => hreads rec hrec _ hmem hbyte) hslot,
      iff_of_false (fun hzeros => ?_) hslot⟩
    classical
    -- a memory whose tokens hold ones
    have hone := hzeros (fun a => if tokenByte a then 1 else 0) (fun a ha => if_neg ha) rec hrec _ hmem
    rw [if_pos hbyte] at hone
    exact absurd hone (by decide)

/-- The last task of a request, with padding on. -/
structure PaddedTask where
  env : EnvCfg
  task : ReqSendTask
  srcTable : List ℕ
  dstTable : List ℕ
  bounds : IpcBlockBounds
  pad : env.padLastAttnBlock = true
  completed : task.reachLastToken = true
  tokens_pos : 1 ≤ task.endTokens

/-- The four regimes that fill a tail, with the pages of the two sides and the group the sender (or, for
P < D, the receiver) has in a wide row. -/
inductive PaddedRegime
  | flashPGtD (p d : PageGeometry) (pack_eq : p.pack = d.pack) (attnGroupOff : ℕ)
  | flashPLtD (p d : PageGeometry) (pack_eq : p.pack = d.pack) (attnGroupOff : ℕ)
  | flashinferPGtD (p d : HndGeometry) (heads_lt : p.heads < 2 ^ 64) (attnGroupN attnGroupOff : ℕ)
  | flashinferPLtD (p d : HndGeometry) (slice : ℕ × ℕ)

namespace PaddedRegime

variable (X : PaddedTask)

/-- What is emitted for the attention group. -/
def part : PaddedRegime → Except Fault (List IpcBlock)
  | flashPGtD p d _ off =>
    hybridAttnPart X.env (p.side X.srcTable) (d.side X.dstTable) off p.pack X.task X.bounds
  | flashPLtD p d _ off =>
    slicedAttnPart X.env (p.side X.srcTable) (d.side X.dstTable) off p.pack X.task X.bounds
  | flashinferPGtD p d _ n off =>
    hybridHndPart X.env (p.side X.srcTable) (d.side X.dstTable) n off p.heads X.task X.bounds
  | flashinferPLtD p d slice =>
    slicedHndPart X.env (p.side X.srcTable) (d.side X.dstTable) slice d.headDim d.heads X.task X.bounds

/-- The tail fill of it. -/
def fill : PaddedRegime → Except Fault (List IpcBlock)
  | flashPGtD p d _ off => fillLastHybridAttnBlock X.env (p.side X.srcTable) (d.side X.dstTable)
      X.task.endTokens off p.pack X.bounds
  | flashPLtD p d _ _ => fillTailHybridAttnBlockPLtD X.env p.blockSize (d.side X.dstTable) p.pack
      X.srcTable X.task.endTokens X.bounds
  | flashinferPGtD p d _ _ off => fillLastHybridFlashinferHNDBlock X.env (p.side X.srcTable)
      (d.side X.dstTable) X.task.endTokens off p.heads X.bounds
  | flashinferPLtD p d _ => fillTailHybridFlashinferHNDBlockPLtD X.env p.blockSize (d.side X.dstTable)
      d.headDim d.heads X.srcTable X.task.endTokens X.bounds

/-- `a` is a byte of the K or V row of a computed token of the request, where the token loops read
it. -/
def TokenByte : PaddedRegime → ℕ → Prop
  | flashPGtD p _ _ _, a | flashPLtD p _ _ _, a =>
    ∃ t < X.task.endTokens, t / p.perLayer < X.srcTable.length ∧ ∃ l < p.pack, ∃ kv < 2,
      ∃ o < p.step, a = p.rowAddr X.srcTable t l kv + o
  | flashinferPGtD p _ _ _ _, a | flashinferPLtD p _ _, a =>
    ∃ t < X.task.endTokens, t / p.ntpb < X.srcTable.length ∧ ∃ kv < 2, ∃ j < p.heads,
      ∃ o < p.headDim, a = p.headAddr X.srcTable t kv j + o

/-- The request's tokens end where the D blocks to be filled do. -/
def NoTail : PaddedRegime → Prop
  | flashPGtD _ d _ _ => X.task.endTokens % d.perLayer = 0
  | flashPLtD _ d _ _ => tailEnd X.dstTable.length d.perLayer ≤ X.task.endTokens
  | flashinferPGtD _ d _ _ _ => X.task.endTokens % d.ntpb = 0
  | flashinferPLtD _ d _ => tailEnd X.dstTable.length d.ntpb ≤ X.task.endTokens

variable {X}

/-- **Block 0 starts with the K row of token 0.** -/
theorem tokenByte_zeroBlock_flash (p : PageGeometry) (h : 0 < X.srcTable.length) :
    ∃ t < X.task.endTokens, t / p.perLayer < X.srcTable.length ∧ ∃ l < p.pack, ∃ kv < 2,
      ∃ o < p.step, X.srcTable.getD 0 0 * p.blockSize = p.rowAddr X.srcTable t l kv + o := by
  refine ⟨0, X.tokens_pos, by rwa [Nat.zero_div], 0, p.pack_pos, 0, two_pos, 0, p.step_pos, ?_⟩
  simp only [PageGeometry.rowAddr, Nat.zero_div, Nat.zero_mod, zero_mul, add_zero]

theorem tokenByte_zeroBlock_hnd (p : HndGeometry) (h : 0 < X.srcTable.length) :
    ∃ t < X.task.endTokens, t / p.ntpb < X.srcTable.length ∧ ∃ kv < 2, ∃ j < p.heads,
      ∃ o < p.headDim, X.srcTable.getD 0 0 * p.blockSize = p.headAddr X.srcTable t kv j + o := by
  refine ⟨0, X.tokens_pos, by rwa [Nat.zero_div], 0, two_pos, 0, p.heads_pos, 0, p.headDim_pos, ?_⟩
  simp only [HndGeometry.headAddr, Nat.zero_div, Nat.zero_mod, zero_mul, add_zero]

/-- The last task's records end with its tail fill. -/
theorem exists_fill_of_part (R : PaddedRegime) (h : R.part X = .ok out) :
    ∃ attn fill, R.fill X = .ok fill ∧ out = attn ++ fill := by
  have hpad : (X.env.padLastAttnBlock && X.task.reachLastToken) = true := by
    rw [X.pad, X.completed]
    rfl
  cases R with
  | flashPGtD | flashPLtD | flashinferPGtD | flashinferPLtD =>
    obtain ⟨attn, -, h⟩ := bind_eq_ok.mp h
    obtain ⟨fill, hfill, h⟩ := bind_eq_ok.mp h
    rw [hpad, if_pos rfl] at hfill
    exact ⟨attn, fill, hfill, (Except.ok.inj h).symm⟩

theorem clears_iff (R : PaddedRegime) (h : R.fill X = .ok out) :
    (ReadsNoToken (R.TokenByte X) out ↔ R.NoTail X) ∧
      (WritesZeros (R.TokenByte X) out ↔ R.NoTail X) := by
  cases R with
  | flashPGtD p d hpack off =>
    rw [fill, hpack] at h
    have hfill := (fillLastHybridAttnBlock_fills h).fillsOrNot (d.first_mem_slotBytes p.step_pos)
    rw [lastEnd_le_iff d.perLayer_pos] at hfill
    exact hfill.clears_iff (tokenByte_zeroBlock_flash p)
  | flashPLtD p d hpack off =>
    rw [fill, hpack] at h
    exact ((fillTailHybridAttnBlockPLtD_fills h).fillsOrNot
      (d.first_mem_slotBytes d.step_pos)).clears_iff (tokenByte_zeroBlock_flash p)
  | flashinferPGtD p d hlt n off =>
    have hmod := Nat.mod_lt X.task.endTokens d.ntpb_pos
    have hfill : FillsOrNot (lastEnd d.ntpb X.task.endTokens ≤ X.task.endTokens) X.srcTable
        p.blockSize out := by
      rcases fillLastHybridFlashinferHNDBlock_eq_ok hlt h with ⟨hend, hnil⟩ | ⟨hend, htable, h⟩
      · exact .inl ⟨hend.le, hnil⟩
      · refine .inr ⟨by omega, htable, (fills_hndZeroFill (hnd_blockSize_pos p) h).fillRecords
          (a := HndRun.kOff ⟨X.dstTable.getD (X.task.endTokens / d.ntpb) 0 * d.blockSize,
            d.ntpb * p.headDim, d.blockSize / 2, X.task.endTokens % d.ntpb⟩ p.headDim 0
              + off * (p.heads * (d.ntpb * p.headDim)) + 0 * (d.blockSize / 2)) ?_⟩
        have hlen : 0 < (d.ntpb - X.task.endTokens % d.ntpb) * p.headDim :=
          mul_pos (by omega) p.headDim_pos
        simp only [mem_flatMap, mem_range, mem_range'_1]
        exact ⟨0, p.heads_pos, 0, two_pos, le_rfl, Nat.lt_add_of_pos_right hlen⟩
    rw [lastEnd_le_iff d.ntpb_pos] at hfill
    exact hfill.clears_iff (tokenByte_zeroBlock_hnd p)
  | flashinferPLtD p d slice =>
    refine ((fillTailHybridFlashinferHNDBlockPLtD_fills h).fillsOrNot
      (a := d.headAddr X.dstTable X.task.endTokens 0 0) ?_).clears_iff (tokenByte_zeroBlock_hnd p)
    simp only [HndGeometry.slotBytes, mem_flatMap, mem_range, mem_range'_1]
    exact ⟨0, d.heads_pos, 0, two_pos, le_rfl, Nat.lt_add_of_pos_right d.headDim_pos⟩

end PaddedRegime

/-- **The tail is cleared exactly where there is none.**  The last task of a request ends with the tail
fill of its regime, and the fill leaves the request's tokens unread, and writes zeros whatever they
hold, if and only if it has nothing to fill. -/
theorem tailFill_clears_iff (X : PaddedTask) (R : PaddedRegime) (out : List IpcBlock)
    (h : R.part X = .ok out) : ∃ attn fill, R.fill X = .ok fill ∧ out = attn ++ fill ∧
      (ReadsNoToken (R.TokenByte X) fill ↔ R.NoTail X) ∧
      (WritesZeros (R.TokenByte X) fill ↔ R.NoTail X) := by
  obtain ⟨attn, fill, hfill, hout⟩ := R.exists_fill_of_part h
  exact ⟨attn, fill, hfill, hout, R.clears_iff hfill⟩

/-- One token, to a D page of two. -/
def oneOfTwo : PaddedTask where
  env := {}
  task := ⟨⟨0, "req", [[0]], [[0]]⟩, 0, 1, true, by decide⟩
  srcTable := [0]
  dstTable := [0]
  bounds := ⟨4, 8, 1, 0⟩
  pad := rfl
  completed := rfl
  tokens_pos := le_rfl

/-- The second slot gets the K row of the token. -/
theorem tailFill_oneOfTwo : ∃ R : PaddedRegime, ∃ fill, R.fill oneOfTwo = .ok fill ∧
    ¬ReadsNoToken (R.TokenByte oneOfTwo) fill ∧ ¬WritesZeros (R.TokenByte oneOfTwo) fill := by
  let R : PaddedRegime := .flashPGtD ⟨1, 1, 2, 1, by decide, by decide, by decide, by decide⟩
    ⟨1, 1, 2, 2, by decide, by decide, by decide, by decide⟩ rfl 0
  obtain ⟨_, fill, hfill, -, hreads, hzeros⟩ := tailFill_clears_iff oneOfTwo R _ rfl
  have htail : ¬R.NoTail oneOfTwo := show ¬1 % 2 = 0 by decide
  exact ⟨R, fill, hfill, mt hreads.mp htail, mt hzeros.mp htail⟩

/-- **A tail slot that holds a token.**  P rank 0 of 2 sends a request of one token to a D page of two;
every assertion passes, and the record for the K of slot 1 reads the byte the K row of token 0 is read
from. -/
theorem tailFill_copies_token : ∃ recs,
    vllmParseHybridBlockSendPGtD { ndebug := false }
      { engineTpSize := 2, tokenSizes := [2], blockSizes := [4], numKvHeads := 2, numGdnLayers := 0,
        attnKernelBlkNtpb := 2, convStateShape := [1, 1, 1], ssmStateShape := [1, 1, 1, 1],
        gdnConvChannelDims := [1] }
      { engineTpSize := 1, tokenSizes := [4], blockSizes := [8], attnKernelBlkNtpb := 2 }
      3 2 0 ⟨⟨0, "req", [[0]], [[0]]⟩, 0, 1, true, by decide⟩ = .ok [recs] ∧
    -- token 0: its K row, then its V row
    recs.take 2 = [⟨0, 0, 1⟩, ⟨2, 4, 1⟩] ∧
    -- slot 1, beyond the request
    recs.drop 2 = [⟨0, 2, 1⟩, ⟨0, 6, 1⟩] :=
  ⟨_, rfl, rfl, rfl⟩

end LlumnixKv
