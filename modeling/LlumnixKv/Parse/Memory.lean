import LlumnixKv.Parse.HybridExact

/-!
# Parse/Memory — what records do to a buffer

A record copies bytes from the sender's buffer to the receiver's; the records of several senders are
copied one after the other.  Where no two of them write the same byte the order does not matter, and a
byte of the receiver is the byte its record reads (`copyAll_of_mem`).
-/

open List Machinery

namespace LlumnixKv

open HybridTransfer (DisjointDst)

variable {ι β : Type*}

/-- The receiver's buffer after one record. -/
def IpcBlock.copy (rec : IpcBlock) (src dst : ℕ → β) (i : ℕ) : β :=
  if rec.dstOffset ≤ i ∧ i < rec.dstOffset + rec.length then
    src (rec.srcOffset + (i - rec.dstOffset))
  else dst i

/-- …and after a list of them, each read from the buffer of its sender. -/
def copyAll (src : ι → ℕ → β) : List (ι × IpcBlock) → (ℕ → β) → ℕ → β
  | [], dst => dst
  | (g, rec) :: recs, dst => copyAll src recs (rec.copy (src g) dst)

/-- The records of sender `g`. -/
def recordsFrom (g : ι) (recs : List IpcBlock) : List (ι × IpcBlock) := recs.map (Prod.mk g)

variable {src : ι → ℕ → β} {i : ℕ} {rec : IpcBlock}

/-- A byte no record writes stays. -/
theorem copyAll_of_not_written :
    ∀ {recs : List (ι × IpcBlock)} {dst : ℕ → β},
    (∀ r ∈ recs, ¬(r.2.dstOffset ≤ i ∧ i < r.2.dstOffset + r.2.length)) →
    copyAll src recs dst i = dst i
  | [], _, _ => rfl
  | r :: recs, dst, h => by
      rw [copyAll, copyAll_of_not_written fun r' hr' => h r' (mem_cons_of_mem _ hr'),
        IpcBlock.copy, if_neg (h r mem_cons_self)]

theorem IpcBlock.copy_of_copies {src dst : ℕ → β} {s i : ℕ} (h : rec.Copies s i) :
    rec.copy src dst i = src s := by
  obtain ⟨o, ho, rfl, rfl⟩ := h
  rw [copy, if_pos ⟨by omega, by omega⟩, Nat.add_sub_cancel_left]

/-- A byte no record copies to stays, … -/
theorem copyAll_of_not_copied {recs : List (ι × IpcBlock)} {dst : ℕ → β}
    (h : ∀ r ∈ recs, ∀ s, ¬r.2.Copies s i) : copyAll src recs dst i = dst i :=
  copyAll_of_not_written fun r hr hi =>
    h r hr (r.2.srcOffset + (i - r.2.dstOffset)) ⟨i - r.2.dstOffset, by omega, rfl, by omega⟩

/-- …and a byte they all give the same value has that value, in whatever order they are copied. -/
theorem copyAll_of_agree {v : β} :
    ∀ {recs : List (ι × IpcBlock)} {dst : ℕ → β},
    (∀ r ∈ recs, ∀ s, r.2.Copies s i → src r.1 s = v) → (∃ r ∈ recs, ∃ s, r.2.Copies s i) →
    copyAll src recs dst i = v
  | [], _, _, ⟨_, h, _⟩ => absurd h not_mem_nil
  | r :: recs, dst, hagree, hex => by
      rw [copyAll]
      by_cases hlater : ∃ r' ∈ recs, ∃ s, r'.2.Copies s i
      · exact copyAll_of_agree (fun r' hr' => hagree r' (mem_cons_of_mem r hr')) hlater
      · obtain ⟨r', hr', s, hs⟩ := hex
        rcases mem_cons.mp hr' with rfl | hr'
        · rw [copyAll_of_not_copied fun r' hr' s' hs' => hlater ⟨r', hr', s', hs'⟩,
            IpcBlock.copy_of_copies hs, hagree r' mem_cons_self s hs]
        · exact absurd ⟨r', hr', s, hs⟩ hlater

/-- **A byte that is written once is the byte its record reads.** -/
theorem copyAll_of_mem {g : ι} {o : ℕ} (ho : o < rec.length) :
    ∀ {recs : List (ι × IpcBlock)} {dst : ℕ → β},
    (recs.map Prod.snd).Pairwise DisjointDst → (g, rec) ∈ recs →
    copyAll src recs dst (rec.dstOffset + o) = src g (rec.srcOffset + o)
  | (g', rec') :: recs, dst, hdisj, hmem => by
      obtain ⟨hfirst, hrest⟩ := pairwise_cons.mp hdisj
      rw [copyAll]
      rcases mem_cons.mp hmem with heq | hmem
      · cases heq
        have hlater (r : ι × IpcBlock) (hr : r ∈ recs) : ¬(r.2.dstOffset ≤ rec.dstOffset + o ∧
            rec.dstOffset + o < r.2.dstOffset + r.2.length) := by
          have hapart : rec.dstOffset + rec.length ≤ r.2.dstOffset ∨
            r.2.dstOffset + r.2.length ≤ rec.dstOffset := hfirst r.2 (mem_map_of_mem hr)
          omega
        rw [copyAll_of_not_written hlater, IpcBlock.copy, if_pos ⟨by omega, by omega⟩,
          Nat.add_sub_cancel_left]
      · exact copyAll_of_mem ho hrest hmem

/-! ## Disjoint records -/

/-- Where no two records overlap, a byte that one writes is written once. -/
theorem countP_eq_one_of_disjoint (hw : rec.dstOffset ≤ i)
    (hw' : i < rec.dstOffset + rec.length) : ∀ {recs : List IpcBlock}, recs.Pairwise DisjointDst →
    rec ∈ recs →
    recs.countP (fun r => decide (r.dstOffset ≤ i ∧ i < r.dstOffset + r.length)) = 1
  | r :: recs, hdisj, hmem => by
      obtain ⟨hfirst, hrest⟩ := pairwise_cons.mp hdisj
      rcases mem_cons.mp hmem with rfl | hmem
      · have hlater : recs.countP
            (fun r => decide (r.dstOffset ≤ i ∧ i < r.dstOffset + r.length)) = 0 := by
          rw [countP_eq_zero]
          intro r hr
          have hapart : rec.dstOffset + rec.length ≤ r.dstOffset ∨
            r.dstOffset + r.length ≤ rec.dstOffset := hfirst r hr
          rw [decide_eq_true_eq]
          omega
        rw [countP_cons, hlater, if_pos (decide_eq_true ⟨hw, hw'⟩)]
      · have hapart : r.dstOffset + r.length ≤ rec.dstOffset ∨
          rec.dstOffset + rec.length ≤ r.dstOffset := hfirst rec hmem
        rw [countP_cons, countP_eq_one_of_disjoint hw hw' hrest hmem,
          if_neg (by rw [decide_eq_true_eq]; omega)]

/-- Records that fill distinct cells of one size do not overlap. -/
theorem pairwise_cells {κ : Type*} {keys : List κ} {record : κ → IpcBlock} {cell : κ → ℕ}
    {size : ℕ} (hnodup : keys.Nodup)
    (hrecord : ∀ k, (record k).dstOffset = cell k * size ∧ (record k).length = size)
    (hinj : ∀ k ∈ keys, ∀ k' ∈ keys, cell k = cell k' → k = k') :
    (keys.map record).Pairwise DisjointDst := by
  refine pairwise_map.mpr (hnodup.pairwise_of_forall_ne fun k hk k' hk' hne => ?_)
  have hdisj := Radix.cells_disjoint (b := size) fun h => hne (hinj k hk k' hk' h)
  rw [DisjointDst, (hrecord k).1, (hrecord k').1, (hrecord k).2, (hrecord k').2]
  exact hdisj

/-! ## Byte by byte -/

/-- The bytes a record copies: from where, and to where. -/
def IpcBlock.bytes (rec : IpcBlock) : List (ℕ × ℕ) :=
  (List.range rec.length).map fun o => (rec.srcOffset + o, rec.dstOffset + o)

theorem IpcBlock.first_mem_bytes (h : 0 < rec.length) :
    (rec.srcOffset, rec.dstOffset) ∈ rec.bytes :=
  mem_map.mpr ⟨0, mem_range.mpr h, rfl⟩

/-- A record of `n` times `m` bytes copies what `n` records of `m` bytes do. -/
theorem IpcBlock.bytes_mul (src dst n m : ℕ) : (IpcBlock.mk src dst (n * m)).bytes =
    (List.range n).flatMap fun i => (IpcBlock.mk (src + i * m) (dst + i * m) m).bytes := by
  have hrange : List.range (n * m) =
      (List.range n).flatMap fun i => (List.range m).map (i * m + ·) := by
    rw [range_eq_range', ← flatMap_range'_blocks 0 m n]
    simp only [Nat.zero_add, range'_eq_map_range]
  unfold bytes
  rw [hrange, map_flatMap]
  simp only [map_map, Function.comp_def, Nat.add_assoc]

/-! ## One sender -/

theorem IpcBlock.mem_bytes {p : ℕ × ℕ} :
    p ∈ rec.bytes ↔ ∃ o < rec.length, p = (rec.srcOffset + o, rec.dstOffset + o) := by
  simp only [bytes, mem_map, mem_range, eq_comm]

/-- The receiver's buffer after the records of one sender. -/
def copyBlocks (src : ℕ → β) (recs : List IpcBlock) (dst : ℕ → β) : ℕ → β :=
  copyAll (fun _ : Unit => src) (recordsFrom () recs) dst

section OneSender

variable {src dst : ℕ → β} {recs : List IpcBlock}

/-- A byte none of the records copies to stays, … -/
theorem copyBlocks_of_not_written {i : ℕ} (h : ∀ p ∈ recs.flatMap IpcBlock.bytes, p.2 ≠ i) :
    copyBlocks src recs dst i = dst i := by
  refine copyAll_of_not_written fun r hr hi => ?_
  obtain ⟨rec, hrec, rfl⟩ := mem_map.mp hr
  have hi : rec.dstOffset ≤ i ∧ i < rec.dstOffset + rec.length := hi
  have hbyte : (rec.srcOffset + (i - rec.dstOffset), rec.dstOffset + (i - rec.dstOffset)) ∈
      rec.bytes := IpcBlock.mem_bytes.mpr ⟨i - rec.dstOffset, by omega, rfl⟩
  exact h _ (mem_flatMap.mpr ⟨rec, hrec, hbyte⟩) (Nat.add_sub_cancel' hi.1)

/-- … and one that they copy to is the byte they copy. -/
theorem copyBlocks_of_mem (hdisj : recs.Pairwise DisjointDst) {p : ℕ × ℕ}
    (hp : p ∈ recs.flatMap IpcBlock.bytes) : copyBlocks src recs dst p.2 = src p.1 := by
  obtain ⟨rec, hrec, hbyte⟩ := mem_flatMap.mp hp
  obtain ⟨o, ho, rfl⟩ := IpcBlock.mem_bytes.mp hbyte
  refine copyAll_of_mem (g := ()) ho ?_ (mem_map_of_mem hrec)
  rw [recordsFrom, map_map]
  change (recs.map id).Pairwise DisjointDst
  rwa [map_id]

/-- **These two facts determine the buffer.** -/
theorem eq_copyBlocks {out : ℕ → β} (hdisj : recs.Pairwise DisjointDst)
    (hcopied : ∀ p ∈ recs.flatMap IpcBlock.bytes, out p.2 = src p.1)
    (hkept : ∀ i, (∀ p ∈ recs.flatMap IpcBlock.bytes, p.2 ≠ i) → out i = dst i) :
    out = copyBlocks src recs dst := by
  funext i
  by_cases hi : ∃ p ∈ recs.flatMap IpcBlock.bytes, p.2 = i
  · obtain ⟨p, hp, rfl⟩ := hi
    rw [hcopied p hp, copyBlocks_of_mem hdisj hp]
  · have hnone (p : ℕ × ℕ) (hp : p ∈ recs.flatMap IpcBlock.bytes) : p.2 ≠ i :=
      fun h => hi ⟨p, hp, h⟩
    rw [hkept i hnone, copyBlocks_of_not_written hnone]

end OneSender

end LlumnixKv
