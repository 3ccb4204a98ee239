import Mathlib.Data.List.Range
import Mathlib.Data.List.Count
import Mathlib.Algebra.Order.Ring.Nat

/-!
# Machinery/Bitset — fixed-width sets of positions

A bitset of width `w` is a `BitVec w`.  `count_shl` is the popcount trick: shifting the bits from
`r` on out at the top and counting what is left counts the set bits below `r`.  For a strided set
(`Strided s p v`: the multiples of `s` below `p`) those counts are quotients.
-/

open List

namespace Machinery

namespace Bitset

variable {w : ℕ} (v : BitVec w)

/-- The number of set bits. -/
def count : ℕ := (List.range w).countP v.getLsbD

/-- The set with one more bit. -/
def set (i : ℕ) : BitVec w := v ||| BitVec.twoPow w i

/-- The shift towards the high end; a shift by `w` or more empties the set. -/
def shl (n : ℕ) : BitVec w := if n < w then v <<< n else 0#w

@[simp] theorem getLsbD_set (i j : ℕ) :
    (set v i).getLsbD j = (v.getLsbD j || (decide (i < w) && decide (i = j))) := by
  rw [set, BitVec.getLsbD_or, BitVec.getLsbD_twoPow]

theorem getLsbD_shl_sub (r : ℕ) {j : ℕ} (hj : j < w) :
    (shl v (w - r)).getLsbD j = (decide (w - r ≤ j) && v.getLsbD (j - (w - r))) := by
  unfold shl
  split
  · rw [BitVec.getLsbD_shiftLeft]
    by_cases h : w - r ≤ j
    · simp [hj, h, not_lt.mpr h]
    · simp [h, Nat.lt_of_not_le h]
  · have : ¬ w - r ≤ j := by omega
    simp [this]

/-- **Shifting out the bits from `r` on leaves the count of those below it.** -/
theorem count_shl {r : ℕ} (hr : r ≤ w) :
    count (shl v (w - r)) = (List.range r).countP v.getLsbD := by
  have hsplit : List.range w = List.range (w - r) ++ (List.range r).map (w - r + ·) := by
    rw [← range_add, Nat.sub_add_cancel hr]
  have hlow : (List.range (w - r)).countP (shl v (w - r)).getLsbD = 0 := by
    rw [countP_eq_zero]
    intro j hj
    have hj' : j < w - r := mem_range.mp hj
    rw [getLsbD_shl_sub v r (by omega)]
    simp [not_le.mpr hj']
  rw [count, hsplit, countP_append, hlow, zero_add, countP_map]
  refine countP_congr fun j hj => ?_
  have hj' : j < r := mem_range.mp hj
  rw [Function.comp_apply, getLsbD_shl_sub v r (by omega)]
  simp

/-! ## Strided sets -/

/-- The set bits are the multiples of `s` below `p`. -/
def Strided (s p : ℕ) (v : BitVec w) : Prop := ∀ j, v.getLsbD j = true ↔ j < p ∧ s ∣ j

/-- `k` whole strides hold `k` multiples. -/
theorem countP_dvd_range {s : ℕ} (hs : 0 < s) (k : ℕ) :
    (List.range (k * s)).countP (fun j => decide (s ∣ j)) = k := by
  induction k with
  | zero => simp
  | succ k ih =>
    have hone : (List.range s).countP (fun j => decide (s ∣ k * s + j)) = 1 := by
      obtain ⟨m, rfl⟩ : ∃ m, s = m + 1 := ⟨s - 1, by omega⟩
      rw [range_succ_eq_map, countP_cons, countP_map]
      have hrest : (List.range m).countP
          ((fun j => decide (m + 1 ∣ k * (m + 1) + j)) ∘ Nat.succ) = 0 := by
        rw [countP_eq_zero]
        intro j hj
        have hj' : j < m := mem_range.mp hj
        rw [Function.comp_apply, decide_eq_true_iff, Nat.dvd_add_right (Nat.dvd_mul_left _ _)]
        exact fun h => absurd (Nat.le_of_dvd (Nat.succ_pos _) h) (by omega)
      rw [hrest]
      simp
    rw [Nat.succ_mul, range_add, countP_append, ih, countP_map]
    exact congrArg (k + ·) hone

theorem Strided.countP_range {s p k : ℕ} {v : BitVec w} (h : Strided s p v) (hs : 0 < s)
    (hk : k * s ≤ p) : (List.range (k * s)).countP v.getLsbD = k := by
  conv_rhs => rw [← countP_dvd_range hs k]
  refine countP_congr fun j hj => ?_
  have hj' : j < k * s := mem_range.mp hj
  rw [h j, decide_eq_true_iff]
  exact ⟨fun hh => hh.2, fun hd => ⟨by omega, hd⟩⟩

/-- Positions past the end count for nothing. -/
theorem countP_range_of_le {n : ℕ} (hn : w ≤ n) : (List.range n).countP v.getLsbD = count v := by
  obtain ⟨e, rfl⟩ := Nat.exists_eq_add_of_le hn
  have hhigh : ((List.range e).map (w + ·)).countP v.getLsbD = 0 := by
    rw [countP_map, countP_eq_zero]
    intro j _
    rw [Function.comp_apply, BitVec.getLsbD_of_ge v (w + j) (Nat.le_add_right w j)]
    exact Bool.false_ne_true
  rw [range_add, countP_append, hhigh, add_zero, count]

/-- **A strided set has one bit per stride.** -/
theorem Strided.count {s k : ℕ} {v : BitVec w} (h : Strided s (k * s) v) (hs : 0 < s) :
    count v = k := by
  rcases Nat.le_total w (k * s) with hw | hw
  · rw [← countP_range_of_le v hw, h.countP_range hs le_rfl]
  · obtain ⟨e, he⟩ := Nat.exists_eq_add_of_le hw
    have hhigh : ((List.range e).map (k * s + ·)).countP v.getLsbD = 0 := by
      rw [countP_map, countP_eq_zero]
      intro j _ hj
      have hlt : k * s + j < k * s := ((h _).mp hj).1
      omega
    rw [Bitset.count, congrArg List.range he, range_add, countP_append, hhigh,
      h.countP_range hs le_rfl, add_zero]

end Bitset

end Machinery
