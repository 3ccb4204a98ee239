import Mathlib.Data.List.Range
import Mathlib.Data.List.Perm.Subperm

/-!
# Machinery/Quota — the first so many of each key

    keepFirst key w kept xs     kept, and of xs what still finds fewer than w of its key

First come, first kept: of each key the result holds the first `w` (`filter_keepFirst`).  Where the items
of a key are numbered below `w`, a full quota misses none of them exactly if it has no repetition
(`nodup_iff_covers`).
-/

open List

namespace Machinery

variable {α γ κ : Type*} [DecidableEq κ] {key : α → κ} {w : ℕ}

/-- `xs` after `kept`, where at most `w` items of each key are taken. -/
def keepFirst (key : α → κ) (w : ℕ) (kept : List α) : List α → List α
  | [] => kept
  | x :: xs =>
    if (kept.countP fun y => key y = key x) < w then keepFirst key w (kept ++ [x]) xs
    else keepFirst key w kept xs

/-- **Of each key the first `w` are taken.** -/
theorem filter_keepFirst (k : κ) : ∀ xs kept : List α,
    (keepFirst key w kept xs).filter (fun y => key y = k) = kept.filter (fun y => key y = k) ++
      (xs.filter fun y => key y = k).take (w - kept.countP fun y => key y = k)
  | [], kept => by simp [keepFirst]
  | x :: xs, kept => by
      have ih := filter_keepFirst k xs
      rw [keepFirst]
      by_cases hk : key x = k
      · subst hk
        rw [filter_cons_of_pos (by simp)]
        split
        · next hlt =>
          have hsub : w - kept.countP (fun y => key y = key x) =
              (w - ((kept ++ [x]).countP fun y => key y = key x)) + 1 := by
            simp only [countP_append, countP_singleton, decide_true, if_true]
            omega
          rw [ih, hsub, take_succ_cons, filter_append,
            filter_cons_of_pos (by simp), filter_nil, append_assoc,
            singleton_append]
        · next hge =>
          rw [ih, Nat.sub_eq_zero_of_le (Nat.not_lt.mp hge), take_zero, take_zero]
      · rw [filter_cons_of_neg (by simpa using hk)]
        split
        · rw [ih]
          simp [hk]
        · exact ih kept

theorem filter_keepFirst_nil (k : κ) (xs : List α) :
    (keepFirst key w [] xs).filter (fun y => key y = k) = (xs.filter fun y => key y = k).take w :=
  filter_keepFirst k xs []

theorem mem_keepFirst {x : α} {xs : List α} :
    x ∈ keepFirst key w [] xs ↔ x ∈ (xs.filter fun y => key y = key x).take w := by
  rw [← filter_keepFirst_nil, mem_filter, and_iff_left (decide_eq_true rfl)]

/-- The items may be renamed as long as the key is the same. -/
theorem keepFirst_map {key' : γ → κ} {f : α → γ} (hkey : ∀ x, key' (f x) = key x) :
    ∀ xs kept : List α, keepFirst key' w (kept.map f) (xs.map f) = (keepFirst key w kept xs).map f
  | [], _ => rfl
  | x :: xs, kept => by
      have hcount : ((kept.map f).countP fun y => key' y = key' (f x)) =
          kept.countP fun y => key y = key x := by
        rw [countP_map]
        simp only [Function.comp_def, hkey]
      have hone := keepFirst_map hkey xs (kept ++ [x])
      rw [map_append, map_singleton] at hone
      rw [map_cons, keepFirst, keepFirst, hcount]
      split
      · exact hone
      · exact keepFirst_map hkey xs kept

/-- **A full quota misses no number exactly if it repeats none.** -/
theorem nodup_iff_covers {l : List ℕ} (hlt : ∀ x ∈ l, x < w) (hlen : l.length = w) :
    l.Nodup ↔ ∀ x < w, x ∈ l := by
  constructor
  · intro h x hx
    have hsub : l.Subperm (List.range w) :=
      subperm_of_subset h fun y hy => mem_range.mpr (hlt y hy)
    have hperm := hsub.perm_of_length_le (by rw [length_range, hlen])
    exact hperm.mem_iff.mpr (mem_range.mpr hx)
  · intro h
    have hsub : (List.range w).Subperm l :=
      subperm_of_subset nodup_range fun y hy => h y (mem_range.mp hy)
    have hperm := hsub.perm_of_length_le (by rw [length_range, hlen])
    exact hperm.nodup_iff.mp nodup_range

/-- A list that misses none of `w` numbers has as many items. -/
theorem le_length_of_covers {l : List ℕ} (h : ∀ x < w, x ∈ l) : w ≤ l.length := by
  have hsub : (List.range w).Subperm l :=
    subperm_of_subset nodup_range fun y hy => h y (mem_range.mp hy)
  simpa only [length_range] using hsub.length_le

end Machinery
