import Mathlib.Data.List.Basic
import Mathlib.Data.List.Induction
import Mathlib.Order.MinMax

/-!
# Machinery/Cuts — a range sent piece by piece

    a ──▸ l₁ ──▸ l₂ ──▸ … ──▸ lₙ         chain a [l₁, …, lₙ] = [(a, l₁), (l₁, l₂), …]

Increasing cut points cut a range into consecutive pieces: a further cut appends one piece
(`chain_concat`), and together the pieces hold every point of the range once (`countP_chain`).

A producer that reports how far it has come (`ends`) sends the pieces of `[c, m)` that became
available: `cuts c m ends` are the reports inside the range, and `m` once it is reached.
-/

open List

namespace Machinery

variable {α : Type*}

/-! ## Consecutive pieces -/

/-- The consecutive pieces from `a` along a list of cut points. -/
def chain (a : α) (l : List α) : List (α × α) := (a :: l).zip l

@[simp] theorem chain_nil (a : α) : chain a [] = [] := rfl

@[simp] theorem chain_cons (a b : α) (l : List α) : chain a (b :: l) = (a, b) :: chain b l := rfl

/-- **One cut more is one piece more**, from where the last one ended. -/
theorem chain_concat : ∀ (a : α) (l : List α) (x : α),
    chain a (l ++ [x]) = chain a l ++ [(l.getLastD a, x)]
  | _, [], _ => rfl
  | a, b :: l, x => by
      rw [cons_append, chain_cons, chain_cons, chain_concat b l x, getLastD_cons,
        cons_append]

theorem map_snd_chain (a : α) (l : List α) : (chain a l).map Prod.snd = l :=
  map_snd_zip (Nat.le_succ _)

/-- **The pieces hold every point of the range once.** -/
theorem countP_chain [LinearOrder α] (x : α) : ∀ (a : α) (l : List α),
    (a :: l).Pairwise (· < ·) →
    (chain a l).countP (fun p => p.1 ≤ x ∧ x < p.2) = if a ≤ x ∧ x < l.getLastD a then 1 else 0
  | a, [], _ => by
      rw [chain_nil, countP_nil, if_neg]
      exact fun h => absurd h.1 (not_le.mpr h.2)
  | a, b :: l, hsorted => by
      obtain ⟨ha, hrest⟩ := pairwise_cons.mp hsorted
      have hab : a < b := ha b mem_cons_self
      have hlast : b ≤ l.getLastD b := by
        rw [getLastD_eq_getLast?]
        cases hl : l.getLast? with
        | none => exact le_rfl
        | some y => exact ((pairwise_cons.mp hrest).1 y (mem_of_getLast? hl)).le
      rw [chain_cons, countP_cons, countP_chain x b l hrest, getLastD_cons]
      generalize l.getLastD b = last at hlast ⊢
      rcases lt_or_ge x b with hxb | hbx
      · -- only the first piece can hold `x`
        rw [if_neg fun h => absurd h.1 (not_le.mpr hxb), Nat.zero_add]
        simp [hxb, lt_of_lt_of_le hxb hlast]
      · simp [hbx, not_lt.mpr hbx, hab.le.trans hbx]

/-! ## The cuts of a range -/

variable [LinearOrder α] {c m : α}

/-- The cuts of `[c, m)` after a producer has come to each of `ends`. -/
def cuts (c m : α) (ends : List α) : List α :=
  ends.filter (fun e => c < e ∧ e < m) ++ if ends.any fun e => m ≤ e then [m] else []

@[simp] theorem cuts_nil (c m : α) : cuts c m [] = [] := rfl

variable {ends : List α}

/-- Increasing reports are bounded by the last one. -/
theorem le_getLastD (hsorted : ends.Pairwise (· < ·)) (c : α) :
    ∀ e ∈ ends, e ≤ ends.getLastD c := by
  rcases eq_nil_or_concat' ends with rfl | ⟨before, last, rfl⟩
  · exact fun e he => absurd he not_mem_nil
  · intro e he
    rw [getLastD_concat]
    rcases mem_append.mp he with he | he
    · exact ((pairwise_append.mp hsorted).2.2 e he last (mem_singleton_self last)).le
    · exact (mem_singleton.mp he).le

/-- Where the reports stand when a further one comes. -/
theorem getLastD_cases {e : α} (hsorted : (ends ++ [e]).Pairwise (· < ·)) (c : α) :
    (ends = [] ∧ ends.getLastD c = c) ∨ (ends.getLastD c ∈ ends ∧ ends.getLastD c < e) := by
  rcases eq_nil_or_concat' ends with rfl | ⟨before, last, rfl⟩
  · exact .inl ⟨rfl, rfl⟩
  · rw [getLastD_concat]
    have hmem : last ∈ before ++ [last] := mem_append_right _ (mem_singleton_self last)
    exact .inr ⟨hmem, (pairwise_append.mp hsorted).2.2 last hmem e mem_cons_self⟩

/-- **A further report adds the cut it reaches**, unless it is before the range or the range has been
sent. -/
theorem cuts_concat {e : α} (hcm : c < m) (hsorted : (ends ++ [e]).Pairwise (· < ·)) :
    cuts c m (ends ++ [e]) =
      cuts c m ends ++ if c < e ∧ ends.getLastD c < m then [min e m] else [] := by
  have hle := le_getLastD (pairwise_append.mp hsorted).1 c
  have hcases := getLastD_cases hsorted c
  generalize ends.getLastD c = last at hle hcases ⊢
  simp only [cuts, filter_append, any_append]
  by_cases hm : last < m
  · have hany : (ends.any fun x => m ≤ x) = false :=
      any_eq_false.mpr fun x hx => by simpa using (hle x hx).trans_lt hm
    rw [hany]
    rcases lt_or_ge c e with hce | hec
    · rcases lt_or_ge e m with hem | hme
      · simp [hce, hem, hm, hem.le, not_le.mpr hem]
      · simp [hce, not_lt.mpr hme, hme, hm]
    · simp [not_lt.mpr hec, hec.trans_lt hcm]
  · rcases hcases with ⟨-, rfl⟩ | ⟨hmem, hlt⟩
    · exact absurd hcm hm
    · have hany : (ends.any fun x => m ≤ x) = true :=
        any_eq_true.mpr ⟨last, hmem, by simpa using hm⟩
      have hme : ¬e < m := not_lt.mpr ((not_lt.mp hm).trans hlt.le)
      simp [hany, hm, hme]

/-- The last cut is the last report, as far as it is inside the range. -/
theorem getLastD_cuts (hcm : c < m) (hsorted : ends.Pairwise (· < ·)) :
    (cuts c m ends).getLastD c = max c (min (ends.getLastD c) m) := by
  induction ends using List.reverseRecOn with
  | nil => simp [hcm.le]
  | append_singleton ends e ih =>
    have hcases := getLastD_cases hsorted c
    rw [cuts_concat hcm hsorted, getLastD_concat]
    split
    · next h =>
      rw [getLastD_concat, max_eq_right (le_min h.1.le hcm.le)]
    · next h =>
      rw [append_nil, ih (pairwise_append.mp hsorted).1]
      generalize ends.getLastD c = last at hcases h ⊢
      rcases le_or_gt e c with hec | hce
      · have hlast : last ≤ c := by
          rcases hcases with ⟨-, rfl⟩ | ⟨-, hlt⟩
          · exact le_rfl
          · exact hlt.le.trans hec
        rw [max_eq_left ((min_le_left _ _).trans hlast), max_eq_left ((min_le_left _ _).trans hec)]
      · have hm : m ≤ last := not_lt.mp fun hlt => h ⟨hce, hlt⟩
        have hme : m ≤ e := by
          rcases hcases with ⟨-, rfl⟩ | ⟨-, hlt⟩
          · exact absurd hcm (not_lt.mpr hm)
          · exact hm.trans hlt.le
        rw [min_eq_right hm, min_eq_right hme]

/-- Nothing is cut before a report inside the range. -/
theorem cuts_eq_nil_iff (hcm : c < m) (hsorted : ends.Pairwise (· < ·)) :
    cuts c m ends = [] ↔ ends.getLastD c ≤ c := by
  have hle := le_getLastD hsorted c
  constructor
  · intro hnil
    have hlast := getLastD_cuts hcm hsorted
    rw [hnil, getLastD_nil] at hlast
    exact not_lt.mp fun h => absurd hlast (lt_max_of_lt_right (lt_min h hcm)).ne
  · intro hlast
    have hfilter : ends.filter (fun e => c < e ∧ e < m) = [] := by
      refine filter_eq_nil_iff.mpr fun e he h => ?_
      exact absurd (of_decide_eq_true h).1 (not_lt.mpr ((hle e he).trans hlast))
    have hany : (ends.any fun e => m ≤ e) = false := by
      refine any_eq_false.mpr fun e he h => ?_
      exact absurd (of_decide_eq_true h) (not_le.mpr (((hle e he).trans hlast).trans_lt hcm))
    rw [cuts, hfilter, hany]
    rfl

/-- The range ends once, when it is reached. -/
theorem count_cuts (hcm : c < m) (hsorted : ends.Pairwise (· < ·)) :
    (cuts c m ends).count m = if m ≤ ends.getLastD c then 1 else 0 := by
  have hinside : (ends.filter fun e => c < e ∧ e < m).count m = 0 :=
    count_eq_zero.mpr fun h => absurd (of_decide_eq_true (mem_filter.mp h).2).2
      (lt_irrefl m)
  have hany : (ends.any fun e => m ≤ e) = decide (m ≤ ends.getLastD c) := by
    rw [Bool.eq_iff_iff, any_eq_true, decide_eq_true_iff]
    constructor
    · rintro ⟨e, he, hme⟩
      exact (of_decide_eq_true hme).trans (le_getLastD hsorted c e he)
    · intro hm
      rcases eq_nil_or_concat' ends with rfl | ⟨before, last, rfl⟩
      · exact absurd hm (not_le.mpr hcm)
      · rw [getLastD_concat] at hm
        exact ⟨last, mem_append_right _ (mem_singleton_self last), decide_eq_true hm⟩
  rw [cuts, count_append, hinside, hany, Nat.zero_add]
  by_cases hm : m ≤ ends.getLastD c
  · rw [decide_eq_true hm, if_pos rfl, if_pos hm, count_singleton_self]
  · rw [decide_eq_false hm, if_neg Bool.false_ne_true, if_neg hm, count_nil]

/-- The cuts increase. -/
theorem pairwise_cuts (hcm : c < m) (hsorted : ends.Pairwise (· < ·)) :
    (c :: cuts c m ends).Pairwise (· < ·) := by
  have hin : ∀ x ∈ ends.filter (fun e => c < e ∧ e < m), c < x ∧ x < m := fun x hx =>
    of_decide_eq_true (mem_filter.mp hx).2
  rw [pairwise_cons, cuts, pairwise_append]
  refine ⟨fun x hx => ?_, hsorted.filter _, ?_, fun x hx y hy => ?_⟩
  · rcases mem_append.mp hx with hx | hx
    · exact (hin x hx).1
    · split at hx
      · exact mem_singleton.mp hx ▸ hcm
      · cases hx
  · split
    · exact pairwise_singleton _ m
    · exact List.Pairwise.nil
  · split at hy
    · exact mem_singleton.mp hy ▸ (hin x hx).2
    · cases hy

end Machinery
