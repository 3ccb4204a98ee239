import Mathlib.Data.Nat.Notation
import Mathlib.Logic.Relation

/-!
# Machinery/Runs — threads that take turns

    step s a = none               `a` cannot happen in `s`
    step s a = some (.ok s')      it happens, and leaves `s'`
    step s a = some (.error e)    it happens, and ends the run

An interleaving is a list of actions, so a property of every interleaving is an invariant of the
reachable states (`Reachable.invariant`).
-/

namespace Machinery

variable {σ α ε : Type*} {step : σ → α → Option (Except ε σ)}

/-- The states some interleaving reaches. -/
def Reachable (step : σ → α → Option (Except ε σ)) : σ → σ → Prop :=
  Relation.ReflTransGen fun s s' => ∃ a, step s a = some (.ok s')

theorem Reachable.next {s₀ s s' : σ} {a : α} (h : Reachable step s₀ s)
    (ha : step s a = some (.ok s')) : Reachable step s₀ s' :=
  Relation.ReflTransGen.tail h ⟨a, ha⟩

/-- **What holds at the start and survives every action holds in every state reached.** -/
theorem Reachable.invariant {P : σ → Prop} {s₀ s : σ} (h : Reachable step s₀ s) (h₀ : P s₀)
    (hstep : ∀ s a s', P s → step s a = some (.ok s') → P s') : P s := by
  induction h with
  | refl => exact h₀
  | tail _ hnext ih =>
    obtain ⟨a, ha⟩ := hnext
    exact hstep _ a _ ih ha

/-- **A rank that can always be lowered short of a goal leads to the goal.** -/
theorem Reachable.exists_goal (P goal : σ → Prop) (rank : σ → ℕ)
    (hstep : ∀ s, P s → ¬goal s → ∃ s', Reachable step s s' ∧ P s' ∧ rank s' < rank s) (s : σ)
    (hs : P s) : ∃ s', Reachable step s s' ∧ goal s' := by
  by_cases hgoal : goal s
  · exact ⟨s, Relation.ReflTransGen.refl, hgoal⟩
  · obtain ⟨s₁, hreach, hs₁, hlt⟩ := hstep s hs hgoal
    obtain ⟨s₂, hreach', hgoal₂⟩ := Reachable.exists_goal P goal rank hstep s₁ hs₁
    exact ⟨s₂, hreach.trans hreach', hgoal₂⟩
termination_by rank s

/-- The state an interleaving ends in. -/
def runActs (step : σ → α → Option (Except ε σ)) : σ → List α → Option σ
  | s, [] => some s
  | s, a :: as => match step s a with
    | some (.ok s') => runActs step s' as
    | _ => none

theorem reachable_of_runActs : ∀ {as : List α} {s s' : σ},
    runActs step s as = some s' → Reachable step s s'
  | [], _, _, h => Option.some.inj h ▸ Relation.ReflTransGen.refl
  | a :: as, s, s', h => by
      rw [runActs] at h
      split at h
      · next t ht => exact Relation.ReflTransGen.head ⟨a, ht⟩ (reachable_of_runActs h)
      · cases h

/-- An interleaving that ends in a state with a property. -/
theorem exists_reachable_of_runActs (step : σ → α → Option (Except ε σ)) (s : σ) (as : List α)
    (p : σ → Bool) (h : (runActs step s as).any p = true) : ∃ s', Reachable step s s' ∧ p s' = true := by
  cases hrun : runActs step s as with
  | none =>
    rw [hrun] at h
    exact absurd h Bool.false_ne_true
  | some s' =>
    rw [hrun] at h
    exact ⟨s', reachable_of_runActs hrun, h⟩

/-! ## Tracks

What an observer keeps of a run, one event after the other; `none` is an event that does not belong
to what is observed. -/

section Tracks

variable {τ : Type*} {next : τ → α → Option τ}

/-- A track along a list of events. -/
def follow (next : τ → α → Option τ) : τ → List α → Option τ
  | t, [] => some t
  | t, a :: as =>
    match next t a with
    | none => none
    | some t' => follow next t' as

theorem follow_cons {a : α} {as : List α} {t t' : τ} (h : follow next t (a :: as) = some t') :
    ∃ t₁, next t a = some t₁ ∧ follow next t₁ as = some t' := by
  rw [follow] at h
  split at h
  · cases h
  · next t₁ hnext => exact ⟨t₁, hnext, h⟩

/-- What no event takes away, stays along a track. -/
theorem follow_keeps {P : τ → Prop} (hP : ∀ t a t', next t a = some t' → P t → P t') :
    ∀ {as : List α} {t t' : τ}, follow next t as = some t' → P t → P t'
  | [], _, _, hfollow, h => Option.some.inj hfollow ▸ h
  | a :: as, t, t', hfollow, h => by
      obtain ⟨t₁, hnext, hrest⟩ := follow_cons hfollow
      exact follow_keeps hP hrest (hP t a t₁ hnext h)

/-- …and what an event brings, it has brought once the track is past it. -/
theorem follow_reaches {P : τ → Prop} (hP : ∀ t a t', next t a = some t' → P t → P t') {a : α}
    (ha : ∀ t t', next t a = some t' → P t') :
    ∀ {as : List α} {t t' : τ}, follow next t as = some t' → a ∈ as → P t'
  | b :: as, t, t', hfollow, hmem => by
      obtain ⟨t₁, hnext, hrest⟩ := follow_cons hfollow
      rcases List.mem_cons.mp hmem with rfl | hmem
      · exact follow_keeps hP hrest (ha t t₁ hnext)
      · exact follow_reaches hP ha hrest hmem

end Tracks

end Machinery
