import Mathlib.Data.List.Basic

/-!
# Machinery/Keyed — loops whose bodies touch one key each

A state that holds a part for every key, and a loop over items that names the key of each:

    forEach   item ∷ item ∷ item ∷ …     one state, the items in turn
       │
       ▼ at one key
    thread    item ∷ item ∷ …            one part, only the items of that key

What the loop does to one key is what the items of that key do to its part alone
(`forEach_thread`), and where it fails, it fails by the items of one key alone
(`forEach_error`): requests handled in one loop are as good as handled apart.
-/

open List

namespace Machinery

/-- A state `σ` with a part `ν` for every key `κ`. -/
structure Keyed (σ κ ν : Type*) where
  get : σ → κ → ν
  put : σ → κ → ν → σ
  get_put_self : ∀ s k v, get (put s k v) k = v
  get_put_ne : ∀ s k v {k'}, k' ≠ k → get (put s k v) k' = get s k'

namespace Keyed

variable {σ κ ν ι ε : Type*}

/-- The items in turn on one part, collecting what they emit; `none` as soon as one fails. -/
def thread (body : ι → ν → Option (ν × List ε)) : List ι → ν → Option (ν × List ε)
  | [], v => some (v, [])
  | i :: is, v =>
    match body i v with
    | none => none
    | some (v', out) => (thread body is v').map fun r => (r.1, out ++ r.2)

/-- The items in turn, each on the part of its key; what is emitted is marked with the key, and so
is a failure. -/
def forEach (L : Keyed σ κ ν) (key : ι → κ) (body : ι → ν → Option (ν × List ε)) :
    List ι → σ → Except κ (σ × List (κ × ε))
  | [], s => .ok (s, [])
  | i :: is, s =>
    match body i (L.get s (key i)) with
    | none => .error (key i)
    | some (v, out) =>
      match forEach L key body is (L.put s (key i) v) with
      | .error k => .error k
      | .ok (s', outs) => .ok (s', out.map (Prod.mk (key i)) ++ outs)

variable {L : Keyed σ κ ν} {key : ι → κ} {body : ι → ν → Option (ν × List ε)}

variable {is js : List ι} {P : ν → Prop} {out : List ε} {i : ι} {out₁ out₂ : List ε} {v v' : ν}

/-- What ran when a thread of `i :: is` came through: the item, then the rest. -/
theorem thread_cons {is : List ι} (h : thread body (i :: is) v = some (v', out)) :
    ∃ v₁ out₁ out₂, body i v = some (v₁, out₁) ∧ thread body is v₁ = some (v', out₂) ∧
      out = out₁ ++ out₂ := by
  rw [thread] at h
  split at h
  · cases h
  · next v₁ out₁ hbody =>
    obtain ⟨⟨v₂, out₂⟩, hrest, heq⟩ := Option.map_eq_some_iff.mp h
    cases heq
    exact ⟨v₁, out₁, out₂, hbody, hrest, rfl⟩

/-- Threads one after the other. -/
theorem thread_append (h : thread body is v = some (v', out)) :
    thread body (is ++ js) v = (thread body js v').map fun r => (r.1, out ++ r.2) := by
  induction is generalizing v out with
  | nil =>
    obtain ⟨rfl, rfl⟩ := Prod.mk.inj (Option.some.inj h)
    rw [nil_append]
    cases thread body js v <;> rfl
  | cons i is ih =>
    obtain ⟨v₁, out₁, out₂, hbody, hrest, rfl⟩ := thread_cons h
    rw [cons_append, thread, hbody]
    dsimp only
    rw [ih hrest]
    cases thread body js v' with
    | none => rfl
    | some r => simp

theorem thread_append_none {v : ν} (h : thread body is v = none) :
    thread body (is ++ js) v = none := by
  induction is generalizing v with
  | nil => cases h
  | cons i is ih =>
    rw [thread] at h
    rw [cons_append, thread]
    split at h
    · rfl
    · next v₁ out₁ hbody =>
      rw [ih (Option.map_eq_none_iff.mp h), Option.map_none]

theorem thread_append_some {v v₁ v₂ : ν} (h₁ : thread body is v = some (v₁, out₁))
    (h₂ : thread body js v₁ = some (v₂, out₂)) :
    thread body (is ++ js) v = some (v₂, out₁ ++ out₂) := by
  rw [thread_append h₁, h₂, Option.map_some]

theorem thread_cons_some {is : List ι} {v v₁ v₂ : ν} (h₁ : body i v = some (v₁, out₁))
    (h₂ : thread body is v₁ = some (v₂, out₂)) :
    thread body (i :: is) v = some (v₂, out₁ ++ out₂) := by
  rw [thread, h₁]
  exact congrArg (Option.map _) h₂

theorem thread_singleton (h : body i v = some (v', out)) : thread body [i] v = some (v', out) :=
  (thread_cons_some h rfl).trans (by rw [append_nil])

/-- What is true of everything the items emit is true of what a thread emits. -/
theorem thread_emits {Q : ε → Prop} : ∀ {is : List ι} {v v' : ν} {out : List ε},
    (∀ i ∈ is, ∀ v v' out, body i v = some (v', out) → ∀ e ∈ out, Q e) →
    thread body is v = some (v', out) → ∀ e ∈ out, Q e
  | [], v, v', out, _, h, e, he => by
      cases h
      cases he
  | i :: is, v, v', out, hbody, h, e, he => by
      obtain ⟨v₁, out₁, out₂, hi, hrest, rfl⟩ := thread_cons h
      rcases mem_append.mp he with he | he
      · exact hbody i mem_cons_self v v₁ out₁ hi e he
      · exact thread_emits (fun j hj => hbody j (mem_cons_of_mem i hj)) hrest e he

/-- An item that keeps an invariant, and emits nothing that `f` sees. -/
def Quiet {γ : Type*} (body : ι → ν → Option (ν × List ε)) (P : ν → Prop) (f : ε → Option γ)
    (i : ι) : Prop :=
  ∀ v, P v → ∃ v' out, body i v = some (v', out) ∧ P v' ∧ out.filterMap f = []

/-- **Quiet items make a quiet thread.** -/
theorem thread_quiet {γ : Type*} {f : ε → Option γ} : ∀ {is : List ι},
    (∀ i ∈ is, Quiet body P f i) → Quiet (thread body) P f is
  | [], _, v, hv => ⟨v, [], rfl, hv, rfl⟩
  | i :: is, hbody, v, hv => by
      obtain ⟨v₁, out₁, h₁, hv₁, hout₁⟩ := hbody i mem_cons_self v hv
      obtain ⟨v₂, out₂, h₂, hv₂, hout₂⟩ :=
        thread_quiet (fun j hj => hbody j (mem_cons_of_mem i hj)) v₁ hv₁
      refine ⟨v₂, out₁ ++ out₂, thread_cons_some h₁ h₂, hv₂, ?_⟩
      rw [filterMap_append, hout₁, hout₂, append_nil]

theorem Quiet.replicate {γ : Type*} {f : ε → Option γ} (h : Quiet body P f i) (n : ℕ) :
    Quiet (thread body) P f (List.replicate n i) :=
  thread_quiet fun _ hj => eq_of_mem_replicate hj ▸ h

/-! ## At one key -/

variable [DecidableEq κ]

/-- What was emitted for one key. -/
def emitted (k : κ) (out : List (κ × ε)) : List ε :=
  out.filterMap fun e => if e.1 = k then some e.2 else none

@[simp] theorem emitted_nil (k : κ) : emitted k ([] : List (κ × ε)) = [] := rfl

@[simp] theorem emitted_append (k : κ) (out out' : List (κ × ε)) :
    emitted k (out ++ out') = emitted k out ++ emitted k out' := filterMap_append

@[simp] theorem emitted_map_self (k : κ) : ∀ out : List ε, emitted k (out.map (Prod.mk k)) = out
  | [] => rfl
  | e :: out => by
      have ih := emitted_map_self k out
      rw [emitted] at ih ⊢
      simp [ih]

theorem emitted_map_of_ne {k k' : κ} (h : k' ≠ k) (out : List ε) :
    emitted k (out.map (Prod.mk k')) = [] := by
  refine filterMap_eq_nil_iff.mpr fun e he => ?_
  obtain ⟨_, -, rfl⟩ := mem_map.mp he
  exact if_neg h

/-- **At one key the loop is the thread of its items.** -/
theorem forEach_thread (k : κ) : ∀ {is : List ι} {s s' : σ} {out : List (κ × ε)},
    forEach L key body is s = .ok (s', out) →
    thread body (is.filter fun i => key i = k) (L.get s k) = some (L.get s' k, emitted k out)
  | [], s, s', out, h => by
      obtain ⟨rfl, rfl⟩ := Prod.mk.inj (Except.ok.inj h)
      rfl
  | i :: is, s, s', out, h => by
      rw [forEach] at h
      split at h
      · cases h
      · next v outs hbody =>
        split at h
        · cases h
        · next s₂ outs₂ hrest =>
          obtain ⟨rfl, rfl⟩ := Prod.mk.inj (Except.ok.inj h)
          have ih := forEach_thread k hrest
          by_cases hk : key i = k
          · subst hk
            rw [L.get_put_self] at ih
            rw [filter_cons_of_pos (by simp), thread, hbody]
            simp only [ih, Option.map_some, emitted_append, emitted_map_self]
          · rw [L.get_put_ne s (key i) v (Ne.symm hk)] at ih
            rw [filter_cons_of_neg (by simpa using hk), ih, emitted_append,
              emitted_map_of_ne hk, nil_append]

/-- **A loop that fails does so by the items of one key.** -/
theorem forEach_error {k : κ} : ∀ {is : List ι} {s : σ}, forEach L key body is s = .error k →
    thread body (is.filter fun i => key i = k) (L.get s k) = none
  | [], s, h => absurd h nofun
  | i :: is, s, h => by
      rw [forEach] at h
      split at h
      · next hbody =>
        obtain rfl := Except.error.inj h
        rw [filter_cons_of_pos (by simp), thread, hbody]
      · next v outs hbody =>
        split at h
        · next k₂ hrest =>
          obtain rfl := Except.error.inj h
          have ih := forEach_error hrest
          by_cases hk : key i = k₂
          · subst hk
            rw [L.get_put_self] at ih
            rw [filter_cons_of_pos (by simp), thread, hbody]
            simp only [ih, Option.map_none]
          · rw [L.get_put_ne s (key i) v (Ne.symm hk)] at ih
            rw [filter_cons_of_neg (by simpa using hk), ih]
        · cases h

end Keyed

end Machinery
