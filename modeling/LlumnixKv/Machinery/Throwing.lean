import LlumnixKv.Machinery.Walk

/-!
# Machinery/Throwing — stateful code that may throw

    x : σ → σ × Except ε Unit        the state when `x` returned, or when it threw

A `catch` block sees the state as it was at the throw, so a throw must not lose it.  `seq` and
`each` are `x; y` and the `for` loop; each comes with the rule for the runs that return
(`seq_eq_ok`, `each_ok`), for what a run leaves alone however it ends (`Keeps`), and for what it
throws (`Throws`).
-/

namespace Machinery

/-- A computation that returns or throws. -/
abbrev Throwing (ε σ : Type*) := σ → σ × Except ε Unit

namespace Throwing

variable {ε σ τ α β : Type*} {body : α → Throwing ε σ} {r : σ → Except ε Unit}

/-- Throw, or do nothing. -/
def lift (r : σ → Except ε Unit) : Throwing ε σ := fun s => (s, r s)

/-- An update that cannot throw. -/
def modify (f : σ → σ) : Throwing ε σ := fun s => (f s, .ok ())

/-- `x; y`. -/
def seq (x y : Throwing ε σ) : Throwing ε σ := fun s => match x s with
  | (t, .ok ()) => y t
  | (t, .error e) => (t, .error e)

/-- `for (a : l) body(a)`. -/
def each (body : α → Throwing ε σ) : List α → Throwing ε σ
  | [] => fun s => (s, .ok ())
  | a :: l => (body a).seq (each body l)

/-- Run `x` on a component of the state. -/
def zoom (get : σ → τ) (set : τ → σ → σ) (x : Throwing ε τ) : Throwing ε σ := fun s =>
  (set (x (get s)).1 s, (x (get s)).2)

section Seq

variable {x y : Throwing ε σ} {s t : σ}

theorem seq_of_ok (h : x s = (t, .ok ())) : (x.seq y) s = y t := by rw [seq, h]

theorem seq_of_error {e : ε} (h : x s = (t, .error e)) : (x.seq y) s = (t, .error e) := by
  rw [seq, h]

end Seq

/-! ## Runs that return -/

section Returns

variable {x y : Throwing ε σ} {s s' : σ}

@[simp] theorem modify_eq_ok {f : σ → σ} : (modify f : Throwing ε σ) s = (s', .ok ()) ↔ s' = f s :=
  ⟨fun h => (congrArg Prod.fst h).symm, fun h => h ▸ rfl⟩

@[simp] theorem lift_eq_ok : lift r s = (s', .ok ()) ↔ r s = .ok () ∧ s' = s :=
  ⟨fun h => ⟨congrArg Prod.snd h, (congrArg Prod.fst h).symm⟩, fun ⟨h, hs⟩ => by rw [lift, h, hs]⟩

/-- **A sequence that returns went through the state its first half left.** -/
theorem seq_eq_ok : (x.seq y) s = (s', .ok ()) ↔ ∃ t, x s = (t, .ok ()) ∧ y t = (s', .ok ()) := by
  unfold seq
  rcases x s with ⟨t, r⟩
  cases r with
  | ok u =>
    refine ⟨fun h => ⟨t, rfl, h⟩, fun ⟨t', ht, h⟩ => ?_⟩
    obtain rfl : t = t' := congrArg Prod.fst ht
    exact h
  | error e =>
    exact ⟨fun h => (nomatch congrArg Prod.snd h), fun ⟨_, ht, _⟩ => (nomatch congrArg Prod.snd ht)⟩

/-- **The loop rule**: an invariant indexed by the entries done. -/
theorem each_ok {P : List α → σ → Prop}
    (hstep : ∀ done a t t', P done t → body a t = (t', .ok ()) → P (done ++ [a]) t') :
    ∀ {l done : List α} {s s' : σ}, P done s → each body l s = (s', .ok ()) → P (done ++ l) s'
  | [], done, s, s', hs, h => by
      obtain rfl : s = s' := congrArg Prod.fst h
      rwa [List.append_nil]
  | a :: l, done, s, s', hs, h => by
      obtain ⟨t, ha, hl⟩ := seq_eq_ok.mp h
      rw [List.append_cons]
      exact each_ok hstep (hstep done a s t hs ha) hl

end Returns

/-! ## What a run leaves alone -/

/-- However it ends, `x` does not change `f`. -/
def Keeps (f : σ → β) (x : Throwing ε σ) : Prop := ∀ s, f (x s).1 = f s

section Keep

variable {f : σ → β} {x y : Throwing ε σ}

theorem Keeps.lift (r : σ → Except ε Unit) : Keeps f (lift r) := fun _ => rfl

theorem Keeps.modify {g : σ → σ} (h : ∀ s, f (g s) = f s) :
    Keeps f (modify g : Throwing ε σ) := h

theorem Keeps.seq (hx : Keeps f x) (hy : Keeps f y) : Keeps f (x.seq y) := fun s => by
  unfold Throwing.seq
  have h := hx s
  split
  · next t ht =>
    rw [ht] at h
    exact (hy t).trans h
  · next t e ht =>
    rw [ht] at h
    exact h

theorem Keeps.each (h : ∀ a, Keeps f (body a)) :
    ∀ l, Keeps f (each body l)
  | [] => fun _ => rfl
  | a :: l => (h a).seq (Keeps.each h l)

end Keep

/-! ## Which errors come out -/

/-- From a state with `P`, `x` ends in one, and what it throws satisfies `E`. -/
def Throws (P : σ → Prop) (E : ε → Prop) (x : Throwing ε σ) : Prop :=
  ∀ s, P s → P (x s).1 ∧ ∀ e, (x s).2 = .error e → E e

section Throw

variable {P : σ → Prop} {E : ε → Prop} {x y : Throwing ε σ}

theorem Throws.lift (h : ∀ s e, P s → r s = .error e → E e) :
    Throws P E (lift r) := fun s hs => ⟨hs, fun e he => h s e hs he⟩

theorem Throws.modify {g : σ → σ} (h : ∀ s, P s → P (g s)) :
    Throws P E (modify g : Throwing ε σ) := fun s hs => ⟨h s hs, nofun⟩

theorem Throws.seq (hx : Throws P E x) (hy : Throws P E y) : Throws P E (x.seq y) := fun s hs => by
  unfold Throwing.seq
  have h := hx s hs
  split
  · next t ht =>
    rw [ht] at h
    exact hy t h.1
  · next t e ht =>
    rw [ht] at h
    exact h

theorem Throws.each (h : ∀ a, Throws P E (body a)) :
    ∀ l, Throws P E (each body l)
  | [] => fun _ hs => ⟨hs, nofun⟩
  | a :: l => (h a).seq (Throws.each h l)

end Throw

end Throwing

end Machinery
