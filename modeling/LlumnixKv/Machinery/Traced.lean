import Mathlib.Data.List.Basic

/-!
# Machinery/Traced — code that is watched

    x : Traced ε α        what `x` did, event by event, and what it returned unless it stopped

A handler that may return early is run for its effects; `Traced` keeps them in order.  `after es x`
is `x` with `es` before it: the rules `emit_bind`, `after_bind` and `pure_bind` run a `do` block
until nothing but `after` is left.
-/

namespace Machinery

universe u v

/-- The events of a computation, and its result if it did not stop. -/
structure Traced (ε : Type u) (α : Type v) where
  log : List ε
  result : Option α
  deriving DecidableEq

namespace Traced

variable {ε : Type u} {α β : Type v} (es : List ε) (x : Traced ε α)

/-- Do `es`, then `x`. -/
def after : Traced ε α := ⟨es ++ x.log, x.result⟩

/-- Run `f` on what `x` returns, if it does. -/
protected def bind (f : α → Traced ε β) : Traced ε β :=
  match x.result with
  | none => ⟨x.log, none⟩
  | some a => after x.log (f a)

instance : Monad (Traced ε) where
  pure a := ⟨[], some a⟩
  bind := Traced.bind

/-- One event. -/
def emit (e : ε) : Traced ε Unit := ⟨[e], some ()⟩

/-- An early `return`. -/
def stop : Traced ε α := ⟨[], none⟩

@[simp] theorem log_after : (after es x).log = es ++ x.log := rfl

@[simp] theorem result_after : (after es x).result = x.result := rfl

@[simp] theorem log_pure (a : α) : (pure a : Traced ε α).log = [] := rfl

@[simp] theorem result_pure (a : α) : (pure a : Traced ε α).result = some a := rfl

@[simp] theorem log_stop : (stop : Traced ε α).log = [] := rfl

@[simp] theorem result_stop : (stop : Traced ε α).result = none := rfl

@[simp] theorem pure_bind (a : α) (f : α → Traced ε β) : (pure a >>= f) = f a := rfl

@[simp] theorem stop_bind (f : α → Traced ε β) : ((stop : Traced ε α) >>= f) = stop := rfl

theorem emit_bind {β : Type} (e : ε) (f : Unit → Traced ε β) :
    (emit e >>= f) = after [e] (f ()) := rfl

@[simp] theorem after_after (es es' : List ε) (x : Traced ε α) :
    after es (after es' x) = after (es ++ es') x :=
  congrArg (Traced.mk · x.result) (List.append_assoc es es' x.log).symm

theorem bind_of_result {x : Traced ε α} {a : α} (h : x.result = some a) (f : α → Traced ε β) :
    (x >>= f) = after x.log (f a) := by
  change Traced.bind x f = _
  rw [Traced.bind, h]

theorem bind_of_stopped {x : Traced ε α} (h : x.result = none) (f : α → Traced ε β) :
    (x >>= f) = ⟨x.log, none⟩ := by
  change Traced.bind x f = _
  rw [Traced.bind, h]

theorem after_bind (f : α → Traced ε β) :
    (after es x >>= f) = after es (x >>= f) := by
  cases hx : x.result with
  | none => rw [bind_of_stopped hx, bind_of_stopped (x := after es x) hx]; rfl
  | some a =>
    rw [bind_of_result hx, bind_of_result (x := after es x) hx, after_after, log_after]

end Traced

end Machinery
