import Mathlib.Data.List.Basic

/-!
# Machinery/Stream — readers of a stream, and the bytes they take

    Reads r bs a     however the stream goes on after bs, r takes bs off it and returns a

A reader that fails returns `none`.  `Reads` composes along `bind` over an append (`Reads.bind`) and
along a repetition over a `flatMap` (`reads_readMany`), so a decoder written in the order of its
format is followed field by field.
-/

open List

namespace Machinery

variable {β α γ ι : Type}

/-- A reader of a stream of `β`: what it returns, and what is left of the stream. -/
abbrev StreamReader (β : Type) := StateT (List β) Option

/-- The next `n` elements; fails if there are fewer. -/
def readExactly (n : ℕ) : StreamReader β (List β) := fun s =>
  if n ≤ s.length then some (s.take n, s.drop n) else none

/-- `n` times the same reader. -/
def readMany (r : StreamReader β α) : ℕ → StreamReader β (List α)
  | 0 => pure []
  | n + 1 => r >>= fun a => readMany r n >>= fun as => pure (a :: as)

/-- `r` takes `bs` off any stream that starts with it and returns `a`. -/
def Reads (r : StreamReader β α) (bs : List β) (a : α) : Prop :=
  ∀ rest, r (bs ++ rest) = some (a, rest)

theorem reads_pure (a : α) : Reads (pure a : StreamReader β α) [] a := fun _ => rfl

theorem Reads.bind {r : StreamReader β α} {k : α → StreamReader β γ} {bs bs' : List β} {a : α}
    {c : γ} (h : Reads r bs a) (hk : Reads (k a) bs' c) : Reads (r >>= k) (bs ++ bs') c := by
  intro rest
  change (r (bs ++ bs' ++ rest)).bind (fun p => k p.1 p.2) = some (c, rest)
  rw [append_assoc, h (bs' ++ rest), Option.bind_some, hk rest]

/-- …followed by a function of what was read. -/
theorem Reads.bind_pure {r : StreamReader β α} {bs : List β} {a : α} (h : Reads r bs a)
    (f : α → γ) : Reads (r >>= fun a => pure (f a)) bs (f a) := by
  have hbind := h.bind (k := fun a => pure (f a)) (reads_pure (f a))
  rwa [append_nil] at hbind

theorem reads_readExactly {n : ℕ} {bs : List β} (h : bs.length = n) :
    Reads (readExactly n) bs bs := by
  intro rest
  have hle : n ≤ (bs ++ rest).length := by
    rw [length_append, h]
    exact Nat.le_add_right n _
  rw [readExactly, if_pos hle, take_left' h, drop_left' h]

/-- **A reader of one item, repeated, reads the items in their order.** -/
theorem reads_readMany {r : StreamReader β α} {enc : ι → List β} {val : ι → α} :
    ∀ {xs : List ι}, (∀ x ∈ xs, Reads r (enc x) (val x)) →
      Reads (readMany r xs.length) (xs.flatMap enc) (xs.map val)
  | [], _ => reads_pure []
  | x :: xs, h => by
      obtain ⟨hx, hxs⟩ := forall_mem_cons.mp h
      rw [flatMap_cons, length_cons, map_cons]
      exact hx.bind ((reads_readMany hxs).bind_pure (val x :: ·))

end Machinery
