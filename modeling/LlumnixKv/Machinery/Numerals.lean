import Mathlib.Algebra.Group.Nat.Defs
import Mathlib.Data.List.TakeWhile

/-!
# Machinery/Numerals — decimal numerals, and lists of them with a separator

    decimal n  --readUnsigned w-->  n           for n < 2 ^ w
    listed sep ns  --split at sep, skip the empty tokens-->  ns

`readUnsigned` is `strtoul` in base ten: it skips white space, takes a sign, reads the longest run of
digits and ignores what follows it.  A numeral holds digits only, so a separator that is not a digit
never occurs in one.
-/

open List

namespace Machinery

/-! ## Reading -/

/-- Why a text is not read as a number. -/
inductive NumeralError
  /-- no digit where one is expected -/
  | noConversion
  /-- the value does not fit -/
  | outOfRange
  deriving DecidableEq, Repr

/-- `isspace` in the "C" locale. -/
def isBlank (c : Char) : Bool := c = ' ' || (9 ≤ c.toNat && c.toNat ≤ 13)

/-- An optional sign in front: whether it is a minus, and the rest. -/
def takeSign : List Char → Bool × List Char
  | '-' :: cs => (true, cs)
  | '+' :: cs => (false, cs)
  | cs => (false, cs)

/-- `strtoul` in base ten with a result of `w` bits; a minus negates modulo `2 ^ w`. -/
def readUnsigned (w : ℕ) (text : List Char) : Except NumeralError ℕ :=
  let (neg, cs) := takeSign (text.dropWhile isBlank)
  let digits := cs.takeWhile Char.isDigit
  let value := Nat.ofDigitChars 10 digits 0
  if digits = [] then .error .noConversion
  else if 2 ^ w ≤ value then .error .outOfRange
  else .ok (if neg then (2 ^ w - value) % 2 ^ w else value)

/-! ## Numerals -/

/-- The decimal numeral of `n`. -/
def decimal (n : ℕ) : List Char := Nat.toDigits 10 n

theorem decimal_ne_nil (n : ℕ) : decimal n ≠ [] := Nat.toDigits_ne_nil

variable {c : Char}

theorem isDigit_of_mem_decimal {n : ℕ} (h : c ∈ decimal n) : c.isDigit = true :=
  Nat.isDigit_of_mem_toDigits (by decide) (by decide) h

theorem not_mem_decimal {n : ℕ} (h : c.isDigit = false) : c ∉ decimal n := fun hc => by
  rw [isDigit_of_mem_decimal hc] at h
  exact absurd h (by decide)

theorem all_isDigit_decimal (n : ℕ) : (decimal n).all Char.isDigit = true :=
  all_eq_true.mpr fun _ => isDigit_of_mem_decimal

theorem isBlank_of_isDigit (h : c.isDigit = true) : isBlank c = false := by
  simp only [Char.isDigit, Bool.and_eq_true, decide_eq_true_eq] at h
  have h48 : 48 ≤ c.toNat := h.1
  simp only [isBlank, Bool.or_eq_false_iff, decide_eq_false_iff_not, Bool.and_eq_false_iff]
  refine ⟨fun hc => ?_, .inr (by omega)⟩
  subst hc
  exact absurd h48 (by decide)

theorem takeSign_of_isDigit (h : c.isDigit = true) (cs : List Char) :
    takeSign (c :: cs) = (false, c :: cs) := by
  unfold takeSign
  split
  · rename_i heq
    rw [(cons.inj heq).1] at h
    exact absurd h (by decide)
  · rename_i heq
    rw [(cons.inj heq).1] at h
    exact absurd h (by decide)
  · rfl

/-- **A numeral that fits is read back.** -/
theorem readUnsigned_decimal {w n : ℕ} (h : n < 2 ^ w) : readUnsigned w (decimal n) = .ok n := by
  obtain ⟨c, cs, hcs⟩ := exists_cons_of_ne_nil (decimal_ne_nil n)
  have hc : c.isDigit = true := isDigit_of_mem_decimal (by rw [hcs]; exact mem_cons_self)
  have hblank : (decimal n).dropWhile isBlank = decimal n := by
    rw [hcs, dropWhile_cons_of_neg (by rw [isBlank_of_isDigit hc]; decide)]
  have hsign : takeSign (decimal n) = (false, decimal n) := by
    rw [hcs, takeSign_of_isDigit hc]
  have hdigits : (decimal n).takeWhile Char.isDigit = decimal n :=
    takeWhile_eq_self_iff.mpr fun _ => isDigit_of_mem_decimal
  have hvalue : Nat.ofDigitChars 10 (decimal n) 0 = n := Nat.ofDigitChars_ten_toDigits
  simp only [readUnsigned, hblank, hsign, hdigits, hvalue]
  rw [if_neg (decimal_ne_nil n), if_neg (Nat.not_le.mpr h)]
  rfl

/-! ## Lists of numerals -/

/-- The numerals of `ns` with a separator between them. -/
def listed (sep : Char) (ns : List ℕ) : List Char := [sep].intercalate (ns.map decimal)

theorem not_mem_listed {sep c : Char} (hc : c.isDigit = false) (hsep : c ≠ sep) :
    ∀ ns : List ℕ, c ∉ listed sep ns
  | [] => by simp [listed]
  | [n] => by simpa [listed] using not_mem_decimal hc
  | n :: m :: ns => by
    have ih : c ∉ listed sep (m :: ns) := not_mem_listed hc hsep (m :: ns)
    simp only [listed, map_cons, intercalate_cons_cons, mem_append,
      mem_singleton, not_or] at ih ⊢
    exact ⟨⟨not_mem_decimal hc, hsep⟩, ih⟩

/-- **Splitting a list of numerals and skipping the empty tokens gives the numerals** — of the empty
list, whose text is one empty token, none. -/
theorem filter_splitOn_listed {sep : Char} (hsep : sep.isDigit = false) (ns : List ℕ) :
    ((listed sep ns).splitOn sep).filter (· ≠ []) = ns.map decimal := by
  rcases eq_or_ne ns [] with rfl | hns
  · rfl
  · have hfree : ∀ l ∈ ns.map decimal, sep ∉ l := fun l hl => by
      obtain ⟨n, -, rfl⟩ := mem_map.mp hl
      exact not_mem_decimal hsep
    rw [listed, splitOn_intercalate sep hfree (by simpa using hns), filter_eq_self]
    intro l hl
    obtain ⟨n, -, rfl⟩ := mem_map.mp hl
    exact decide_eq_true (decimal_ne_nil n)

/-- A list of numerals is read back, one by one. -/
theorem mapM_decimal {ε : Type} {read : List Char → Except ε ℕ} :
    ∀ {ns : List ℕ}, (∀ n ∈ ns, read (decimal n) = .ok n) → (ns.map decimal).mapM read = .ok ns
  | [], _ => rfl
  | n :: ns, h => by
    rw [map_cons, mapM_cons, h n mem_cons_self,
      mapM_decimal fun m hm => h m (mem_cons_of_mem n hm)]
    rfl

end Machinery
