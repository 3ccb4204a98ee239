import Mathlib.Tactic.Ring
import Mathlib.Data.List.Nodup

/-!
# Machinery/Bytes — numbers as bytes, bytes in memory

    leBytes w n      n as w bytes, the lowest first; leVal reads them back
    load m a n       the n cells of m from a on
    StoredAt m a bs     m holds bs from a on

`StoredAt` of an append is `StoredAt` of its parts (`storedAt_append`), so a format that is written field by
field is read field by field; a write elsewhere does not touch it (`StoredAt.of_agree`).  Moves of
cells, where none is written twice, may be made in any order (`moveAll_of_mem`).
-/

open List

namespace Machinery

/-! ## Little-endian numbers -/

/-- The `w` lowest bytes of `n`, the lowest first. -/
def leBytes : ℕ → ℕ → List UInt8
  | 0, _ => []
  | w + 1, n => UInt8.ofNat (n % 256) :: leBytes w (n / 256)

/-- The number with these bytes. -/
def leVal : List UInt8 → ℕ
  | [] => 0
  | b :: bs => b.toNat + 256 * leVal bs

@[simp] theorem length_leBytes : ∀ w n, (leBytes w n).length = w
  | 0, _ => rfl
  | w + 1, n => by rw [leBytes, length_cons, length_leBytes w]

/-- What was cut off is lost, … -/
theorem leVal_leBytes : ∀ w n, leVal (leBytes w n) = n % 256 ^ w
  | 0, n => by rw [leBytes, leVal, pow_zero, Nat.mod_one]
  | w + 1, n => by
      have hbyte : n % 256 % 2 ^ 8 = n % 256 := Nat.mod_eq_of_lt (Nat.mod_lt n (by decide))
      rw [leBytes, leVal, leVal_leBytes w, UInt8.toNat_ofNat', hbyte, pow_succ', Nat.mod_mul]

/-- … and a number that fits is read back. -/
theorem leVal_leBytes_of_lt {w n : ℕ} (h : n < 256 ^ w) : leVal (leBytes w n) = n := by
  rw [leVal_leBytes, Nat.mod_eq_of_lt h]

theorem leVal_lt : ∀ bs : List UInt8, leVal bs < 256 ^ bs.length
  | [] => by rw [leVal, length_nil, pow_zero]; exact one_pos
  | b :: bs => by
      have hb : b.toNat < 256 := b.toNat_lt
      have hbs := leVal_lt bs
      rw [leVal, length_cons, pow_succ]
      omega

/-! ## Memory -/

section Memory

variable {β : Type*} {m m' : ℕ → β} {bs : List β}

/-- The `n` cells from `a` on. -/
def load (m : ℕ → β) : ℕ → ℕ → List β
  | _, 0 => []
  | a, n + 1 => m a :: load m (a + 1) n

@[simp] theorem length_load : ∀ a n, (load m a n).length = n
  | _, 0 => rfl
  | a, n + 1 => by rw [load, length_cons, length_load (a + 1) n]

theorem load_add : ∀ a n k, load m a (n + k) = load m a n ++ load m (a + n) k
  | a, 0, k => by rw [load, nil_append, zero_add, add_zero]
  | a, n + 1, k => by
      rw [add_right_comm, load, load, load_add (a + 1) n k, cons_append,
        add_right_comm a 1 n, add_assoc a n 1]

theorem load_eq_load : ∀ {a a' n}, (∀ o < n, m (a + o) = m' (a' + o)) → load m a n = load m' a' n
  | _, _, 0, _ => rfl
  | a, a', n + 1, h => by
      have hrest (o : ℕ) (ho : o < n) : m (a + 1 + o) = m' (a' + 1 + o) := by
        rw [add_assoc, add_assoc, add_comm 1 o]
        exact h (o + 1) (Nat.succ_lt_succ ho)
      rw [load, load, load_eq_load hrest]
      exact congrArg (· :: load m' (a' + 1) n) (h 0 (Nat.succ_pos n))

theorem getElem_load {i : ℕ} : ∀ {a n} (h : i < (load m a n).length), (load m a n)[i] = m (a + i)
  | a, 0, h => absurd h (Nat.not_lt_zero i)
  | a, n + 1, h => by
      cases i with
      | zero => rfl
      | succ i =>
        have hi : i < (load m (a + 1) n).length := by
          rw [length_load] at h ⊢
          omega
        change (load m (a + 1) n)[i] = m (a + (i + 1))
        rw [getElem_load hi, add_assoc a 1 i, add_comm 1 i]

/-- `m` holds `bs` from `a` on. -/
def StoredAt (m : ℕ → β) (a : ℕ) (bs : List β) : Prop := load m a bs.length = bs

/-- **An append is held part by part.** -/
theorem storedAt_append {a : ℕ} {xs ys : List β} :
    StoredAt m a (xs ++ ys) ↔ StoredAt m a xs ∧ StoredAt m (a + xs.length) ys := by
  rw [StoredAt, length_append, load_add]
  exact ⟨fun h => append_inj h (length_load _ _), fun h => by rw [h.1, h.2]⟩

theorem storedAt_nil (a : ℕ) : StoredAt m a [] := rfl

/-- Only the cells of `bs` matter. -/
theorem StoredAt.of_agree {a : ℕ} (h : StoredAt m a bs)
    (hagree : ∀ i, a ≤ i → i < a + bs.length → m' i = m i) : StoredAt m' a bs :=
  (load_eq_load fun o ho => hagree (a + o) (by omega) (by omega)).trans h

theorem StoredAt.load_eq {a n : ℕ} (h : StoredAt m a bs) (hn : bs.length = n) :
    load m a n = bs := hn ▸ h

theorem StoredAt.getElem {a i : ℕ} (h : StoredAt m a bs) (hi : i < bs.length) :
    m (a + i) = bs[i] := by
  have hi' : i < (load m a bs.length).length := by rwa [length_load]
  rw [← getElem_load hi', getElem_of_eq h]

/-- The memory with `bs` written from `a` on. -/
def store (m : ℕ → β) (a : ℕ) (bs : List β) (i : ℕ) : β :=
  if a ≤ i then (bs[i - a]?).getD (m i) else m i

theorem store_of_not_mem {a i : ℕ} (h : i < a ∨ a + bs.length ≤ i) : store m a bs i = m i := by
  unfold store
  split
  · rw [getElem?_eq_none (by omega), Option.getD_none]
  · rfl

theorem storedAt_store (m : ℕ → β) (a : ℕ) (bs : List β) : StoredAt (store m a bs) a bs := by
  refine ext_getElem (length_load _ _) fun i hi hi' => ?_
  rw [getElem_load hi, store, if_pos (Nat.le_add_right a i), Nat.add_sub_cancel_left,
    getElem?_eq_getElem hi', Option.getD_some]

end Memory

/-! ## Moving cells -/

section Moves

variable {α β γ : Type*} [DecidableEq γ]

/-- The destination after the moves, made one after the other. -/
def moveAll (src : α → β) : List (α × γ) → (γ → β) → γ → β
  | [], dst => dst
  | m :: ms, dst => moveAll src ms (Function.update dst m.2 (src m.1))

theorem moveAll_of_not_mem {src : α → β} {t : γ} : ∀ {ms : List (α × γ)} {dst : γ → β},
    (∀ m ∈ ms, m.2 ≠ t) → moveAll src ms dst t = dst t
  | [], _, _ => rfl
  | m :: ms, dst, h => by
      rw [moveAll, moveAll_of_not_mem fun m' hm' => h m' (List.mem_cons_of_mem m hm'),
        Function.update_of_ne (h m List.mem_cons_self).symm]

/-- **A cell that is written once holds what its move brought.** -/
theorem moveAll_of_mem {src : α → β} {m : α × γ} : ∀ {ms : List (α × γ)} {dst : γ → β},
    (ms.map Prod.snd).Nodup → m ∈ ms → moveAll src ms dst m.2 = src m.1
  | m' :: ms, dst, hnodup, hm => by
      rw [List.map_cons, List.nodup_cons] at hnodup
      rw [moveAll]
      rcases List.mem_cons.mp hm with rfl | hm
      · have hlater : ∀ m'' ∈ ms, m''.2 ≠ m.2 := fun m'' hm'' heq =>
          hnodup.1 (heq ▸ List.mem_map_of_mem hm'')
        rw [moveAll_of_not_mem hlater, Function.update_self]
      · exact moveAll_of_mem hnodup.2 hm

end Moves

end Machinery
