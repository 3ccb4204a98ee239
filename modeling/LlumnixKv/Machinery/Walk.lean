import Mathlib.Data.List.Perm.Basic
import Mathlib.Data.List.Range
import Mathlib.Data.Nat.ModEq
import Mathlib.Tactic.Ring

/-!
# Machinery/Walk — loops that emit records and may fail

    emitAll f [a₁, …, aₙ]   runs `f` on each entry and concatenates what it emits
    walk size body          consumes `left` positions from `pos`, a chunk at a time

A loop over a range of positions is usually cut into chunks by some geometry the caller does not
care about.  `walk_perm` says the cut does not matter: when every chunk emits, up to order, what its
positions emit one by one, so does the whole walk.  Where only what is emitted matters, a loop *yields*
`P`: it succeeds, and all it emits is `P`.

An offset into nested arrays is a mixed-radix numeral `q · b + r`, `r < b`, written one digit at a time
(`Radix`): it is bounded by the product of its radices and determines its digits.
-/

open List

namespace Machinery

/-! ## Mixed-radix addresses -/

namespace Radix

variable {b q q' m r r' : ℕ}

/-- One more digit multiplies the bound by its radix. -/
theorem digit_lt (hq : q < m) (hr : r < b) : q * b + r < m * b :=
  calc q * b + r < (q + 1) * b := by rw [Nat.succ_mul]; omega
    _ ≤ m * b := Nat.mul_le_mul_right b hq

/-- …and for spans: a span inside its digit's cell stays inside the whole. -/
theorem span_le {len : ℕ} (hq : q < m) (hr : r + len ≤ b) : q * b + r + len ≤ m * b :=
  calc q * b + r + len ≤ (q + 1) * b := by rw [Nat.succ_mul]; omega
    _ ≤ m * b := Nat.mul_le_mul_right b hq

theorem div_digit (hr : r < b) : (q * b + r) / b = q := by
  rw [mul_comm, Nat.mul_add_div (by omega), Nat.div_eq_of_lt hr, add_zero]

theorem mod_digit (hr : r < b) : (q * b + r) % b = r := by
  rw [mul_comm, Nat.mul_add_mod, Nat.mod_eq_of_lt hr]

theorem exists_digit {o : ℕ} (h : o < m * b) : ∃ q < m, ∃ r < b, o = q * b + r :=
  ⟨o / b, Nat.div_lt_of_lt_mul (by rwa [mul_comm]), o % b,
    Nat.mod_lt o (Nat.pos_of_ne_zero fun hb => by simp [hb] at h), (Nat.div_add_mod' o b).symm⟩

/-- **A numeral determines its digits.** -/
theorem digit_inj (hr : r < b) (hr' : r' < b) (h : q * b + r = q' * b + r') : q = q' ∧ r = r' :=
  ⟨by rw [← div_digit (q := q) hr, h, div_digit hr'],
    by rw [← mod_digit (q := q) hr, h, mod_digit hr']⟩

/-- Whole blocks: a numeral is past `a` blocks when its upper digit is. -/
theorem mul_le_digit {a : ℕ} (hr : r < b) : a * b ≤ q * b + r ↔ a ≤ q := by
  rw [← Nat.le_div_iff_mul_le (Nat.zero_lt_of_lt hr), div_digit hr]

theorem digit_lt_mul {a : ℕ} (hr : r < b) : q * b + r < a * b ↔ q < a := by
  rw [← not_le, mul_le_digit hr, not_le]

/-- Different cells of one size do not overlap. -/
theorem cells_disjoint (h : q ≠ q') : q * b + b ≤ q' * b ∨ q' * b + b ≤ q * b := by
  rw [← Nat.succ_mul, ← Nat.succ_mul]
  rcases Nat.lt_or_gt_of_ne h with hlt | hlt
  · exact .inl (Nat.mul_le_mul_right b hlt)
  · exact .inr (Nat.mul_le_mul_right b hlt)

end Radix

universe u

variable {ε α : Type*} {β : Type u}

/-! ## Emitting over a list -/

/-- Run `f` over a list and concatenate what it emits; the first failure ends the loop. -/
def emitAll (f : α → Except ε (List β)) : List α → Except ε (List β)
  | [] => .ok []
  | a :: l => do
    let out ← f a
    let rest ← emitAll f l
    return out ++ rest

/-- A bind that succeeds had both of its parts succeed. -/
theorem bind_eq_ok {γ : Type u} {x : Except ε γ} {f : γ → Except ε β} {b : β} :
    (x >>= f) = .ok b ↔ ∃ a, x = .ok a ∧ f a = .ok b := by
  cases x with
  | error e => exact ⟨fun h => (nomatch h), fun ⟨_, h, _⟩ => (nomatch h)⟩
  | ok a => exact ⟨fun h => ⟨a, rfl, h⟩, fun ⟨_, h, hf⟩ => by cases h; exact hf⟩

theorem after_check {γ : Type u} {x : Except ε γ} {y : Except ε β} {b : β}
    (h : (x >>= fun _ => y) = .ok b) : y = .ok b :=
  (bind_eq_ok.mp h).choose_spec.2

@[simp] theorem ok_bind {γ : Type u} (a : γ) (f : γ → Except ε β) : (Except.ok a >>= f) = f a := rfl

@[simp] theorem emitAll_nil (f : α → Except ε (List β)) : emitAll f [] = .ok [] := rfl

variable {f : α → Except ε (List β)} {g : α → List β} {γ : Type*} {out : List β}
  {body : ℕ → ℕ → Except ε (List β)}

theorem emitAll_cons_eq_ok {a : α} {l : List α} :
    emitAll f (a :: l) = .ok out ↔
      ∃ x y, f a = .ok x ∧ emitAll f l = .ok y ∧ x ++ y = out := by
  rw [emitAll, bind_eq_ok]
  constructor
  · rintro ⟨x, hx, h⟩
    obtain ⟨y, hy, hxy⟩ := bind_eq_ok.mp h
    exact ⟨x, y, hx, hy, Except.ok.inj hxy⟩
  · rintro ⟨x, y, hx, hy, rfl⟩
    exact ⟨x, hx, bind_eq_ok.mpr ⟨y, hy, rfl⟩⟩

/-- **What a loop emits, entry by entry.** -/
theorem emitAll_eq_of_ok :
    ∀ {l : List α} {out : List β}, (∀ a ∈ l, ∀ x, f a = .ok x → x = g a) →
      emitAll f l = .ok out → out = l.flatMap g
  | [], _, _, h => (Except.ok.inj h).symm
  | a :: l, out, hg, h => by
      obtain ⟨x, y, hx, hy, rfl⟩ := emitAll_cons_eq_ok.mp h
      rw [flatMap_cons, ← hg a mem_cons_self x hx,
        emitAll_eq_of_ok (fun b hb => hg b (mem_cons_of_mem _ hb)) hy]

theorem exists_ok_of_emitAll {a : α} :
    ∀ {l : List α} {out : List β}, a ∈ l → emitAll f l = .ok out → ∃ x, f a = .ok x
  | b :: l, out, ha, h => by
      obtain ⟨x, y, hx, hy, -⟩ := emitAll_cons_eq_ok.mp h
      rcases mem_cons.mp ha with rfl | ha
      · exact ⟨x, hx⟩
      · exact exists_ok_of_emitAll ha hy

/-- **A loop whose entries all succeed succeeds.** -/
theorem emitAll_ok :
    ∀ {l : List α}, (∀ a ∈ l, f a = .ok (g a)) → emitAll f l = .ok (l.flatMap g)
  | [], _ => rfl
  | a :: l, h => emitAll_cons_eq_ok.mpr ⟨g a, l.flatMap g, h a mem_cons_self,
      emitAll_ok fun b hb => h b (mem_cons_of_mem _ hb), (flatMap_cons ..).symm⟩

/-- **A loop succeeds exactly when each entry does**, and then emits what they emit. -/
theorem emitAll_eq_ok {P : α → Prop} {l : List α} (h : ∀ a ∈ l, ∀ x, f a = .ok x ↔ P a ∧ x = g a) :
    emitAll f l = .ok out ↔ (∀ a ∈ l, P a) ∧ out = l.flatMap g := by
  constructor
  · intro hout
    refine ⟨fun a ha => ?_, emitAll_eq_of_ok (fun a ha x hx => ((h a ha x).mp hx).2) hout⟩
    obtain ⟨x, hx⟩ := exists_ok_of_emitAll ha hout
    exact ((h a ha x).mp hx).1
  · rintro ⟨hP, rfl⟩
    exact emitAll_ok fun a ha => (h a ha _).mpr ⟨hP a ha, rfl⟩

theorem emitAll_congr {f g : α → Except ε (List β)} :
    ∀ {l : List α}, (∀ a ∈ l, f a = g a) → emitAll f l = emitAll g l
  | [], _ => rfl
  | a :: l, h => by
      rw [emitAll, emitAll, h a mem_cons_self,
        emitAll_congr fun b hb => h b (mem_cons_of_mem _ hb)]

/-- What a loop emits, read through `g`, is what the loop emits whose body is read through `g`. -/
theorem map_emitAll (g : β → List γ) (f : α → Except ε (List β)) : ∀ l : List α,
    (emitAll f l).map (·.flatMap g) = emitAll (fun a => (f a).map (·.flatMap g)) l
  | [] => rfl
  | a :: l => by
      rw [emitAll, emitAll, ← map_emitAll g f l]
      rcases f a with e | x
      · rfl
      · rcases emitAll f l with e | y
        · rfl
        · exact congrArg Except.ok (flatMap_append ..)

/-- Renaming what the body emits renames what the loop emits. -/
theorem emitAll_map {γ : Type u} (h : β → γ) (f : α → Except ε (List β)) (l : List α) :
    emitAll (fun a => List.map h <$> f a) l = List.map h <$> emitAll f l := by
  have hmap : List.map h = fun out : List β => out.flatMap fun b => [h b] :=
    funext fun _ => map_eq_flatMap
  rw [hmap]
  exact (map_emitAll (fun b => [h b]) f l).symm

/-- …and renaming the entries renames what the body is run on. -/
theorem emitAll_of_map {κ : Type*} (f : α → Except ε (List β)) (h : κ → α) : ∀ l : List κ,
    emitAll f (l.map h) = emitAll (fun k => f (h k)) l
  | [] => rfl
  | k :: l => by rw [map_cons, emitAll, emitAll, emitAll_of_map f h l]

/-- Two loops whose bodies succeed together succeed together. -/
theorem emitAll_eq_ok_iff {h : β → γ} {f' : α → Except ε (List γ)} : ∀ {l : List α} {out : List β},
    (∀ a ∈ l, ∀ x, f a = .ok x ↔ f' a = .ok (x.map h)) →
    (emitAll f l = .ok out ↔ emitAll f' l = .ok (out.map h))
  | [], out, _ => by cases out <;> simp
  | a :: l, out, hf => by
      have htail : ∀ out, emitAll f l = .ok out ↔ emitAll f' l = .ok (out.map h) := fun _ =>
        emitAll_eq_ok_iff fun b hb => hf b (mem_cons_of_mem a hb)
      rw [emitAll_cons_eq_ok, emitAll_cons_eq_ok]
      constructor
      · rintro ⟨x, y, hx, hy, rfl⟩
        exact ⟨x.map h, y.map h, (hf a mem_cons_self x).mp hx, (htail y).mp hy,
          map_append.symm⟩
      · rintro ⟨x', y', hx, hy, hxy⟩
        obtain ⟨x, y, rfl, rfl, rfl⟩ := map_eq_append_iff.mp hxy.symm
        exact ⟨x, y, (hf a mem_cons_self x).mpr hx, (htail y).mpr hy, rfl⟩

/-- A loop that emits one value for each entry emits as many as there are entries. -/
theorem length_emitAll {f : α → Except ε β} : ∀ {l : List α} {out : List β},
    emitAll (fun a => do let x ← f a; return [x]) l = .ok out → out.length = l.length
  | [], _, h => by rw [← Except.ok.inj h]; rfl
  | a :: l, out, h => by
      obtain ⟨x, y, hx, hy, rfl⟩ := emitAll_cons_eq_ok.mp h
      obtain ⟨v, -, hv⟩ := bind_eq_ok.mp hx
      rw [← Except.ok.inj hv, length_append, length_emitAll hy, length_singleton,
        length_cons, add_comm]

/-- A loop over the indices of a list that makes one value for each entry. -/
theorem emitAll_singletons {f : ℕ → Except ε (List β)} {R : γ → β → Prop} :
    ∀ {k : ℕ} {l : List γ}, (∀ i c, l[i]? = some c → ∃ x, f (k + i) = .ok [x] ∧ R c x) →
      ∃ out, emitAll f (List.range' k l.length) = .ok out ∧ List.Forall₂ R l out
  | _, [], _ => ⟨[], rfl, .nil⟩
  | k, c :: l, h => by
      obtain ⟨x, hx, hR⟩ := h 0 c rfl
      obtain ⟨out, hout, hall⟩ := emitAll_singletons (k := k + 1) (l := l) fun i c hi => by
        rw [add_right_comm, add_assoc]
        exact h (i + 1) c hi
      exact ⟨x :: out, emitAll_cons_eq_ok.mpr ⟨[x], out, hx, hout, rfl⟩, .cons hR hall⟩

/-- Two nested loops may change places. -/
theorem flatMap_comm_perm (f : α → γ → List β) (l' : List γ) : ∀ l : List α,
    (l.flatMap fun a => l'.flatMap (f a)).Perm (l'.flatMap fun b => l.flatMap fun a => f a b)
  | [] => by simp
  | a :: l => by
      refine ((flatMap_comm_perm f l' l).append_left (l'.flatMap (f a))).trans ?_
      exact flatMap_append_perm l' (f a) fun b => l.flatMap fun a => f a b

/-- A run of rows is its rows one after the other. -/
theorem range'_mul (s k : ℕ) : ∀ n : ℕ,
    List.range' s (n * k) = (List.range n).flatMap fun i => List.range' (s + i * k) k
  | 0 => by rw [zero_mul]; rfl
  | n + 1 => by
      rw [Nat.succ_mul, ← range'_append_1, range'_mul s k n, range_succ,
        flatMap_append, flatMap_singleton]

/-- Rows that follow each other may be taken as runs. -/
theorem flatMap_runs_perm (l : List γ) {r : ℕ → γ → ℕ} {t n k : ℕ}
    (hrow : ∀ i < n, ∀ c, r (t + i) c = r t c + i * k) :
    (l.flatMap fun c => List.range' (r t c) (n * k)).Perm
      ((List.range' t n).flatMap fun t' => l.flatMap fun c => List.range' (r t' c) k) := by
  have hrun (c : γ) : List.range' (r t c) (n * k) =
      (List.range' t n).flatMap fun t' => List.range' (r t' c) k := by
    rw [range'_mul, range'_eq_map_range, flatMap_map]
    exact flatMap_congr fun i hi => by rw [hrow i (mem_range.mp hi)]
  simp only [hrun]
  exact flatMap_comm_perm _ _ _

/-! ## Walking a range of positions -/

/-- Consume `left` positions from `pos`: each round takes the `size pos left` positions the geometry
allows and emits what `body` makes of them.  `fuel` bounds the number of rounds. -/
def walk (size : ℕ → ℕ → ℕ) (body : ℕ → ℕ → Except ε (List β)) :
    ℕ → ℕ → ℕ → Except ε (List β)
  | 0, _, _ => .ok []
  | fuel + 1, pos, left =>
    if left = 0 then .ok []
    else do
      let out ← body pos (size pos left)
      let rest ← walk size body fuel (pos + size pos left) (left - size pos left)
      return out ++ rest

/-- A chunk size that makes progress and never overruns. -/
def Advances (size : ℕ → ℕ → ℕ) : Prop :=
  ∀ pos left, 0 < left → 0 < size pos left ∧ size pos left ≤ left

section Walk

variable {size : ℕ → ℕ → ℕ} {body : ℕ → ℕ → Except ε (List β)} {fuel pos left : ℕ}

@[simp] theorem walk_zero (fuel pos : ℕ) : walk size body fuel pos 0 = .ok [] := by
  cases fuel with
  | zero => rfl
  | succ n => rw [walk, if_pos rfl]

theorem walk_succ_eq_ok (hl : 0 < left) :
    walk size body (fuel + 1) pos left = .ok out ↔
      ∃ x y, body pos (size pos left) = .ok x ∧
        walk size body fuel (pos + size pos left) (left - size pos left) = .ok y ∧
        x ++ y = out := by
  rw [walk, if_neg (by omega), bind_eq_ok]
  constructor
  · rintro ⟨x, hx, h⟩
    obtain ⟨y, hy, hxy⟩ := bind_eq_ok.mp h
    exact ⟨x, y, hx, hy, Except.ok.inj hxy⟩
  · rintro ⟨x, y, hx, hy, rfl⟩
    exact ⟨x, hx, bind_eq_ok.mpr ⟨y, hy, rfl⟩⟩

/-- Renaming what the body emits renames what the walk emits. -/
theorem walk_map {γ : Type u} (h : β → γ) (size : ℕ → ℕ → ℕ) (body : ℕ → ℕ → Except ε (List β)) :
    ∀ fuel pos left, walk size (fun p l => List.map h <$> body p l) fuel pos left =
      List.map h <$> walk size body fuel pos left
  | 0, _, _ => rfl
  | fuel + 1, pos, left => by
      rw [walk, walk]
      split
      · rfl
      · rw [walk_map h size body fuel]
        simp only [map_bind, bind_map_left, map_pure, map_append]

/-- **The rule of a walk**: what holds of every chunk, and of two stretches end to end when it holds of
each, holds of the whole range. -/
theorem walk_induction {Q : ℕ → ℕ → List β → Prop} (hs : Advances size) (hnil : ∀ pos, Q pos 0 [])
    (happ : ∀ pos m n x y, Q pos m x → Q (pos + m) n y → Q pos (m + n) (x ++ y)) :
    ∀ {fuel pos left : ℕ} {out : List β}, left ≤ fuel →
    (∀ p l x, pos ≤ p → 0 < l → p + l = pos + left → body p (size p l) = .ok x →
      Q p (size p l) x) →
    walk size body fuel pos left = .ok out → Q pos left out
  | 0, pos, 0, _, _, _, h => by
      cases h
      exact hnil pos
  | fuel + 1, pos, left, _, hf, hb, h => by
      rcases Nat.eq_zero_or_pos left with rfl | hl
      · rw [walk_zero] at h
        cases h
        exact hnil pos
      · obtain ⟨h0, hle⟩ := hs pos left hl
        obtain ⟨x, y, hx, hy, rfl⟩ := (walk_succ_eq_ok hl).mp h
        have hrest := walk_induction hs hnil happ (by omega)
          (fun p l z hp hl' he hz => hb p l z (by omega) hl' (by omega) hz) hy
        have hboth := happ _ _ _ _ _ (hb pos left x le_rfl hl rfl hx) hrest
        rwa [Nat.add_sub_cancel' hle] at hboth

/-- **The cut into chunks does not matter**: what is read off the records a walk emits is, up to order,
what its positions give one by one. -/
theorem walk_flatMap_perm {γ : Type*} {f : β → List γ} {g : ℕ → List γ} (hs : Advances size)
    (hf : left ≤ fuel)
    (hb : ∀ p l x, pos ≤ p → 0 < l → p + l = pos + left → body p (size p l) = .ok x →
      (x.flatMap f).Perm ((List.range' p (size p l)).flatMap g))
    (h : walk size body fuel pos left = .ok out) :
    (out.flatMap f).Perm ((List.range' pos left).flatMap g) := by
  refine walk_induction (Q := fun p n x => (x.flatMap f).Perm ((List.range' p n).flatMap g)) hs
    (fun _ => List.Perm.refl _) (fun p m n x y hx hy => ?_) hf hb h
  rw [← range'_append_1, flatMap_append, flatMap_append]
  exact hx.append hy

/-- …so a walk emits, up to order, what its positions emit one by one. -/
theorem walk_perm {g : ℕ → List β} (hs : Advances size)
    (hf : left ≤ fuel)
    (hb : ∀ p l x, pos ≤ p → 0 < l → p + l = pos + left → body p (size p l) = .ok x →
      x.Perm ((List.range' p (size p l)).flatMap g))
    (h : walk size body fuel pos left = .ok out) :
    out.Perm ((List.range' pos left).flatMap g) := by
  rw [← flatMap_singleton' out]
  refine walk_flatMap_perm hs hf (fun p l x hp hl he hx => ?_) h
  rw [flatMap_singleton']
  exact hb p l x hp hl he hx

/-- What every successful chunk says of its positions holds of all positions. -/
theorem walk_forall {Q : ℕ → Prop} (hs : Advances size)
    (hf : left ≤ fuel)
    (hb : ∀ p l x, pos ≤ p → 0 < l → p + l = pos + left → body p (size p l) = .ok x →
      ∀ t, p ≤ t → t < p + size p l → Q t)
    (h : walk size body fuel pos left = .ok out) : ∀ t, pos ≤ t → t < pos + left → Q t := by
  refine walk_induction (Q := fun p n _ => ∀ t, p ≤ t → t < p + n → Q t) hs (fun p t => ?_)
    (fun p m n _ _ hx hy t h1 h2 => ?_) hf hb h
  · omega
  · rcases Nat.lt_or_ge t (p + m) with ht | ht
    · exact hx t h1 ht
    · exact hy t ht (by omega)

/-- **A walk whose chunks all succeed succeeds.** -/
theorem exists_walk_ok (hs : Advances size) : ∀ (fuel pos left : ℕ),
    (∀ p l, pos ≤ p → 0 < l → p + l = pos + left → ∃ x, body p (size p l) = .ok x) →
    ∃ out, walk size body fuel pos left = .ok out := by
  intro fuel
  induction fuel with
  | zero => exact fun _ _ _ => ⟨[], rfl⟩
  | succ fuel ih =>
    intro pos left hb
    rcases Nat.eq_zero_or_pos left with rfl | hl
    · exact ⟨[], walk_zero _ _⟩
    · obtain ⟨h0, hle⟩ := hs pos left hl
      obtain ⟨x, hx⟩ := hb pos left le_rfl hl rfl
      obtain ⟨y, hy⟩ := ih (pos + size pos left) (left - size pos left)
        fun p l hp hl' he => hb p l (by omega) hl' (by omega)
      exact ⟨x ++ y, (walk_succ_eq_ok hl).mpr ⟨x, y, hx, hy, rfl⟩⟩

/-- …both at once. -/
theorem exists_walk_perm {g : ℕ → List β} (hs : Advances size) (pos left : ℕ)
    (hb : ∀ p l, pos ≤ p → 0 < l → p + l = pos + left → ∃ x, body p (size p l) = .ok x ∧
      x.Perm ((List.range' p (size p l)).flatMap g)) :
    ∃ out, walk size body left pos left = .ok out ∧
      out.Perm ((List.range' pos left).flatMap g) := by
  obtain ⟨out, hout⟩ := exists_walk_ok hs left pos left fun p l hp hl he =>
    (hb p l hp hl he).imp fun _ h => h.1
  refine ⟨out, hout, walk_perm hs le_rfl (fun p l x hp hl he hx => ?_) hout⟩
  obtain ⟨y, hy, hperm⟩ := hb p l hp hl he
  obtain rfl : y = x := Except.ok.inj (hy.symm.trans hx)
  exact hperm

/-- What a loop emits: records that are `P`, which read through `f` give `what`, up to order. -/
structure Emits {γ : Type*} (P : β → Prop) (f : β → List γ) (out : List β) (what : List γ) : Prop where
  all : ∀ b ∈ out, P b
  perm : (out.flatMap f).Perm what

namespace Emits

variable {γ : Type*} {P : β → Prop} {f : β → List γ}

theorem nil : Emits P f [] [] := ⟨fun _ h => absurd h not_mem_nil, List.Perm.refl _⟩

theorem append {x y : List β} {u v : List γ} (hx : Emits P f x u) (hy : Emits P f y v) :
    Emits P f (x ++ y) (u ++ v) := by
  refine ⟨forall_mem_append.mpr ⟨hx.all, hy.all⟩, ?_⟩
  rw [flatMap_append]
  exact hx.perm.append hy.perm

theorem of_emitAll {body : α → Except ε (List β)} {g : α → List γ} :
    ∀ {l : List α} {out : List β}, (∀ a ∈ l, ∀ x, body a = .ok x → Emits P f x (g a)) →
      emitAll body l = .ok out → Emits P f out (l.flatMap g)
  | [], _, _, h => by
      cases h
      exact nil
  | a :: l, _, hbody, h => by
      obtain ⟨x, y, hx, hy, rfl⟩ := emitAll_cons_eq_ok.mp h
      exact (hbody a mem_cons_self x hx).append
        (of_emitAll (fun c hc => hbody c (mem_cons_of_mem a hc)) hy)

theorem of_walk {g : ℕ → List γ} (hs : Advances size)
    (hf : left ≤ fuel)
    (hb : ∀ p l x, pos ≤ p → 0 < l → p + l = pos + left → body p (size p l) = .ok x →
      Emits P f x ((List.range' p (size p l)).flatMap g))
    (h : walk size body fuel pos left = .ok out) :
    Emits P f out ((List.range' pos left).flatMap g) := by
  refine walk_induction (Q := fun p n x => Emits P f x ((List.range' p n).flatMap g)) hs
    (fun _ => nil) (fun p m n x y hx hy => ?_) hf hb h
  rw [← range'_append_1, flatMap_append]
  exact hx.append hy

end Emits

end Walk

/-! ## Chunks that end at a block boundary -/

/-- The positions left in the current block of `b`. -/
def toBoundary (b pos left : ℕ) : ℕ := min (b - pos % b) left

theorem advances_toBoundary {b : ℕ} (hb : 0 < b) : Advances (toBoundary b) := fun pos left hl => by
  have := Nat.mod_lt pos hb
  unfold toBoundary
  omega

/-- The positions left in the current block of either of two cuts. -/
def toBoundaries (b b' pos left : ℕ) : ℕ := min (b - pos % b) (min (b' - pos % b') left)

theorem advances_toBoundaries {b b' : ℕ} (hb : 0 < b) (hb' : 0 < b') :
    Advances (toBoundaries b b') := fun pos left hl => by
  have := Nat.mod_lt pos hb
  have := Nat.mod_lt pos hb'
  unfold toBoundaries
  omega

theorem toBoundaries_le (b b' pos left : ℕ) :
    toBoundaries b b' pos left ≤ b - pos % b ∧ toBoundaries b b' pos left ≤ b' - pos % b' := by
  unfold toBoundaries
  omega

/-- Within a block the quotient is fixed and the remainder counts up. -/
theorem divMod_add_of_lt {b pos i : ℕ} (hi : i < b - pos % b) :
    (pos + i) / b = pos / b ∧ (pos + i) % b = pos % b + i := by
  have hsplit : pos + i = pos / b * b + (pos % b + i) := by
    rw [← add_assoc, Nat.div_add_mod']
  have hlt : pos % b + i < b := by omega
  rw [hsplit]
  exact ⟨Radix.div_digit hlt, Radix.mod_digit hlt⟩

/-- **A walk that stops at block boundaries visits the blocks of its range in order**: when each round
emits what its block does, so does the walk. -/
theorem walk_blocks {f : ℕ → List β} {b : ℕ} (hb : 0 < b) :
    ∀ {fuel pos left : ℕ}, left ≤ fuel → 0 < left →
    (∀ p l, pos ≤ p → 0 < l → p + l = pos + left → body p (toBoundary b p l) = .ok (f (p / b))) →
    walk (toBoundary b) body fuel pos left =
      .ok ((List.range' (pos / b) ((pos + left - 1) / b + 1 - pos / b)).flatMap f) := by
  intro fuel
  induction fuel with
  | zero => omega
  | succ fuel ih =>
    intro pos left hfuel hleft hbody
    have hmod := Nat.mod_lt pos hb
    have hround := hbody pos left le_rfl hleft rfl
    refine (walk_succ_eq_ok hleft).mpr ⟨_, ?rest, hround, ?_, ?_⟩
    case rest =>
      exact (List.range' (pos / b + 1) ((pos + left - 1) / b - pos / b)).flatMap f
    · rcases le_or_gt left (b - pos % b) with hle | hgt
      · -- the range ends in this block
        have hsize : toBoundary b pos left = left := min_eq_right hle
        have hlast : (pos + left - 1) / b = pos / b := by
          rw [Nat.add_sub_assoc hleft]
          exact (divMod_add_of_lt (show left - 1 < b - pos % b by omega)).1
        rw [hsize, hlast, Nat.sub_self, Nat.sub_self, walk_zero]
        rfl
      · -- the next round starts the next block
        have hsize : toBoundary b pos left = b - pos % b := min_eq_left hgt.le
        have hnext : pos + (b - pos % b) = (pos / b + 1) * b := by
          have := Nat.div_add_mod' pos b
          rw [Nat.succ_mul]
          omega
        have hblock : (pos + (b - pos % b)) / b = pos / b + 1 := by
          rw [hnext, Nat.mul_div_cancel _ hb]
        have hend : pos + (b - pos % b) + (left - (b - pos % b)) = pos + left := by omega
        have hcount : ∀ x y, x + 1 - (y + 1) = x - y := fun x y => by omega
        rw [hsize, ih (by omega) (by omega) fun p l hp hl he => hbody p l (by omega) hl (by omega),
          hblock, hend, hcount]
    · have hle : pos / b ≤ (pos + left - 1) / b := Nat.div_le_div_right (by omega)
      have hcount : (pos + left - 1) / b + 1 - pos / b = (pos + left - 1) / b - pos / b + 1 := by
        omega
      rw [hcount, range'_succ, flatMap_cons]

/-! ## Runs that end well -/

section Yields

variable {P : β → Prop}

/-- The run succeeds, and everything it emits is `P`. -/
def Yields (P : β → Prop) (x : Except ε (List β)) : Prop := ∃ out, x = .ok out ∧ ∀ b ∈ out, P b

theorem yields_nil : Yields P (.ok [] : Except ε (List β)) :=
  ⟨[], rfl, fun _ h => absurd h List.not_mem_nil⟩

/-- One run after the other. -/
theorem Yields.append {x y : Except ε (List β)} (hx : Yields P x) (hy : Yields P y) :
    Yields P (do
      let a ← x
      let b ← y
      return a ++ b) := by
  obtain ⟨a, rfl, ha⟩ := hx
  obtain ⟨b, rfl, hb⟩ := hy
  exact ⟨a ++ b, rfl, fun c hc => (List.mem_append.mp hc).elim (ha c) (hb c)⟩

/-- **A loop yields what its entries yield.** -/
theorem yields_emitAll {f : α → Except ε (List β)} : ∀ {l : List α}, (∀ a ∈ l, Yields P (f a)) →
    Yields P (emitAll f l)
  | [], _ => yields_nil
  | a :: _, h => (h a List.mem_cons_self).append
      (yields_emitAll fun b hb => h b (List.mem_cons_of_mem _ hb))

/-- **A walk yields what its chunks yield.** -/
theorem yields_walk {size : ℕ → ℕ → ℕ} (hs : Advances size) :
    ∀ {fuel pos left : ℕ}, (∀ p l, pos ≤ p → 0 < l → p + l = pos + left →
      Yields P (body p (size p l))) → Yields P (walk size body fuel pos left) := by
  intro fuel
  induction fuel with
  | zero => exact fun _ => yields_nil
  | succ fuel ih =>
    intro pos left hb
    rcases Nat.eq_zero_or_pos left with rfl | hl
    · rw [walk_zero]
      exact yields_nil
    · obtain ⟨h0, hle⟩ := hs pos left hl
      rw [walk, if_neg hl.ne']
      exact (hb pos left le_rfl hl rfl).append
        (ih fun p l hp hl' he => hb p l (by omega) hl' (by omega))

end Yields

end Machinery
