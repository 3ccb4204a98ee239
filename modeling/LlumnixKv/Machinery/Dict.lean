import Mathlib.Data.List.Nodup
import Mathlib.Data.List.Perm.Subperm

/-!
# Machinery/Dict — dictionaries that remember the order of insertion

    d.set k v      replaces in place, or appends a new key at the end
    d.erase k      drops the key and keeps the order of the others

The keys are distinct by construction, so counting the entries of a dictionary counts its keys:
`le_countP_values_iff` turns *as many ready entries as there are workers* into *every worker is
ready*.

A map given as a function has its entries released and enrolled; a key that is never given twice names
one entry for good.
-/

open List

namespace Machinery

/-- A dictionary, its entries in the order their keys were first inserted. -/
structure Dict (κ ν : Type*) where
  entries : List (κ × ν)
  nodup : (entries.map Prod.fst).Nodup
  deriving DecidableEq, Repr

namespace Dict

variable {κ ν : Type*}

/-- The dictionary with no keys. -/
def empty : Dict κ ν := ⟨[], nodup_nil⟩

variable (d : Dict κ ν)

/-- The keys, oldest first. -/
def keys : List κ := d.entries.map Prod.fst

/-- The values, in the order of their keys. -/
def values : List ν := d.entries.map Prod.snd

variable [DecidableEq κ]

/-- The value of a key. -/
def get? (k : κ) : Option ν := d.entries.lookup k

/-- `set` on the list of entries. -/
def setEntry (k : κ) (v : ν) : List (κ × ν) → List (κ × ν)
  | [] => [(k, v)]
  | e :: es => if e.1 = k then (k, v) :: es else e :: setEntry k v es

variable {v : ν} {k : κ}

theorem mem_keys_setEntry {k k' : κ} : ∀ es : List (κ × ν),
    k' ∈ (setEntry k v es).map Prod.fst ↔ k' = k ∨ k' ∈ es.map Prod.fst
  | [] => by simp [setEntry]
  | e :: es => by
      have ih : k' ∈ (setEntry k v es).map Prod.fst ↔ k' = k ∨ k' ∈ es.map Prod.fst :=
        mem_keys_setEntry es
      rw [setEntry]
      split
      · next he => simp [he]
      · rw [map_cons, mem_cons, ih, map_cons, mem_cons]
        exact or_left_comm

theorem nodup_setEntry : ∀ {es : List (κ × ν)},
    (es.map Prod.fst).Nodup → ((setEntry k v es).map Prod.fst).Nodup
  | [], _ => nodup_singleton k
  | e :: es, h => by
      obtain ⟨hnot, hes⟩ := nodup_cons.mp h
      rw [setEntry]
      split
      · next he => exact nodup_cons.mpr ⟨he ▸ hnot, hes⟩
      · next he =>
        refine nodup_cons.mpr ⟨fun hmem => ?_, nodup_setEntry hes⟩
        rcases (mem_keys_setEntry es).mp hmem with h' | h'
        · exact he h'
        · exact hnot h'

/-- The dictionary with `k ↦ v`. -/
def set (k : κ) (v : ν) : Dict κ ν := ⟨setEntry k v d.entries, nodup_setEntry d.nodup⟩

/-- The dictionary without `k`. -/
def erase (k : κ) : Dict κ ν :=
  ⟨d.entries.filter fun e => e.1 ≠ k, (filter_sublist.map Prod.fst).nodup d.nodup⟩

/-! ## Reading after writing -/

@[simp] theorem get?_empty (k : κ) : (empty : Dict κ ν).get? k = none := rfl

theorem lookup_cons_eq_ite (k : κ) (e : κ × ν) (es : List (κ × ν)) :
    (e :: es).lookup k = if k = e.1 then some e.2 else es.lookup k := by
  by_cases h : k = e.1
  · rw [if_pos h, h]
    exact lookup_cons_self
  · obtain ⟨k', v⟩ := e
    rw [if_neg h, lookup_cons, beq_false_of_ne h]

theorem lookup_setEntry (k k' : κ) (v : ν) : ∀ es : List (κ × ν),
    (setEntry k v es).lookup k' = if k' = k then some v else es.lookup k'
  | [] => lookup_cons_eq_ite k' (k, v) []
  | e :: es => by
      have ih := lookup_setEntry k k' v es
      by_cases he : e.1 = k
      · rw [setEntry, if_pos he, lookup_cons_eq_ite, lookup_cons_eq_ite, he]
        split <;> rfl
      · rw [setEntry, if_neg he, lookup_cons_eq_ite, lookup_cons_eq_ite, ih]
        by_cases h : k' = e.1
        · rw [if_pos h, if_pos h, if_neg fun hk => he (h.symm.trans hk)]
        · rw [if_neg h, if_neg h]

theorem get?_set (k k' : κ) (v : ν) : (d.set k v).get? k' = if k' = k then some v else d.get? k' :=
  lookup_setEntry k k' v d.entries

@[simp] theorem get?_set_self (k : κ) (v : ν) : (d.set k v).get? k = some v := by
  rw [get?_set, if_pos rfl]

theorem get?_set_ne {k k' : κ} (v : ν) (h : k' ≠ k) : (d.set k v).get? k' = d.get? k' := by
  rw [get?_set, if_neg h]

theorem lookup_filter_ne (k k' : κ) : ∀ es : List (κ × ν),
    (es.filter fun e => e.1 ≠ k).lookup k' = if k' = k then none else es.lookup k'
  | [] => by simp
  | e :: es => by
      have ih := lookup_filter_ne k k' es
      by_cases he : e.1 = k
      · rw [filter_cons_of_neg (by simpa using he), ih, lookup_cons_eq_ite, he]
        split <;> rfl
      · rw [filter_cons_of_pos (by simpa using he), lookup_cons_eq_ite, lookup_cons_eq_ite, ih]
        by_cases h : k' = e.1
        · rw [if_pos h, if_pos h, if_neg fun hk => he (h.symm.trans hk)]
        · rw [if_neg h, if_neg h]

theorem get?_erase (k k' : κ) : (d.erase k).get? k' = if k' = k then none else d.get? k' :=
  lookup_filter_ne k k' d.entries

@[simp] theorem get?_erase_self (k : κ) : (d.erase k).get? k = none := by
  rw [get?_erase, if_pos rfl]

theorem get?_erase_ne {k k' : κ} (h : k' ≠ k) : (d.erase k).get? k' = d.get? k' := by
  rw [get?_erase, if_neg h]

theorem lookup_eq_some : ∀ {es : List (κ × ν)}, (es.map Prod.fst).Nodup →
    (es.lookup k = some v ↔ (k, v) ∈ es)
  | [], _ => by simp
  | e :: es, h => by
      obtain ⟨hnot, hes⟩ := nodup_cons.mp h
      rw [lookup_cons_eq_ite, mem_cons]
      by_cases he : k = e.1
      · rw [if_pos he, Option.some.injEq]
        refine ⟨fun hv => .inl (Prod.ext he hv.symm), fun hmem => ?_⟩
        rcases hmem with hmem | hmem
        · exact (congrArg Prod.snd hmem).symm
        · exact absurd (mem_map_of_mem (f := Prod.fst) hmem) (he ▸ hnot)
      · rw [if_neg he, lookup_eq_some hes]
        exact ⟨.inr, fun hmem => hmem.resolve_left fun heq => he (congrArg Prod.fst heq)⟩

theorem get?_eq_some {d : Dict κ ν} : d.get? k = some v ↔ (k, v) ∈ d.entries :=
  lookup_eq_some d.nodup

theorem setEntry_of_lookup : ∀ {es : List (κ × ν)}, es.lookup k = some v →
    setEntry k v es = es
  | [], h => absurd h nofun
  | e :: es, h => by
      rw [lookup_cons_eq_ite] at h
      rw [setEntry]
      by_cases he : e.1 = k
      · rw [if_pos he.symm] at h
        rw [if_pos he, ← he, ← Option.some.inj h]
      · rw [if_neg (Ne.symm he)] at h
        rw [if_neg he, setEntry_of_lookup h]

theorem set_of_get? {d : Dict κ ν} (h : d.get? k = some v) : d.set k v = d := by
  obtain ⟨es, hes⟩ := d
  rw [set]
  congr 1
  exact setEntry_of_lookup h

/-! ## Dictionaries of lists -/

theorem flatten_setEntry_perm {ν : Type*} (k : κ) (x : ν) : ∀ es : List (κ × List ν),
    ((setEntry k ((es.lookup k).getD [] ++ [x]) es).map Prod.snd).flatten.Perm
      (x :: (es.map Prod.snd).flatten)
  | [] => by simp [setEntry]
  | e :: es => by
      have ih := flatten_setEntry_perm k x es
      rw [lookup_cons_eq_ite, setEntry]
      by_cases he : e.1 = k
      · rw [if_pos he, if_pos he.symm]
        simp only [map_cons, flatten_cons, Option.getD_some, append_assoc]
        exact perm_middle
      · rw [if_neg he, if_neg (Ne.symm he)]
        exact (ih.append_left e.2).trans perm_middle

theorem flatten_values_set_perm {ν : Type*} (d : Dict κ (List ν)) (k : κ) (x : ν) :
    (d.set k ((d.get? k).getD [] ++ [x])).values.flatten.Perm (x :: d.values.flatten) :=
  flatten_setEntry_perm k x d.entries

/-! ## Counting keys -/

/-- **As many ready entries as there are workers means that every worker is ready.** -/
theorem le_countP_values_iff {ν : Type*} {d : Dict ℕ ν} {n : ℕ} (hlt : ∀ k ∈ d.keys, k < n)
    (p : ν → Bool) : n ≤ d.values.countP p ↔ ∀ k < n, ∃ v, d.get? k = some v ∧ p v = true := by
  -- the keys of the ready entries: distinct numbers below `n`
  let ready := (d.entries.filter fun e => p e.2).map Prod.fst
  have hlen : ready.length = d.values.countP p := by
    rw [values, countP_map, countP_eq_length_filter]
    exact length_map _
  have hsub : ready.Sublist d.keys := filter_sublist.map Prod.fst
  have hnodup : ready.Nodup := hsub.nodup d.nodup
  have hrange : ready ⊆ List.range n := fun k hk => mem_range.mpr (hlt k (hsub.subset hk))
  have hmem : ∀ k, k ∈ ready ↔ ∃ v, d.get? k = some v ∧ p v = true := by
    intro k
    simp only [ready, mem_map, mem_filter, get?_eq_some]
    constructor
    · rintro ⟨e, ⟨he, hp⟩, rfl⟩
      exact ⟨e.2, he, hp⟩
    · rintro ⟨v, hv, hp⟩
      exact ⟨(k, v), ⟨hv, hp⟩, rfl⟩
  rw [← hlen]
  constructor
  · intro hle k hk
    have hperm : ready.Perm (List.range n) :=
      (subperm_of_subset hnodup hrange).perm_of_length_le (by rwa [length_range])
    exact (hmem k).mp (hperm.mem_iff.mpr (mem_range.mpr hk))
  · intro hall
    have hsub' : List.range n ⊆ ready := fun k hk => (hmem k).mpr (hall k (mem_range.mp hk))
    simpa using (subperm_of_subset nodup_range hsub').length_le

end Dict

/-! ## Entries that come and go -/

section Registry

variable {κ ν : Type*} [DecidableEq κ] {f : κ → Option ν} {k : κ} {v : ν}

/-- The entries without those under `ks`. -/
def release (f : κ → Option ν) (ks : List κ) (k : κ) : Option ν := if k ∈ ks then none else f k

/-- The entries with `kvs` besides. -/
def enroll (f : κ → Option ν) : List (κ × ν) → κ → Option ν
  | [], k => f k
  | kv :: kvs, k => if k = kv.1 then some kv.2 else enroll f kvs k

theorem of_update_eq_some {k' : κ} {o : Option ν} (h : Function.update f k' o k = some v) :
    k = k' ∧ o = some v ∨ k ≠ k' ∧ f k = some v := by
  by_cases hk : k = k'
  · rw [hk, Function.update_self] at h
    exact .inl ⟨hk, h⟩
  · rw [Function.update_of_ne hk] at h
    exact .inr ⟨hk, h⟩

theorem release_of_not_mem {ks : List κ} (h : k ∉ ks) : release f ks k = f k := if_neg h

theorem of_release_eq_some {ks : List κ} (h : release f ks k = some v) : f k = some v := by
  by_cases hk : k ∈ ks
  · rw [release, if_pos hk] at h
    cases h
  · rwa [release_of_not_mem hk] at h

theorem enroll_of_not_mem : ∀ {kvs : List (κ × ν)}, (∀ kv ∈ kvs, kv.1 ≠ k) → enroll f kvs k = f k
  | [], _ => rfl
  | kv :: kvs, h => by
      obtain ⟨hkv, hkvs⟩ := List.forall_mem_cons.mp h
      rw [enroll, if_neg hkv.symm, enroll_of_not_mem hkvs]

theorem enroll_of_mem {kv : κ × ν} : ∀ {kvs : List (κ × ν)}, (kvs.map Prod.fst).Nodup → kv ∈ kvs →
    enroll f kvs kv.1 = some kv.2
  | kv' :: kvs, hnodup, hkv => by
      rw [List.map_cons, List.nodup_cons] at hnodup
      rcases List.mem_cons.mp hkv with rfl | hkv
      · rw [enroll, if_pos rfl]
      · have hne : kv.1 ≠ kv'.1 := fun heq => hnodup.1 (heq ▸ List.mem_map_of_mem hkv)
        rw [enroll, if_neg hne, enroll_of_mem hnodup.2 hkv]

end Registry

end Machinery
