import LlumnixKv.Foundations.Worker
import LlumnixKv.Machinery.Dict
import LlumnixKv.Machinery.Runs

/-!
# Client/Targets — the stubs of the destinations, and the pool they send on

    targets_       [ newest use, …, oldest use ]
                         ▲ iterator
    target_map_    instance ↦ [ worker 0, worker 1, … ]

`do_submit` finds or creates the target of each batch, gives it a new hint when nothing of it is in
flight, hands the batch to the pool under that hint, and at the end drops idle targets from the back
of the list.  The pool runs the tasks of one hint one at a time, in order.
-/

open List Machinery

namespace LlumnixKv

/-! ## The manager and the pool -/

/-- `Target`; the serial of its creation stands for its address, and for its stub. -/
structure TargetMgr.Target where
  id : ℕ
  instId : String
  workerId : ℕ
  inflycnt : ℕ := 0
  threadHint : ℕ := 0

/-- Where the task of a batch is: waiting, in `send_batch`, past it, past its `fetch_sub`. -/
inductive Phase
  | queued
  | sending
  | sent
  | finished
  deriving DecidableEq

def Phase.next : Phase → Phase
  | queued => sending
  | sending => sent
  | sent | finished => finished

/-- A batch in the pool. -/
structure Batch where
  target : ℕ
  hint : ℕ
  phase : Phase

/-- `fetch_sub`, the last thing the task of a batch does. -/
def TargetMgr.Target.release (b : Batch) (t : Target) : Target :=
  { t with inflycnt := if b.phase = .sent ∧ t.id = b.target then t.inflycnt - 1 else t.inflycnt }

/-- `target_map_`; an iterator is the serial of the target it points to. -/
abbrev TargetMap := Dict String (List (Option ℕ))

/-- `TargetMgr`, with all the batches it ever submitted, the newest first. -/
structure TargetMgr where
  targets : List TargetMgr.Target := []
  targetMap : TargetMap := .empty
  threadHint : ℕ := 0
  created : ℕ := 0
  batches : List Batch := []

/-- `peek`. -/
def TargetMap.peek (map : TargetMap) (instId : String) (workerId : ℕ) : Option ℕ :=
  ((map.get? instId).bind (·[workerId]?)).join

/-- `try_pop_map`. -/
def TargetMap.tryPopMap (map : TargetMap) (instId : String) (workerId : ℕ) : TargetMap :=
  match map.get? instId with
  | none => map
  | some slots =>
    if slots.length ≤ workerId then map
    else if (slots.set workerId none).any Option.isSome then map.set instId
      (slots.set workerId none)
    else map.erase instId

/-- `resize(worker_id + 1)`, computed in `uint32_t`. -/
def TargetMap.grow (slots : List (Option ℕ)) (workerId : ℕ) : List (Option ℕ) :=
  (slots ++ List.replicate (u32 (workerId + 1)) none).take (u32 (workerId + 1))

namespace TargetMgr

variable (m : TargetMgr)

/-- `get`: `splice` moves the target to the front. -/
def moveToFront (id : ℕ) : TargetMgr :=
  { m with targets := (m.targets.find? (·.id = id)).toList ++ m.targets.filter (·.id ≠ id) }

/-- `create`; `none` is a write beyond the vector. -/
def create (instId : String) (workerId : ℕ) : Option TargetMgr :=
  let old := (m.targetMap.get? instId).getD []
  let slots := if old.length ≤ workerId then TargetMap.grow old workerId else old
  if workerId < slots.length then
    some { m with
      targets := ⟨m.created, instId, workerId, 0, 0⟩ :: m.targets
      targetMap := m.targetMap.set instId (slots.set workerId (some m.created))
      created := m.created + 1 }
  else none

/-- `create_or_get`: the target is at the front. -/
def createOrGet (instId : String) (workerId : ℕ) : Option TargetMgr :=
  match m.targetMap.peek instId workerId with
  | some id => some (m.moveToFront id)
  | none => m.create instId workerId

/-- The rest of the loop body of `do_submit`, for the target at the front. -/
def submit : TargetMgr :=
  match m.targets with
  | [] => m
  | t :: ts =>
    let next := if t.inflycnt = 0 then m.threadHint + 1 else m.threadHint
    let hint := if t.inflycnt = 0 then next else t.threadHint
    { m with
      targets := { t with inflycnt := t.inflycnt + 1, threadHint := hint } :: ts
      threadHint := next
      batches := ⟨t.id, hint, .queued⟩ :: m.batches }

/-- The loop of `shrink`. -/
def shrink (cap : ℕ) : ℕ → TargetMgr → TargetMgr
  | 0, m => m
  | n + 1, m =>
    match m.targets.getLast? with
    | none => m
    | some t =>
      if m.targets.length ≤ cap ∨ 0 < t.inflycnt then m
      else shrink cap n { m with
        targetMap := m.targetMap.tryPopMap t.instId t.workerId
        targets := m.targets.dropLast }

/-- `try_shrink`. -/
def tryShrink (cap : ℕ) (m : TargetMgr) : TargetMgr := m.shrink cap m.targets.length

/-- The pool takes the task of a batch one step further; it starts one when all before it under the
same hint are over. -/
def advance (i : ℕ) : Option TargetMgr :=
  match m.batches.drop i with
  | [] => none
  | b :: older =>
    if b.phase = .finished ∨ b.phase = .queued ∧ ∃ o ∈ older, o.hint = b.hint ∧ o.phase ≠ .finished
    then none
    else some { m with
      batches := m.batches.take i ++ { b with phase := b.phase.next } :: older
      targets := m.targets.map (Target.release b) }

end TargetMgr

/-- What the manager's thread and the pool do: `do_submit` is an `issue` for each destination, then
`tryShrink`. -/
inductive MgrAct
  | issue (instId : String) (workerId : ℕ)
  | tryShrink
  | advance (i : ℕ)

def TargetMgr.step (cap : ℕ) (m : TargetMgr) : MgrAct → Option (Except Fault TargetMgr)
  | .issue instId workerId =>
    match m.createOrGet instId workerId with
    | some m' => some (.ok m'.submit)
    | none => some (.error .undefined)
  | .tryShrink => some (.ok (m.tryShrink cap))
  | .advance i => (m.advance i).map .ok

/-! ## The map -/

namespace TargetMap

variable {map : TargetMap} {i i' : String} {w w' : ℕ}

theorem peek_set (slots : List (Option ℕ)) :
    TargetMap.peek (map.set i slots) i' w = if i' = i then slots[w]?.join else map.peek i' w := by
  unfold TargetMap.peek
  grind [Dict.get?_set]

theorem peek_tryPopMap :
    (map.tryPopMap i w).peek i' w' = if i' = i ∧ w' = w then none else map.peek i' w' := by
  unfold TargetMap.tryPopMap
  split
  · unfold TargetMap.peek
    grind
  · next slots hslots =>
    unfold TargetMap.peek
    split
    · grind
    split
    · grind [Dict.get?_set]
    · next hany =>
      have hnone : ∀ x ∈ slots.set w none, x = none := by simpa using hany
      have hslot : w' ≠ w → slots[w']?.join = none := fun hw => by
        cases hx : slots[w']? with
        | none => rfl
        | some x => exact hnone x (mem_of_getElem? (getElem?_set_ne hw.symm ▸ hx))
      grind [Dict.get?_erase]

/-- No instance has a vector without an iterator. -/
def Held (map : TargetMap) : Prop := ∀ i slots, map.get? i = some slots → ∃ id, some id ∈ slots

theorem Held.tryPopMap (h : map.Held) : (map.tryPopMap i w).Held := by
  unfold TargetMap.tryPopMap
  split
  · exact h
  · split_ifs with hlen hany
    · exact h
    · intro i' slots hget
      rw [Dict.get?_set] at hget
      grind [Held, Option.isSome_iff_exists]
    · intro i' slots hget
      rw [Dict.get?_erase] at hget
      grind [Held]

end TargetMap

namespace TargetMgr

variable {cap : ℕ} {m m' : TargetMgr} {i : String} {w : ℕ} {t : Target}

/-- **`create` adds a target, and points its slot to it.** -/
theorem create_cases (hnew : m.targetMap.peek i w = none) (h : m.create i w = some m') : ∃ map,
    m' = { m with
      targets := ⟨m.created, i, w, 0, 0⟩ :: m.targets
      targetMap := map
      created := m.created + 1 } ∧
    (m.targetMap.Held → map.Held) ∧ ∀ i' w',
      map.peek i' w' = if i' = i ∧ w' = w then some m.created else m.targetMap.peek i' w' := by
  have hold : ∀ w', ((m.targetMap.get? i).getD [])[w']?.join = m.targetMap.peek i w' := by
    unfold TargetMap.peek
    cases m.targetMap.get? i <;> simp
  obtain ⟨hlt, h⟩ := Option.ite_none_right_eq_some.mp h
  refine ⟨_, (Option.some.inj h).symm, fun hheld i' slots hget => ?_, fun i' w' => ?_⟩
  · rw [Dict.get?_set] at hget
    split at hget
    · cases hget
      exact ⟨_, mem_set hlt _⟩
    · exact hheld i' slots hget
  · rw [TargetMap.peek_set]
    unfold TargetMap.grow at *
    grind

/-! ## What every run keeps -/

/-- The serials of the targets, in the order of the batches, the newest first. -/
def log (m : TargetMgr) : List ℕ := m.batches.map Batch.target

/-- The invariant: the map and the list agree, and so do the list and the pool. -/
structure Inv (m : TargetMgr) : Prop where
  peek_iff : ∀ i w id, m.targetMap.peek i w = some id ↔
    ∃ t ∈ m.targets, t.id = id ∧ t.instId = i ∧ t.workerId = w
  held : m.targetMap.Held
  nodup : (m.targets.map Target.id).Nodup
  target_lt : ∀ t ∈ m.targets, t.id < m.created
  batch_lt : ∀ b ∈ m.batches, b.target < m.created
  inflycnt_eq : ∀ t ∈ m.targets,
    t.inflycnt = m.batches.countP fun b => b.target = t.id ∧ b.phase ≠ .finished
  alive : ∀ b ∈ m.batches, b.phase ≠ .finished →
    ∃ t ∈ m.targets, t.id = b.target ∧ t.threadHint = b.hint
  serial : m.batches.Pairwise fun newer older =>
    newer.target = older.target → newer.phase ≠ .queued → older.phase = .finished

theorem Inv.idle (h : m.Inv) (ht : t ∈ m.targets) (h0 : t.inflycnt = 0) :
    ∀ b ∈ m.batches, b.target = t.id → b.phase = .finished := by
  rw [h.inflycnt_eq t ht, countP_eq_zero] at h0
  grind

theorem Inv.mem_moveToFront (h : m.Inv) {id : ℕ} {x : Target} :
    x ∈ (m.moveToFront id).targets ↔ x ∈ m.targets := by
  have hinj := inj_on_of_nodup_map h.nodup
  unfold TargetMgr.moveToFront
  cases hfind : m.targets.find? (·.id = id) with
  | none => grind [find?_eq_none]
  | some t => grind

theorem Inv.moveToFront (h : m.Inv) (id : ℕ) : (m.moveToFront id).Inv := by
  have hmem : ∀ x, x ∈ (m.moveToFront id).targets ↔ x ∈ m.targets := fun x => h.mem_moveToFront
  obtain ⟨hpeek, hheld, hnodup, hlt, hblt, hcnt, halive, hserial⟩ := h
  simp only [← hmem] at hpeek hlt hcnt halive
  refine ⟨hpeek, hheld, ?_, hlt, hblt, hcnt, halive, hserial⟩
  unfold TargetMgr.moveToFront
  grind

theorem Inv.create (h : m.Inv) (hnew : m.targetMap.peek i w = none)
    (hc : m.create i w = some m') : m'.Inv := by
  obtain ⟨map, rfl, hmap, hpeek'⟩ := create_cases hnew hc
  obtain ⟨hpeek, hheld, hnodup, hlt, hblt, hcnt, halive, hserial⟩ := h
  refine ⟨fun i' w' id => ?_, hmap hheld, ?_, ?_, ?_, ?_, ?_, hserial⟩
  · rw [hpeek', exists_mem_cons_iff]
    grind
  · grind
  · grind
  · grind
  · refine forall_mem_cons.mpr ⟨(countP_eq_zero.mpr fun b hb => ?_).symm, hcnt⟩
    grind
  · grind

theorem Inv.submit (h : m.Inv) : m.submit.Inv := by
  unfold TargetMgr.submit
  split
  · exact h
  · next t ts hts =>
    have hidle := h.idle (hts ▸ mem_cons_self)
    obtain ⟨hpeek, hheld, hnodup, hlt, hblt, hcnt, halive, hserial⟩ := h
    rw [hts] at hpeek hnodup hlt hcnt halive
    refine ⟨fun i w id => ?_, hheld, hnodup, ?_, ?_, ?_, ?_,
      pairwise_cons.mpr ⟨fun _ _ _ hq => absurd rfl hq, hserial⟩⟩
    · rw [hpeek, exists_mem_cons_iff, exists_mem_cons_iff]
    · grind
    · grind
    · grind
    · simp only [exists_mem_cons_iff, forall_mem_cons] at halive ⊢
      grind

theorem Inv.evict (h : m.Inv) (ht : m.targets.getLast? = some t) (hidle : t.inflycnt = 0) :
    Inv { m with
      targetMap := m.targetMap.tryPopMap t.instId t.workerId
      targets := m.targets.dropLast } := by
  have hover := h.idle (mem_of_getLast? ht) hidle
  obtain ⟨hpeek, hheld, hnodup, hlt, hblt, hcnt, halive, hserial⟩ := h
  rw [← dropLast_append_getLast? t ht] at hpeek hnodup hlt hcnt halive
  generalize m.targets.dropLast = ts at *
  simp only [mem_append, mem_singleton] at hpeek hlt hcnt halive
  refine ⟨fun i w id => ?_, hheld.tryPopMap, ?_, fun x hx => hlt x (.inl hx), hblt,
    fun x hx => hcnt x (.inl hx), fun b hb hphase => ?_, hserial⟩
  · rw [TargetMap.peek_tryPopMap]
    split
    · next hkey =>
      have hlast := (hpeek i w t.id).mpr ⟨t, .inr rfl, rfl, hkey.1.symm, hkey.2.symm⟩
      refine iff_of_false nofun fun ⟨x, hx, hid, hx'⟩ => ?_
      have := (hpeek i w x.id).mpr ⟨x, .inl hx, rfl, hx'⟩
      grind
    · rw [hpeek]
      grind
  · grind
  · grind

theorem advance_cases {n : ℕ} (h : m.advance n = some m') : ∃ newer b older,
    m.batches = newer ++ b :: older ∧ b.phase ≠ .finished ∧
      (b.phase = .queued → ∀ o ∈ older, o.hint = b.hint → o.phase = .finished) ∧
      m' = { m with
        batches := newer ++ { b with phase := b.phase.next } :: older
        targets := m.targets.map (Target.release b) } := by
  unfold advance at h
  split at h
  · cases h
  · next b older hdrop =>
    obtain ⟨hphase, h⟩ := Option.ite_none_left_eq_some.mp h
    refine ⟨_, b, older, (hdrop ▸ take_append_drop n _).symm, ?_, ?_, (Option.some.inj h).symm⟩
    · grind
    · grind

theorem Inv.advance (h : m.Inv) {n : ℕ} (ha : m.advance n = some m') : m'.Inv := by
  obtain ⟨newer, b, older, hb, hphase, hturn, rfl⟩ := advance_cases ha
  obtain ⟨hpeek, hheld, hnodup, hlt, hblt, hcnt, halive, hserial⟩ := h
  rw [hb] at hblt hcnt halive hserial
  have hnext : b.phase.next = .finished ↔ b.phase = .sent ∨ b.phase = .finished := by
    rcases b with ⟨_, _, _ | _ | _ | _⟩ <;> simp [Phase.next]
  simp only [mem_append, mem_cons] at hblt halive
  simp only [pairwise_append, pairwise_cons, mem_cons] at hserial
  -- an older batch of the target that is still in flight has the target's hint, so the pool waits
  have holder : ∀ o ∈ older, b.target = o.target → o.phase = .finished := fun o ho heq => by
    by_contra hne
    obtain ⟨t, ht, hid, hhint⟩ := halive o (.inr (.inr ho)) hne
    obtain ⟨t', ht', hid', hhint'⟩ := halive b (.inr (.inl rfl)) hphase
    obtain rfl := inj_on_of_nodup_map hnodup ht ht' (by omega)
    by_cases hq : b.phase = .queued
    · exact hne (hturn hq o ho (by omega))
    · exact hne (hserial.2.1.1 o ho heq hq)
  refine ⟨fun i w id => ?_, hheld, by rwa [map_map], forall_mem_map.mpr hlt, ?_,
    forall_mem_map.mpr fun t ht => ?_, fun x hx hxp => ?_, ?_⟩
  · simp only [hpeek, mem_map, exists_exists_and_eq_and]
    rfl
  · grind
  · have ht := hcnt t ht
    simp only [countP_append, countP_cons, Target.release] at ht ⊢
    grind
  · simp only [mem_map, exists_exists_and_eq_and]
    rcases mem_append.mp hx with hx | hx
    · exact halive x (.inl hx) hxp
    rcases mem_cons.mp hx with rfl | hx
    · exact halive b (.inr (.inl rfl)) hphase
    · exact halive x (.inr (.inr hx)) hxp
  · simp only [pairwise_append, pairwise_cons, mem_cons]
    grind

/-- The targets are in the order of their last submissions. -/
def Recent (m : TargetMgr) : Prop :=
  m.targets.Pairwise fun a b => m.log.idxOf a.id < m.log.idxOf b.id

/-- What `create_or_get` leaves to `submit`. -/
theorem Inv.createOrGet (h : m.Inv) (hc : m.createOrGet i w = some m') :
    m'.Inv ∧ m'.log = m.log ∧ m'.targets.tail.Sublist m.targets ∧ ∀ t ∈ m.targets,
      t ∈ m'.targets := by
  unfold TargetMgr.createOrGet at hc
  split at hc
  · next id _ =>
    cases hc
    refine ⟨h.moveToFront id, rfl, ?_, fun t ht => h.mem_moveToFront.mpr ht⟩
    unfold TargetMgr.moveToFront
    cases m.targets.find? (·.id = id) with
    | none => exact (tail_sublist _).trans filter_sublist
    | some t => exact filter_sublist
  · next hnew =>
    obtain ⟨map, rfl, -⟩ := create_cases hnew hc
    exact ⟨h.create hnew hc, rfl, Sublist.refl _, fun t ht => mem_cons_of_mem _ ht⟩

theorem Inv.recent_submit (h : m.Inv)
    (hr : m.targets.tail.Pairwise fun a b => m.log.idxOf a.id < m.log.idxOf b.id) :
    m.submit.Recent := by
  have hnodup := h.nodup
  unfold TargetMgr.submit Recent
  split
  · grind
  · next t ts ht =>
    rw [ht] at hnodup hr
    refine pairwise_cons.mpr ⟨?_, hr.imp_of_mem ?_⟩
    · simp only [log, map_cons, idxOf_cons]
      grind
    · simp only [log, map_cons, idxOf_cons]
      grind

theorem Inv.shrink (cap : ℕ) : ∀ (n : ℕ) {m : TargetMgr}, m.Inv → m.Recent →
    (m.shrink cap n).Inv ∧ (m.shrink cap n).Recent
  | 0, _, h, hr => ⟨h, hr⟩
  | n + 1, m, h, hr => by
      rw [TargetMgr.shrink]
      split
      · exact ⟨h, hr⟩
      · next t ht =>
        split
        · exact ⟨h, hr⟩
        · exact (h.evict ht (by omega)).shrink cap n (hr.sublist (dropLast_sublist _))

/-- **Every action keeps the invariant and the order.** -/
theorem Inv.step {a : MgrAct} (h : m.Inv) (hr : m.Recent) (hs : m.step cap a = some (.ok m')) :
    m'.Inv ∧ m'.Recent := by
  cases a with
  | issue i w =>
    rw [TargetMgr.step] at hs
    split at hs
    · next m₁ hget =>
      cases hs
      obtain ⟨hinv, hlog, hsub, -⟩ := h.createOrGet hget
      exact ⟨hinv.submit, hinv.recent_submit (hlog ▸ hr.sublist hsub)⟩
    · cases hs
  | tryShrink =>
    cases hs
    exact h.shrink cap _ hr
  | advance n =>
    obtain ⟨m₁, hm₁, hok⟩ := Option.map_eq_some_iff.mp hs
    cases hok
    refine ⟨h.advance hm₁, ?_⟩
    obtain ⟨newer, b, older, hb, -, -, rfl⟩ := advance_cases hm₁
    unfold Recent log at hr ⊢
    rw [hb] at hr
    rw [pairwise_map]
    simpa [Target.release] using hr

end TargetMgr

end LlumnixKv
