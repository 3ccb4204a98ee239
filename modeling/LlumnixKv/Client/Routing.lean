import LlumnixKv.Client.Coord

/-!
# Client/Routing — where a substep is, and where it belongs

The invariant (`Inv`) follows a substep through the two threads.  Pending substeps belong to the
step the main thread publishes next; those it took at the lock belong to the one it has published;
a substep on its way to the current step holds that step's own object, and one on its way to a fresh
step comes after the guard was cleared.  What was offered is at all times what was submitted and what
is still on its way, up to order.  Every action of either thread keeps it (`Inv.moves`).
-/

open List Machinery

namespace LlumnixKv

/-! ## What is asked for -/

/-- An offer as the task that does it, with its step. -/
def Offer.asked : ℕ × Offer → ℕ × SendTask
  | (k, .task t) => (k, t)
  | (k, .reqMeta q) => (k, q.task)

/-- What a substep asks for. -/
def StepMetas.asked (m : StepMetas) : List (ℕ × SendTask) :=
  m.metas.map fun q => (m.stepid, q.task)

/-- The tasks of a buffer, with its step. -/
def StepTasks.asked (tasks : StepTasks) : List (ℕ × SendTask) :=
  tasks.all.map (Prod.mk tasks.stepid)

theorem asked_metas (m : StepMetas) :
    (m.metas.map fun q => (m.stepid, Offer.reqMeta q)).map Offer.asked = m.asked := map_map

theorem asked_tasks (k : ℕ) (ts : List SendTask) :
    (ts.map fun t => (k, Offer.task t)).map Offer.asked = ts.map (Prod.mk k) := map_map

theorem StepTasks.asked_of_empty {tasks : StepTasks} (h : tasks.groups = []) : tasks.asked = [] := by
  rw [StepTasks.asked, StepTasks.all, h]
  rfl

/-! ## Tasks -/

section Tasks

theorem addToGroup_perm (task : SendTask) : ∀ groups : List (Dest × List SendTask),
    ((addToGroup task groups).flatMap (·.2)).Perm (groups.flatMap (·.2) ++ [task])
  | [] => List.Perm.refl _
  | (d, l) :: groups => by
      rw [addToGroup]
      split
      · rw [flatMap_cons, flatMap_cons, append_assoc, append_assoc]
        exact Perm.append_left l perm_append_comm
      · rw [flatMap_cons, flatMap_cons, append_assoc]
        exact Perm.append_left l (addToGroup_perm task groups)

theorem addToGroup_ne_nil (task : SendTask) : ∀ groups : List (Dest × List SendTask),
    addToGroup task groups ≠ []
  | [] => cons_ne_nil _ _
  | (d, l) :: groups => by
      rw [addToGroup]
      split
      · exact cons_ne_nil _ _
      · exact cons_ne_nil _ _

/-- **Grouping neither drops nor repeats a task.** -/
theorem foldl_addSendTask : ∀ (ts : List SendTask) (tasks : StepTasks),
    (ts.foldl addSendTask tasks).all.Perm (tasks.all ++ ts) ∧
      (ts.foldl addSendTask tasks).stepid = tasks.stepid ∧
      (ts.foldl addSendTask tasks).substepid = tasks.substepid ∧
      ((ts.foldl addSendTask tasks).groups = [] → tasks.groups = [] ∧ ts = [])
  | [], tasks => ⟨by rw [append_nil]; exact List.Perm.refl _, rfl, rfl, fun h => ⟨h, rfl⟩⟩
  | t :: ts, tasks => by
      obtain ⟨hperm, hid, hsub, hnil⟩ := foldl_addSendTask ts (addSendTask tasks t)
      refine ⟨hperm.trans ?_, hid, hsub, fun h => ?_⟩
      · rw [append_cons]
        exact Perm.append_right ts (addToGroup_perm t tasks.groups)
      · exact absurd (hnil h).1 (addToGroup_ne_nil t tasks.groups)

theorem addMetas_eq : ∀ {metas : List ReqMeta} (tasks : StepTasks),
    (∀ q ∈ metas, 0 < q.newTokens) →
      addMetas metas tasks = .ok ((metas.map ReqMeta.task).foldl addSendTask tasks)
  | [], _, _ => rfl
  | q :: metas, tasks, h => by
      rw [addMetas, rtassert, if_pos (h q mem_cons_self)]
      exact addMetas_eq _ fun q' hq' => h q' (mem_cons_of_mem _ hq')

/-- The metas of a substep all have new tokens. -/
def StepMetas.Positive (m : StepMetas) : Prop := ∀ q ∈ m.metas, 0 < q.newTokens

instance (m : StepMetas) : Decidable m.Positive :=
  inferInstanceAs (Decidable (∀ q ∈ m.metas, 0 < q.newTokens))

/-- **`create_step_tasks` returns the tasks of the substep.** -/
theorem createStepTasks_ok {m : StepMetas} (h : m.Positive) : ∃ tasks,
    createStepTasks m = .ok tasks ∧ (tasks.all.map (Prod.mk m.stepid)).Perm m.asked ∧
      tasks.stepid = m.stepid ∧ (tasks.groups = [] → m.asked = []) := by
  obtain ⟨hperm, hid, -, hnil⟩ :=
    foldl_addSendTask (m.metas.map ReqMeta.task) { stepid := m.stepid, substepid := m.substepid }
  have hasked : (m.metas.map ReqMeta.task).map (Prod.mk m.stepid) = m.asked := map_map
  refine ⟨_, addMetas_eq _ h, hasked ▸ hperm.map _, hid, fun h0 => ?_⟩
  rw [← hasked, (hnil h0).2, map_nil]

end Tasks

/-! ## The buffer -/

section Buffer

variable {stepid : ℕ} {x : Submit} {reqs : Reqs} {buf : StepTasks} {p : Reqs × StepTasks}

/-- The buffer is empty, or holds the tasks of this step. -/
def StepTasks.Claimed (buf : StepTasks) (stepid : ℕ) : Prop :=
  buf.groups = [] ∨ (buf.stepid = stepid ∧ buf.substepid = 0)

theorem claimBuf_ok (h : buf.Claimed stepid) :
    claimBuf stepid buf = .ok { buf with stepid := stepid, substepid := 0 } := by
  unfold claimBuf
  split
  · rfl
  · next hne =>
    obtain ⟨rfl, h0⟩ := h.resolve_left hne
    rw [rtassert, if_pos rfl, rtassert, if_pos h0, ← h0]
    rfl

/-- **A call with a good count of tokens adds its tasks.** -/
theorem submitSend_ok (hx : x.check = .ok ()) (h : buf.Claimed stepid) :
    submitSend stepid x (reqs, buf) = .ok (x.reqs reqs,
      (x.tasks reqs).foldl addSendTask { buf with stepid := stepid, substepid := 0 }) := by
  rw [submitSend, hx, claimBuf_ok h]
  rfl

/-- …and leaves the buffer to this step. -/
theorem submitSend_claimed (hx : x.check = .ok ()) (h : buf.Claimed stepid)
    (hp : submitSend stepid x (reqs, buf) = .ok p) :
    p.2.Claimed stepid ∧ p.2.asked.Perm (buf.asked ++ (x.tasks reqs).map (Prod.mk stepid)) := by
  rw [submitSend_ok hx h] at hp
  cases hp
  obtain ⟨hperm, hid, hsub, -⟩ :=
    foldl_addSendTask (x.tasks reqs) { buf with stepid := stepid, substepid := 0 }
  have hbuf : buf.all.map (Prod.mk stepid) = buf.asked := by
    rcases h with hnil | ⟨rfl, -⟩
    · rw [StepTasks.asked, StepTasks.all, hnil]
      rfl
    · rfl
  refine ⟨.inr ⟨hid, hsub⟩, ?_⟩
  rw [← hbuf, ← map_append, StepTasks.asked, hid]
  exact hperm.map _

theorem submitSend_empty (h : buf.groups = []) :
    submitSend stepid x (reqs, buf) = submitSend stepid x (reqs, {}) := by
  obtain ⟨i, j, g⟩ := buf
  obtain rfl : g = [] := h
  rfl

theorem buffered_empty (h : buf.groups = []) (xs : List Submit) :
    (buffered stepid xs (reqs, buf)).1 = (buffered stepid xs (reqs, {})).1 ∧
      (buffered stepid xs (reqs, buf)).2.groups = (buffered stepid xs (reqs, {})).2.groups := by
  cases xs with
  | nil => exact ⟨rfl, h⟩
  | cons x xs =>
    rw [buffered, buffered, submitSend_empty h]
    split
    · exact ⟨rfl, rfl⟩
    · exact ⟨rfl, h⟩

theorem groups_of_not_starts {st : MainStep} (h : ¬st.starts buf = true) : buf.groups = [] := by
  rw [MainStep.starts, Bool.or_eq_true, not_or, decide_eq_true_eq, decide_eq_true_eq] at h
  exact not_not.mp h.2

theorem starts_congr {st : MainStep} {buf' : StepTasks} (h : buf.groups = buf'.groups) :
    st.starts buf = st.starts buf' := by rw [MainStep.starts, MainStep.starts, h]

end Buffer

/-! ## The contract -/

/-- One substep is issued before another. -/
def StepMetas.Before (m m' : StepMetas) : Prop :=
  m.stepid < m'.stepid ∨ (m.stepid = m'.stepid ∧ m.substepid < m'.substepid)

instance : DecidableRel StepMetas.Before := fun m m' =>
  inferInstanceAs (Decidable (m.stepid < m'.stepid ∨ (m.stepid = m'.stepid ∧ _)))

/-- What `KVTransferClient` and the scheduler guarantee of the two programs. -/
structure Contract (todo : List MainStep) (calls : List StepMetas) : Prop where
  /-- step ids grow, from above 0 (the scheduler counts from 1024) -/
  stepids : (todo.map (·.stepid)).Pairwise (· < ·)
  stepid_pos : ∀ st ∈ todo, 0 < st.stepid
  submits : ∀ st ∈ todo, ∀ x ∈ st.submits, x.check = .ok ()
  substeps : calls.Pairwise StepMetas.Before
  metas : ∀ m ∈ calls, m.Positive

/-! ## The invariant -/

variable (c : Client) {k : ℕ} {left : List Submit}

/-- The steps that are not published yet. -/
def Client.unpublished : List MainStep :=
  match c.pc with
  | .draining _ => c.todo.tail
  | .flushing => c.todo.tail
  | _ => c.todo

/-- The step published and not yet cleared. -/
def Client.current : Option ℕ :=
  match c.todo, c.pc with
  | st :: _, .draining _ => some st.stepid
  | st :: _, .flushing => some st.stepid
  | _, _ => none

/-- The step whose buffer is submitted, and that is published next. -/
def Client.publishing : Option ℕ :=
  match c.pc, c.todo with
  | .coordinating, st :: _ => some st.stepid
  | _, _ => none

/-- The calls left before `start_send`. -/
def MainPc.submits : MainPc → List Submit
  | .submitting left => left
  | _ => []

/-- The buffer may hold tasks. -/
def MainPc.buffering : MainPc → Bool
  | .submitting _ => true
  | .starting => true
  | _ => false

/-- The substeps the main thread took at the lock. -/
def MainPc.taken : MainPc → List Routed
  | .draining left => left
  | _ => []

/-- The substep before the lock. -/
def BypassPc.atLock : BypassPc → List StepMetas
  | .called m => [m]
  | _ => []

/-- The substep the bypass thread is working on. -/
def BypassPc.calls : BypassPc → List StepMetas
  | .idle => []
  | .called m => [m]
  | .attach _ r => [r.call]
  | .freeze r => [r.call]

/-- The step a `Step` object is for. -/
def StepObj.stepid : StepObj → ℕ
  | .own k => k
  | .fresh _ k => k

/-- The tasks of a submission, with the step of the object they go to. -/
def Submission.asked (sub : Submission) : List (ℕ × SendTask) :=
  sub.tasks.all.map (Prod.mk sub.step.stepid)

/-- What the target manager has been handed. -/
def Client.handed : List (ℕ × SendTask) := c.submitted.flatMap Submission.asked

/-- What is still on its way to it. -/
def Client.onTheWay : List (ℕ × SendTask) :=
  c.buf.asked ++ c.pendingStepMetas.flatMap (·.call.asked) ++ c.pc.taken.flatMap (·.call.asked) ++
    c.bpc.calls.flatMap StepMetas.asked

/-- A submission sits on its step's own object if it was routed before the guard was cleared, and
on a fresh one, made after that, otherwise. -/
def Submission.Right (cleared : List ℕ) (sub : Submission) : Prop :=
  (sub.step = .own sub.tasks.stepid ∧ sub.late = false) ∨
    (∃ n, sub.step = .fresh n sub.tasks.stepid ∧ sub.late = true ∧ sub.tasks.stepid ∈ cleared)

/-- The step published next has this id. -/
def Client.NextIs (stepid : ℕ) : Prop := ∃ st, c.next = some st ∧ st.stepid = stepid

/-- The invariant of the two threads. -/
structure Inv (c : Client) : Prop where
  stepids : (c.todo.map (·.stepid)).Pairwise (· < ·)
  submits : ∀ st ∈ c.todo, ∀ x ∈ st.submits, x.check = .ok ()
  left_submits : ∀ x ∈ c.pc.submits, x.check = .ok ()
  buf_claimed : ∀ st rest, c.todo = st :: rest → c.buf.Claimed st.stepid
  buf_empty : c.pc.buffering = false ∨ c.todo = [] → c.buf.groups = []
  later : ∀ st ∈ c.unpublished, c.coordStepId < st.stepid
  guard : c.lastStepGuard = c.current
  current : ∀ k, c.current = some k → c.coordStepId = k ∧ k ∈ c.started ∧ k ∉ c.cleared
  started_le : ∀ k ∈ c.started, k ≤ c.coordStepId
  cleared_sub : ∀ k ∈ c.cleared, k ∈ c.started
  started_cases : ∀ k ∈ c.started, k ∈ c.cleared ∨ c.current = some k
  positive : ∀ m ∈ c.pendingStepMetas.map (·.call) ++ c.pc.taken.map (·.call) ++ c.bpc.calls ++
    c.calls, m.Positive
  order : (c.pendingStepMetas.map (·.call) ++ c.bpc.atLock ++ c.calls).Pairwise StepMetas.Before
  pending : ∀ r ∈ c.pendingStepMetas, r.late = false ∧ c.NextIs r.call.stepid
  taken : ∀ r ∈ c.pc.taken, r.late = false ∧ c.current = some r.call.stepid
  called : ∀ m, c.bpc = .called m → m.stepid ∈ c.started ∨ c.NextIs m.stepid
  attach : ∀ step r, c.bpc = .attach step r →
    step = .own r.call.stepid ∧ r.late = false ∧ r.call.stepid ≤ c.coordStepId
  freeze : ∀ r, c.bpc = .freeze r → r.late = true ∧ r.call.stepid ∈ c.cleared
  right : ∀ sub ∈ c.submitted, sub.Right c.cleared
  early : ∀ sub ∈ c.submitted,
    sub.tasks.stepid ≤ c.coordStepId ∨ c.publishing = some sub.tasks.stepid
  account : ∀ t, (c.offered.map Offer.asked).count t = c.handed.count t + c.onTheWay.count t

section Next

variable {c : Client} {st : MainStep} {rest : List MainStep}

theorem upcoming_mem : ∀ {steps : List MainStep} {reqs : Reqs},
    upcoming reqs steps = some st → st ∈ steps
  | s :: steps, reqs, h => by
      rw [upcoming] at h
      split at h
      · exact Option.some.inj h ▸ mem_cons_self
      · exact mem_cons_of_mem _ (upcoming_mem h)

/-- The next step is one of those not published. -/
theorem next_mem (h : c.next = some st) : st ∈ c.unpublished := by
  obtain ⟨todo, pc, buf, reqs, coord, guard, pending, calls, bpc, submitted, fresh, started, cleared,
    offered⟩ := c
  unfold Client.next at h
  dsimp only at h
  split at h
  · cases h
  · split at h
    · exact Option.some.inj h ▸ mem_cons_self
    · exact mem_cons_of_mem _ (upcoming_mem h)
  · exact Option.some.inj h ▸ mem_cons_self
  · exact Option.some.inj h ▸ mem_cons_self
  · exact upcoming_mem h
  · exact upcoming_mem h

theorem Client.NextIs.congr {c' : Client} (h : c.NextIs k) (hnext : c'.next = c.next) :
    c'.NextIs k := by
  obtain ⟨st, hst, hk⟩ := h
  exact ⟨st, hnext.trans hst, hk⟩

/-- With an empty buffer, the next step is the first of the program that starts. -/
theorem next_of_buf_empty (hbuf : c.buf.groups = []) (steps : List MainStep) :
    Client.next { c with todo := steps, pc := .submitting (submitsOf steps) } =
      upcoming c.reqs steps := by
  cases steps with
  | nil => rfl
  | cons st rest =>
    obtain ⟨hreqs, hgroups⟩ : (buffered st.stepid st.submits (c.reqs, c.buf)).1 =
        (buffered st.stepid st.submits (c.reqs, {})).1 ∧
      (buffered st.stepid st.submits (c.reqs, c.buf)).2.groups =
        (buffered st.stepid st.submits (c.reqs, {})).2.groups := buffered_empty hbuf st.submits
    simp only [Client.next, upcoming, submitsOf, starts_congr hgroups, hreqs]

theorem current_of_submitting (hpc : c.pc = .submitting left) : c.current = none := by
  unfold Client.current
  rw [hpc]
  split
  · next heq => cases heq
  · next heq => cases heq
  · rfl

theorem mayIssue_iff (h : c.mayIssue k = true) : k ∈ c.started ∨ c.NextIs k := by
  rw [Client.mayIssue, Bool.or_eq_true] at h
  refine h.imp contains_iff_mem.mp fun hn => ?_
  split at hn
  · next st hst => exact ⟨st, hst, (of_decide_eq_true hn).1⟩
  · exact absurd hn Bool.false_ne_true

end Next

theorem Submission.Right.mono {cleared cleared' : List ℕ} {sub : Submission}
    (h : sub.Right cleared) (hsub : ∀ k ∈ cleared, k ∈ cleared') : sub.Right cleared' :=
  h.imp_right fun ⟨n, hstep, hlate, hk⟩ => ⟨n, hstep, hlate, hsub _ hk⟩

/-! ## Each action keeps it -/

theorem submitsOf_ok {steps : List MainStep}
    (h : ∀ st ∈ steps, ∀ x ∈ st.submits, x.check = .ok ()) :
    ∀ x ∈ submitsOf steps, x.check = .ok () := by
  cases steps with
  | nil => exact nofun
  | cons st rest => exact h st mem_cons_self

namespace Inv

variable {c : Client} {st : MainStep} {rest : List MainStep}

theorem submit {x : Submit} {p : Reqs × StepTasks}
    (h : Inv { c with todo := st :: rest, pc := .submitting (x :: left) })
    (hp : submitSend st.stepid x (c.reqs, c.buf) = .ok p) :
    Inv { c with
      todo := st :: rest, pc := .submitting left, reqs := p.1, buf := p.2
      offered := c.offered ++ (x.tasks c.reqs).map fun t => (st.stepid, .task t) } := by
  obtain ⟨hclaimed, hperm⟩ := submitSend_claimed (h.left_submits x mem_cons_self)
    (h.buf_claimed st rest rfl) hp
  have hnext : Client.next { c with
      todo := st :: rest, pc := .submitting left, reqs := p.1, buf := p.2
      offered := c.offered ++ (x.tasks c.reqs).map fun t => (st.stepid, .task t) } =
      Client.next { c with todo := st :: rest, pc := .submitting (x :: left) } := by
    simp only [Client.next, buffered, hp]
  exact { h with
    left_submits := fun y hy => h.left_submits y (mem_cons_of_mem _ hy)
    buf_claimed := fun st' rest' htodo' => by
      obtain ⟨rfl, -⟩ := cons.inj htodo'
      exact hclaimed
    buf_empty := fun hb => hb.elim nofun nofun
    pending := fun r hr => ⟨(h.pending r hr).1, (h.pending r hr).2.congr hnext⟩
    called := fun m hm => (h.called m hm).imp_right (Client.NextIs.congr · hnext)
    account := fun t => by
      have hold := h.account t
      have hnew := hperm.count_eq t
      simp only [Client.handed, Client.onTheWay, MainPc.taken, map_append, asked_tasks,
        count_append] at hold hnew ⊢
      omega }

theorem start (h : Inv { c with todo := st :: rest, pc := .submitting [] })
    (hstarts : st.starts c.buf = true) : Inv { c with todo := st :: rest, pc := .starting } := by
  have hnext : Client.next { c with todo := st :: rest, pc := .starting } =
      Client.next { c with todo := st :: rest, pc := .submitting [] } := (if_pos hstarts).symm
  exact { h with
    buf_empty := fun hb => hb.elim nofun nofun
    pending := fun r hr => ⟨(h.pending r hr).1, (h.pending r hr).2.congr hnext⟩
    called := fun m hm => (h.called m hm).imp_right (Client.NextIs.congr · hnext) }

theorem skip (h : Inv { c with todo := st :: rest, pc := .submitting [] })
    (hstarts : ¬st.starts c.buf = true) :
    Inv { c with todo := rest, pc := .submitting (submitsOf rest) } := by
  have hbuf : c.buf.groups = [] := groups_of_not_starts hstarts
  have hnext : Client.next { c with todo := rest, pc := .submitting (submitsOf rest) } =
      Client.next { c with todo := st :: rest, pc := .submitting [] } :=
    (next_of_buf_empty hbuf rest).trans (if_neg hstarts).symm
  have hcur : Client.current { c with todo := rest, pc := .submitting (submitsOf rest) } = none :=
    current_of_submitting rfl
  exact { h with
    stepids := (pairwise_cons.mp h.stepids).2
    submits := fun st' hst' => h.submits st' (mem_cons_of_mem _ hst')
    left_submits := submitsOf_ok fun st' hst' => h.submits st' (mem_cons_of_mem _ hst')
    buf_claimed := fun _ _ _ => .inl hbuf
    buf_empty := fun _ => hbuf
    later := fun st' hst' => h.later st' (mem_cons_of_mem _ hst')
    guard := h.guard.trans hcur.symm
    current := fun k hk => by cases hcur.symm.trans hk
    started_cases := fun k hk => (h.started_cases k hk).imp_right nofun
    pending := fun r hr => ⟨(h.pending r hr).1, (h.pending r hr).2.congr hnext⟩
    taken := nofun
    called := fun m hm => (h.called m hm).imp_right (Client.NextIs.congr · hnext) }

theorem noBuf (h : Inv { c with todo := st :: rest, pc := .starting }) (hbuf : c.buf.groups = []) :
    Inv { c with todo := st :: rest, pc := .coordinating, buf := {} } :=
  { h with
    buf_claimed := fun _ _ _ => .inl rfl
    buf_empty := fun _ => rfl
    early := fun sub hsub => .inl ((h.early sub hsub).resolve_right nofun)
    account := fun t => by
      have hold := h.account t
      have hempty : StepTasks.asked {} = [] := rfl
      simp only [Client.handed, Client.onTheWay, MainPc.taken, StepTasks.asked_of_empty hbuf,
        hempty] at hold ⊢
      exact hold }

theorem submitBuf (h : Inv { c with todo := st :: rest, pc := .starting })
    (hbuf : c.buf.groups ≠ []) :
    Inv { c with
      todo := st :: rest, pc := .coordinating, buf := {}
      submitted := c.submitted ++ [⟨.own st.stepid, c.buf, false⟩] } := by
  have hid : c.buf.stepid = st.stepid := ((h.buf_claimed st rest rfl).resolve_left hbuf).1
  exact { h with
    buf_claimed := fun _ _ _ => .inl rfl
    buf_empty := fun _ => rfl
    right := forall_mem_append.mpr ⟨h.right, forall_mem_singleton.mpr
      (.inl ⟨by rw [hid], rfl⟩)⟩
    early := forall_mem_append.mpr
      ⟨fun sub hsub => .inl ((h.early sub hsub).resolve_right nofun),
        forall_mem_singleton.mpr (.inr (congrArg some hid.symm))⟩
    account := fun t => by
      have hold := h.account t
      have hnil : StepTasks.asked {} = [] := rfl
      have hnew : Submission.asked ⟨.own st.stepid, c.buf, false⟩ = c.buf.asked := by
        rw [StepTasks.asked, hid]
        rfl
      simp only [Client.handed, Client.onTheWay, MainPc.taken, count_append, hnil, hnew,
        count_nil, flatMap_append, flatMap_singleton] at hold ⊢
      omega }

theorem coordinate (h : Inv { c with todo := st :: rest, pc := .coordinating }) :
    Inv { c with
      todo := st :: rest, pc := .draining c.pendingStepMetas, coordStepId := st.stepid
      lastStepGuard := some st.stepid, pendingStepMetas := []
      started := st.stepid :: c.started } := by
  have hlt : c.coordStepId < st.stepid := h.later st mem_cons_self
  have hold_le : ∀ k ∈ c.started, k < st.stepid := fun k hk => (h.started_le k hk).trans_lt hlt
  have hnextIs : ∀ k, Client.NextIs { c with todo := st :: rest, pc := .coordinating } k →
      st.stepid = k := by
    rintro k ⟨st', hst', rfl⟩
    rw [Option.some.inj hst']
  exact { h with
    buf_empty := fun _ => h.buf_empty (.inl rfl)
    later := fun st' hst' => (pairwise_cons.mp h.stepids).1 _ (mem_map_of_mem hst')
    guard := rfl
    current := fun k hk => by
      cases hk
      exact ⟨rfl, mem_cons_self, fun hc => lt_irrefl _ (hold_le _ (h.cleared_sub _ hc))⟩
    started_le := forall_mem_cons.mpr ⟨le_rfl, fun k hk => (hold_le k hk).le⟩
    cleared_sub := fun k hk => mem_cons_of_mem _ (h.cleared_sub k hk)
    started_cases := forall_mem_cons.mpr
      ⟨.inr rfl, fun k hk => (h.started_cases k hk).imp_right nofun⟩
    positive := fun m hm => h.positive m (by
      simpa only [MainPc.taken, map_nil, nil_append, append_nil] using hm)
    order := by
      have hord := h.order
      rw [append_assoc] at hord
      exact (pairwise_append.mp hord).2.1
    pending := nofun
    taken := fun r hr => ⟨(h.pending r hr).1, by rw [← hnextIs _ (h.pending r hr).2]; rfl⟩
    called := fun m hm => by
      refine .inl ?_
      rcases h.called m hm with hmem | hnext
      · exact mem_cons_of_mem _ hmem
      · rw [← hnextIs _ hnext]
        exact mem_cons_self
    attach := fun step r hr => by
      obtain ⟨hstep, hlate, hle⟩ := h.attach step r hr
      exact ⟨hstep, hlate, hle.trans hlt.le⟩
    early := fun sub hsub => by
      refine .inl ?_
      rcases h.early sub hsub with hle | hpub
      · exact hle.trans hlt.le
      · exact (Option.some.inj hpub).ge
    account := fun t => by
      have hold := h.account t
      simp only [Client.handed, Client.onTheWay, MainPc.taken, count_append,
        flatMap_nil, count_nil] at hold ⊢
      omega }

variable {r : Routed} {m : StepMetas} {tasks : StepTasks} {calls : List StepMetas}

theorem positive_of_taken (h : Inv c) (hr : r ∈ c.pc.taken) : r.call.Positive :=
  h.positive _ (mem_append_left _ (mem_append_left _
    (mem_append_right _ (mem_map_of_mem hr))))

theorem positive_of_bypass (h : Inv c) (hm : m ∈ c.bpc.calls) : m.Positive :=
  h.positive _ (mem_append_left _ (mem_append_right _ hm))

theorem drain {left : List Routed}
    (h : Inv { c with todo := st :: rest, pc := .draining (r :: left) })
    (htasks : createStepTasks r.call = .ok tasks) :
    Inv { c with
      todo := st :: rest, pc := .draining left
      submitted := c.submitted ++ [⟨.own st.stepid, tasks, r.late⟩] } := by
  obtain ⟨hlate, hcur⟩ := h.taken r mem_cons_self
  have hid : st.stepid = r.call.stepid := Option.some.inj hcur
  obtain ⟨tasks', htasks', hperm, hstep, -⟩ :=
    createStepTasks_ok (h.positive_of_taken (r := r) mem_cons_self)
  cases htasks.symm.trans htasks'
  exact { h with
    buf_empty := fun _ => h.buf_empty (.inl rfl)
    positive := fun m hm => h.positive m (by
      simp only [MainPc.taken, map_cons, mem_append, mem_cons] at hm ⊢
      tauto)
    taken := fun r' hr' => h.taken r' (mem_cons_of_mem _ hr')
    right := forall_mem_append.mpr ⟨h.right, forall_mem_singleton.mpr
      (.inl ⟨by rw [hstep, hid], hlate⟩)⟩
    early := forall_mem_append.mpr ⟨h.early, forall_mem_singleton.mpr
      (.inl (by rw [hstep]; exact (h.current _ hcur).1.ge))⟩
    account := fun t => by
      have hold := h.account t
      have hnew : (Submission.asked ⟨.own st.stepid, tasks, r.late⟩).count t = r.call.asked.count t := by
        rw [Submission.asked, StepObj.stepid, hid]
        exact hperm.count_eq t
      simp only [Client.handed, Client.onTheWay, MainPc.taken, count_append,
        flatMap_append, flatMap_cons, flatMap_nil, count_nil] at hold ⊢
      omega }

theorem flush (h : Inv { c with todo := st :: rest, pc := .draining [] }) :
    Inv { c with todo := st :: rest, pc := .flushing } :=
  { h with buf_empty := fun _ => h.buf_empty (.inl rfl) }

theorem clear (h : Inv { c with todo := st :: rest, pc := .flushing }) :
    Inv { c with
      todo := rest, pc := .submitting (submitsOf rest), lastStepGuard := none
      cleared := st.stepid :: c.cleared } := by
  have hbuf : c.buf.groups = [] := h.buf_empty (.inl rfl)
  have hmono : ∀ k ∈ c.cleared, k ∈ st.stepid :: c.cleared := fun k hk => mem_cons_of_mem _ hk
  have hnext : Client.next { c with
      todo := rest, pc := .submitting (submitsOf rest), lastStepGuard := none
      cleared := st.stepid :: c.cleared } =
      Client.next { c with todo := st :: rest, pc := .flushing } := next_of_buf_empty (c := c) hbuf rest
  have hcur : Client.current { c with
      todo := rest, pc := .submitting (submitsOf rest), lastStepGuard := none
      cleared := st.stepid :: c.cleared } = none := current_of_submitting rfl
  exact { h with
    stepids := (pairwise_cons.mp h.stepids).2
    submits := fun st' hst' => h.submits st' (mem_cons_of_mem _ hst')
    left_submits := submitsOf_ok fun st' hst' => h.submits st' (mem_cons_of_mem _ hst')
    buf_claimed := fun _ _ _ => .inl hbuf
    buf_empty := fun _ => hbuf
    guard := hcur.symm
    current := fun k hk => by cases hcur.symm.trans hk
    cleared_sub := forall_mem_cons.mpr ⟨(h.current _ rfl).2.1, h.cleared_sub⟩
    started_cases := fun k hk => by
      refine .inl ?_
      rcases h.started_cases k hk with hc | hc
      · exact hmono k hc
      · exact Option.some.inj hc ▸ mem_cons_self
    pending := fun r hr => ⟨(h.pending r hr).1, (h.pending r hr).2.congr hnext⟩
    taken := nofun
    called := fun m hm => (h.called m hm).imp_right (Client.NextIs.congr · hnext)
    freeze := fun r hr => ⟨(h.freeze r hr).1, hmono _ (h.freeze r hr).2⟩
    right := fun sub hsub => (h.right sub hsub).mono hmono }

theorem noCall (h : Inv { c with calls := m :: calls, bpc := .idle }) (hm : m.metas = []) :
    Inv { c with
      calls := calls, bpc := .idle
      offered := c.offered ++ m.metas.map fun q => (m.stepid, .reqMeta q) } :=
  { h with
    positive := fun m' hm' => h.positive m' (by
      simp only [mem_append, mem_cons] at hm' ⊢
      tauto)
    order := h.order.sublist (Sublist.append_left (sublist_cons_self _ _) _)
    account := fun t => by
      rw [hm, map_nil, append_nil]
      exact h.account t }

theorem call
    (h : Inv { c with calls := m :: calls, bpc := .idle }) (hmay : c.mayIssue m.stepid = true) :
    Inv { c with
      calls := calls, bpc := .called m
      offered := c.offered ++ m.metas.map fun q => (m.stepid, .reqMeta q) } :=
  { h with
    positive := fun m' hm' => h.positive m' (by
      simp only [BypassPc.calls, mem_append, mem_cons] at hm' ⊢
      tauto)
    order := by
      have hord := h.order
      simp only [BypassPc.atLock, append_nil, append_assoc, cons_append,
        nil_append] at hord ⊢
      exact hord
    called := fun m' hm' => by
      obtain rfl := BypassPc.called.inj hm'
      exact mayIssue_iff (c := c) hmay
    attach := nofun
    freeze := nofun
    account := fun t => by
      have hold := h.account t
      simp only [Client.handed, Client.onTheWay, BypassPc.calls, map_append, asked_metas,
        count_append, flatMap_cons, flatMap_nil, append_nil] at hold ⊢
      omega }

section Route

variable {m : StepMetas}

variable (h : Inv { c with bpc := .called m })
include h

/-- Before the lock, a step that is over has been cleared. -/
theorem cleared_of_called (hle : m.stepid ≤ c.coordStepId) (hcur : c.current ≠ some m.stepid) :
    m.stepid ∈ c.cleared := by
  rcases h.called m rfl with hst | ⟨st, hst, hid⟩
  · exact (h.started_cases _ hst).resolve_right hcur
  · have hlt : c.coordStepId < st.stepid := h.later st (next_mem hst)
    omega

omit h in
/-- …and one that is not published is not. -/
theorem contains_eq_false {cleared : List ℕ} (h : k ∉ cleared) : cleared.contains k = false := by
  rw [← Bool.not_eq_true, contains_iff_mem]
  exact h

theorem order_past_lock :
    (c.pendingStepMetas.map Routed.call ++ [] ++ c.calls).Pairwise StepMetas.Before :=
  h.order.sublist (Sublist.append_right (Sublist.append_left (nil_sublist _) _) _)

/-- A step that is over goes to a fresh `Step`. -/
theorem past (hmem : m.stepid ∈ c.cleared) :
    Inv { c with bpc := .freeze ⟨m, c.cleared.contains m.stepid⟩ } :=
  { h with
    order := h.order_past_lock
    called := nofun
    attach := nofun
    freeze := fun r hr => by
      obtain rfl := BypassPc.freeze.inj hr
      exact ⟨contains_iff_mem.mpr hmem, hmem⟩ }

/-- A step that is not published waits. -/
theorem wait (hlt : c.coordStepId < m.stepid) : Inv { c with
      bpc := .idle
      pendingStepMetas := c.pendingStepMetas ++ [⟨m, c.cleared.contains m.stepid⟩] } := by
  have hnot : m.stepid ∉ c.started := fun hk => absurd (h.started_le _ hk) (Nat.not_le.mpr hlt)
  exact { h with
    positive := fun m' hm' => h.positive m' (by
      simp only [BypassPc.calls, map_append, map_cons, map_nil,
        mem_append, mem_cons] at hm' ⊢
      tauto)
    order := by
      have hord := h.order
      simp only [BypassPc.atLock, map_append, map_cons, map_nil,
        append_nil] at hord ⊢
      exact hord
    pending := forall_mem_append.mpr ⟨h.pending, forall_mem_singleton.mpr
      ⟨contains_eq_false fun hk => hnot (h.cleared_sub _ hk), (h.called m rfl).resolve_left hnot⟩⟩
    called := nofun
    attach := nofun
    freeze := nofun
    account := fun t => by
      have hold := h.account t
      simp only [Client.handed, Client.onTheWay, BypassPc.calls, count_append,
        flatMap_append, flatMap_cons, flatMap_nil, count_nil] at hold ⊢
      omega }

/-- The current step is joined. -/
theorem join (hid : m.stepid = c.coordStepId) (hguard : c.lastStepGuard = some k) :
    Inv { c with bpc := .attach (.own k) ⟨m, c.cleared.contains m.stepid⟩ } := by
  obtain ⟨hcoord, -, hnot⟩ : c.coordStepId = k ∧ k ∈ c.started ∧ k ∉ c.cleared :=
    h.current k (h.guard.symm.trans hguard)
  exact { h with
    order := h.order_past_lock
    called := nofun
    attach := fun step r hr => by
      obtain ⟨rfl, rfl⟩ := BypassPc.attach.inj hr
      dsimp only
      rw [hid, hcoord]
      exact ⟨rfl, contains_eq_false hnot, le_rfl⟩
    freeze := nofun }

end Route

/-- **A call ends**: what it submits is what it was for, on a step where that belongs. -/
theorem done {b : BypassPc} (n : ℕ) {subs : List Submission} (h : Inv { c with bpc := b })
    (hb : b.calls = [m]) (hperm : (subs.flatMap Submission.asked).Perm m.asked)
    (hsubs : ∀ sub ∈ subs, sub.Right c.cleared ∧ sub.tasks.stepid ≤ c.coordStepId) :
    Inv { c with bpc := .idle, freshSteps := n, submitted := c.submitted ++ subs } :=
  { h with
    positive := fun m' hm' => h.positive m' (by
      simp only [BypassPc.calls, mem_append] at hm' ⊢
      tauto)
    order := h.order.sublist (Sublist.append_right (Sublist.append_left (nil_sublist _) _) _)
    called := nofun
    attach := nofun
    freeze := nofun
    right := forall_mem_append.mpr ⟨h.right, fun sub hsub => (hsubs sub hsub).1⟩
    early := forall_mem_append.mpr ⟨h.early, fun sub hsub => .inl (hsubs sub hsub).2⟩
    account := fun t => by
      have hold := h.account t
      have hnew := hperm.count_eq t
      have hidle : BypassPc.calls .idle = [] := rfl
      simp only [Client.handed, Client.onTheWay, hb, hidle, count_append, flatMap_append,
        flatMap_cons, flatMap_nil, count_nil] at hold ⊢
      omega }

theorem attachStep {step : StepObj}
    (h : Inv { c with bpc := .attach step r }) (htasks : createStepTasks r.call = .ok tasks) :
    Inv { c with bpc := .idle, submitted := c.submitted ++ [⟨step, tasks, r.late⟩] } := by
  obtain ⟨rfl, hlate, hle⟩ := h.attach step r rfl
  obtain ⟨tasks', htasks', hperm, hid, -⟩ :=
    createStepTasks_ok (h.positive_of_bypass (m := r.call) mem_cons_self)
  cases htasks.symm.trans htasks'
  refine h.done c.freshSteps rfl (by rwa [flatMap_singleton]) (forall_mem_singleton.mpr ⟨?_, hid ▸ hle⟩)
  exact .inl ⟨by rw [hid], hlate⟩

theorem noReq (h : Inv { c with bpc := .freeze r }) (htasks : createStepTasks r.call = .ok tasks)
    (hnil : tasks.groups = []) : Inv { c with bpc := .idle } := by
  obtain ⟨tasks', htasks', -, -, hempty⟩ :=
    createStepTasks_ok (h.positive_of_bypass (m := r.call) mem_cons_self)
  cases htasks.symm.trans htasks'
  have hnone : (([] : List Submission).flatMap Submission.asked).Perm r.call.asked :=
    hempty hnil ▸ .refl _
  have hdone := h.done c.freshSteps rfl hnone nofun
  rwa [append_nil] at hdone

theorem startReqSend (h : Inv { c with bpc := .freeze r })
    (htasks : createStepTasks r.call = .ok tasks) :
    Inv { c with
      bpc := .idle, freshSteps := c.freshSteps + 1
      submitted := c.submitted ++ [⟨.fresh c.freshSteps r.call.stepid, tasks, r.late⟩] } := by
  obtain ⟨hlate, hcleared⟩ := h.freeze r rfl
  obtain ⟨tasks', htasks', hperm, hid, -⟩ :=
    createStepTasks_ok (h.positive_of_bypass (m := r.call) mem_cons_self)
  cases htasks.symm.trans htasks'
  refine h.done (c.freshSteps + 1) rfl (by rwa [flatMap_singleton]) (forall_mem_singleton.mpr ⟨?_, ?_⟩)
  · exact .inr ⟨c.freshSteps, by rw [hid], hlate, by rw [hid]; exact hcleared⟩
  · rw [hid]
    exact h.started_le _ (h.cleared_sub _ hcleared)

/-- **Each action keeps the invariant.** -/
theorem moves {c' : Client} {a : ClientAct} (h : Inv c) (hm : Moves a c c') : Inv c' := by
  cases hm with
  | submit hp => exact h.submit hp
  | start hstarts => exact h.start hstarts
  | skip hstarts => exact h.skip hstarts
  | noBuf hbuf => exact h.noBuf hbuf
  | submitBuf hbuf => exact h.submitBuf hbuf
  | coordinate => exact h.coordinate
  | drain htasks => exact h.drain htasks
  | record => exact h
  | flush => exact h.flush
  | clear => exact h.clear
  | noCall hm => exact h.noCall hm
  | call hmay => exact h.call hmay
  | past hlt =>
    exact h.past (h.cleared_of_called hlt.le fun hcur => hlt.ne (h.current _ hcur).1.symm)
  | wait hlt => exact h.wait hlt
  | join hid hguard => exact h.join hid hguard
  | late hid hguard =>
    exact h.past (h.cleared_of_called hid.le fun hcur =>
      (by cases hguard.symm.trans (h.guard.trans hcur)))
  | attach htasks => exact h.attachStep htasks
  | noReq htasks hnil => exact h.noReq htasks hnil
  | startReqSend htasks => exact h.startReqSend htasks

/-- It holds at the start. -/
theorem init {todo : List MainStep} (h : Contract todo calls) :
    Inv (Client.init todo calls) where
  stepids := h.stepids
  submits := h.submits
  left_submits := submitsOf_ok h.submits
  buf_claimed := fun _ _ _ => .inl rfl
  buf_empty := fun _ => rfl
  later := h.stepid_pos
  guard := (current_of_submitting rfl).symm
  current := fun _ hk => by cases (current_of_submitting rfl).symm.trans hk
  started_le := nofun
  cleared_sub := nofun
  started_cases := nofun
  positive := h.metas
  order := h.substeps
  pending := nofun
  taken := nofun
  called := nofun
  attach := nofun
  freeze := nofun
  right := nofun
  early := nofun
  account := fun _ => rfl

end Inv

end LlumnixKv
