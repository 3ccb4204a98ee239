import LlumnixKv.Foundations.Worker
import LlumnixKv.Machinery.Runs

/-!
# Client/Coord — two threads that feed the target manager

    main     submit* ─▶ start_send(k): submit the buffer ─▶ │lock│ publish k, take the pending
                        substeps ─▶ submit them ─▶ … ─▶ flush_send(k): │lock│ clear the guard
    bypass   start_send_substep(k, s): │lock│ route ─▶ pending   k is not published yet
                                                  ─▶ attach    k is current and has its guard
                                                  ─▶ a fresh step   k is over

The routing decision is taken under `coord_lock_` and acted on outside it.  Each action below is
what one thread does between two points where the other may come in; everything it reads and writes
under the lock is one action.  The `KVTransferClient` around the main thread and the scheduler that
issues the substeps are its contract: which step comes next is a function of the main thread's own
program (`Client.next`), and a substep may be issued for a step already published, or for that one.
An `RTASSERT` is a check; the plain `assert`s are compiled out of the wheels and do not appear.
-/

open Machinery

namespace LlumnixKv

/-- `RTASSERT(c)`, active in every build. -/
def rtassert (c : Prop) [Decidable c] : Except Fault Unit :=
  if c then .ok () else .error .abort

theorem rtassert_of {c : Prop} [Decidable c] (h : c) : rtassert c = .ok () := if_pos h

/-! ## Tasks -/

/-- `(dst_inst_id, dst_worker_id)`. -/
abbrev Dest := String × ℕ

/-- What `add_send_task` adds: a range of tokens of one request for one destination. -/
structure SendTask where
  dst : Dest
  reqId : String
  seenTokens : ℕ
  newTokens : ℕ
  hasLast : Bool
  deriving DecidableEq, Repr

/-- `StepTasks`: the tasks of a step or substep, grouped by destination. -/
structure StepTasks where
  stepid : ℕ := 0
  substepid : ℕ := 0
  groups : List (Dest × List SendTask) := []
  deriving DecidableEq, Repr

/-- All its tasks. -/
def StepTasks.all (tasks : StepTasks) : List SendTask := tasks.groups.flatMap (·.2)

/-- A task joins the group of its destination. -/
def addToGroup (task : SendTask) : List (Dest × List SendTask) → List (Dest × List SendTask)
  | [] => [(task.dst, [task])]
  | (d, l) :: groups =>
    if d = task.dst then (d, l ++ [task]) :: groups else (d, l) :: addToGroup task groups

/-- `add_send_task`. -/
def addSendTask (tasks : StepTasks) (task : SendTask) : StepTasks :=
  { tasks with groups := addToGroup task tasks.groups }

/-- `ReqMeta`, less the block tables, which are only passed on. -/
structure ReqMeta where
  dst : Dest
  reqid : String
  seenTokens : ℕ
  newTokens : ℕ
  deriving DecidableEq, Repr

/-- The task of a meta: always the last of its request. -/
def ReqMeta.task (m : ReqMeta) : SendTask :=
  ⟨m.dst, m.reqid, m.seenTokens, m.newTokens, true⟩

/-- `StepMetas`: the metas of one substep. -/
structure StepMetas where
  stepid : ℕ
  substepid : ℕ
  metas : List ReqMeta
  deriving DecidableEq, Repr

/-- The loop of `create_step_tasks`. -/
def addMetas : List ReqMeta → StepTasks → Except Fault StepTasks
  | [], tasks => .ok tasks
  | m :: metas, tasks => do
    rtassert (0 < m.newTokens)
    addMetas metas (addSendTask tasks m.task)

/-- `create_step_tasks`. -/
def createStepTasks (m : StepMetas) : Except Fault StepTasks :=
  addMetas m.metas { stepid := m.stepid, substepid := m.substepid }

/-! ## The main thread's buffer -/

/-- `submit_req_send` and `submit_delta_send`. -/
inductive Submit
  | req (dst : Dest) (reqId : String) (seenTokens newTokens : ℕ) (hasLast : Bool)
  | delta (reqId : String) (seenTokens newTokens : ℕ) (hasLast : Bool)
  deriving DecidableEq, Repr

/-- `reqs_`: the destinations of the requests that are not finished. -/
abbrev Reqs := List (String × List Dest)

/-- `reqs_[id].emplace_back(dst)`. -/
def pushReq (id : String) (dst : Dest) : Reqs → Reqs
  | [] => [(id, [dst])]
  | (i, l) :: reqs => if i = id then (i, l ++ [dst]) :: reqs else (i, l) :: pushReq id dst reqs

/-- The tasks a call adds to the buffer. -/
def Submit.tasks (reqs : Reqs) : Submit → List SendTask
  | .req dst id seen new last => [⟨dst, id, seen, new, last⟩]
  | .delta id seen new last => match reqs.lookup id with
    | none => []
    | some dsts => dsts.map fun dst => ⟨dst, id, seen, new, last⟩

/-- `reqs_` after a call. -/
def Submit.reqs (reqs : Reqs) : Submit → Reqs
  | .req dst id _ _ last => if last then reqs else pushReq id dst reqs
  | .delta id _ _ last => if last then reqs.filter (·.1 ≠ id) else reqs

/-- The check both calls make: a nonempty buffer belongs to this step, an empty one is given to
it. -/
def claimBuf (stepid : ℕ) (buf : StepTasks) : Except Fault StepTasks :=
  if buf.groups = [] then .ok { buf with stepid := stepid, substepid := 0 }
  else do
    rtassert (buf.stepid = stepid)
    rtassert (buf.substepid = 0)
    return buf

/-- `RTASSERT(new_tokens > 0)` of `submit_req_send`. -/
def Submit.check : Submit → Except Fault Unit
  | .req _ _ _ new _ => rtassert (0 < new)
  | .delta _ _ _ _ => .ok ()

/-- A call, on `reqs_` and the buffer. -/
def submitSend (stepid : ℕ) (x : Submit) (p : Reqs × StepTasks) :
    Except Fault (Reqs × StepTasks) := do
  x.check
  let buf ← claimBuf stepid p.2
  return (x.reqs p.1, (x.tasks p.1).foldl addSendTask buf)

/-! ## The state -/

/-- What a thread is given to hand over: a task that it puts into the buffer, or a meta. -/
inductive Offer
  | task (t : SendTask)
  | reqMeta (q : ReqMeta)
  deriving DecidableEq, Repr

/-- One step of the main thread's program. -/
structure MainStep where
  stepid : ℕ
  schedTokens : ℕ
  submits : List Submit
  deriving DecidableEq, Repr

/-- A `Step` object: the one `start_send` makes, or the `n`-th that `start_req_send` makes. -/
inductive StepObj
  | own (stepid : ℕ)
  | fresh (n stepid : ℕ)
  deriving DecidableEq, Repr

/-- A substep that has been through the lock; `late` if the guard of its step had been cleared. -/
structure Routed where
  call : StepMetas
  late : Bool
  deriving DecidableEq, Repr

/-- One call of `TargetMgr::submit`. -/
structure Submission where
  step : StepObj
  tasks : StepTasks
  late : Bool
  deriving DecidableEq, Repr

/-- Where the main thread is, within the current step. -/
inductive MainPc
  /-- before `start_send` -/
  | submitting (left : List Submit)
  /-- the `Step` is made, the buffer not yet submitted -/
  | starting
  /-- before the lock of `start_send` -/
  | coordinating
  /-- after it; with nothing left, the forward pass runs -/
  | draining (left : List Routed)
  /-- before the lock of `flush_send` -/
  | flushing
  deriving DecidableEq, Repr

/-- Where the bypass thread is. -/
inductive BypassPc
  | idle
  /-- before the lock of `start_send_substep` -/
  | called (m : StepMetas)
  | attach (step : StepObj) (r : Routed)
  | freeze (r : Routed)
  deriving DecidableEq, Repr

/-- `KvTransferClient` and its two threads. -/
structure Client where
  /-- the main thread's program, the current step first -/
  todo : List MainStep
  pc : MainPc
  /-- `targets_tasks_buf_` -/
  buf : StepTasks := {}
  reqs : Reqs := []
  coordStepId : ℕ := 0
  /-- `last_step_guard_`, by the id of its step -/
  lastStepGuard : Option ℕ := none
  pendingStepMetas : List Routed := []
  /-- the bypass thread's program -/
  calls : List StepMetas
  bpc : BypassPc := .idle
  /-- the calls of `TargetMgr::submit` -/
  submitted : List Submission := []
  freshSteps : ℕ := 0
  /-- the steps published, and those whose guard is cleared -/
  started : List ℕ := []
  cleared : List ℕ := []
  /-- what the two threads were given, with its step -/
  offered : List (ℕ × Offer) := []
  deriving DecidableEq

/-- The calls before `start_send` of the first step. -/
def submitsOf : List MainStep → List Submit
  | [] => []
  | st :: _ => st.submits

/-- The client at the start of two programs. -/
def Client.init (todo : List MainStep) (calls : List StepMetas) : Client :=
  { todo := todo, pc := .submitting (submitsOf todo), calls := calls }

/-! ## Which step comes next -/

/-- `reqs_` and the buffer after a list of calls. -/
def buffered (stepid : ℕ) : List Submit → Reqs × StepTasks → Reqs × StepTasks
  | [], p => p
  | x :: xs, p => match submitSend stepid x p with
    | .ok p' => buffered stepid xs p'
    | .error _ => p

/-- `start_send` makes a `Step`, with this buffer. -/
def MainStep.starts (st : MainStep) (buf : StepTasks) : Bool :=
  0 < st.schedTokens || buf.groups ≠ []

/-- The first step of a program that `start_send` will start. -/
def upcoming : Reqs → List MainStep → Option MainStep
  | _, [] => none
  | reqs, st :: rest =>
    if st.starts (buffered st.stepid st.submits (reqs, {})).2 then some st
    else upcoming (buffered st.stepid st.submits (reqs, {})).1 rest

variable (c : Client)

/-- **The next step to be published.** -/
def Client.next : Option MainStep :=
  match c.todo, c.pc with
  | [], _ => none
  | st :: rest, .submitting left =>
    if st.starts (buffered st.stepid left (c.reqs, c.buf)).2 then some st
    else upcoming (buffered st.stepid left (c.reqs, c.buf)).1 rest
  | st :: _, .starting => some st
  | st :: _, .coordinating => some st
  | _ :: rest, .draining _ => upcoming c.reqs rest
  | _ :: rest, .flushing => upcoming c.reqs rest

/-- A substep may be issued for a step already published, or for the next one, if that has tokens
scheduled. -/
def Client.mayIssue (stepid : ℕ) : Bool :=
  c.started.contains stepid || match c.next with
    | some st => st.stepid = stepid ∧ 0 < st.schedTokens
    | none => false

/-! ## The main thread -/

/-- `submit_req_send`, `submit_delta_send`. -/
def Client.submit : Option (Except Fault Client) :=
  match c.todo, c.pc with
  | st :: _, .submitting (x :: left) => some do
    let p ← submitSend st.stepid x (c.reqs, c.buf)
    return { c with
      reqs := p.1, buf := p.2, pc := .submitting left
      offered := c.offered ++ (x.tasks c.reqs).map fun t => (st.stepid, .task t) }
  | _, _ => none

/-- `start_send`, up to the buffer; a step without tokens and tasks is skipped. -/
def Client.startSend : Option (Except Fault Client) :=
  match c.todo, c.pc with
  | st :: rest, .submitting [] =>
    if st.starts c.buf then some (.ok { c with pc := .starting })
    else some (.ok { c with todo := rest, pc := .submitting (submitsOf rest) })
  | _, _ => none

/-- `mgr_.submit(step, tmp_tasks)`. -/
def Client.submitBuf : Option (Except Fault Client) :=
  match c.todo, c.pc with
  | st :: _, .starting => some (.ok { c with
      buf := {}
      submitted := if c.buf.groups = [] then c.submitted
        else c.submitted ++ [⟨.own st.stepid, c.buf, false⟩]
      pc := .coordinating })
  | _, _ => none

/-- The lock of `start_send`. -/
def Client.coordinate : Option (Except Fault Client) :=
  match c.todo, c.pc with
  | st :: _, .coordinating => some (.ok { c with
      coordStepId := st.stepid
      lastStepGuard := some st.stepid
      pc := .draining c.pendingStepMetas
      pendingStepMetas := []
      started := st.stepid :: c.started })
  | _, _ => none

/-- One turn of the loop after it. -/
def Client.drain : Option (Except Fault Client) :=
  match c.todo, c.pc with
  | st :: _, .draining (r :: left) => some do
    let tasks ← createStepTasks r.call
    return { c with
      submitted := c.submitted ++ [⟨.own st.stepid, tasks, r.late⟩], pc := .draining left }
  | _, _ => none

/-- The check of `notify_event_record` and `flush_send`. -/
def Client.checkGuard (stepid : ℕ) : Except Fault Unit :=
  if c.lastStepGuard = some stepid then .ok ()
  else .error (.runtime "event record before step start;")

/-- `notify_event_record`. -/
def Client.record : Option (Except Fault Client) :=
  match c.todo, c.pc with
  | st :: _, .draining [] => some do
    c.checkGuard st.stepid
    return c
  | _, _ => none

/-- `flush_send`, up to its lock. -/
def Client.flush : Option (Except Fault Client) :=
  match c.todo, c.pc with
  | st :: _, .draining [] => some do
    c.checkGuard st.stepid
    return { c with pc := .flushing }
  | _, _ => none

/-- The lock of `flush_send`. -/
def Client.clear : Option (Except Fault Client) :=
  match c.todo, c.pc with
  | st :: rest, .flushing => some (.ok { c with
      lastStepGuard := none
      cleared := st.stepid :: c.cleared
      todo := rest
      pc := .submitting (submitsOf rest) })
  | _, _ => none

/-! ## The bypass thread -/

/-- `start_send_substep` is called, and finds metas. -/
def Client.call : Option (Except Fault Client) :=
  match c.calls, c.bpc with
  | m :: calls, .idle =>
    if c.mayIssue m.stepid then
      some (.ok { c with
        calls := calls
        bpc := if m.metas = [] then .idle else .called m
        offered := c.offered ++ m.metas.map fun q => (m.stepid, .reqMeta q) })
    else none
  | _, _ => none

/-- The checks before a substep is put behind another. -/
def checkPending (pending : List Routed) (m : StepMetas) : Except Fault Unit :=
  match pending.getLast? with
  | none => .ok ()
  | some r => do
    rtassert (r.call.stepid = m.stepid)
    rtassert (r.call.substepid < m.substepid)

/-- The lock of `start_send_substep`. -/
def Client.route : Option (Except Fault Client) :=
  match c.bpc with
  | .called m =>
    let r : Routed := ⟨m, c.cleared.contains m.stepid⟩
    if m.stepid < c.coordStepId then some (.ok { c with bpc := .freeze r })
    else if c.coordStepId < m.stepid then some do
      checkPending c.pendingStepMetas m
      return { c with pendingStepMetas := c.pendingStepMetas ++ [r], bpc := .idle }
    else match c.lastStepGuard with
      | some k => some (.ok { c with bpc := .attach (.own k) r })
      | none => some (.ok { c with bpc := .freeze r })
  | _ => none

/-- The substep joins the current step. -/
def Client.attach (c : Client) : Option (Except Fault Client) :=
  match c.bpc with
  | .attach step r => some do
    let tasks ← createStepTasks r.call
    return { c with submitted := c.submitted ++ [⟨step, tasks, r.late⟩], bpc := .idle }
  | _ => none

/-- `start_req_send`, on a new `Step`. -/
def Client.startReqSend : Option (Except Fault Client) :=
  match c.bpc with
  | .freeze r => some do
    let tasks ← createStepTasks r.call
    return if tasks.groups = [] then { c with bpc := .idle } else { c with
      submitted := c.submitted ++ [⟨.fresh c.freshSteps r.call.stepid, tasks, r.late⟩]
      freshSteps := c.freshSteps + 1
      bpc := .idle }
  | _ => none

/-! ## Either thread -/

/-- The actions of the two threads. -/
inductive ClientAct
  | submit
  | startSend
  | submitBuf
  | coordinate
  | drain
  | record
  | flush
  | clear
  | call
  | route
  | attach
  | startReqSend
  deriving DecidableEq, Repr

/-- What each does. -/
def Client.act : ClientAct → Option (Except Fault Client)
  | .submit => c.submit
  | .startSend => c.startSend
  | .submitBuf => c.submitBuf
  | .coordinate => c.coordinate
  | .drain => c.drain
  | .record => c.record
  | .flush => c.flush
  | .clear => c.clear
  | .call => c.call
  | .route => c.route
  | .attach => c.attach
  | .startReqSend => c.startReqSend

/-! ## What an action can do -/

/-- `Moves a c c'`: the action `a` takes `c` to `c'`. -/
inductive Moves : ClientAct → Client → Client → Prop
  | submit {c : Client} {st rest x left p}
      (hp : submitSend st.stepid x (c.reqs, c.buf) = .ok p) :
      Moves .submit { c with todo := st :: rest, pc := .submitting (x :: left) }
        { c with
          todo := st :: rest, pc := .submitting left, reqs := p.1, buf := p.2
          offered := c.offered ++ (x.tasks c.reqs).map fun t => (st.stepid, .task t) }
  | start {c : Client} {st rest} (hstarts : st.starts c.buf = true) :
      Moves .startSend { c with todo := st :: rest, pc := .submitting [] }
        { c with todo := st :: rest, pc := .starting }
  | skip {c : Client} {st rest} (hstarts : ¬st.starts c.buf = true) :
      Moves .startSend { c with todo := st :: rest, pc := .submitting [] }
        { c with todo := rest, pc := .submitting (submitsOf rest) }
  | noBuf {c : Client} {st rest} (hbuf : c.buf.groups = []) :
      Moves .submitBuf { c with todo := st :: rest, pc := .starting }
        { c with todo := st :: rest, pc := .coordinating, buf := {} }
  | submitBuf {c : Client} {st rest} (hbuf : c.buf.groups ≠ []) :
      Moves .submitBuf { c with todo := st :: rest, pc := .starting }
        { c with
          todo := st :: rest, pc := .coordinating, buf := {}
          submitted := c.submitted ++ [⟨.own st.stepid, c.buf, false⟩] }
  | coordinate {c : Client} {st rest} :
      Moves .coordinate { c with todo := st :: rest, pc := .coordinating }
        { c with
          todo := st :: rest, pc := .draining c.pendingStepMetas, coordStepId := st.stepid
          lastStepGuard := some st.stepid, pendingStepMetas := []
          started := st.stepid :: c.started }
  | drain {c : Client} {st rest r left tasks} (htasks : createStepTasks r.call = .ok tasks) :
      Moves .drain { c with todo := st :: rest, pc := .draining (r :: left) }
        { c with
          todo := st :: rest, pc := .draining left
          submitted := c.submitted ++ [⟨.own st.stepid, tasks, r.late⟩] }
  | record {c : Client} {st rest} :
      Moves .record { c with todo := st :: rest, pc := .draining [] }
        { c with todo := st :: rest, pc := .draining [] }
  | flush {c : Client} {st rest} :
      Moves .flush { c with todo := st :: rest, pc := .draining [] }
        { c with todo := st :: rest, pc := .flushing }
  | clear {c : Client} {st rest} :
      Moves .clear { c with todo := st :: rest, pc := .flushing }
        { c with
          todo := rest, pc := .submitting (submitsOf rest), lastStepGuard := none
          cleared := st.stepid :: c.cleared }
  | noCall {c : Client} {m : StepMetas} {calls} (hm : m.metas = []) :
      Moves .call { c with calls := m :: calls, bpc := .idle }
        { c with
          calls := calls, bpc := .idle
          offered := c.offered ++ m.metas.map fun q => (m.stepid, .reqMeta q) }
  | call {c : Client} {m calls} (hmay : c.mayIssue m.stepid = true) :
      Moves .call { c with calls := m :: calls, bpc := .idle }
        { c with
          calls := calls, bpc := .called m
          offered := c.offered ++ m.metas.map fun q => (m.stepid, .reqMeta q) }
  | past {c : Client} {m} (hlt : m.stepid < c.coordStepId) :
      Moves .route { c with bpc := .called m }
        { c with bpc := .freeze ⟨m, c.cleared.contains m.stepid⟩ }
  | wait {c : Client} {m} (hlt : c.coordStepId < m.stepid) :
      Moves .route { c with bpc := .called m }
        { c with
          bpc := .idle
          pendingStepMetas := c.pendingStepMetas ++ [⟨m, c.cleared.contains m.stepid⟩] }
  | join {c : Client} {m k} (hid : m.stepid = c.coordStepId) (hguard : c.lastStepGuard = some k) :
      Moves .route { c with bpc := .called m }
        { c with bpc := .attach (.own k) ⟨m, c.cleared.contains m.stepid⟩ }
  | late {c : Client} {m} (hid : m.stepid = c.coordStepId) (hguard : c.lastStepGuard = none) :
      Moves .route { c with bpc := .called m }
        { c with bpc := .freeze ⟨m, c.cleared.contains m.stepid⟩ }
  | attach {c : Client} {step r tasks} (htasks : createStepTasks r.call = .ok tasks) :
      Moves .attach { c with bpc := .attach step r }
        { c with bpc := .idle, submitted := c.submitted ++ [⟨step, tasks, r.late⟩] }
  | noReq {c : Client} {r tasks} (htasks : createStepTasks r.call = .ok tasks)
      (hnil : tasks.groups = []) :
      Moves .startReqSend { c with bpc := .freeze r } { c with bpc := .idle }
  | startReqSend {c : Client} {r tasks} (htasks : createStepTasks r.call = .ok tasks)
      (hne : tasks.groups ≠ []) :
      Moves .startReqSend { c with bpc := .freeze r }
        { c with
          bpc := .idle, freshSteps := c.freshSteps + 1
          submitted := c.submitted ++ [⟨.fresh c.freshSteps r.call.stepid, tasks, r.late⟩] }

section Inversion

variable {c c' : Client}

theorem Client.eq_main {todo : List MainStep} {pc : MainPc} (htodo : c.todo = todo)
    (hpc : c.pc = pc) : c = { c with todo := todo, pc := pc } := by
  rw [← htodo, ← hpc]

theorem Client.eq_bypass {bpc : BypassPc} (hbpc : c.bpc = bpc) : c = { c with bpc := bpc } := by
  rw [← hbpc]

theorem Client.eq_calls {calls : List StepMetas} {bpc : BypassPc} (hcalls : c.calls = calls)
    (hbpc : c.bpc = bpc) : c = { c with calls := calls, bpc := bpc } := by
  rw [← hcalls, ← hbpc]

/-- **An action that returns moves the client.** -/
theorem moves_of_act {a : ClientAct} (hs : c.act a = some (.ok c')) : Moves a c c' := by
  cases a with
  | submit =>
    rw [Client.act, Client.submit] at hs
    split at hs
    · next st rest x left htodo hpc =>
      obtain ⟨p, hp, hc⟩ := bind_eq_ok.mp (Option.some.inj hs)
      cases hc
      rw [Client.eq_main htodo hpc]
      exact .submit (c := c) hp
    · cases hs
  | startSend =>
    rw [Client.act, Client.startSend] at hs
    split at hs
    · next st rest htodo hpc =>
      split at hs
      · next hstarts =>
        cases hs
        rw [Client.eq_main htodo hpc]
        exact .start (c := c) hstarts
      · next hstarts =>
        cases hs
        rw [Client.eq_main htodo hpc]
        exact .skip (c := c) hstarts
    · cases hs
  | submitBuf =>
    rw [Client.act, Client.submitBuf] at hs
    split at hs
    · next st rest htodo hpc =>
      cases hs
      rw [Client.eq_main htodo hpc]
      dsimp only
      split
      · next hbuf => exact .noBuf (c := c) hbuf
      · next hbuf => exact .submitBuf (c := c) hbuf
    · cases hs
  | coordinate =>
    rw [Client.act, Client.coordinate] at hs
    split at hs
    · next st rest htodo hpc =>
      cases hs
      rw [Client.eq_main htodo hpc]
      exact .coordinate (c := c)
    · cases hs
  | drain =>
    rw [Client.act, Client.drain] at hs
    split at hs
    · next st rest r left htodo hpc =>
      obtain ⟨tasks, htasks, hc⟩ := bind_eq_ok.mp (Option.some.inj hs)
      cases hc
      rw [Client.eq_main htodo hpc]
      exact .drain (c := c) htasks
    · cases hs
  | record =>
    rw [Client.act, Client.record] at hs
    split at hs
    · next st rest htodo hpc =>
      obtain ⟨_, -, hc⟩ := bind_eq_ok.mp (Option.some.inj hs)
      cases hc
      rw [Client.eq_main htodo hpc]
      exact .record (c := c)
    · cases hs
  | flush =>
    rw [Client.act, Client.flush] at hs
    split at hs
    · next st rest htodo hpc =>
      obtain ⟨_, -, hc⟩ := bind_eq_ok.mp (Option.some.inj hs)
      cases hc
      rw [Client.eq_main htodo hpc]
      exact .flush (c := c)
    · cases hs
  | clear =>
    rw [Client.act, Client.clear] at hs
    split at hs
    · next st rest htodo hpc =>
      cases hs
      rw [Client.eq_main htodo hpc]
      exact .clear (c := c)
    · cases hs
  | call =>
    rw [Client.act, Client.call] at hs
    split at hs
    · next m calls hcalls hbpc =>
      split at hs
      · next hmay =>
        cases hs
        rw [Client.eq_calls hcalls hbpc]
        dsimp only
        split
        · next hm => exact .noCall (c := c) hm
        · exact .call (c := c) hmay
      · cases hs
    · cases hs
  | route =>
    rw [Client.act, Client.route] at hs
    split at hs
    · next m hbpc =>
      dsimp only at hs
      split at hs
      · next hlt =>
        cases hs
        rw [Client.eq_bypass hbpc]
        exact .past (c := c) hlt
      · split at hs
        · next hlt =>
          obtain ⟨_, -, hc⟩ := bind_eq_ok.mp (Option.some.inj hs)
          cases hc
          rw [Client.eq_bypass hbpc]
          exact .wait (c := c) hlt
        · have hid : m.stepid = c.coordStepId := by omega
          split at hs
          · next k hguard =>
            cases hs
            rw [Client.eq_bypass hbpc]
            exact .join (c := c) hid hguard
          · next hguard =>
            cases hs
            rw [Client.eq_bypass hbpc]
            exact .late (c := c) hid hguard
    · cases hs
  | attach =>
    rw [Client.act, Client.attach] at hs
    split at hs
    · next step r hbpc =>
      obtain ⟨tasks, htasks, hc⟩ := bind_eq_ok.mp (Option.some.inj hs)
      cases hc
      rw [Client.eq_bypass hbpc]
      exact .attach (c := c) htasks
    · cases hs
  | startReqSend =>
    rw [Client.act, Client.startReqSend] at hs
    split at hs
    · next r hbpc =>
      obtain ⟨tasks, htasks, hc⟩ := bind_eq_ok.mp (Option.some.inj hs)
      cases hc
      rw [Client.eq_bypass hbpc]
      split
      · next hnil => exact .noReq (c := c) htasks hnil
      · next hne => exact .startReqSend (c := c) htasks hne
    · cases hs

end Inversion

end LlumnixKv
