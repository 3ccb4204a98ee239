import LlumnixKv.Machinery.Throwing
import LlumnixKv.Parse.Common
import LlumnixKv.Stub.Context

/-!
# Stub/DoTask — one batch of a send stub

    batch ──▶ finished_req   the tasks that reach their last token
          └─▶ send_req       new tokens, and the request has not failed
                 try { channel; parse every task; register; send every layer; flush }
                 catch       drop the channel, fail every request of the batch
          finished_req ──▶ INPROCESS becomes OK, or FAILED without new tokens ──▶ done message

Everything outside the stub — the naming service, the channel, the parse functions — is an
`Outside`, arbitrary in each batch.  A batch leaves a `BatchLog` of what it did.
-/

open Machinery

namespace LlumnixKv

open Throwing

/-! ## The stub and its surroundings -/

/-- What is fixed when a `KvSendStub` is made. -/
structure Stub where
  env : EnvCfg := {}
  src : WorkerInfo := {}
  startLayer : ℕ := 0
  numLayers : ℕ := 1
  /-- `env_send_done_head_kind() == SEND_SAVE_DONE_HEAD_KIND` -/
  sendSaveDone : Bool := true

variable (stub : Stub)

/-- The layers a stub sends. -/
def Stub.layers : List ℕ :=
  List.range' stub.startLayer (stub.numLayers - stub.startLayer)

/-- A call of the channel, with its arguments. -/
inductive ChannelCall
  | registerData (sendBlocks : List (List IpcBlock)) (kind : TPKind)
  | sendData (layer : ℕ)
  | flush
  deriving DecidableEq, Repr

/-- What the rest of the system does during one batch. -/
structure Outside where
  isActive : Bool := true
  getWorkerInfo : Answer
  create : Call := .ok ()
  parse : ParseFn → ParseBlockFunc
  channel : ChannelCall → Call := fun _ => .ok ()
  /-- `fault_inject_throw`, empty in a release build -/
  faultInjectThrow : Call := .ok ()

variable (o : Outside)

/-- The attempt of `try_create_channel` a batch makes; `rest` is how the batch ends after it. -/
def Outside.attempt (rest : Call) : Attempt :=
  ⟨o.isActive, o.getWorkerInfo, o.create, rest⟩

/-- The state of each request, by the identity of its `RequestInfo`. -/
abbrev ReqStates := ℕ → ReqState

/-- What a stub carries from batch to batch. -/
structure StubState where
  ctx : TaskContext := {}
  states : ReqStates := fun _ => .inprocess

/-! ## The `try` block -/

/-- How far the `try` block got. -/
structure SendState where
  ctx : TaskContext
  /-- the tasks that are parsed, with what the parse function emitted for them -/
  parsed : List (ReqSendTask × List (List IpcBlock)) := []
  sendBlocks : List (List IpcBlock) := []
  /-- the calls of the channel that returned -/
  calls : List ChannelCall := []

/-- A call outside. -/
def call {σ : Type} (c : Call) : Throwing Fault σ := Throwing.lift fun _ => match c with
  | .ok () => .ok ()
  | .error msg => .error (.runtime msg)

/-- A call of the channel. -/
def invoke (c : ChannelCall) : Throwing Fault SendState :=
  (call (o.channel c)).seq (Throwing.modify fun s => { s with calls := s.calls ++ [c] })

/-- `send_blocks` after a parse function appended to its lists. -/
def appendBlocks : List (List IpcBlock) → List (List IpcBlock) → List (List IpcBlock)
  | [], out => out
  | acc, [] => acc
  | l :: acc, o :: out => (l ++ o) :: appendBlocks acc out

/-- The call of `parse_block` for one task; `dstinfo.value()` comes first. -/
def parseTask (task : ReqSendTask) : Throwing Fault SendState :=
  fun s => match s.ctx.dstinfo, s.ctx.parseBlock with
  | none, _ => (s, .error (.runtime "bad optional access"))
  | some _, none => (s, .error .undefined)
  | some dst, some fn =>
    match o.parse fn stub.src dst s.ctx.validRanks s.ctx.kvtTpSize s.ctx.kvtTpRank task with
    | .error f => (s, .error f)
    | .ok out => ({ s with
        parsed := s.parsed ++ [(task, out)]
        sendBlocks := appendBlocks s.sendBlocks out }, .ok ())

/-- `do_send`, for a step whose layers become ready. -/
def doSend : Throwing Fault SendState := fun s =>
  ((invoke o (.registerData s.sendBlocks s.ctx.tpkind)).seq <|
    (Throwing.each (fun i => invoke o (.sendData i)) stub.layers).seq <|
    (call (if stub.env.ndebug then .ok () else o.faultInjectThrow)).seq (invoke o .flush)) s

/-- `!send_blocks.empty() && !send_blocks[0].empty()`. -/
def hasRecords (sendBlocks : List (List IpcBlock)) : Bool :=
  match sendBlocks with
  | [] => false
  | l :: _ => !l.isEmpty

/-- The sending part of the `try` block: only if there is something to send. -/
def sendParsed : Throwing Fault SendState := fun s =>
  if hasRecords s.sendBlocks then
    ((Throwing.lift fun s => cassert stub.env.ndebug (∀ sb ∈ s.sendBlocks, sb ≠ [])).seq
      (doSend stub o)) s
  else (s, .ok ())

/-- `try_create_channel`, on the context. -/
def openChannel : Throwing Fault SendState :=
  Throwing.zoom SendState.ctx (fun ctx s => { s with ctx := ctx })
    (tryCreateChannel stub.env stub.src o.isActive o.getWorkerInfo o.create)

/-- The `try` block after `try_create_channel`. -/
def afterChannel (sendReq : List ReqSendTask) : Throwing Fault SendState :=
  (Throwing.lift fun s => cassert stub.env.ndebug (s.ctx.parseBlock ≠ none)).seq <|
    (Throwing.lift fun s => cassert stub.env.ndebug (s.ctx.tpkind ≠ .unknown)).seq <|
    (Throwing.each (parseTask stub o) sendReq).seq (sendParsed stub o)

/-- The `try` block of `do_task`. -/
def trySend (sendReq : List ReqSendTask) : Throwing Fault SendState :=
  (openChannel stub o).seq (afterChannel stub o sendReq)

/-! ## Request states -/

variable (states : ReqStates)

/-- `set_state`. -/
def setState (task : ReqSendTask) (st : ReqState) : ReqStates :=
  Function.update states task.req.key st

/-- The `catch` block: every request of the batch has failed. -/
def failAll (tasks : List ReqSendTask) (states : ReqStates) : ReqStates :=
  tasks.foldl (fun st task => setState st task .failed) states

/-- A finished task settles its request. -/
def finishTask (task : ReqSendTask) : ReqStates :=
  if states task.req.key = .inprocess then
    setState states task (if task.newTokens = 0 then .failed else .ok)
  else states

/-! ## The done message -/

/-- `SEND_DONE_REQ`. -/
def sendDoneReq : ℕ := 0x20181219

/-- `SAVE_DONE2_REQ`. -/
def saveDone2Req : ℕ := 0x20181223

/-- `HAS_VER2`, set in the rank of a message. -/
def hasVer2 : ℕ := 0x40000000

/-- `CODE_INTERNALERROR`. -/
def codeInternalerror : ℕ := 500

/-- The record of one finished request. -/
structure DoneRecord where
  plen : ℕ
  code : ℕ
  reqId : String
  deriving DecidableEq, Repr

/-- The buffer `rpc_send_done` writes: the same records under each head. -/
structure DoneMessage where
  heads : List ℕ
  workerTpRank : ℕ
  records : List DoneRecord
  deriving DecidableEq, Repr

/-- The record of a task, for the state its request has. -/
def doneRecord (task : ReqSendTask) : DoneRecord where
  plen := task.endTokens
  code := if states task.req.key = .ok then 0 else codeInternalerror
  reqId := task.req.reqId

/-- `rpc_send_done`: the message it sends. -/
def rpcSendDone (reqs : List ReqSendTask) :
    Except Fault DoneMessage := do
  cassert stub.env.ndebug (stub.src.workerTpRank < 0xffff)
  return {
    heads := if stub.sendSaveDone then [sendDoneReq, saveDone2Req] else [sendDoneReq]
    workerTpRank := stub.src.workerTpRank ||| hasVer2
    records := reqs.map (doneRecord states) }

/-! ## The batch -/

/-- What a batch did. -/
structure BatchLog where
  outside : Outside
  tasks : List ReqSendTask
  /-- the request states it started with -/
  before : ReqStates
  reached : SendState
  /-- what its `catch` block caught -/
  raised : Option Fault
  /-- …and ended with -/
  after : ReqStates
  done : Option DoneMessage

/-- What the messages of a batch say. -/
def BatchLog.records (log : BatchLog) : List DoneRecord :=
  match log.done with
  | none => []
  | some msg => msg.records

/-- The finished tasks of a batch. -/
def finishedReq (tasks : List ReqSendTask) : List ReqSendTask :=
  tasks.filter (·.reachLastToken)

/-- The tasks of a batch to send. -/
def sendReqOf (tasks : List ReqSendTask) : List ReqSendTask :=
  tasks.filter fun task => 0 < task.newTokens ∧ states task.req.key ≠ .failed

/-- The `try` block, if there is something to send. -/
def tryBlock (sendReq : List ReqSendTask) (ctx : TaskContext) :
    SendState × Except Fault Unit :=
  if sendReq = [] then ({ ctx := ctx }, .ok ()) else trySend stub o sendReq { ctx := ctx }

/-- The `catch` block: the stub's state after it, and what it caught. -/
def catchBlock (tasks : List ReqSendTask) (states : ReqStates)
    (ended : SendState × Except Fault Unit) : Except Fault (StubState × Option Fault) :=
  match ended with
  | (reached, .ok ()) => .ok (⟨reached.ctx, states⟩, none)
  | (reached, .error f) =>
    if f.caught then do
      cassert stub.env.ndebug (∀ task ∈ tasks,
        states task.req.key = .inprocess ∨ states task.req.key = .failed)
      return (⟨{ reached.ctx with ch := false }, failAll tasks states⟩, some f)
    else .error f

/-- `send_done`, if a request has finished. -/
def sendDone (finished : List ReqSendTask) :
    Except Fault (Option DoneMessage) :=
  if finished = [] then .ok none else some <$> rpcSendDone stub states finished

/-- `do_task`; an error is the end of the process. -/
def doTask (tasks : List ReqSendTask) (s : StubState) :
    Except Fault (StubState × BatchLog) := do
  cassert stub.env.ndebug (tasks ≠ [])
  let sendReq := sendReqOf s.states tasks
  cassert stub.env.ndebug (∀ task ∈ sendReq, s.states task.req.key = .inprocess)
  let ended := tryBlock stub o sendReq s.ctx
  let (s', raised) ← catchBlock stub tasks s.states ended
  let states := (finishedReq tasks).foldl finishTask s'.states
  let done ← sendDone stub states (finishedReq tasks)
  return (⟨s'.ctx, states⟩, ⟨o, tasks, s.states, ended.1, raised, states, done⟩)

/-- The batches of a stub, one after another; the logs of those that ended. -/
def runBatches (stub : Stub) : StubState → List (Outside × List ReqSendTask) → List BatchLog
  | _, [] => []
  | s, (o, tasks) :: rest => match doTask stub o tasks s with
    | .error _ => []
    | .ok (s', log) => log :: runBatches stub s' rest

/-! ## What a batch can do -/

section Ran

variable {stub : Stub} {o : Outside} {tasks : List ReqSendTask} {s s' : StubState} {log : BatchLog}

/-- The batch `tasks`, run from `s`, ended in `s'`. -/
structure Ran (stub : Stub) (o : Outside) (tasks : List ReqSendTask) (s s' : StubState)
    (log : BatchLog) : Prop where
  outside_eq : log.outside = o
  tasks_eq : log.tasks = tasks
  before_eq : log.before = s.states
  reached_eq : log.reached = (tryBlock stub o (sendReqOf s.states tasks) s.ctx).1
  after_eq : log.after = s'.states
  done_eq : sendDone stub s'.states (finishedReq tasks) = .ok log.done
  /-- nothing was thrown, or the `catch` block ran -/
  outcome :
    (log.raised = none ∧ (tryBlock stub o (sendReqOf s.states tasks) s.ctx).2 = .ok () ∧
      s' = ⟨log.reached.ctx, (finishedReq tasks).foldl finishTask s.states⟩) ∨
    (∃ f, log.raised = some f ∧ f.caught = true ∧
      (tryBlock stub o (sendReqOf s.states tasks) s.ctx).2 = .error f ∧
      s' = ⟨{ log.reached.ctx with ch := false },
        (finishedReq tasks).foldl finishTask (failAll tasks s.states)⟩)

/-- The `catch` block, inverted. -/
theorem catchBlock_eq_ok {states : ReqStates} {ended : SendState × Except Fault Unit}
    {raised : Option Fault} (h : catchBlock stub tasks states ended = .ok (s', raised)) :
    (raised = none ∧ ended.2 = .ok () ∧ s' = ⟨ended.1.ctx, states⟩) ∨
    (∃ f, raised = some f ∧ f.caught = true ∧ ended.2 = .error f ∧
      s' = ⟨{ ended.1.ctx with ch := false }, failAll tasks states⟩) := by
  unfold catchBlock at h
  split at h
  · obtain ⟨rfl, rfl⟩ := Prod.mk.inj (Except.ok.inj h)
    exact .inl ⟨rfl, rfl, rfl⟩
  · split at h
    next f hf =>
      replace h := after_check h
      obtain ⟨rfl, rfl⟩ := Prod.mk.inj (Except.ok.inj h)
      exact .inr ⟨f, rfl, hf, rfl, rfl⟩
    · cases h

/-- **`do_task`, inverted.** -/
theorem ran_of_doTask (h : doTask stub o tasks s = .ok (s', log)) : Ran stub o tasks s s' log := by
  replace h := after_check h
  replace h := after_check h
  obtain ⟨⟨t, raised⟩, hcatch, h⟩ := bind_eq_ok.mp h
  obtain ⟨done, hdone, h⟩ := bind_eq_ok.mp h
  obtain ⟨rfl, rfl⟩ := Prod.mk.inj (Except.ok.inj h)
  refine ⟨rfl, rfl, rfl, rfl, rfl, hdone, ?_⟩
  rcases catchBlock_eq_ok hcatch with ⟨rfl, hok, rfl⟩ | ⟨f, rfl, hf, herr, rfl⟩
  · exact .inl ⟨rfl, hok, rfl⟩
  · exact .inr ⟨f, rfl, hf, herr, rfl⟩

end Ran

/-! ## What becomes of the context -/

section Context

variable {stub : Stub} {o : Outside} {ctx : TaskContext}

/-- A channel is kept only with the destination it was made for. -/
def TaskContext.Anchored (ctx : TaskContext) : Prop := ctx.ch = true → ctx.dstinfo ≠ none

/-- A refresh that returns has a destination. -/
theorem refreshDstInfo_ok {env : EnvCfg} {src : WorkerInfo} {a : Answer}
    (h : (refreshDstInfo env src a ctx).2 = .ok ()) :
    (refreshDstInfo env src a ctx).1.dstinfo ≠ none := by
  cases hdst : ctx.dstinfo with
  | some w =>
    rw [refreshDstInfo_later hdst]
    exact Option.some_ne_none _
  | none =>
    cases hrec : a.record with
    | none =>
      obtain ⟨msg, hstep⟩ : ∃ msg, refreshDstInfo env src a ctx = (ctx, .error (.runtime msg)) :=
        refreshDstInfo_none hdst hrec
      rw [hstep] at h
      cases h
    | some w =>
      rw [refreshDstInfo_first hdst hrec, bindDst_dstinfo]
      exact Option.some_ne_none w

/-- …and so has `try_create_channel`. -/
theorem tryCreateChannel_ok {env : EnvCfg} {src : WorkerInfo} {active : Bool} {a : Answer}
    {create : Call} (hctx : ctx.Anchored)
    (h : (tryCreateChannel env src active a create ctx).2 = .ok ()) :
    (tryCreateChannel env src active a create ctx).1.dstinfo ≠ none := by
  unfold tryCreateChannel at h ⊢
  by_cases hch : (ctx.ch && active) = true
  · rw [if_pos hch]
    exact hctx (Bool.and_eq_true_iff.mp hch).1
  · rw [if_neg hch] at h ⊢
    split at h
    · cases h
    · next c heq =>
      have hdst := refreshDstInfo_ok (congrArg Prod.snd heq)
      rw [heq] at hdst
      split at h
      · cases h
      · exact hdst

theorem invoke_keeps (c : ChannelCall) : Throwing.Keeps SendState.ctx (invoke o c) :=
  (Throwing.Keeps.lift _).seq (Throwing.Keeps.modify fun _ => rfl)

theorem doSend_keeps : Throwing.Keeps SendState.ctx (doSend stub o) := fun s =>
  ((invoke_keeps _).seq ((Throwing.Keeps.each (fun _ => invoke_keeps _) _).seq
    ((Throwing.Keeps.lift _).seq (invoke_keeps _)))) s

/-- After the channel is there, the `try` block leaves the context alone. -/
theorem sendParsed_keeps : Throwing.Keeps SendState.ctx (sendParsed stub o) := by
  intro s
  unfold sendParsed
  split
  · exact Throwing.Keeps.seq (Throwing.Keeps.lift _) doSend_keeps s
  · rfl

theorem parseTask_keeps (task : ReqSendTask) :
    Throwing.Keeps SendState.ctx (parseTask stub o task) := by
  intro s
  unfold parseTask
  split
  · rfl
  · rfl
  · split <;> rfl

theorem afterChannel_keeps (sendReq : List ReqSendTask) :
    Throwing.Keeps SendState.ctx (afterChannel stub o sendReq) :=
  (Throwing.Keeps.lift _).seq ((Throwing.Keeps.lift _).seq
    ((Throwing.Keeps.each parseTask_keeps sendReq).seq sendParsed_keeps))

/-- A null `parse_block` ends the process. -/
theorem afterChannel_null {sendReq : List ReqSendTask} (s : SendState) (hne : sendReq ≠ [])
    (hdst : s.ctx.dstinfo ≠ none) (hfn : s.ctx.parseBlock = none) :
    ∃ f, (afterChannel stub o sendReq s).2 = .error f ∧ f.caught = false := by
  obtain ⟨task, rest, rfl⟩ := List.exists_cons_of_ne_nil hne
  obtain ⟨dst, hdst⟩ := Option.ne_none_iff_exists'.mp hdst
  have hparse : parseTask stub o task s = (s, .error .undefined) := by
    rw [parseTask, hdst, hfn]
  unfold afterChannel
  cases hnd : stub.env.ndebug with
  | false =>
    have hassert : (lift fun s : SendState => cassert false (s.ctx.parseBlock ≠ none)) s =
        (s, .error .abort) := by
      rw [lift, hfn]
      rfl
    rw [seq_of_error hassert]
    exact ⟨.abort, rfl, rfl⟩
  | true =>
    refine ⟨.undefined, ?_, rfl⟩
    change ((each (parseTask stub o) (task :: rest)).seq (sendParsed stub o) s).2 = _
    rw [each, seq_of_error (seq_of_error hparse)]

/-- **The context evolves by `attempt`.** -/
theorem Ran.attempt {tasks : List ReqSendTask} {s s' : StubState} {log : BatchLog}
    (h : Ran stub o tasks s s' log) (hctx : s.ctx.Anchored) :
    (sendReqOf s.states tasks = [] ∧ s'.ctx = s.ctx) ∨
    ∃ rest, LlumnixKv.attempt stub.env stub.src s.ctx (o.attempt rest) = some s'.ctx := by
  have hreached := h.reached_eq
  have houtcome := h.outcome
  by_cases hne : sendReqOf s.states tasks = []
  · refine .inl ⟨hne, ?_⟩
    rw [tryBlock, if_pos hne] at hreached houtcome
    rcases houtcome with ⟨-, -, rfl⟩ | ⟨f, -, -, herr, -⟩
    · rw [hreached]
    · cases herr
  rw [tryBlock, if_neg hne, trySend] at hreached houtcome
  refine .inr ?_
  rcases hr : tryCreateChannel stub.env stub.src o.isActive o.getWorkerInfo o.create s.ctx
    with ⟨c, res⟩
  have hopen : openChannel stub o { ctx := s.ctx } = ({ ctx := c }, res) := by
    rw [openChannel, zoom, hr]
  cases res with
  | error f =>
    rw [seq_of_error hopen] at hreached houtcome
    rcases houtcome with ⟨-, hok, -⟩ | ⟨g, -, hg, herr, rfl⟩
    · cases hok
    · cases herr
      refine ⟨.ok (), ?_⟩
      rw [LlumnixKv.attempt, Outside.attempt, hr, hreached]
      exact if_pos hg
  | ok u =>
    rw [seq_of_ok hopen] at hreached houtcome
    have hc : log.reached.ctx = c := by
      rw [hreached]
      exact afterChannel_keeps _ _
    have hdst : c.dstinfo ≠ none := by
      have hd := tryCreateChannel_ok hctx (congrArg Prod.snd hr)
      rwa [hr] at hd
    cases hfn : c.parseBlock with
    | none =>
      -- the process would have ended
      obtain ⟨f, hf, hcaught⟩ : ∃ f,
          (afterChannel stub o (sendReqOf s.states tasks) { ctx := c }).2 = .error f ∧
            f.caught = false := afterChannel_null { ctx := c } hne hdst hfn
      rcases houtcome with ⟨-, hok, -⟩ | ⟨g, -, hg, herr, -⟩
      · cases hok.symm.trans hf
      · rw [Except.error.inj (herr.symm.trans hf), hcaught] at hg
        exact absurd hg Bool.false_ne_true
    | some fn =>
      rcases houtcome with ⟨-, -, rfl⟩ | ⟨g, -, -, -, rfl⟩
      · refine ⟨.ok (), ?_⟩
        rw [LlumnixKv.attempt, Outside.attempt, hr, hc]
        dsimp only
        rw [hfn]
      · refine ⟨.error "", ?_⟩
        rw [LlumnixKv.attempt, Outside.attempt, hr, hc]
        dsimp only
        rw [hfn]

/-! ## The binding of a run -/

/-- A batch has the destination of `ctx`, up to its address, and all that was bound to it: the ranks,
the kind and the parse function.  Without a parse function it calls nothing of the channel. -/
def TaskContext.Binds (ctx : TaskContext) (reached : SendState) : Prop :=
  ∀ w, ctx.dstinfo = some w →
    (∃ addr ch, reached.ctx = { ctx with dstinfo := some { w with addr := addr }, ch := ch }) ∧
    (ctx.parseBlock = none → reached.parsed = [] ∧ reached.calls = [])

section Binds

variable {tasks : List ReqSendTask} {s s' : StubState} {log : BatchLog}

theorem Ran.reached_ctx (h : Ran stub o tasks s s' log) :
    ∃ ch, log.reached.ctx = { s'.ctx with ch := ch } := by
  rcases h.outcome with ⟨-, -, rfl⟩ | ⟨_, -, -, -, rfl⟩
  · exact ⟨log.reached.ctx.ch, rfl⟩
  · exact ⟨log.reached.ctx.ch, rfl⟩

/-- **A batch keeps the binding it starts with.**  With a null `parse_block` it gets no further than
`try_create_channel`. -/
theorem Ran.binds (h : Ran stub o tasks s s' log) : s.ctx.Binds log.reached := by
  intro w hw
  have hctx : s.ctx.Anchored := fun _ hnone => by cases hw.symm.trans hnone
  obtain ⟨ch, hreached⟩ := h.reached_ctx
  have hblock := h.reached_eq
  rcases h.attempt hctx with ⟨hnil, hsame⟩ | ⟨rest, hattempt⟩
  · rw [tryBlock, if_pos hnil] at hblock
    exact ⟨⟨w.addr, ch, by rw [hreached, hsame, ← hw]⟩, fun _ => hblock ▸ ⟨rfl, rfl⟩⟩
  · obtain ⟨addr, ch', hlater⟩ := tryCreateChannel_later stub.env stub.src (o.attempt rest) hw
    obtain ⟨ch'', hnext⟩ := attempt_eq_some hattempt
    refine ⟨⟨addr, ch, by rw [hreached, hnext, hlater]⟩, fun hfn => ?_⟩
    rw [LlumnixKv.attempt] at hattempt
    split at hattempt
    · next c f hr =>
      have hopen : openChannel stub o { ctx := s.ctx } = ({ ctx := c }, .error f) := by
        rw [openChannel, zoom]
        exact congrArg (fun r => (({ ctx := r.1 } : SendState), r.2)) hr
      rw [tryBlock, trySend, seq_of_error hopen] at hblock
      split at hblock <;> exact hblock ▸ ⟨rfl, rfl⟩
    · next c hr =>
      rw [hr] at hlater
      obtain rfl : c = _ := hlater
      rw [hfn] at hattempt
      cases hattempt

/-- From a destination on, every batch runs with its binding. -/
theorem runBatches_binds : ∀ {batches : List (Outside × List ReqSendTask)} {s : StubState},
    ∀ log ∈ runBatches stub s batches, s.ctx.Binds log.reached
  | [], _, _, hlog, _, _ => absurd hlog List.not_mem_nil
  | (o, tasks) :: rest, s, log, hlog, w, hw => by
      rw [runBatches] at hlog
      split at hlog
      · cases hlog
      · next s' first hdo =>
        have hran := ran_of_doTask hdo
        rcases List.mem_cons.mp hlog with rfl | hlog
        · exact hran.binds w hw
        · obtain ⟨ch, hreached⟩ := hran.reached_ctx
          obtain ⟨⟨addr, ch', hfirst⟩, -⟩ := hran.binds w hw
          rw [hreached] at hfirst
          have hs' : s'.ctx = { s.ctx with dstinfo := some { w with addr := addr }, ch := s'.ctx.ch } :=
            congrArg (fun c : TaskContext => { c with ch := s'.ctx.ch }) hfirst
          obtain ⟨⟨addr', ch', hlater⟩, hnothing⟩ := runBatches_binds log hlog _ (by rw [hs'])
          rw [hs'] at hlater hnothing
          exact ⟨⟨addr', ch', hlater⟩, hnothing⟩

end Binds

/-- **A stub binds its destination once, and sends nothing to one it could not bind**: whatever the
naming service answers and however batches end, a later batch has the record, the ranks, the kind and
the parse function of any earlier one with a destination; only the address follows the answers. -/
theorem runBatches_bindOnce (stub : Stub) : ∀ (batches : List (Outside × List ReqSendTask))
    (s : StubState), (runBatches stub s batches).Pairwise fun earlier later =>
      earlier.reached.ctx.Binds later.reached
  | [], _ => List.Pairwise.nil
  | (o, tasks) :: rest, s => by
      rw [runBatches]
      split
      · exact List.Pairwise.nil
      · next s' first hdo =>
        refine List.pairwise_cons.mpr ⟨fun later hlater w hw => ?_, runBatches_bindOnce stub rest s'⟩
        obtain ⟨ch, hreached⟩ := (ran_of_doTask hdo).reached_ctx
        rw [hreached] at hw ⊢
        exact runBatches_binds later hlater w hw

end Context

end LlumnixKv
