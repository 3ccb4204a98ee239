import LlumnixKv.Channel.Merge
import LlumnixKv.Machinery.Runs
import LlumnixKv.Stub.DoTask

/-!
# Channel/Rdma — the direct RDMA channel under a send stub

    register_data   merge what is adjacent, and share it out over the connections
    send_data(i)    post the write batches of layer i; each leaves a future in write_futs_
    flush           get the futures in order, and rethrow the first error
    do_task         catches it, drops the channel, fails the batch, and reports

A write batch is in flight from the moment it is posted until its callback runs, which may be at
any later time; dropping a channel hands its connections to a background thread and waits for
nothing.  `Tx` is a stub with the write batches it ever posted.  Its batches end in `do_task`, with
the outcome of `flush` that the futures gave (`Outside.rdma`).
-/

open Machinery

namespace LlumnixKv

/-! ## What is posted -/

/-- `cdiv`. -/
def cdiv (a b : ℕ) : ℕ := (a + (b - 1)) / b

/-- `register_data`: the data to send and `dataperch_`, for a channel of `chs` connections. -/
def registerData (s : BlockSort) (chs : ℕ) (kind : TPKind) (data : List (List IpcBlock)) :
    List (List IpcBlock) × ℕ :=
  if kind = .peqd then
    (data.map fun tensor => (mergeInterval s tensor).filter (·.length ≠ 0),
      cdiv (data.map fun tensor => (mergeInterval s tensor).length).sum chs)
  else (data, cdiv (data.headD []).length chs)

/-- A `WriteBatch`: the tensors and blocks of one layer it writes. -/
structure WriteBatch where
  layer : ℕ
  datas : List (ℕ × IpcBlock)
  deriving DecidableEq, Repr

/-- The loop of `send_data`: a batch is cut off when it has `dataperch` blocks. -/
def cutBatches (dataperch : ℕ) : List (ℕ × IpcBlock) → List (ℕ × IpcBlock) →
    List (List (ℕ × IpcBlock))
  | datas, [] => if datas = [] then [] else [datas]
  | datas, b :: rest =>
    if dataperch ≤ (datas ++ [b]).length then (datas ++ [b]) :: cutBatches dataperch [] rest
    else cutBatches dataperch (datas ++ [b]) rest

/-- `send_data`. -/
def sendData (dataperch : ℕ) (data : List (List IpcBlock)) (layer : ℕ) : List WriteBatch :=
  (cutBatches dataperch [] (data.zipIdx.flatMap fun (tensor, i) => tensor.map (i, ·))).map
    (⟨layer, ·⟩)

/-- What the layers of a stub post, in order. -/
def writeBatches (stub : Stub) (s : BlockSort) (chs : ℕ) (reached : SendState) : List WriteBatch :=
  let (data, dataperch) := registerData s chs reached.ctx.tpkind reached.sendBlocks
  stub.layers.flatMap (sendData dataperch data)

/-- The destinations of two blocks have a byte in common. -/
def IpcBlock.Meets (a b : IpcBlock) : Prop :=
  a.dstOffset < b.dstOffset + b.length ∧ b.dstOffset < a.dstOffset + a.length

instance (a b : IpcBlock) : Decidable (a.Meets b) := inferInstanceAs (Decidable (_ ∧ _))

/-- A write batch writes to a byte of some record of `out`, which has them by tensor. -/
def WriteBatch.Carries (w : WriteBatch) (out : List (List IpcBlock)) : Prop :=
  ∃ e ∈ w.datas, ∃ rec ∈ out.getD e.1 [], e.2.Meets rec

instance (w : WriteBatch) (out : List (List IpcBlock)) : Decidable (w.Carries out) :=
  inferInstanceAs (Decidable (∃ e ∈ w.datas, _))

/-- The requests a write batch was posted for, by their identity: those with a record in it. -/
def WriteBatch.reqs (w : WriteBatch) (parsed : List (ReqSendTask × List (List IpcBlock))) : List ℕ :=
  (parsed.filter fun e => w.Carries e.2).map fun e => e.1.req.key

/-! ## The state -/

/-- The future of a write batch. -/
inductive Fut
  | pending
  | ready
  | failed (msg : String)
  deriving DecidableEq, Repr

/-- The future when `WriteBatch` has returned. -/
def submittedFut : Call → Fut
  | .ok () => .pending
  | .error msg => .failed ("Write Submit Err: " ++ msg)

/-- …and when the callback has run. -/
def completedFut : Call → Fut
  | .ok () => .ready
  | .error msg => .failed ("Write ERR: " ++ msg)

theorem completedFut_ne_pending (status : Call) : completedFut status ≠ .pending := by
  cases status with
  | ok u => exact nofun
  | error msg => exact nofun

/-- A write batch that was posted. -/
structure Posted where
  batch : WriteBatch
  conn : ℕ
  /-- the number of batches of tasks before -/
  round : ℕ
  /-- the requests it was posted for -/
  reqs : List ℕ
  fut : Fut
  deriving DecidableEq, Repr

/-- Where the stub is. -/
inductive TxPhase
  | idle
  /-- in the loop over the layers; each write batch with the requests it is for -/
  | posting (left : List (WriteBatch × List ℕ))
  /-- in `flush`, before `get` of the first of these -/
  | flushing (left : List ℕ)
  /-- after the `try` block, in which `flush` ended so -/
  | reporting (flush : Call)
  deriving DecidableEq

/-- A send stub on the direct RDMA channel. -/
structure Tx where
  /-- the batches of tasks left, the current one first -/
  todo : List (Outside × List ReqSendTask)
  s : StubState := {}
  phase : TxPhase := .idle
  /-- every write batch ever posted -/
  posted : List Posted := []
  /-- `write_futs_`, by their place in `posted` -/
  writeFuts : List ℕ := []
  logs : List BatchLog := []

/-- What a batch meets outside: `send_data` only posts, so it returns. -/
def Outside.rdma (o : Outside) (flush : Call) : Outside := { o with channel := fun
  | .sendData _ => .ok ()
  | .flush => flush
  | c => o.channel c }

/-- `fault_inject_throw` throws, in a debug build. -/
def Outside.injects (stub : Stub) (o : Outside) : Bool :=
  !stub.env.ndebug && match o.faultInjectThrow with
    | .ok () => false
    | .error _ => true

/-! ## The actions -/

section Actions

variable (stub : Stub) (sort : BlockSort) (chs : ℕ)

/-- Where `do_task` gets before its first write batch: to the loop over the layers, or past the
`try` block if that posts nothing. -/
def startPhase (o : Outside) (tasks : List ReqSendTask) (s : StubState) : Except Fault TxPhase :=
  match tryBlock stub { o.rdma (.ok ()) with faultInjectThrow := .ok () } (sendReqOf s.states tasks)
    s.ctx with
  | (reached, .ok ()) =>
    .ok (if .flush ∈ reached.calls then
      .posting ((writeBatches stub sort chs reached).map fun w => (w, w.reqs reached.parsed))
    else .reporting (.ok ()))
  | (_, .error f) => if f.caught then .ok (.reporting (.ok ())) else .error f

variable (t : Tx)

/-- `do_task` is called. -/
def Tx.start : Option (Except Fault Tx) :=
  match t.todo, t.phase with
  | (o, tasks) :: _, .idle => some do
    let phase ← startPhase stub sort chs o tasks t.s
    return { t with phase := phase, writeFuts := [] }
  | _, _ => none

/-- One call of `WriteBatch`, on any connection; if it is not accepted, its future has failed. -/
def Tx.post (conn : ℕ) (submit : Call) : Option (Except Fault Tx) :=
  match t.phase with
  | .posting ((w, reqs) :: left) =>
    if conn < chs then some (.ok { t with
      phase := .posting left
      posted := t.posted ++ [⟨w, conn, t.logs.length, reqs, submittedFut submit⟩]
      writeFuts := t.writeFuts ++ [t.posted.length] })
    else none
  | _ => none

/-- `flush` is called, unless a fault is injected before. -/
def Tx.flush : Option (Except Fault Tx) :=
  match t.todo, t.phase with
  | (o, _) :: _, .posting [] => some (.ok { t with
      phase := if o.injects stub then .reporting (.ok ()) else .flushing t.writeFuts })
  | _, _ => none

/-- The callback of a write batch runs. -/
def Tx.complete (i : ℕ) (status : Call) : Option (Except Fault Tx) :=
  match t.posted[i]? with
  | some p =>
    if p.fut = .pending then some (.ok { t with
      posted := t.posted.set i { p with fut := completedFut status } })
    else none
  | none => none

/-- One turn of the loop of `flush`; after the last, `flush` ends as the rest of it does. -/
def Tx.get : Option (Except Fault Tx) :=
  match t.todo, t.phase with
  | (o, _) :: _, .flushing [] =>
    some (.ok { t with phase := .reporting (o.channel .flush), writeFuts := [] })
  | _, .flushing (i :: left) => match t.posted[i]? with
    | some ⟨_, _, _, _, .ready⟩ => some (.ok { t with phase := .flushing left })
    | some ⟨_, _, _, _, .failed msg⟩ => some (.ok { t with phase := .reporting (.error msg) })
    | _ => none
  | _, _ => none

/-- The rest of `do_task`, with `rpc_send_done`. -/
def Tx.report : Option (Except Fault Tx) :=
  match t.todo, t.phase with
  | (o, tasks) :: rest, .reporting flush => some do
    let (s', log) ← doTask stub (o.rdma flush) tasks t.s
    return { t with todo := rest, s := s', phase := .idle, logs := t.logs ++ [log] }
  | _, _ => none

/-- The actions of the stub, and of the connections. -/
inductive TxAct
  | start
  | post (conn : ℕ) (submit : Call)
  | flush
  | complete (i : ℕ) (status : Call)
  | get
  | report

/-- **One action.** -/
def Tx.step : TxAct → Option (Except Fault Tx)
  | .start => t.start stub sort chs
  | .post conn submit => t.post chs conn submit
  | .flush => t.flush stub
  | .complete i status => t.complete i status
  | .get => t.get
  | .report => t.report stub

/-- `TxMoves t t'`: some action takes `t` to `t'`. -/
inductive TxMoves : Tx → Tx → Prop
  | start {t : Tx} {o tasks rest phase} (hstart : startPhase stub sort chs o tasks t.s = .ok phase) :
      TxMoves { t with todo := (o, tasks) :: rest, phase := .idle }
        { t with todo := (o, tasks) :: rest, phase := phase, writeFuts := [] }
  | post {t : Tx} {w reqs left conn fut} :
      TxMoves { t with phase := .posting ((w, reqs) :: left) }
        { t with
          phase := .posting left
          posted := t.posted ++ [⟨w, conn, t.logs.length, reqs, fut⟩]
          writeFuts := t.writeFuts ++ [t.posted.length] }
  | flush {t : Tx} : TxMoves { t with phase := .posting [] } { t with phase := .flushing t.writeFuts }
  | inject {t : Tx} {o tasks rest} (h : o.injects stub = true) :
      TxMoves { t with todo := (o, tasks) :: rest, phase := .posting [] }
        { t with todo := (o, tasks) :: rest, phase := .reporting (.ok ()) }
  | complete {t : Tx} {i} {p : Posted} {status} (hp : t.posted[i]? = some p)
      (hpending : p.fut = .pending) :
      TxMoves t { t with posted := t.posted.set i { p with fut := completedFut status } }
  | flushed {t : Tx} {flush} :
      TxMoves { t with phase := .flushing [] } { t with phase := .reporting flush, writeFuts := [] }
  | got {t : Tx} {i left p} (hp : t.posted[i]? = some p) (hfut : p.fut = .ready) :
      TxMoves { t with phase := .flushing (i :: left) } { t with phase := .flushing left }
  | threw {t : Tx} {i left p msg} (hp : t.posted[i]? = some p) (hfut : p.fut = .failed msg) :
      TxMoves { t with phase := .flushing (i :: left) } { t with phase := .reporting (.error msg) }
  | report {t : Tx} {o tasks rest flush s' log}
      (hdo : doTask stub (o.rdma flush) tasks t.s = .ok (s', log)) :
      TxMoves { t with todo := (o, tasks) :: rest, phase := .reporting flush }
        { t with todo := rest, s := s', phase := .idle, logs := t.logs ++ [log] }

end Actions

section Inversion

variable {stub : Stub} {sort : BlockSort} {chs : ℕ} {t t' : Tx}

theorem Tx.eq_todo {todo : List (Outside × List ReqSendTask)} {phase : TxPhase}
    (htodo : t.todo = todo) (hphase : t.phase = phase) :
    t = { t with todo := todo, phase := phase } := by
  rw [← htodo, ← hphase]

theorem Tx.eq_phase {phase : TxPhase} (hphase : t.phase = phase) : t = { t with phase := phase } := by
  rw [← hphase]

/-- **An action that returns moves the stub.** -/
theorem txMoves_of_step {a : TxAct} (hs : t.step stub sort chs a = some (.ok t')) :
    TxMoves stub sort chs t t' := by
  cases a with
  | start =>
    rw [Tx.step, Tx.start] at hs
    split at hs
    · next htodo hphase =>
      obtain ⟨phase, hstart, ht⟩ := bind_eq_ok.mp (Option.some.inj hs)
      cases ht
      rw [Tx.eq_todo htodo hphase]
      exact .start (t := t) hstart
    · cases hs
  | post conn submit =>
    rw [Tx.step, Tx.post] at hs
    split at hs
    · next hphase =>
      split at hs
      · cases hs
        rw [Tx.eq_phase hphase]
        exact .post (t := t)
      · cases hs
    · cases hs
  | flush =>
    rw [Tx.step, Tx.flush] at hs
    split at hs
    · next o tasks rest htodo hphase =>
      cases hs
      by_cases hinject : o.injects stub = true
      · rw [if_pos hinject, Tx.eq_todo htodo hphase]
        exact .inject (t := t) hinject
      · rw [if_neg hinject, Tx.eq_phase hphase]
        exact .flush (t := t)
    · cases hs
  | complete i status =>
    rw [Tx.step, Tx.complete] at hs
    split at hs
    · next p hp =>
      split at hs
      · next hpending =>
        cases hs
        exact .complete hp hpending
      · cases hs
    · cases hs
  | get =>
    rw [Tx.step, Tx.get] at hs
    split at hs
    · next htodo hphase =>
      cases hs
      rw [Tx.eq_phase hphase]
      exact .flushed (t := t)
    · next hphase =>
      split at hs
      · next hp =>
        cases hs
        rw [Tx.eq_phase hphase]
        exact .got (t := t) hp rfl
      · next hp =>
        cases hs
        rw [Tx.eq_phase hphase]
        exact .threw (t := t) hp rfl
      · cases hs
    · cases hs
  | report =>
    rw [Tx.step, Tx.report] at hs
    split at hs
    · next htodo hphase =>
      obtain ⟨⟨s', log⟩, hdo, ht⟩ := bind_eq_ok.mp (Option.some.inj hs)
      cases ht
      rw [Tx.eq_todo htodo hphase]
      exact .report (t := t) hdo
    · cases hs

end Inversion

end LlumnixKv
