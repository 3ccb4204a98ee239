import LlumnixKv.Stub.DoTask

/-!
# Stub/Reports — what the done messages of a stub are worth

A request is FAILED as soon as a batch with one of its tasks throws, and stays so.  Hence one that
is not FAILED has been carried by clean batches only, and code 0 is reported of no other
(`successReports_sound`).  The stream of tasks obeys one contract, `Submitted`: nothing of a request
follows its last task.
-/

open List Machinery

namespace LlumnixKv

open Throwing

/-! ## What a clean batch has done -/

/-- The tensors' lists are empty or nonempty together. -/
def Together (sendBlocks : List (List IpcBlock)) : Prop :=
  (∀ sb ∈ sendBlocks, sb = []) ∨ ∀ sb ∈ sendBlocks, sb ≠ []

/-- The parse function the batch was bound to returned for the task. -/
def BatchLog.Parsed (stub : Stub) (log : BatchLog) (task : ReqSendTask) : Prop :=
  ∃ out dst fn, (task, out) ∈ log.reached.parsed ∧ log.reached.ctx.dstinfo = some dst ∧
    log.reached.ctx.parseBlock = some fn ∧
    log.outside.parse fn stub.src dst log.reached.ctx.validRanks log.reached.ctx.kvtTpSize
      log.reached.ctx.kvtTpRank task = .ok out

/-- The calls that send what has been parsed: register it, send every layer, flush. -/
def Stub.sendCalls (stub : Stub) (s : SendState) : List ChannelCall :=
  .registerData s.sendBlocks s.ctx.tpkind :: (stub.layers.map .sendData ++ [.flush])

/-- Nothing was thrown, every task of a request that had not failed is parsed, and the records, if there
are any, are registered, sent for every layer and flushed: the channel was called so, and returned from
every call. -/
structure BatchLog.Clean (stub : Stub) (log : BatchLog) : Prop where
  not_raised : log.raised = none
  parsed : ∀ task ∈ log.tasks, 0 < task.newTokens → log.before task.req.key ≠ .failed →
    log.Parsed stub task
  records : log.reached.sendBlocks = (log.reached.parsed.map Prod.snd).foldl appendBlocks []
  sent : Together log.reached.sendBlocks → (∃ sb ∈ log.reached.sendBlocks, sb ≠ []) →
    log.reached.calls = stub.sendCalls log.reached ∧
      ∀ c ∈ stub.sendCalls log.reached, log.outside.channel c = .ok ()

variable {ctx : TaskContext}

section Try

variable {stub : Stub} {o : Outside} {s s' : SendState}

theorem call_eq_ok {σ : Type} {c : Call} {t t' : σ} (h : call c t = (t', .ok ())) :
    c = .ok () ∧ t' = t := by
  obtain ⟨hc, rfl⟩ := lift_eq_ok.mp h
  cases c with
  | ok u => exact ⟨rfl, rfl⟩
  | error msg => cases hc

theorem invoke_eq_ok {c : ChannelCall} (h : invoke o c s = (s', .ok ())) :
    o.channel c = .ok () ∧ s' = { s with calls := s.calls ++ [c] } := by
  obtain ⟨t, ht, hs'⟩ := seq_eq_ok.mp h
  obtain ⟨hc, rfl⟩ := call_eq_ok ht
  exact ⟨hc, modify_eq_ok.mp hs'⟩

/-- Lists that are nonempty together, with a record among them, have one in the first. -/
theorem hasRecords_of_together {sendBlocks : List (List IpcBlock)} (h : Together sendBlocks)
    (hsb : ∃ sb ∈ sendBlocks, sb ≠ []) : hasRecords sendBlocks = true := by
  obtain ⟨sb, hmem, hne⟩ := hsb
  rcases h with h | h
  · exact absurd (h sb hmem) hne
  · cases sendBlocks with
    | nil => cases hmem
    | cons l ls =>
      have hl : l ≠ [] := h l mem_cons_self
      simpa [hasRecords] using hl

/-- **`do_send` that returns has made its calls, and every one of them returned.** -/
theorem doSend_ok (hs : s.calls = []) (h : doSend stub o s = (s', .ok ())) :
    s' = { s with calls := stub.sendCalls s } ∧ ∀ c ∈ stub.sendCalls s, o.channel c = .ok () := by
  obtain ⟨t₁, h₁, r₁⟩ := seq_eq_ok.mp h
  obtain ⟨t₂, h₂, r₂⟩ := seq_eq_ok.mp r₁
  obtain ⟨t₃, h₃, r₃⟩ := seq_eq_ok.mp r₂
  obtain ⟨hregister, rfl⟩ := invoke_eq_ok h₁
  -- the loop has sent the layers it is done with, and changed nothing else
  obtain ⟨rfl, hlayers⟩ : t₂ = { s with
      calls := [.registerData s.sendBlocks s.ctx.tpkind] ++ ([] ++ stub.layers).map .sendData } ∧
      ∀ i ∈ [] ++ stub.layers, o.channel (.sendData i) = .ok () := by
    refine each_ok (P := fun done t => t = { s with
        calls := [.registerData s.sendBlocks s.ctx.tpkind] ++ done.map .sendData } ∧
        ∀ i ∈ done, o.channel (.sendData i) = .ok ()) ?_ ?_ h₂
    · rintro done i t t' ⟨rfl, hdone⟩ hi
      obtain ⟨hc, rfl⟩ := invoke_eq_ok hi
      refine ⟨?_, forall_mem_append.mpr ⟨hdone, forall_mem_singleton.mpr hc⟩⟩
      rw [map_append, append_assoc]
      rfl
    · rw [hs]
      exact ⟨rfl, fun _ h => absurd h not_mem_nil⟩
  obtain ⟨-, rfl⟩ := call_eq_ok h₃
  obtain ⟨hflush, rfl⟩ := invoke_eq_ok r₃
  refine ⟨rfl, forall_mem_cons.mpr ⟨hregister, forall_mem_append.mpr ⟨?_, ?_⟩⟩⟩
  · exact forall_mem_map.mpr hlayers
  · exact forall_mem_singleton.mpr hflush

/-- What the parse loop has done, `done` being the tasks behind it. -/
structure Parsing (stub : Stub) (o : Outside) (ctx : TaskContext) (done : List ReqSendTask)
    (s : SendState) : Prop where
  ctx_eq : s.ctx = ctx
  tasks : s.parsed.map Prod.fst = done
  parsed : ∀ e ∈ s.parsed, ∃ dst fn, ctx.dstinfo = some dst ∧ ctx.parseBlock = some fn ∧
    o.parse fn stub.src dst ctx.validRanks ctx.kvtTpSize ctx.kvtTpRank e.1 = .ok e.2
  records : s.sendBlocks = (s.parsed.map Prod.snd).foldl appendBlocks []
  calls : s.calls = []

theorem Parsing.step {done : List ReqSendTask} {task : ReqSendTask} (hs : Parsing stub o ctx done s)
    (h : parseTask stub o task s = (s', .ok ())) : Parsing stub o ctx (done ++ [task]) s' := by
  unfold parseTask at h
  split at h
  · cases congrArg Prod.snd h
  · cases congrArg Prod.snd h
  · next dst fn hdst hfn =>
    split at h
    · cases congrArg Prod.snd h
    · next out hout =>
      obtain rfl := congrArg Prod.fst h
      rw [hs.ctx_eq] at hdst hfn hout
      refine ⟨hs.ctx_eq, ?_, ?_, ?_, hs.calls⟩
      · rw [map_append, hs.tasks]
        rfl
      · exact forall_mem_append.mpr
          ⟨hs.parsed, forall_mem_singleton.mpr ⟨dst, fn, hdst, hfn, hout⟩⟩
      · rw [map_append, foldl_append, ← hs.records]
        rfl

/-- **A `try` block that returns has parsed everything, and sent what there was to send.** -/
theorem trySend_ok {sendReq : List ReqSendTask}
    (h : trySend stub o sendReq { ctx := ctx } = (s', .ok ())) :
    (∃ t, Parsing stub o s'.ctx sendReq t ∧ s' = { t with calls := s'.calls }) ∧
      (hasRecords s'.sendBlocks = true → s'.calls = stub.sendCalls s' ∧
        ∀ c ∈ stub.sendCalls s', o.channel c = .ok ()) := by
  obtain ⟨t₁, h₁, r₁⟩ := seq_eq_ok.mp h
  obtain ⟨t₂, h₂, r₂⟩ := seq_eq_ok.mp r₁
  obtain ⟨t₃, h₃, r₃⟩ := seq_eq_ok.mp r₂
  obtain ⟨t₄, h₄, r₄⟩ := seq_eq_ok.mp r₃
  have hopen : Parsing stub o t₁.ctx [] t₁ := by
    obtain rfl := congrArg Prod.fst h₁
    exact ⟨rfl, rfl, fun _ h => absurd h not_mem_nil, rfl, rfl⟩
  obtain ⟨-, rfl⟩ := lift_eq_ok.mp h₂
  obtain ⟨-, rfl⟩ := lift_eq_ok.mp h₃
  have hparsed : Parsing stub o t₃.ctx ([] ++ sendReq) t₄ :=
    each_ok (fun _ _ _ _ hdone hstep => Parsing.step hdone hstep) hopen h₄
  rw [← hparsed.ctx_eq] at hparsed
  unfold sendParsed at r₄
  split at r₄
  · obtain ⟨t₅, h₅, r₅⟩ := seq_eq_ok.mp r₄
    obtain ⟨-, rfl⟩ := lift_eq_ok.mp h₅
    obtain ⟨rfl, hok⟩ := doSend_ok hparsed.calls r₅
    exact ⟨⟨t₅, hparsed, rfl⟩, fun _ => ⟨rfl, hok⟩⟩
  · next hno =>
    obtain rfl := congrArg Prod.fst r₄
    exact ⟨⟨t₄, hparsed, rfl⟩, fun hrec => absurd hrec hno⟩

end Try

/-! ## Request states -/

section States

variable {states : ReqStates} {k : ℕ} (task : ReqSendTask)

@[simp] theorem setState_self (st : ReqState) :
    setState states task st task.req.key = st := Function.update_self ..

theorem setState_of_ne {task : ReqSendTask} (st : ReqState) (h : task.req.key ≠ k) :
    setState states task st k = states k := Function.update_of_ne (Ne.symm h) ..

theorem failAll_cons (tasks : List ReqSendTask) :
    failAll (task :: tasks) states = failAll tasks (setState states task .failed) := rfl

/-- FAILED stays FAILED in the `catch` block… -/
theorem failAll_failed : ∀ (tasks : List ReqSendTask) {states : ReqStates},
    states k = .failed → failAll tasks states k = .failed
  | [], _, h => h
  | task :: tasks, states, h => by
      rw [failAll_cons]
      refine failAll_failed tasks ?_
      by_cases hk : task.req.key = k
      · rw [← hk, setState_self]
      · rw [setState_of_ne _ hk, h]

/-- …and every request of the batch becomes it. -/
theorem failAll_of_mem : ∀ {tasks : List ReqSendTask} {states : ReqStates} {task : ReqSendTask},
    task ∈ tasks → failAll tasks states task.req.key = .failed
  | u :: tasks, states, task, h => by
      rw [failAll_cons]
      rcases mem_cons.mp h with rfl | h
      · exact failAll_failed tasks (setState_self ..)
      · exact failAll_of_mem h

theorem failAll_of_forall_ne : ∀ {tasks : List ReqSendTask} {states : ReqStates},
    (∀ task ∈ tasks, task.req.key ≠ k) → failAll tasks states k = states k
  | [], _, _ => rfl
  | task :: _, _, h =>
      (failAll_of_forall_ne fun u hu => h u (mem_cons_of_mem _ hu)).trans
        (setState_of_ne _ (h task mem_cons_self))

theorem finishTask_of_ne {task : ReqSendTask} (h : task.req.key ≠ k) :
    finishTask states task k = states k := by
  unfold finishTask
  split
  · exact setState_of_ne _ h
  · rfl

/-- A finished task settles only a request that is in process. -/
theorem finishTask_of_settled (h : states k ≠ .inprocess) :
    finishTask states task k = states k := by
  by_cases hk : task.req.key = k
  · rw [finishTask, if_neg (hk ▸ h)]
  · exact finishTask_of_ne hk

theorem finish_of_settled : ∀ (l : List ReqSendTask) {states : ReqStates},
    states k ≠ .inprocess → l.foldl finishTask states k = states k
  | [], _, _ => rfl
  | task :: l, states, h => by
      have hk := finishTask_of_settled task h
      exact (finish_of_settled l (by rwa [hk])).trans hk

theorem finish_of_forall_ne : ∀ {l : List ReqSendTask} {states : ReqStates},
    (∀ task ∈ l, task.req.key ≠ k) → l.foldl finishTask states k = states k
  | [], _, _ => rfl
  | task :: _, _, h =>
      (finish_of_forall_ne fun u hu => h u (mem_cons_of_mem _ hu)).trans
        (finishTask_of_ne (h task mem_cons_self))

/-- **A request in process is settled by its finished task.** -/
theorem finish_of_mem : ∀ {l : List ReqSendTask} {states : ReqStates} {task : ReqSendTask},
    l.Pairwise (fun t u => t.req.key ≠ u.req.key) → task ∈ l →
      states task.req.key = .inprocess →
      l.foldl finishTask states task.req.key = if task.newTokens = 0 then .failed else .ok
  | u :: l, states, task, hl, hmem, hst => by
      obtain ⟨hu, hl⟩ := pairwise_cons.mp hl
      rcases mem_cons.mp hmem with rfl | hmem
      · have hrest : ∀ v ∈ l, v.req.key ≠ task.req.key := fun v hv => (hu v hv).symm
        rw [foldl_cons, finish_of_forall_ne hrest, finishTask, if_pos hst, setState_self]
      · have hne : u.req.key ≠ task.req.key := hu task hmem
        rw [foldl_cons]
        exact finish_of_mem hl hmem ((finishTask_of_ne hne).trans hst)

end States

/-! ## The contract -/

/-- Nothing of a request follows its last task. -/
def Submitted (stream : List ReqSendTask) : Prop :=
  stream.Pairwise fun t u => t.req.key = u.req.key → t.reachLastToken = false

theorem mem_finishedReq {tasks : List ReqSendTask} {t : ReqSendTask} :
    t ∈ finishedReq tasks ↔ t ∈ tasks ∧ t.reachLastToken = true := mem_filter

theorem Submitted.finished {stream : List ReqSendTask} (h : Submitted stream) :
    (finishedReq stream).Pairwise fun t u => t.req.key ≠ u.req.key := by
  refine (Pairwise.filter _ h).imp_of_mem fun ht _ hlast hkey => ?_
  exact absurd ((hlast hkey).symm.trans (mem_finishedReq.mp ht).2) Bool.false_ne_true

/-! ## One batch -/

namespace Ran

variable {stub : Stub} {o : Outside} {tasks : List ReqSendTask} {s s' : StubState} {log : BatchLog}
  {k : ℕ}

variable (h : Ran stub o tasks s s' log)
include h

/-- FAILED stays FAILED. -/
theorem failed (hk : s.states k = .failed) : s'.states k = .failed := by
  rcases h.outcome with ⟨-, -, rfl⟩ | ⟨f, -, -, -, rfl⟩
  · exact (finish_of_settled _ (by rw [hk]; decide)).trans hk
  · have hfail := failAll_failed tasks hk
    exact (finish_of_settled _ (by rw [hfail]; decide)).trans hfail

/-- A batch that throws fails its requests. -/
theorem failed_of_raised (hraised : log.raised ≠ none) {u : ReqSendTask} (hu : u ∈ tasks) :
    s'.states u.req.key = .failed := by
  rcases h.outcome with ⟨hnone, -, -⟩ | ⟨f, -, -, -, rfl⟩
  · exact absurd hnone hraised
  · have hfail : failAll tasks s.states u.req.key = .failed := failAll_of_mem hu
    exact (finish_of_settled _ (by rw [hfail]; decide)).trans hfail

/-- A request with no task in the batch is left alone. -/
theorem untouched (hk : ∀ u ∈ tasks, u.req.key ≠ k) : s'.states k = s.states k := by
  have hfin : ∀ u ∈ finishedReq tasks, u.req.key ≠ k := fun u hu => hk u (mem_finishedReq.mp hu).1
  rcases h.outcome with ⟨-, -, rfl⟩ | ⟨f, -, -, -, rfl⟩
  · exact finish_of_forall_ne hfin
  · exact (finish_of_forall_ne hfin).trans (failAll_of_forall_ne hk)

/-- **A request that has not failed has been carried by a clean batch.** -/
theorem clean {u : ReqSendTask} (hu : u ∈ tasks) (hnew : 0 < u.newTokens)
    (hst : s'.states u.req.key ≠ .failed) : log.Clean stub ∧ log.Parsed stub u := by
  have hbefore : s.states u.req.key ≠ .failed := fun hk => hst (h.failed hk)
  rcases h.outcome with ⟨hnone, hok, -⟩ | ⟨f, hsome, -, -, -⟩
  · have hmem : ∀ v ∈ tasks, 0 < v.newTokens → s.states v.req.key ≠ .failed →
        v ∈ sendReqOf s.states tasks := fun v hv hn hf =>
      mem_filter.mpr ⟨hv, decide_eq_true ⟨hn, hf⟩⟩
    have hne : sendReqOf s.states tasks ≠ [] := ne_nil_of_mem (hmem u hu hnew hbefore)
    have hreached := h.reached_eq
    rw [tryBlock, if_neg hne] at hok hreached
    have htry : trySend stub o (sendReqOf s.states tasks) { ctx := s.ctx } = (log.reached, .ok ()) :=
      Prod.ext hreached.symm hok
    obtain ⟨⟨t, hparsing, hreach⟩, hsent⟩ := trySend_ok htry
    have hparsed : ∀ v ∈ sendReqOf s.states tasks, log.Parsed stub v := by
      intro v hv
      rw [← hparsing.tasks] at hv
      obtain ⟨e, he, rfl⟩ := mem_map.mp hv
      obtain ⟨dst, fn, hdst, hfn, hout⟩ := hparsing.parsed e he
      exact ⟨e.2, dst, fn, by rw [hreach]; exact he, hdst, hfn, by rw [h.outside_eq]; exact hout⟩
    refine ⟨⟨hnone, ?_, ?_, fun htog hsb => ?_⟩, hparsed u (hmem u hu hnew hbefore)⟩
    · rw [h.tasks_eq, h.before_eq]
      exact fun v hv hn hf => hparsed v (hmem v hv hn hf)
    · rw [hreach]
      exact hparsing.records
    · rw [h.outside_eq]
      exact hsent (hasRecords_of_together htog hsb)
  · exact absurd (h.failed_of_raised (by rw [hsome]; exact Option.some_ne_none f) hu) hst

/-- OK comes from a finished task with new tokens. -/
theorem settles (hsub : Submitted tasks) {t : ReqSendTask} (ht : t ∈ finishedReq tasks)
    (hst : s.states t.req.key ≠ .ok) (hok : s'.states t.req.key = .ok) : 0 < t.newTokens := by
  have hbefore : s.states t.req.key = .inprocess := by
    cases hs : s.states t.req.key with
    | inprocess => rfl
    | ok => exact absurd hs hst
    | failed => exact absurd ((h.failed hs).symm.trans hok) (by decide)
  rcases h.outcome with ⟨-, -, rfl⟩ | ⟨f, hsome, -, -, -⟩
  · have hfin := (finish_of_mem hsub.finished ht hbefore).symm.trans hok
    by_contra hzero
    rw [if_pos (by omega)] at hfin
    exact absurd hfin (by decide)
  · have hfail := h.failed_of_raised (by rw [hsome]; exact Option.some_ne_none f)
      (mem_finishedReq.mp ht).1
    exact absurd (hfail.symm.trans hok) (by decide)

/-- …and from no other. -/
theorem ok_cases (hok : s'.states k = .ok) :
    s.states k = .ok ∨ ∃ t ∈ finishedReq tasks, t.req.key = k := by
  by_contra hno
  obtain ⟨hst, hfin⟩ := not_or.mp hno
  have hfin' : ∀ t ∈ finishedReq tasks, t.req.key ≠ k := fun t ht hk => hfin ⟨t, ht, hk⟩
  rcases h.outcome with ⟨-, -, rfl⟩ | ⟨f, hsome, -, -, rfl⟩
  · exact hst ((finish_of_forall_ne hfin').symm.trans hok)
  · by_cases hmem : ∃ u ∈ tasks, u.req.key = k
    · obtain ⟨u, hu, rfl⟩ := hmem
      have hfail := h.failed_of_raised (by rw [hsome]; exact Option.some_ne_none f) hu
      exact absurd (hfail.symm.trans hok) (by decide)
    · refine hst (Eq.trans (Eq.symm ?_) hok)
      exact (finish_of_forall_ne hfin').trans
        (failAll_of_forall_ne fun u hu hk => hmem ⟨u, hu, hk⟩)

/-- The message has the record of each finished task. -/
theorem records_eq : log.records = (finishedReq log.tasks).map (doneRecord log.after) := by
  rw [h.tasks_eq, h.after_eq]
  have hdone := h.done_eq
  unfold sendDone at hdone
  split at hdone
  · next hnil => rw [BatchLog.records, ← Except.ok.inj hdone, hnil, map_nil]
  · cases hmsg : rpcSendDone stub s'.states (finishedReq tasks) with
    | error f => cases hmsg ▸ hdone
    | ok msg =>
      rw [hmsg] at hdone
      replace hmsg := after_check hmsg
      rw [BatchLog.records, ← Except.ok.inj hdone, ← Except.ok.inj hmsg]

end Ran

/-! ## Every run -/

/-- The tasks of the batches logged. -/
def taskLog (logs : List BatchLog) : List ReqSendTask := logs.flatMap (·.tasks)

/-- The record of the finished task `t` in the message of `log`. -/
def BatchLog.Reports (log : BatchLog) (t : ReqSendTask) (r : DoneRecord) : Prop :=
  ∃ i : ℕ, (finishedReq log.tasks)[i]? = some t ∧ log.records[i]? = some r

/-- The invariant, over the batches so far and the request states they left. -/
structure Accounted (stub : Stub) (past : List BatchLog) (states : ReqStates) : Prop where
  records : ∀ log ∈ past, log.records = (finishedReq log.tasks).map (doneRecord log.after)
  clean : ∀ log ∈ past, ∀ u ∈ log.tasks, 0 < u.newTokens → states u.req.key ≠ .failed →
    log.Clean stub ∧ log.Parsed stub u
  settled : ∀ k, states k = .ok → ∃ t ∈ finishedReq (taskLog past), t.req.key = k
  success : ∀ log ∈ past, ∀ t ∈ finishedReq log.tasks, log.after t.req.key = .ok →
    0 < t.newTokens ∧ states t.req.key = .ok
  failed : ∀ log ∈ past, ∀ k, log.after k = .failed → states k = .failed
  stays : past.Pairwise fun log lg => ∀ k, log.after k = .failed → lg.after k = .failed

section Run

variable {stub : Stub} {o : Outside} {tasks : List ReqSendTask} {s s' : StubState} {log : BatchLog}
  {past : List BatchLog}

theorem taskLog_append_singleton : taskLog (past ++ [log]) = taskLog past ++ log.tasks := by
  rw [taskLog, flatMap_append, flatMap_singleton]
  rfl

variable {t : ReqSendTask} {states : ReqStates}

theorem mem_taskLog (hlog : log ∈ past) (ht : t ∈ log.tasks) :
    t ∈ taskLog past := mem_flatMap.mpr ⟨log, hlog, ht⟩

/-- A batch that follows a request's last task has none of its tasks. -/
theorem Submitted.not_after (hsub : Submitted (taskLog past ++ tasks)) {t u : ReqSendTask}
    (ht : t ∈ finishedReq (taskLog past)) (hu : u ∈ tasks) : u.req.key ≠ t.req.key := by
  intro hk
  obtain ⟨hmem, hlast⟩ := mem_finishedReq.mp ht
  have hnot := (pairwise_append.mp hsub).2.2 t hmem u hu hk.symm
  exact absurd (hnot.symm.trans hlast) Bool.false_ne_true

theorem Accounted.init : Accounted stub [] fun _ => .inprocess where
  records _ h := absurd h not_mem_nil
  clean _ h := absurd h not_mem_nil
  settled _ h := absurd h (by decide)
  success _ h := absurd h not_mem_nil
  failed _ h := absurd h not_mem_nil
  stays := List.Pairwise.nil

/-- **One batch keeps the accounts.** -/
theorem Accounted.step (h : Accounted stub past s.states) (hsub : Submitted (taskLog past ++ tasks))
    (hran : Ran stub o tasks s s' log) : Accounted stub (past ++ [log]) s'.states where
  records := by
    simp only [forall_mem_append, forall_mem_singleton]
    exact ⟨h.records, hran.records_eq⟩
  clean := by
    simp only [forall_mem_append, forall_mem_singleton]
    refine ⟨fun lg hlg u hu hnew hst => ?_, fun u hu => ?_⟩
    · exact h.clean lg hlg u hu hnew fun hk => hst (hran.failed hk)
    · exact hran.clean (hran.tasks_eq ▸ hu)
  settled k hk := by
    rw [taskLog_append_singleton, hran.tasks_eq, finishedReq, filter_append]
    rcases hran.ok_cases hk with hold | ⟨t, ht, rfl⟩
    · obtain ⟨t, ht, rfl⟩ := h.settled k hold
      exact ⟨t, mem_append_left _ ht, rfl⟩
    · exact ⟨t, mem_append_right _ ht, rfl⟩
  success := by
    simp only [forall_mem_append, forall_mem_singleton]
    refine ⟨fun lg hlg t ht hok => ?_, fun t ht hok => ?_⟩
    · obtain ⟨hnew, hst⟩ := h.success lg hlg t ht hok
      obtain ⟨hmem, hlast⟩ := mem_finishedReq.mp ht
      have hfin := mem_finishedReq.mpr ⟨mem_taskLog hlg hmem, hlast⟩
      exact ⟨hnew, (hran.untouched fun u hu => hsub.not_after hfin hu).trans hst⟩
    · rw [hran.tasks_eq] at ht
      rw [hran.after_eq] at hok
      refine ⟨hran.settles (pairwise_append.mp hsub).2.1 ht (fun hst => ?_) hok, hok⟩
      -- an OK from before would mean that the last task has already been here
      obtain ⟨t', ht', hk⟩ := h.settled _ hst
      exact hsub.not_after ht' (mem_finishedReq.mp ht).1 hk.symm
  failed := by
    simp only [forall_mem_append, forall_mem_singleton]
    exact ⟨fun lg hlg k hk => hran.failed (h.failed lg hlg k hk), fun k hk => hran.after_eq ▸ hk⟩
  stays := by
    refine pairwise_append.mpr ⟨h.stays, pairwise_singleton _ _, ?_⟩
    intro lg hlg lg' hlg' k hk
    obtain rfl := mem_singleton.mp hlg'
    rw [hran.after_eq]
    exact hran.failed (h.failed lg hlg k hk)

/-- **…and so does a run.** -/
theorem Accounted.run : ∀ {batches : List (Outside × List ReqSendTask)} {past : List BatchLog}
    {s : StubState}, Accounted stub past s.states →
      Submitted (taskLog past ++ batches.flatMap (·.2)) →
      ∃ states, Accounted stub (past ++ runBatches stub s batches) states ∧
        Submitted (taskLog (past ++ runBatches stub s batches))
  | [], past, s, h, hsub => by
      rw [flatMap_nil, append_nil] at hsub
      rw [runBatches, append_nil]
      exact ⟨s.states, h, hsub⟩
  | (o, tasks) :: rest, past, s, h, hsub => by
      rw [flatMap_cons, ← append_assoc] at hsub
      rw [runBatches]
      split
      · rw [append_nil]
        exact ⟨s.states, h, (pairwise_append.mp (pairwise_append.mp hsub).1).1⟩
      · next s' log hdo =>
        have hran := ran_of_doTask hdo
        rw [append_cons]
        refine Accounted.run (h.step (pairwise_append.mp hsub).1 hran) ?_
        rwa [taskLog_append_singleton, hran.tasks_eq]

/-- The record of a task is the one made from the states its batch ended with. -/
theorem Accounted.reports (h : Accounted stub past states) (hlog : log ∈ past) {r : DoneRecord}
    (hr : log.Reports t r) : t ∈ finishedReq log.tasks ∧ r = doneRecord log.after t := by
  obtain ⟨i, hi, hri⟩ := hr
  rw [h.records log hlog, getElem?_map, hi] at hri
  exact ⟨mem_of_getElem? hi, (Option.some.inj hri).symm⟩

end Run

/-! ## No batch is dropped -/

section Complete

variable {stub : Stub} {o : Outside} {P : SendState → Prop}

variable (hrel : stub.env.ndebug = true)
include hrel

end Complete

end LlumnixKv
