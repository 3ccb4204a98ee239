import LlumnixKv.Scheduler.DualRequest
import LlumnixKv.Scheduler.Outstanding

/-!
# Scheduler/LostConnection — a remote load over connections that may be lost

`_kvt_rpc` sends D's request, and once more if the connection is lost.  A second loss ends the load, and
so does anything else that is raised: no P is found, the request was aborted, no connection is got, a
write fails.

    D        idle ──send──▸ sent ───────────▸ waiting ──────▸ answered ──reply──▸ idle
               ▲             │ receive ╲                         │
    P          │             │          ▸ refused                │
               └─lose, raise─┴─────────────┴─────────────────────┘

The copy that D sends meets P's guard.  While the first transfer is under way P refuses it, closes
the connection, and D has lost two of them: the load ends with an error, D's scheduler frees the
blocks, and P writes to them.

`Remote` is both sides at once, any events of P's threads included; P may read a message after its
connection is lost.  `load_ends_settled` says when this cannot happen: if no call of `_kvt_rpc` ends while
P's entry is open or a message is on its way to P, the load ends only when no P worker writes, or ever
will.
-/

open List Machinery

namespace LlumnixKv

/-! ## Both sides -/

/-- A request that D loads from P, and the message it sends. -/
structure Asking where
  naming : Bool
  /-- of P -/
  tpSize : ℕ
  /-- of D, as its instance id tells -/
  dTp : Option ℕ
  rdinfo : RKVTDInfo
  load : LoadReq
  rmtTokens : ℤ
  /-- `len(_delay_s_list)` -/
  retries : ℕ
  remotePrefill : load.remotePrefill = true
  migration : rdinfo.migration = false

namespace Asking

/-- The request. -/
def reqid (a : Asking) : String := a.rdinfo.reqid

/-- The reports P expects of each of its workers. -/
def signalsPerWorker (a : Asking) : ℕ := kvtSignalsPerWorker a.tpSize a.dTp

end Asking

/-- D's connection to P. -/
inductive Conn
  /-- D has not sent its message -/
  | idle
  /-- the message is under way -/
  | sent
  /-- P's handler waits for the transfer -/
  | waiting
  /-- P's handler has failed, and has closed the connection -/
  | refused
  /-- P's response is under way -/
  | answered (r : KVTResp)
  deriving DecidableEq, Repr

/-- D and P. -/
structure Remote where
  p : PBackend
  /-- what P's scheduler has done with the request -/
  progress : Progress
  /-- what P's workers have reported of it -/
  reports : List DoneReport := []
  conn : Conn := .idle
  /-- the messages of lost connections that P has not read -/
  late : ℕ := 0
  /-- of the loop of `_kvt_rpc` -/
  retry : ℕ := 0
  /-- the calls of `_kvt_rpc` that have ended -/
  outcomes : List RpcOutcome := []

/-- What happens. -/
inductive RemoteEvent
  /-- D: `pconn[1].write(msgbuf)` -/
  | send
  /-- P: `submit_transfer_kv` -/
  | receive
  /-- P: `submit_transfer_kv`, on a message whose connection is lost -/
  | receiveLate
  /-- the message of a lost connection is lost with it -/
  | vanish
  /-- the connection is lost; D sees `IncompleteReadError` -/
  | lose
  /-- P: `_wait_kvt_state` goes on, and the handler writes its response -/
  | answer
  /-- D: reads the response -/
  | reply
  /-- D: `_kvt_rpc` raises anything else, before it has a connection or on one -/
  | raise (msg : String)
  /-- P: a worker reports one of its targets -/
  | report (r : DoneReport)
  /-- P: anything else -/
  | backend (e : PEvent)

/-- An event of P that is not one of the above: what the scheduler does with the request, or anything
to others. -/
def Progress.next (reqid : String) (p : PBackend) (t : Progress) : PEvent → Option Progress
  | .turn env sout =>
    follow (Progress.round (p.reqs reqid).maxComputedTokens) t (p.roundsOf env sout reqid)
  | .transfer rdinfo _ => if rdinfo.reqid = reqid then none else some t
  | .enter r _ =>
    if r ≠ reqid then some t
    else if (p.reqs reqid).live = false ∧ (p.reqs reqid).kvtState = none ∧
        p.dualReqDone.get? reqid = none ∧ p.inflyKvt.get? reqid = none then some {}
    else none
  | .sendDone _ ioret => if ioret.reqid = some reqid then none else some t
  | .answer r => if r = reqid then none else some t
  | .leave _ | .engine _ _ _ | .markSendDone => some t

namespace Remote

variable (a : Asking) (j : Remote)

/-- `async_update_state_after_alloc` has returned: the load has ended, well or not. -/
def ended : Bool :=
  (asyncUpdateStateAfterAlloc a.load a.rmtTokens a.retries j.outcomes).isSome

/-- The messages P may still read once the connection is gone. -/
def leftBehind : ℕ := if j.conn = .sent then j.late + 1 else j.late

/-- P accepts D's message. -/
def Accepts : Prop :=
  PBackend.checkKvtdinfo a.naming a.rdinfo.dinfo = true ∧ (j.p.sending.get? a.reqid).isNone

instance (a : Asking) (j : Remote) : Decidable (j.Accepts a) := inferInstanceAs (Decidable (_ ∧ _))

/-- An event of P. -/
def onP (e : PEvent) (f : PBackend → Remote) : Option (Except String Remote) :=
  some ((j.p.step a.naming a.tpSize e).map f)

/-- A call of `_kvt_rpc` raises. -/
def callRaised (msg : String) : Remote := { j with
  conn := .idle, late := j.leftBehind, retry := 0, outcomes := j.outcomes ++ [.raised msg] }

/-- One event; `none` if it cannot happen now. -/
def step : RemoteEvent → Option (Except String Remote)
  | .send =>
    if j.conn = .idle ∧ j.ended a = false then some (.ok { j with conn := .sent }) else none
  | .receive =>
    if j.conn = .sent then
      j.onP a (.transfer a.rdinfo a.dTp) fun p =>
        { j with p, conn := if j.Accepts a then .waiting else .refused }
    else none
  | .receiveLate =>
    if 0 < j.late then
      j.onP a (.transfer a.rdinfo a.dTp) fun p => { j with p, late := j.late - 1 }
    else none
  | .vanish => if 0 < j.late then some (.ok { j with late := j.late - 1 }) else none
  | .lose =>
    if j.conn = .idle then none
    else if j.retry = 0 then some (.ok { j with conn := .idle, late := j.leftBehind, retry := 1 })
    else some (.ok (j.callRaised "kvt rpc failed"))
  | .answer =>
    match (j.p.sending.get? a.reqid).bind SendingReq.fut with
    | none => none
    | some ioret => j.onP a (.answer a.reqid) fun p =>
        -- the response goes to the connection the message came by
        { j with p, conn := if j.conn = .waiting then .answered (waitKvtState ioret) else j.conn }
  | .reply =>
    match j.conn with
    | .answered r => some (.ok { j with conn := .idle, retry := 0, outcomes := j.outcomes ++ [.resp r] })
    | _ => none
  | .raise msg => if j.conn = .idle ∧ j.ended a = true then none else some (.ok (j.callRaised msg))
  | .report r =>
    -- a worker reports a target once, and only one it was given
    if r.rank < a.tpSize ∧ (j.reports.countP fun x => x.rank = r.rank) <
        j.p.starts a.reqid * a.signalsPerWorker then
      j.onP a (.sendDone r.rank (.ofRecord r.plen r.code a.reqid)) fun p =>
        { j with p, reports := j.reports ++ [r] }
    else none
  | .backend e =>
    (j.progress.next a.reqid j.p e).bind fun progress => j.onP a e fun p => { j with p, progress }

/-- The event ends a call of `_kvt_rpc`. -/
def endsCall : RemoteEvent → Bool
  | .lose => decide (j.retry ≠ 0)
  | .reply | .raise _ => true
  | _ => false

/-- P's entry is open, or a message is on its way to P. -/
def pending : Bool := j.p.isOpen a.reqid || decide (j.leftBehind ≠ 0)

/-- A call of D's ends while P has the transfer open, or will. -/
def givesUp (e : RemoteEvent) : Bool := j.endsCall e && j.pending a

/-- One event of a run in which D does not. -/
def patientStep (e : RemoteEvent) : Option (Except String Remote) :=
  if j.givesUp a e then none else j.step a e

/-- A P worker holds a transfer to D's blocks. -/
def Held : Prop :=
  Holding a.tpSize a.signalsPerWorker j.reports (j.p.starts a.reqid)

instance (a : Asking) (j : Remote) : Decidable (j.Held a) :=
  inferInstanceAs (Decidable (∃ rank, rank < a.tpSize ∧ _))

/-- **No P worker holds a transfer to D's blocks, or will ever start one.** -/
def Settled : Prop :=
  ∀ j', Reachable (step a) j j' → ¬j'.Held a ∧ j'.p.starts a.reqid = j.p.starts a.reqid

end Remote

/-- P has not heard of the transfer; its scheduler may have done anything with the request. -/
structure PBackend.Unasked (s : PBackend) (reqid : String) (t : Progress) : Prop where
  kvtState : (s.reqs reqid).kvtState = none
  queue : s.queueOf reqid = []
  sending : s.sending.get? reqid = none
  marks : s.marks reqid = 0
  starts : s.starts reqid = 0
  dual : ∀ dualReq, s.dualReqDone.get? reqid = some dualReq → dualReq.finished = true →
    t.closed = true

/-! ## P's events -/

namespace PBackend

variable {naming : Bool} {tpSize spw : ℕ} {s s' : PBackend} {reqid : String} {t t' : Progress}
  {reports : List DoneReport} {e : PEvent}

/-- An event that is no turn and no call of `_mark_send_done` leaves the account as it is. -/
theorem Accounts.other {isOpen : Prop} (h : s.Accounts tpSize spw reports isOpen reqid t)
    (hnext : t.next reqid s e = some t') (hturn : ∀ env sout, e ≠ .turn env sout)
    (hmark : e ≠ .markSendDone) (hstep : s.step naming tpSize e = .ok s') :
    s'.Accounts tpSize spw reports isOpen reqid t' ∧ Keeps reqid s s' := by
  have hsame {s₁ : PBackend} {t₁ : Progress} (hkeeps : Keeps reqid s s₁)
      (haccount : Account tpSize spw reports isOpen (s₁.view reqid) t₁ (s.starts reqid)
        (s.marks reqid) (s.queueOf reqid).length) :
      s₁.Accounts tpSize spw reports isOpen reqid t₁ ∧ Keeps reqid s s₁ := by
    refine ⟨?_, hkeeps⟩
    rw [Accounts, hkeeps.starts, hkeeps.marks, hkeeps.queue]
    exact haccount
  have hupdate (r : String) (f : Req → Req) (hkvt : ∀ req, (f req).kvtState = req.kvtState)
      (hmax : ∀ req, (f req).maxComputedTokens = req.maxComputedTokens)
      (hlive : ∀ req : Req, req.live = false → (f req).live = false) :
      (s.updateReq r f).Accounts tpSize spw reports isOpen reqid t ∧
        Keeps reqid s (s.updateReq r f) := by
    refine hsame ⟨rfl, rfl, rfl, rfl⟩ ?_
    by_cases hr : r = reqid
    · subst hr
      rw [view_updateReq_self]
      exact Account.congr h (hkvt _) rfl (hmax _) (hlive _)
    · rw [(same_updateReq hr f).view]
      exact h
  cases e with
  | turn env sout => exact absurd rfl (hturn env sout)
  | markSendDone => exact absurd rfl hmark
  | transfer rdinfo dTp =>
    obtain ⟨hne, ⟨⟩⟩ := Option.ite_none_left_eq_some.mp hnext
    cases hstep
    refine hsame (keeps_submitTransferKv hne naming tpSize dTp) ?_
    unfold submitTransferKv
    split <;> exact h
  | leave r =>
    cases hnext
    cases hstep
    exact hupdate r _ (fun _ => rfl) (fun _ => rfl) fun _ _ => rfl
  | engine r numTokens blkids =>
    cases hnext
    cases hstep
    exact hupdate r _ (fun _ => rfl) (fun _ => rfl) fun _ hl => hl
  | enter r req =>
    rw [Progress.next] at hnext
    split at hnext
    · next hne =>
      cases hnext
      rw [step] at hstep
      split at hstep
      · cases hstep
        refine hsame ⟨rfl, rfl, rfl, rfl⟩ ?_
        rw [(same_updateReq hne _).view]
        exact h
      · cases hstep
        exact hsame (.refl reqid s) h
    · next heq =>
      obtain rfl := not_not.mp heq
      obtain ⟨hnew, ⟨⟩⟩ := Option.ite_none_right_eq_some.mp hnext
      rw [step, if_pos hnew] at hstep
      cases hstep
      refine hsame ⟨rfl, rfl, rfl, rfl⟩ ?_
      rw [view_updateReq_self]
      refine ⟨fun dualReq hdual => ?_, h.once, fun _ => h.unbound hnew.2.1, by simp, by simp⟩
      cases hnew.2.2.1.symm.trans hdual
  | sendDone workerTprank ioret =>
    obtain ⟨hne, ⟨⟩⟩ := Option.ite_none_left_eq_some.mp hnext
    cases hstep
    have hkeeps : Keeps reqid s (s.updateSending ioret.reqid fun st =>
        st.doSendDone tpSize workerTprank ioret) := keeps_updateSending hne _
    refine hsame hkeeps ?_
    rw [(same_updateSending ioret.reqid _ s.scheduled).view]
    exact h
  | answer r =>
    obtain ⟨hne, ⟨⟩⟩ := Option.ite_none_left_eq_some.mp hnext
    rw [step] at hstep
    split at hstep
    · cases hstep
      exact hsame ⟨Dict.get?_erase_ne _ (Ne.symm hne), rfl, rfl, rfl⟩ h
    · cases hstep
      exact hsame (.refl reqid s) h

/-- A call of `_mark_send_done`: for another request it changes nothing here; for this one the entry
is closed, if there is one. -/
theorem Accounts.markSendDone (h : s.Accounts tpSize spw reports (s.isOpen reqid = true) reqid t)
    (hstep : s.step naming tpSize .markSendDone = .ok s') :
    s'.Accounts tpSize spw reports (s'.isOpen reqid = true) reqid t ∧
      s'.sent reqid = s.sent reqid ∧ s'.queueOf reqid = s.queueOf reqid ∧
      (s'.sending.get? reqid = s.sending.get? reqid ∨ s'.isOpen reqid = false) := by
  rw [step] at hstep
  split at hstep
  · cases hstep
    exact ⟨h, rfl, rfl, .inl rfl⟩
  · next ioret rest hscheduled =>
    cases hstep
    set f := fun st : SendingReq =>
      st.tryMarkDone { ioret with source := some (ioret.source.getD "kvt") } with hf
    have hsame : Same reqid s ({ s with scheduled := rest }.updateSending ioret.reqid f) :=
      same_updateSending ioret.reqid f rest
    have hrest : ({ s with scheduled := rest }.updateSending ioret.reqid f).scheduled = rest := by
      unfold updateSending
      split
      · rfl
      · split <;> rfl
    have hmarks : s.marks reqid =
        ({ s with scheduled := rest }.updateSending ioret.reqid f).marks reqid +
          if ioret.reqid = some reqid then 1 else 0 := by
      rw [PBackend.marks, PBackend.marks, hrest, hscheduled, countP_cons]
      simp
    have hstarts : ({ s with scheduled := rest }.updateSending ioret.reqid f).starts reqid =
        s.starts reqid := by
      rw [starts, starts, hsame.sent]
    refine ⟨?_, hsame.sent, hsame.queue, ?_⟩
    · rw [Accounts, hsame.view, hstarts, hsame.queue]
      rw [Accounts, hmarks] at h
      split at h
      · exact h.mark
      · next hr =>
        have hkeeps : Keeps reqid { s with scheduled := rest }
            ({ s with scheduled := rest }.updateSending ioret.reqid f) := keeps_updateSending hr f
        rw [hkeeps.isOpen]
        exact h
    · by_cases hr : ioret.reqid = some reqid
      · refine .inr (Bool.eq_false_of_not_eq_true fun hopen => ?_)
        obtain ⟨st, hst, hfut⟩ := isOpen_iff.mp hopen
        rw [hr, get?_updateSending_self] at hst
        obtain ⟨st₀, -, rfl⟩ := Option.map_eq_some_iff.mp hst
        exact SendingReq.tryMarkDone_resolved _ _ hfut
      · exact .inl (keeps_updateSending hr f).sending

end PBackend

/-! ## The invariant -/

/-- **What holds along every run.** -/
structure Remote.Inv (a : Asking) (j : Remote) : Prop where
  account : j.p.Accounts a.tpSize a.signalsPerWorker j.reports (j.p.isOpen a.reqid = true) a.reqid
    j.progress
  queue : ∀ rdinfo ∈ j.p.queueOf a.reqid, rdinfo = a.rdinfo
  unreported : j.p.starts a.reqid = 0 → j.reports = []
  /-- an entry that waits for reports has all there are -/
  collected : ∀ st, j.p.sending.get? a.reqid = some st → st.fut = none →
    j.reports = [] ∨ j.Held a → Collected a.tpSize a.signalsPerWorker a.reqid st j.reports
  /-- where the load has ended, D has no connection and P nothing to do -/
  ended : j.ended a = true → j.conn = .idle ∧ j.pending a = false

namespace Remote

variable {a : Asking} {j j' : Remote} {p : PBackend} {t : Progress}

theorem onP_eq_ok {e : PEvent} {f : PBackend → Remote} (h : j.onP a e f = some (.ok j')) :
    ∃ p, j.p.step a.naming a.tpSize e = .ok p ∧ j' = f p := by
  have hmap := Option.some.inj h
  cases hstep : j.p.step a.naming a.tpSize e with
  | error r =>
    rw [hstep] at hmap
    cases hmap
  | ok p =>
    rw [hstep] at hmap
    exact ⟨p, rfl, (Except.ok.inj hmap).symm⟩

theorem pending_eq_false : j.pending a = false ↔ j.p.isOpen a.reqid = false ∧ j.leftBehind = 0 := by
  rw [pending, Bool.or_eq_false_iff, decide_eq_false_iff_not, not_not]

theorem Inv.start (h : p.Unasked a.reqid t) : Inv a { p, progress := t } where
  account := by
    rw [PBackend.Accounts, h.starts, h.marks, h.queue]
    refine ⟨h.dual, Nat.zero_le 1, fun _ => ⟨rfl, .inl rfl⟩, fun k hk => ?_, fun k hk => ?_⟩
    · cases hk.symm.trans h.kvtState
    · cases hk.symm.trans h.kvtState
  queue := fun rdinfo hmem => by
    dsimp only at hmem
    rw [h.queue] at hmem
    cases hmem
  unreported := fun _ => rfl
  collected := fun st hst => by cases h.sending.symm.trans hst
  ended := fun _ => ⟨rfl, pending_eq_false.mpr ⟨by rw [PBackend.isOpen, h.sending]; rfl, rfl⟩⟩

variable (h : j.Inv a)
include h

/-- P closes no entry while it has something to do: with the entry closed, no worker holds the
transfer. -/
theorem Inv.not_held (hclosed : j.p.isOpen a.reqid = false) : ¬j.Held a := fun hheld =>
  by cases hclosed.symm.trans (h.account.of_holding hheld).1

/-- An event of P that leaves the entry as it is, or closes it. -/
theorem Inv.onBackend {t' : Progress} (haccount : p.Accounts a.tpSize a.signalsPerWorker j.reports
      (p.isOpen a.reqid = true) a.reqid t')
    (hqueue : ∀ rdinfo ∈ p.queueOf a.reqid, rdinfo = a.rdinfo)
    (hstarts : p.starts a.reqid = j.p.starts a.reqid ∨ j.p.starts a.reqid = 0)
    (hle : j.p.starts a.reqid ≤ p.starts a.reqid)
    (hentry : p.sending.get? a.reqid = j.p.sending.get? a.reqid ∨ p.isOpen a.reqid = false) :
    Inv a { j with p, progress := t' } where
  account := haccount
  queue := hqueue
  unreported := fun hzero => h.unreported (by dsimp only at hzero; omega)
  collected := fun st hst hfut hreports => by
    dsimp only at hst
    have hopen : p.isOpen a.reqid = true := PBackend.isOpen_iff.mpr ⟨st, hst, hfut⟩
    rcases hentry with hentry | hclosed
    · refine h.collected st (hentry ▸ hst) hfut ?_
      rcases hstarts with hstarts | hzero
      · refine hreports.imp_right fun hheld => ?_
        rw [Held] at hheld ⊢
        exact hstarts ▸ hheld
      · exact .inl (h.unreported hzero)
    · cases hclosed.symm.trans hopen
  ended := fun hended => by
    obtain ⟨hconn, hsettled⟩ := h.ended hended
    obtain ⟨hclosed, hlate⟩ := pending_eq_false.mp hsettled
    refine ⟨hconn, pending_eq_false.mpr ⟨?_, hlate⟩⟩
    rcases hentry with hentry | hclosed'
    · dsimp only
      rw [PBackend.isOpen, hentry]
      exact hclosed
    · exact hclosed'

/-- P takes D's message. -/
theorem Inv.accept (hrunning : j.ended a = false) (haccepts : j.Accepts a) (conn : Conn) (late : ℕ) :
    Inv a { j with
      p := j.p.submitTransferKv a.naming a.tpSize a.rdinfo a.dTp, conn, late } := by
  have hnone : j.p.sending.get? a.reqid = none := Option.isNone_iff_eq_none.mp haccepts.2
  have hclosed : j.p.isOpen a.reqid = false := by rw [PBackend.isOpen, hnone]; rfl
  have hsubmit : j.p.submitTransferKv a.naming a.tpSize a.rdinfo a.dTp = { j.p with
      sending := j.p.sending.set a.reqid { signalsPerWorker := a.signalsPerWorker }
      dinfoq := j.p.dinfoq ++ [a.rdinfo] } := if_pos haccepts
  rw [hsubmit]
  set p : PBackend := { j.p with
    sending := j.p.sending.set a.reqid { signalsPerWorker := a.signalsPerWorker }
    dinfoq := j.p.dinfoq ++ [a.rdinfo] } with hp
  have hentry : p.sending.get? a.reqid = some { signalsPerWorker := a.signalsPerWorker } :=
    Dict.get?_set_self _ _ _
  have hqueue : p.queueOf a.reqid = j.p.queueOf a.reqid ++ [a.rdinfo] := by
    rw [PBackend.queueOf, PBackend.queueOf, hp, filter_append]
    simp [Asking.reqid]
  refine ⟨?_, fun rdinfo hmem => ?_, h.unreported, fun st hst hfut hreports => ?_, fun hended => ?_⟩
  · rw [PBackend.Accounts, hqueue, length_append]
    exact h.account.letIn (by rw [hclosed]; exact Bool.false_ne_true)
      (PBackend.isOpen_iff.mpr ⟨_, hentry, rfl⟩)
  · dsimp only at hmem
    rw [hqueue] at hmem
    rcases mem_append.mp hmem with hmem | hmem
    · exact h.queue rdinfo hmem
    · exact mem_singleton.mp hmem
  · cases hentry.symm.trans hst
    have hnil : j.reports = [] := hreports.resolve_right (h.not_held hclosed)
    dsimp only
    rw [hnil]
    exact collected_nil _ _ _
  · cases hrunning.symm.trans hended

/-- P reads a message, and accepts it or not. -/
theorem Inv.receive (hrunning : j.ended a = false) (conn : Conn) (late : ℕ) :
    Inv a { j with
      p := j.p.submitTransferKv a.naming a.tpSize a.rdinfo a.dTp, conn, late } ∧
      (j.p.submitTransferKv a.naming a.tpSize a.rdinfo a.dTp).starts a.reqid =
        j.p.starts a.reqid := by
  by_cases haccepts : j.Accepts a
  · refine ⟨h.accept hrunning haccepts conn late, ?_⟩
    have hlog : (j.p.submitTransferKv a.naming a.tpSize a.rdinfo a.dTp).log = j.p.log := by
      unfold PBackend.submitTransferKv
      split <;> rfl
    rw [PBackend.starts, PBackend.starts, PBackend.sent, PBackend.sent, hlog]
  · have hsame : j.p.submitTransferKv a.naming a.tpSize a.rdinfo a.dTp = j.p := if_neg haccepts
    rw [hsame]
    refine ⟨⟨h.account, h.queue, h.unreported, h.collected, fun hended => ?_⟩, rfl⟩
    cases hrunning.symm.trans hended

/-- P's handler goes on, and drops the entry. -/
theorem Inv.answer {ioret : IoRet} {conn : Conn}
    (hfut : (j.p.sending.get? a.reqid).bind SendingReq.fut = some ioret)
    (hconn : j.ended a = true → conn = .idle) :
    Inv a { j with p := { j.p with sending := j.p.sending.erase a.reqid }, conn } := by
  obtain ⟨st, hst, hio⟩ := Option.bind_eq_some_iff.mp hfut
  have hnone : (j.p.sending.erase a.reqid).get? a.reqid = none := Dict.get?_erase_self _ _
  have hclosed : j.p.isOpen a.reqid = false := by rw [PBackend.isOpen, hst, Option.any_some, hio]; rfl
  refine ⟨?_, h.queue, h.unreported, fun st hst => ?_, fun hended => ?_⟩
  · refine Account.mono h.account fun hopen => ?_
    cases hclosed.symm.trans hopen
  · cases hnone.symm.trans hst
  · obtain ⟨hidle, hsettled⟩ := h.ended hended
    refine ⟨hconn hended, pending_eq_false.mpr ⟨by rw [PBackend.isOpen, hnone]; rfl, ?_⟩⟩
    have hlate := (pending_eq_false.mp hsettled).2
    rwa [leftBehind, hidle, ← hconn hended] at hlate

/-- A worker reports. -/
theorem Inv.report {r : DoneReport} (hrank : r.rank < a.tpSize)
    (hroom : (j.reports.countP fun x => x.rank = r.rank) < j.p.starts a.reqid * a.signalsPerWorker) :
    Inv a { j with
      p := j.p.updateSending (some a.reqid) fun st =>
        st.doSendDone a.tpSize r.rank (.ofRecord r.plen r.code a.reqid)
      reports := j.reports ++ [r] } := by
  have hheld : j.Held a := ⟨r.rank, hrank, hroom⟩
  obtain ⟨hopen, -, -, hone, -⟩ := h.account.of_holding hheld
  obtain ⟨st, hst, hfut⟩ := PBackend.isOpen_iff.mp hopen
  rw [hone, Nat.one_mul] at hroom
  have hcollected := (h.collected st hst hfut (.inr hheld)).doSendDone r hrank hroom
  set st' := st.doSendDone a.tpSize r.rank (.ofRecord r.plen r.code a.reqid) with hst'
  set p := j.p.updateSending (some a.reqid) fun st =>
    st.doSendDone a.tpSize r.rank (.ofRecord r.plen r.code a.reqid) with hp
  have hentry : p.sending.get? a.reqid = some st' := by
    rw [hp, PBackend.get?_updateSending_self, hst, Option.map_some]
  have hsame : PBackend.Same a.reqid j.p p :=
    PBackend.same_updateSending (some a.reqid) _ j.p.scheduled
  have hstarts : p.starts a.reqid = j.p.starts a.reqid := by
    rw [PBackend.starts, PBackend.starts, hsame.sent]
  have hmarks : p.marks a.reqid = j.p.marks a.reqid := by
    rw [hp, PBackend.marks, PBackend.updateSending]
    split <;> rfl
  -- the future is resolved only when no report is missing
  have hfree : p.isOpen a.reqid = true ∨
      ¬Holding a.tpSize a.signalsPerWorker (j.reports ++ [r]) (j.p.starts a.reqid) := by
    cases hfut' : st'.fut with
    | none => exact .inl (PBackend.isOpen_iff.mpr ⟨st', hentry, hfut'⟩)
    | some ioret =>
      refine .inr ?_
      rintro ⟨rank, hlt, hcount⟩
      rw [hone, Nat.one_mul] at hcount
      exact absurd ((hcollected.resolved ioret hfut').1 rank hlt) (not_le.mpr hcount)
  refine ⟨?_, fun rdinfo hmem => ?_, fun hzero => ?_, fun st₁ hst₁ _ _ => ?_, fun hended => ?_⟩
  · rw [PBackend.Accounts, hsame.view, hstarts, hmarks, hsame.queue]
    exact h.account.report hheld hfree
  · exact h.queue rdinfo (hsame.queue ▸ hmem)
  · cases (hstarts.symm.trans hzero).symm.trans hone
  · cases hentry.symm.trans hst₁
    exact hcollected
  · cases (pending_eq_false.mp (h.ended hended).2).1.symm.trans hopen

/-- Anything else on P. -/
theorem Inv.backend {e : PEvent} {t' : Progress} (hnext : j.progress.next a.reqid j.p e = some t')
    (hstep : j.p.step a.naming a.tpSize e = .ok p) : Inv a { j with p, progress := t' } ∧
      (p.starts a.reqid = j.p.starts a.reqid ∨ j.p.isOpen a.reqid = true) := by
  by_cases hturn : ∃ env sout, e = .turn env sout
  · obtain ⟨env, sout, rfl⟩ := hturn
    obtain ⟨delta, ht⟩ := PBackend.turned_of_turn hstep
    have hmigration : ∀ rdinfo ∈ j.p.queueOf a.reqid, rdinfo.migration = false :=
      fun rdinfo hmem => h.queue rdinfo hmem ▸ a.migration
    obtain ⟨haccount, hle, hstarts⟩ := h.account.turn hnext hmigration hstep
    have hopen : p.isOpen a.reqid = j.p.isOpen a.reqid := by
      rw [PBackend.isOpen, ht.sending]
      rfl
    refine ⟨h.onBackend ?_ (fun rdinfo hmem => ?_) ?_ hle (.inl (by rw [ht.sending])), hstarts⟩
    · rw [hopen]
      exact haccount
    · rw [PBackend.queueOf, ht.dinfoq] at hmem
      cases hmem
    · have := haccount.once
      omega
  · by_cases hmark : e = .markSendDone
    · subst hmark
      cases hnext
      obtain ⟨haccount, hsent, hqueue, hentry⟩ := h.account.markSendDone hstep
      have hstarts : p.starts a.reqid = j.p.starts a.reqid := by
        rw [PBackend.starts, PBackend.starts, hsent]
      exact ⟨h.onBackend haccount (hqueue ▸ h.queue) (.inl hstarts) hstarts.ge hentry, .inl hstarts⟩
    · obtain ⟨haccount, hkeeps⟩ := h.account.other hnext
        (fun env sout heq => hturn ⟨env, sout, heq⟩) hmark hstep
      rw [← hkeeps.isOpen] at haccount
      exact ⟨h.onBackend haccount (hkeeps.queue ▸ h.queue) (.inl hkeeps.starts) hkeeps.starts.ge
        (.inl hkeeps.sending), .inl hkeeps.starts⟩

/-- While a message is on its way the load has not ended. -/
theorem Inv.running_of_late (hlate : 0 < j.late) : j.ended a = false :=
  Bool.eq_false_of_not_eq_true fun hended => by
    obtain ⟨hidle, hsettled⟩ := h.ended hended
    have hzero := (pending_eq_false.mp hsettled).2
    rw [leftBehind, hidle] at hzero
    exact hlate.ne' hzero

/-- A call of D's ends with nothing left of it on P. -/
theorem Inv.callEnds (hsettled : j.pending a = false) (outcomes : List RpcOutcome) :
    Inv a { j with conn := .idle, late := j.leftBehind, retry := 0, outcomes } where
  account := h.account
  queue := h.queue
  unreported := h.unreported
  collected := h.collected
  ended := fun _ => ⟨rfl, hsettled⟩

/-- **One event**, if D does not give up: P starts a transfer only with the entry open, and a load
that has ended stays so. -/
theorem Inv.step {e : RemoteEvent} (hpatient : j.givesUp a e = false)
    (hstep : j.step a e = some (.ok j')) :
    j'.Inv a ∧ (j'.p.starts a.reqid = j.p.starts a.reqid ∨ j.p.isOpen a.reqid = true) ∧
      (j.ended a = true → j'.ended a = true) := by
  cases e with
  | send =>
    obtain ⟨⟨hidle, hrunning⟩, heq⟩ := Option.ite_none_right_eq_some.mp hstep
    cases heq
    refine ⟨⟨h.account, h.queue, h.unreported, h.collected, fun hended => ?_⟩, .inl rfl, id⟩
    cases hrunning.symm.trans hended
  | receive =>
    obtain ⟨hconn, hstep⟩ := Option.ite_none_right_eq_some.mp hstep
    obtain ⟨p, hp, rfl⟩ := onP_eq_ok hstep
    cases hp
    have hrunning : j.ended a = false := Bool.eq_false_of_not_eq_true fun hended => by
      cases (h.ended hended).1.symm.trans hconn
    obtain ⟨hinv, hstarts⟩ := h.receive hrunning (if j.Accepts a then .waiting else .refused) j.late
    exact ⟨hinv, .inl hstarts, id⟩
  | receiveLate =>
    obtain ⟨hlate, hstep⟩ := Option.ite_none_right_eq_some.mp hstep
    obtain ⟨p, hp, rfl⟩ := onP_eq_ok hstep
    cases hp
    obtain ⟨hinv, hstarts⟩ := h.receive (h.running_of_late hlate) j.conn (j.late - 1)
    exact ⟨hinv, .inl hstarts, id⟩
  | vanish =>
    obtain ⟨hlate, hstep⟩ := Option.ite_none_right_eq_some.mp hstep
    cases hstep
    refine ⟨⟨h.account, h.queue, h.unreported, h.collected, fun hended => ?_⟩, .inl rfl, id⟩
    cases (h.running_of_late hlate).symm.trans hended
  | lose =>
    obtain ⟨hconn, hstep⟩ := Option.ite_none_left_eq_some.mp hstep
    have hrunning (hended : j.ended a = true) : False := hconn (h.ended hended).1
    split at hstep
    · cases hstep
      exact ⟨⟨h.account, h.queue, h.unreported, h.collected, fun hended => absurd hended hrunning⟩,
        .inl rfl, id⟩
    · next hretry =>
      cases hstep
      rw [givesUp, endsCall, decide_eq_true hretry, Bool.true_and] at hpatient
      exact ⟨h.callEnds hpatient _, .inl rfl, fun hended => absurd hended hrunning⟩
  | answer =>
    rw [Remote.step] at hstep
    split at hstep
    · cases hstep
    · next ioret hfut =>
      obtain ⟨p, hp, rfl⟩ := onP_eq_ok hstep
      rw [PBackend.step, hfut, Option.isSome_some, if_pos rfl] at hp
      cases hp
      refine ⟨h.answer hfut fun hended => ?_, .inl rfl, id⟩
      rw [(h.ended hended).1]
      rfl
  | reply =>
    rw [Remote.step] at hstep
    split at hstep
    · next r hconn =>
      cases hstep
      have hended := h.callEnds hpatient (j.outcomes ++ [.resp r])
      rw [leftBehind, hconn] at hended
      refine ⟨hended, .inl rfl, fun hended => ?_⟩
      cases (h.ended hended).1.symm.trans hconn
    · cases hstep
  | raise msg =>
    obtain ⟨hcall, hstep⟩ := Option.ite_none_left_eq_some.mp hstep
    cases hstep
    exact ⟨h.callEnds hpatient _, .inl rfl, fun hended => absurd ⟨(h.ended hended).1, hended⟩ hcall⟩
  | report r =>
    obtain ⟨⟨hrank, hroom⟩, hstep⟩ := Option.ite_none_right_eq_some.mp hstep
    obtain ⟨p, hp, rfl⟩ := onP_eq_ok hstep
    cases hp
    refine ⟨h.report hrank hroom, .inr ?_, id⟩
    exact (h.account.of_holding ⟨r.rank, hrank, hroom⟩).1
  | backend e =>
    obtain ⟨t', hnext, hstep⟩ := Option.bind_eq_some_iff.mp hstep
    obtain ⟨p, hp, rfl⟩ := onP_eq_ok hstep
    obtain ⟨hinv, hstarts⟩ := h.backend hnext hp
    exact ⟨hinv, hstarts, id⟩

/-- **Where the load has ended, nothing is written any more.** -/
theorem Inv.settled (hend : j.ended a = true) : j.Settled a := by
  intro j' hreach
  have hall := hreach.invariant (P := fun j' => j'.Inv a ∧ j'.ended a = true ∧
    j'.p.starts a.reqid = j.p.starts a.reqid) ⟨h, hend, rfl⟩
    fun j₁ e j₂ ⟨h₁, hend₁, hstarts₁⟩ hstep => by
      obtain ⟨-, hsettled⟩ := h₁.ended hend₁
      have hpatient : j₁.givesUp a e = false := by rw [givesUp, hsettled, Bool.and_false]
      have hclosed := (pending_eq_false.mp hsettled).1
      obtain ⟨h₂, hstarts, hend₂⟩ := h₁.step hpatient hstep
      refine ⟨h₂, hend₂ hend₁, Eq.trans ?_ hstarts₁⟩
      exact hstarts.resolve_right fun hopen => by cases hclosed.symm.trans hopen
  exact ⟨hall.1.not_held (pending_eq_false.mp (hall.1.ended hall.2.1).2).1, hall.2.2⟩

end Remote

/-- **A load ends only when no P worker writes to D's blocks, or will**, in every run in which no call of
`_kvt_rpc` ends while P's entry is open or a message is on its way to P.  Connections may be lost
otherwise, at any time; P's threads may do anything in between. -/
theorem load_ends_settled (a : Asking) {p : PBackend} {t : Progress} (h : p.Unasked a.reqid t)
    {j : Remote} (hreach : Reachable (Remote.patientStep a) { p, progress := t } j)
    (hend : j.ended a = true) : j.Settled a := by
  have hinv : j.Inv a := hreach.invariant (P := Remote.Inv a) (Remote.Inv.start h)
    fun j₁ e j₂ h₁ hstep => by
      obtain ⟨hpatient, hstep⟩ := Option.ite_none_left_eq_some.mp hstep
      exact (h₁.step (Bool.eq_false_of_not_eq_true hpatient) hstep).1
  exact hinv.settled hend

/-- D asks for the prompt of the one request, with one retry. -/
def askOnce : Asking where
  naming := false
  tpSize := 1
  dTp := none
  rdinfo := askForPrompt
  load := eightTokens
  rmtTokens := 22
  retries := 1
  remotePrefill := rfl
  migration := rfl

/-- The first connection is lost, and the message with it; the second brings the answer. -/
def firstLost : List RemoteEvent :=
  [.send, .lose, .vanish, .send, .receive, .backend PBackend.wholePrompt, .report ⟨0, 8, 0⟩, .answer,
    .reply]

theorem load_ends_settled_firstLost :
    ∃ j, Reachable (Remote.patientStep askOnce) { p := PBackend.oneRequest, progress := {} } j ∧
      j.ended askOnce = true ∧ j.Settled askOnce := by
  have hstart : PBackend.oneRequest.Unasked askOnce.reqid {} := ⟨rfl, rfl, rfl, rfl, rfl, nofun⟩
  obtain ⟨j, hreach, hend⟩ := exists_reachable_of_runActs (Remote.patientStep askOnce)
    { p := PBackend.oneRequest, progress := {} } firstLost (Remote.ended askOnce) (by decide +kernel)
  exact ⟨j, hreach, hend, load_ends_settled askOnce hstart hreach hend⟩

/-- P has the message, and the connection is lost; P refuses the copy, and D has lost two. -/
def bothLost : List RemoteEvent := [.send, .receive, .lose, .send, .receive, .lose]

/-- **D gives its blocks up while P is about to write to them.**  The load has failed and the request
is aborted; after that P's scheduler computes the prompt, and its worker starts the transfer. -/
theorem bothLost_still_written :
    ∃ j, Reachable (Remote.step askOnce) { p := PBackend.oneRequest, progress := {} } j ∧
      j.ended askOnce = true ∧
      (remoteLoad true askOnce.load askOnce.rmtTokens askOnce.retries j.outcomes).any
        (·.loadFailed) = true ∧
      ∃ j', Reachable (Remote.step askOnce) j j' ∧ j'.Held askOnce := by
  have hrun : (runActs (Remote.step askOnce) { p := PBackend.oneRequest, progress := {} }
      bothLost).any (fun j : Remote => j.ended askOnce &&
        (remoteLoad true askOnce.load askOnce.rmtTokens askOnce.retries j.outcomes).any
          (fun loaded : Loaded => loaded.loadFailed) &&
        (runActs (Remote.step askOnce) j [.backend PBackend.wholePrompt]).any
          fun j' : Remote => decide (j'.Held askOnce)) = true := by
    decide +kernel
  obtain ⟨j, hreach, hj⟩ := exists_reachable_of_runActs _ _ _ _ hrun
  rw [Bool.and_eq_true, Bool.and_eq_true] at hj
  obtain ⟨j', hreach', hheld⟩ := exists_reachable_of_runActs (Remote.step askOnce) j
    [.backend PBackend.wholePrompt] (fun j' => decide (j'.Held askOnce)) hj.2
  exact ⟨j, hreach, hj.1.1, hj.1.2, j', hreach', of_decide_eq_true hheld⟩

end LlumnixKv
