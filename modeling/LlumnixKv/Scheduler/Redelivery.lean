import LlumnixKv.Scheduler.DualRequest
import LlumnixKv.Scheduler.Outstanding

/-!
# Scheduler/Redelivery — a transfer request that reaches P twice

D sends its `TRANSFER_KV_REQ` again when a connection is lost.  P has one guard against the copy, the
entry of `_sending`, and the guard goes with the answer to the first:

    first        taken, bound        answered
      │────────────────│─────────────────│──────────────────────▸
      └───────── copies refused ─────────┘  copies queued
                                              ├─ request gone     404 or 410, nothing else
                                              └─ request known    the assertion fails

`DualTrack.nextResent` is the track of a request with such copies, and `Resent` what P keeps of it:
until the transfer is taken the guard holds, and from then on the queue may have any number of copies.
Only the turn that takes them can fail for them, by whether the request is known when it starts
(`copies_harmless_iff`).
-/

open List Machinery

namespace LlumnixKv

open Keyed

/-! ## A copy in the queue -/

namespace ReqView

variable {v : ReqView} (env : BuildEnv)

/-- A copy, for a request that is gone… -/
theorem stepDinfo_of_gone (rdinfo : RKVTDInfo) (hgone : v.Gone) :
    ∃ ioret, v.stepDinfo env rdinfo = some (v, [.markSendDone ioret]) := by
  simp only [stepDinfo]
  rw [if_pos ⟨Option.isNone_iff_eq_none.mpr hgone.1, hgone.2⟩]
  exact ⟨_, rfl⟩

/-- …and for one that is bound and known. -/
theorem stepDinfo_of_known (rdinfo : RKVTDInfo) (hknown : ¬v.Gone)
    (hbound : v.req.kvtState.isSome = true) : v.stepDinfo env rdinfo = none := by
  simp only [stepDinfo]
  rw [if_neg fun h => hknown ⟨Option.isNone_iff_eq_none.mp h.1, h.2⟩, if_pos hbound]

/-- All copies of one turn find the request gone, and then come the rounds `ws`… -/
theorem thread_copies_of_gone (hgone : v.Gone) (rdinfos : List RKVTDInfo) (ws : List Work) :
    ∃ out, out.filterMap Emit.sent? = [] ∧
      Keyed.thread (handle env) (rdinfos.map .dinfo ++ ws) v =
        (Keyed.thread (handle env) ws v).map fun r => (r.1, out ++ r.2) := by
  have hquiet : ∀ w ∈ rdinfos.map Work.dinfo,
      Keyed.Quiet (handle env) (· = v) Emit.sent? w := by
    rintro w hw u rfl
    obtain ⟨rdinfo, -, rfl⟩ := mem_map.mp hw
    obtain ⟨ioret, h⟩ := stepDinfo_of_gone env rdinfo hgone
    exact ⟨u, _, h, rfl, rfl⟩
  obtain ⟨v', out, hthread, rfl, hout⟩ := thread_quiet hquiet v rfl
  exact ⟨out, hout, thread_append hthread⟩

/-- …or the first one fails. -/
theorem thread_copies_of_known (hknown : ¬v.Gone) (hbound : v.req.kvtState.isSome = true)
    {rdinfos : List RKVTDInfo} (hne : rdinfos ≠ []) (ws : List Work) :
    Keyed.thread (handle env) (rdinfos.map .dinfo ++ ws) v = none := by
  obtain ⟨rdinfo, rest, rfl⟩ := exists_cons_of_ne_nil hne
  have hfails : handle env (.dinfo rdinfo) v = none := stepDinfo_of_known env rdinfo hknown hbound
  rw [map_cons, cons_append, thread, hfails]

variable {rdinfo : RKVTDInfo} {limit m : ℤ} {t : DualTrack} {sent : List Sent}

/-- Rounds before that send nothing change nothing. -/
theorem Keeps.after {r : Option (ReqView × List Emit)} {out : List Emit}
    (hout : out.filterMap Emit.sent? = []) (h : Keeps r rdinfo limit m t sent) :
    Keeps (r.map fun x => (x.1, out ++ x.2)) rdinfo limit m t sent := by
  refine ⟨fun hstale => by rw [h.1 hstale, Option.map_none], fun hstale => ?_⟩
  obtain ⟨v', out', rfl, hv'⟩ := h.2 hstale
  refine ⟨v', out ++ out', rfl, ?_⟩
  rwa [filterMap_append, hout, nil_append]

theorem Dual.bound (hv : v.Dual rdinfo limit m t sent) (hsince : t.since ≠ none) :
    v.req.kvtState.isSome = true := by
  obtain ⟨since, hsince⟩ := Option.ne_none_iff_exists'.mp hsince
  rcases Bool.eq_false_or_eq_true t.finished with hfinished | hfinished
  · exact (hv.closed hsince hfinished).bound
  · obtain ⟨kvtstate, hkvt, -⟩ := (hv.opened hsince hfinished).sending.bound
    rw [hkvt]
    rfl

end ReqView

/-! ## The track with copies -/

variable {sout : SchedOut} {e : PEvent} {env : BuildEnv}

namespace DualTrack

/-- An event, where D may send its request again and no worker reports a transfer P has not taken. -/
def nextResent (reqid : String) (rdinfo : RKVTDInfo) (limit m : ℤ) (t : DualTrack) :
    PEvent → Option DualTrack
  | .transfer rd dTp =>
    if rd = rdinfo ∧ t.arrived = true then some t else t.next reqid rdinfo limit m (.transfer rd dTp)
  | .sendDone _ ioret => if ioret.reqid = some reqid ∧ t.since = none then none else some t
  | e => t.next reqid rdinfo limit m e

variable {reqid : String} {rdinfo : RKVTDInfo} {limit m : ℤ} {t t' : DualTrack}

/-- A request that is bound is not stopped before its first chunk. -/
theorem not_stopped {dinfoq : List RKVTDInfo}
    (hsince : t.since ≠ none) (h : follow (DualTrack.round rdinfo m) t
      ((sout.allRounds env dinfoq).filter (·.reqid = reqid)) = some t') : reqid ∉ sout.hcStop0 := by
  intro hmem
  have hround : Work.stop0 reqid ∈ (sout.hcStop0.map Work.stop0).filter (·.reqid = reqid) :=
    mem_filter.mpr ⟨mem_map_of_mem hmem, decide_eq_true rfl⟩
  simp only [SchedOut.allRounds, SchedOut.rounds, filter_append, append_assoc] at h
  -- the first round would be that of `_step_stop0`
  cases hstops : (sout.hcStop0.map Work.stop0).filter (·.reqid = reqid) with
  | nil => exact absurd (hstops ▸ hround) not_mem_nil
  | cons w ws =>
    obtain ⟨r, -, rfl⟩ : ∃ r ∈ sout.hcStop0, Work.stop0 r = w :=
      mem_map.mp (mem_of_mem_filter (hstops ▸ mem_cons_self :
        w ∈ (sout.hcStop0.map Work.stop0).filter (·.reqid = reqid)))
    rw [hstops, cons_append] at h
    obtain ⟨t₁, hnext, -⟩ := follow_cons h
    exact hsince (Option.ite_none_right_eq_some.mp hnext).1.2.2

/-- Only a turn takes the transfer. -/
theorem since_of_next (hturn : ∀ env sout, e ≠ .turn env sout)
    (hnext : t.next reqid rdinfo limit m e = some t') : t'.since = t.since := by
  cases e with
  | turn env sout => exact absurd rfl (hturn env sout)
  | transfer _ _ | leave _ | engine _ _ _ =>
    rw [DualTrack.next] at hnext
    split at hnext
    · exact Option.some.inj hnext ▸ rfl
    · obtain ⟨-, ⟨⟩⟩ := Option.ite_none_right_eq_some.mp hnext
      rfl
  | enter _ _ =>
    obtain ⟨-, ⟨⟩⟩ := Option.ite_none_left_eq_some.mp hnext
    rfl
  | markSendDone | sendDone _ _ | answer _ => exact Option.some.inj hnext ▸ rfl

end DualTrack

/-! ## What the backend keeps of it -/

namespace PBackend

/-- A turn that takes copies, of a request that is bound, finds the request gone: it has left the
scheduler, and `_dual_req_done` does not have it. -/
def CopyGone (reqid : String) (s : PBackend) : PEvent → Prop
  | .turn _ _ => (s.reqs reqid).kvtState.isSome = true → s.queueOf reqid ≠ [] → (s.view reqid).Gone
  | _ => True

instance (reqid : String) (s : PBackend) : ∀ e : PEvent, Decidable (s.CopyGone reqid e)
  | .turn _ _ => inferInstanceAs (Decidable (_ → _ → _))
  | .transfer _ _ | .leave _ | .enter _ _ | .engine _ _ _ | .markSendDone | .sendDone _ _
  | .answer _ => isTrue trivial

/-- …and every turn of a run does. -/
def CopiesGone (naming : Bool) (tpSize : ℕ) (reqid : String) : PBackend → List PEvent → Prop
  | _, [] => True
  | s, e :: events => s.CopyGone reqid e ∧
    match s.step naming tpSize e with
    | .error _ => True
    | .ok s' => CopiesGone naming tpSize reqid s' events

instance decidableCopiesGone (naming : Bool) (tpSize : ℕ) (reqid : String) :
    ∀ (s : PBackend) (events : List PEvent), Decidable (CopiesGone naming tpSize reqid s events)
  | _, [] => isTrue trivial
  | s, e :: events =>
    have : Decidable (match s.step naming tpSize e with
        | .error _ => True
        | .ok s' => CopiesGone naming tpSize reqid s' events) :=
      match s.step naming tpSize e with
      | .error _ => isTrue trivial
      | .ok s' => decidableCopiesGone naming tpSize reqid s' events
    inferInstanceAs (Decidable (_ ∧ _))

/-- **What holds along the track of a request with copies.**  Until the transfer is taken, the queue
has the first message only, its entry is open, and nothing is on its way to close it. -/
structure Resent (reqid : String) (rdinfo : RKVTDInfo) (limit m : ℤ) (s : PBackend)
    (t : DualTrack) : Prop extends s.OnTrack reqid rdinfo limit m t where
  queue : t.since = none → s.queueOf reqid = t.queue rdinfo
  marks : t.since = none → s.marks reqid = 0
  entry : t.since = none → t.arrived = true → s.isOpen reqid = true

/-- What an event that belongs to the track does, its outcome being `r`. -/
structure Follows (reqid : String) (rdinfo : RKVTDInfo) (limit m : ℤ) (s : PBackend) (e : PEvent)
    (r : Except String PBackend) (t : DualTrack) : Prop where
  no_error : ¬t.stale = true → s.CopyGone reqid e → r ≠ .error reqid
  ok : ∀ s', r = .ok s' → s.CopyGone reqid e ∧ s'.Resent reqid rdinfo limit m t

variable {naming : Bool} {tpSize : ℕ} {reqid : String} {rdinfo : RKVTDInfo} {limit m : ℤ}
  {s s' : PBackend} {t t' : DualTrack}

/-- The rounds of a turn, for a request that is neither stopped nor aborted in it. -/
theorem roundsOf_eq_copies (hstop0 : reqid ∉ sout.hcStop0) (haborted : reqid ∉ sout.hcAbortedSave) :
    s.roundsOf env sout reqid =
      (s.queueOf reqid).map .dinfo ++ (sout.allRounds env []).filter (·.reqid = reqid) := by
  refine (roundsOf_eq s env sout reqid).trans ?_
  have hrest := roundsOf_eq { s with dinfoq := [] } env sout reqid
  rw [count_eq_zero_of_not_mem hstop0, count_eq_zero_of_not_mem haborted] at hrest ⊢
  have hrest' : (sout.allRounds env []).filter (·.reqid = reqid) = _ := hrest
  rw [hrest', queueOf]
  simp

/-- A turn that leaves the transfer in the queue, if it is there, makes no call of
`_mark_send_done`. -/
theorem marks_turn
    (hnext : follow (DualTrack.round rdinfo m) t (s.roundsOf env sout reqid) = some t')
    (hsince : t'.since = none) (hok : s.turn env sout = .ok s') :
    s'.marks reqid = s.marks reqid := by
  obtain ⟨delta, ht⟩ := turned_of_turn hok
  obtain ⟨out, n, hthread, hemitted⟩ := ht.thread reqid
  have hnone : ∀ e ∈ out, e.mark? = none := by
    refine thread_emits (fun w hw v v' out hbody e he => ?_) hthread
    cases e with
    | markSendDone ioret =>
      have hrounds := (markSendDone_of_handle hbody he).2
      rcases hrounds with ⟨rd, rfl⟩ | ⟨r, rfl⟩
      · have htaken := follow_reaches (P := fun t : DualTrack => t.since.isSome = true)
          (fun _ _ _ hnext ht => (DualTrack.Onward.round hnext).taken ht)
          (fun _ _ hnext => by
            obtain ⟨-, ⟨⟩⟩ := Option.ite_none_right_eq_some.mp hnext
            rfl) hnext hw
        rw [hsince] at htaken
        cases htaken
      · exact (follow_reaches (P := fun _ => False) (fun _ _ _ _ => id)
          (fun _ _ h => by cases h) hnext hw).elim
    | _ => rfl
  have hout : marksOf out = 0 := by
    rw [marksOf, filterMap_eq_nil_iff.mpr hnone, length_nil]
  rw [ht.marks, hemitted, marksOf_append, hout, marksOf, filterMap_replicate_of_none rfl]
  rfl

/-- **A turn**: the copies it takes fail, or they change nothing. -/
theorem Resent.turn (hs : s.Resent reqid rdinfo limit m t) (env : BuildEnv)
    (hreqid : rdinfo.reqid = reqid) (hasks : rdinfo.Asks limit m)
    (hnext : t.next reqid rdinfo limit m (.turn env sout) = some t') :
    s.Follows reqid rdinfo limit m (.turn env sout) (s.turn env sout) t' := by
  by_cases hsince : t.since = none
  · have hunbound : (s.reqs reqid).kvtState = none := (hs.dual.unbound hsince).kvtState
    have halong : s.DualAlong reqid rdinfo limit m t := ⟨hs.toOnTrack, hs.queue hsince⟩
    obtain ⟨hno, hok⟩ := halong.turn env hreqid hasks hnext
    refine ⟨fun hstale _ => hno hstale, fun s' hs' => ⟨fun hbound => ?_, ?_⟩⟩
    · rw [hunbound] at hbound
      cases hbound
    · have halong' := hok s' hs'
      rw [DualTrack.next] at hnext
      have harrived := (DualTrack.Onward.follow hnext).arrived
      rw [← halong.queue, ← roundsOf_queueOf] at hnext
      refine ⟨halong'.toOnTrack, fun _ => halong'.queue, fun h => ?_, fun _ h => ?_⟩
      · rw [marks_turn hnext h hs', hs.marks hsince]
      · obtain ⟨delta, ht⟩ := turned_of_turn hs'
        rw [isOpen, ht.sending]
        exact hs.entry hsince (harrived.symm.trans h)
  · rw [DualTrack.next] at hnext
    have hqueue : t.queue rdinfo = [] := if_neg fun h => hsince h.2
    rw [hqueue] at hnext
    have honward : t.Onward t' := { DualTrack.Onward.follow hnext with }
    have haborted := DualTrack.not_aborted hnext
    have hstart := hs.start haborted
    have hrounds : s.roundsOf env sout reqid = (s.queueOf reqid).map .dinfo ++
        (sout.allRounds env []).filter (·.reqid = reqid) :=
      roundsOf_eq_copies (DualTrack.not_stopped (t := { t with isNew := false }) hsince hnext) haborted
    have hkeeps := hstart.rounds hasks env hnext
    have hbound : (s.turnView sout reqid).req.kvtState.isSome = true := hstart.bound hsince
    have hview : (s.turnView sout reqid).Gone ↔ (s.view reqid).Gone := by
      rw [turnView, if_neg haborted]
      rfl
    -- what follows from the rounds, once the copies are past
    have hpast (h : ReqView.Keeps (thread (handle env) (s.roundsOf env sout reqid)
        (s.turnView sout reqid)) rdinfo limit m t' (s.sent reqid))
        (hgone : s.CopyGone reqid (.turn env sout)) :
        s.Follows reqid rdinfo limit m (.turn env sout) (s.turn env sout) t' := by
      obtain ⟨hno, hok⟩ := hs.toOnTrack.turn honward h
      refine ⟨fun hstale _ => hno hstale, fun s' hs' => ⟨hgone, (hok s' hs').1, ?_, ?_, ?_⟩⟩
      all_goals
        intro hnone
        have htaken := honward.taken (Option.isSome_iff_ne_none.mpr hsince)
        rw [hnone] at htaken
        cases htaken
    by_cases hnil : s.queueOf reqid = []
    · -- there is no copy
      refine hpast ?_ fun _ hne => absurd hnil hne
      rwa [hrounds, hnil, map_nil, nil_append]
    by_cases hgone : (s.view reqid).Gone
    · obtain ⟨out, hout, hthread⟩ := ReqView.thread_copies_of_gone env (hview.mpr hgone)
        (s.queueOf reqid) ((sout.allRounds env []).filter (·.reqid = reqid))
      refine hpast ?_ fun _ _ => hgone
      rw [hrounds, hthread]
      exact hkeeps.after hout
    · have hfails := ReqView.thread_copies_of_known env (mt hview.mp hgone) hbound hnil
        ((sout.allRounds env []).filter (·.reqid = reqid))
      refine ⟨fun _ hcopy => absurd (hcopy ?_ hnil) hgone, fun s' hs' => ?_⟩
      · rwa [turnView, if_neg haborted] at hbound
      · obtain ⟨delta, ht⟩ := turned_of_turn hs'
        obtain ⟨out, n, hthread, -⟩ := ht.thread reqid
        rw [hrounds, hfails] at hthread
        cases hthread

/-- While the transfer is queued, no event but a turn takes the guard away. -/
theorem Resent.guard (hs : s.Resent reqid rdinfo limit m t) (hsince : t.since = none)
    (hturn : ∀ env sout, e ≠ .turn env sout) (hreqid : rdinfo.reqid = reqid)
    (hcheck : checkKvtdinfo naming rdinfo.dinfo = true)
    (hnext : t.nextResent reqid rdinfo limit m e = some t')
    (hstep : s.step naming tpSize e = .ok s') :
    s'.marks reqid = 0 ∧ (t'.arrived = true → s'.isOpen reqid = true) := by
  have hmarks := hs.marks hsince
  -- an event that leaves the entry alone
  have hkeep (hk : Keeps reqid s s') (harrived : t'.arrived = t.arrived) :
      s'.marks reqid = 0 ∧ (t'.arrived = true → s'.isOpen reqid = true) :=
    ⟨hk.marks.trans hmarks, fun h => hk.isOpen.trans (hs.entry hsince (harrived.symm.trans h))⟩
  cases e with
  | turn env sout => exact absurd rfl (hturn env sout)
  | transfer rd dTp =>
    cases hstep
    rw [DualTrack.nextResent] at hnext
    split at hnext
    · next hcopy =>
      obtain ⟨rfl, harrived⟩ := hcopy
      cases hnext
      obtain ⟨st, hst, hfut⟩ := isOpen_iff.mp (hs.entry hsince harrived)
      rw [submitTransferKv, if_neg fun h => by rw [hreqid, hst] at h; cases h.2]
      exact ⟨hmarks, hs.entry hsince⟩
    · rw [DualTrack.next] at hnext
      split at hnext
      · next hne =>
        cases hnext
        exact hkeep (keeps_submitTransferKv hne naming tpSize dTp) rfl
      · obtain ⟨⟨rfl, harrived⟩, ⟨⟩⟩ := Option.ite_none_right_eq_some.mp hnext
        have hnone : (s.sending.get? rd.reqid).isNone = true := by
          rw [hreqid, hs.sending harrived]
          rfl
        rw [submitTransferKv, if_pos ⟨hcheck, hnone⟩]
        refine ⟨hmarks, fun _ => ?_⟩
        rw [isOpen, ← hreqid, Dict.get?_set_self]
        rfl
  | enter r req =>
    obtain ⟨hne, ⟨⟩⟩ := Option.ite_none_left_eq_some.mp hnext
    rw [step] at hstep
    split at hstep
    · cases hstep
      exact hkeep ⟨rfl, rfl, rfl, rfl⟩ rfl
    · cases hstep
      exact hkeep (.refl reqid s) rfl
  | leave r | engine r _ _ =>
    cases hstep
    refine hkeep ⟨rfl, rfl, rfl, rfl⟩ ?_
    simp only [DualTrack.nextResent, DualTrack.next] at hnext
    split at hnext
    · exact Option.some.inj hnext ▸ rfl
    · obtain ⟨-, ⟨⟩⟩ := Option.ite_none_right_eq_some.mp hnext
      rfl
  | markSendDone =>
    cases hnext
    rw [step] at hstep
    split at hstep
    · cases hstep
      exact hkeep (.refl reqid s) rfl
    · next ioret rest hscheduled =>
      cases hstep
      rw [PBackend.marks, hscheduled, countP_eq_zero] at hmarks
      obtain ⟨hne, hrest⟩ := forall_mem_cons.mp hmarks
      have hk (f : SendingReq → SendingReq) : Keeps reqid { s with scheduled := rest }
          ({ s with scheduled := rest }.updateSending ioret.reqid f) :=
        keeps_updateSending (by simpa using hne) f
      refine ⟨(hk _).marks.trans (countP_eq_zero.mpr hrest), fun h => (hk _).isOpen.trans ?_⟩
      exact hs.entry hsince h
  | sendDone workerTprank ioret =>
    obtain ⟨hne, ⟨⟩⟩ := Option.ite_none_left_eq_some.mp hnext
    cases hstep
    exact hkeep (keeps_updateSending (fun h => hne ⟨h, hsince⟩) _) rfl
  | answer r =>
    cases hnext
    rw [step] at hstep
    split at hstep
    · next hdone =>
      cases hstep
      refine hkeep ⟨Dict.get?_erase_ne _ ?_, rfl, rfl, rfl⟩ rfl
      -- the future of the entry is unresolved, if there is one
      rintro rfl
      rcases Bool.eq_false_or_eq_true t.arrived with harrived | harrived
      · obtain ⟨st, hst, hfut⟩ := isOpen_iff.mp (hs.entry hsince harrived)
        rw [hst, Option.bind_some, hfut] at hdone
        cases hdone
      · rw [hs.sending harrived] at hdone
        cases hdone
    · cases hstep
      exact hkeep (.refl reqid s) rfl

/-- **Every event of the track.** -/
theorem Resent.step (tpSize : ℕ) (hs : s.Resent reqid rdinfo limit m t)
    (hreqid : rdinfo.reqid = reqid) (hcheck : checkKvtdinfo naming rdinfo.dinfo = true)
    (hasks : rdinfo.Asks limit m) (hnext : t.nextResent reqid rdinfo limit m e = some t') :
    s.Follows reqid rdinfo limit m e (s.step naming tpSize e) t' := by
  by_cases hturn : ∃ env sout, e = .turn env sout
  · obtain ⟨env, sout, rfl⟩ := hturn
    exact hs.turn env hreqid hasks hnext
  have hturn : ∀ env sout, e ≠ .turn env sout := fun env sout he => hturn ⟨env, sout, he⟩
  have hcopy : s.CopyGone reqid e := by
    cases e with
    | turn env sout => exact absurd rfl (hturn env sout)
    | _ => trivial
  obtain ⟨s₁, hstep, hs₁, hqueue, hsince⟩ : ∃ s₁, s.step naming tpSize e = .ok s₁ ∧
      s₁.OnTrack reqid rdinfo limit m t' ∧
      (t.since = none → s.queueOf reqid = t.queue rdinfo → s₁.queueOf reqid = t'.queue rdinfo) ∧
      t'.since = t.since := by
    by_cases hsame : t.next reqid rdinfo limit m e = some t'
    · obtain ⟨s₁, hstep, hs₁, hqueue⟩ := hs.toOnTrack.event tpSize hturn hreqid hcheck hsame
      exact ⟨s₁, hstep, hs₁, fun _ => hqueue, DualTrack.since_of_next hturn hsame⟩
    · -- a copy
      obtain ⟨dTp, rfl, harrived, rfl⟩ :
          ∃ dTp, e = .transfer rdinfo dTp ∧ t.arrived = true ∧ t' = t := by
        cases e with
        | transfer rd dTp =>
          rw [DualTrack.nextResent] at hnext
          split at hnext
          · next hcopy => exact ⟨dTp, by rw [hcopy.1], hcopy.2, (Option.some.inj hnext).symm⟩
          · exact absurd hnext hsame
        | sendDone _ _ => exact absurd (Option.ite_none_left_eq_some.mp hnext).2 hsame
        | _ => exact absurd hnext hsame
      refine ⟨_, rfl, ?_, fun hsince hold => ?_, rfl⟩
      · unfold submitTransferKv
        split
        · exact ⟨hs.dual, fun h => absurd (harrived.symm.trans h) (by decide), hs.asked⟩
        · exact hs.toOnTrack
      · obtain ⟨st, hst, -⟩ := isOpen_iff.mp (hs.entry hsince harrived)
        rwa [submitTransferKv, if_neg fun h => by rw [hreqid, hst] at h; cases h.2]
  rw [hstep]
  refine ⟨fun _ _ h => (by cases h), fun s' h => ⟨hcopy, ?_⟩⟩
  cases h
  have hguard (h : t'.since = none) :=
    hs.guard (hsince.symm.trans h) hturn hreqid hcheck hnext hstep
  exact ⟨hs₁, fun h => hqueue (hsince.symm.trans h) (hs.queue (hsince.symm.trans h)),
    fun h => (hguard h).1, fun h => (hguard h).2⟩

theorem nextResent_stale (hnext : t.nextResent reqid rdinfo limit m e = some t')
    (hstale : t.stale = true) : t'.stale = true := by
  unfold DualTrack.nextResent at hnext
  split at hnext
  · split at hnext
    · exact Option.some.inj hnext ▸ hstale
    · exact next_stale hnext hstale
  · obtain ⟨-, ⟨⟩⟩ := Option.ite_none_left_eq_some.mp hnext
    exact hstale
  · exact next_stale hnext hstale

/-- **Every run along the track**, by induction on the events. -/
theorem Resent.run (tpSize : ℕ) (hreqid : rdinfo.reqid = reqid)
    (hcheck : checkKvtdinfo naming rdinfo.dinfo = true) (hasks : rdinfo.Asks limit m) :
    ∀ {events : List PEvent} {s : PBackend} {t : DualTrack}, s.Resent reqid rdinfo limit m t →
    follow (DualTrack.nextResent reqid rdinfo limit m) t events = some t' →
    (¬t'.stale = true → CopiesGone naming tpSize reqid s events →
      PBackend.run naming tpSize s events ≠ .error reqid) ∧
    ∀ s', PBackend.run naming tpSize s events = .ok s' →
      CopiesGone naming tpSize reqid s events ∧ s'.Resent reqid rdinfo limit m t'
  | [], s, t, hs, hfollow => by
      cases hfollow
      exact ⟨fun _ _ h => (by cases h), fun s' hrun => ⟨trivial, Except.ok.inj hrun ▸ hs⟩⟩
  | e :: events, s, t, hs, hfollow => by
      obtain ⟨t₁, hnext, hrest⟩ := follow_cons hfollow
      obtain ⟨hno, hok⟩ := hs.step tpSize hreqid hcheck hasks hnext
      rw [PBackend.run, CopiesGone]
      cases hr : s.step naming tpSize e with
      | error r =>
        refine ⟨fun hstale hgone h => ?_, fun _ h => by cases h⟩
        have hstale₁ : ¬t₁.stale = true := fun h =>
          hstale (follow_keeps (P := fun t => t.stale = true) (fun _ _ _ => nextResent_stale) hrest h)
        exact hno hstale₁ hgone.1 (hr.trans (congrArg _ (Except.error.inj h)))
      | ok s₁ =>
        obtain ⟨hgone, hresent⟩ := hok s₁ hr
        obtain ⟨hno', hok'⟩ := Resent.run tpSize hreqid hcheck hasks hresent hrest
        exact ⟨fun hstale hgone => hno' hstale hgone.2,
          fun s' hs' => ⟨⟨hgone, (hok' s' hs').1⟩, (hok' s' hs').2⟩⟩

end PBackend

/-- **Redelivered transfer requests are harmless exactly if they find the request gone.**  Along the track
of a request, with any number of copies of D's message: if the track is not stale and every turn that takes
a copy finds the request gone, no assertion of the request fails, and its tokens are sent exactly once; if
a turn takes a copy of a request that is known, or the track is stale, the core thread ends. -/
theorem copies_harmless_iff {naming : Bool} {tpSize : ℕ} {s₀ : PBackend} {rdinfo : RKVTDInfo}
    {events : List PEvent} {t : DualTrack} (h₀ : s₀.Asked naming rdinfo)
    (hmarks : s₀.marks rdinfo.reqid = 0)
    (htrack : follow (DualTrack.nextResent rdinfo.reqid rdinfo (s₀.reqs rdinfo.reqid).limit
      ((s₀.reqs rdinfo.reqid).transferEnd rdinfo.dinfo)) {} events = some t) :
    (t.stale = false ∧ PBackend.CopiesGone naming tpSize rdinfo.reqid s₀ events →
      PBackend.run naming tpSize s₀ events ≠ .error rdinfo.reqid ∧
      ∀ s, PBackend.run naming tpSize s₀ events = .ok s →
        (s.sent rdinfo.reqid).countP (·.hasLastToken) ≤ 1 ∧
        (t.since.isSome = true → t.finished = true → Complete rdinfo.dinfo.cachedTokens
          ((s₀.reqs rdinfo.reqid).transferEnd rdinfo.dinfo) (s.sent rdinfo.reqid))) ∧
    (t.stale = true ∨ ¬PBackend.CopiesGone naming tpSize rdinfo.reqid s₀ events →
      ∀ s, PBackend.run naming tpSize s₀ events ≠ .ok s) := by
  obtain ⟨hasks, hstart⟩ := h₀.dualAlong
  have hresent : s₀.Resent rdinfo.reqid rdinfo (s₀.reqs rdinfo.reqid).limit
      ((s₀.reqs rdinfo.reqid).transferEnd rdinfo.dinfo) {} :=
    ⟨hstart.toOnTrack, fun _ => hstart.queue, fun _ => hmarks, nofun⟩
  obtain ⟨hno, hok⟩ := PBackend.Resent.run tpSize rfl h₀.check hasks hresent htrack
  refine ⟨fun ⟨hstale, hgone⟩ => ⟨hno (by simp [hstale]) hgone, fun s hs => ?_⟩, fun hbad s hs => ?_⟩
  · exact (hok s hs).2.dual.counts hasks.lt
  · obtain ⟨hgone, hs'⟩ := hok s hs
    rcases hbad with hstale | hnot
    · cases hs'.dual.fresh.symm.trans hstale
    · exact hnot hgone

/-- The request is computed and sent, P has answered, and the request has left when the copy comes. -/
def copyAfterLeave : List PEvent :=
  [.transfer askForPrompt none, PBackend.wholePrompt, .sendDone 0 (.ofRecord 8 0 "r"), .answer "r",
    .leave "r", .turn {} { finishedReqIds := ["r"] }, .transfer askForPrompt none, .turn {} {}]

theorem copies_harmless_iff_afterLeave :
    (PBackend.run false 1 PBackend.oneRequest copyAfterLeave).toOption.isSome = true ∧
    ∀ s, PBackend.run false 1 PBackend.oneRequest copyAfterLeave = .ok s →
      Complete 0 8 (s.sent "r") := by
  refine ⟨by decide +kernel, fun s hs => ?_⟩
  have hstart : PBackend.oneRequest.Asked false askForPrompt :=
    ⟨⟨⟨rfl, rfl, rfl, rfl⟩, rfl, rfl, by decide, rfl, rfl⟩, by decide, rfl, by decide, by decide,
      by decide, by decide, by decide⟩
  have htrack : follow (DualTrack.nextResent "r" askForPrompt 8 8) {} copyAfterLeave =
      some { ends := [8], arrived := true, since := some [8], left := true, finished := true } := by
    decide +kernel
  exact (((copies_harmless_iff hstart rfl htrack).1 ⟨rfl, by decide +kernel⟩).2 s hs).2 rfl rfl

/-- …and before it has left: the response was lost, D has sent its request again, and the assertion
of `_step_dinfoq` ends P's core thread. -/
def copyBeforeLeave : List PEvent :=
  [.transfer askForPrompt none, PBackend.wholePrompt, .sendDone 0 (.ofRecord 8 0 "r"), .answer "r",
    .transfer askForPrompt none, .turn {} {}]

/-- It is the copy that ends it: without the copy the run ends well. -/
theorem copyBeforeLeave_raises :
    PBackend.run false 1 PBackend.oneRequest copyBeforeLeave = .error "r" ∧
    (PBackend.run false 1 PBackend.oneRequest (copyBeforeLeave.take 4 ++ [.turn {} {}])).toOption.isSome =
      true :=
  ⟨rfl, by decide +kernel⟩

end LlumnixKv
