import LlumnixKv.Machinery.Runs
import LlumnixKv.Scheduler.Chunks

/-!
# Scheduler/Prefill — a request bound to a transfer, from its first chunk to its end

A run of the backend is followed for one request: what the scheduler has done with it so far is a
`ChunkTrack`, and `ChunkTrack.next` says which events continue a schedule of contiguous chunks.
Anything may happen to the other requests meanwhile, and substeps may pass over this one.

    scheduled as new ──▸ cached chunk ──▸ … ──▸ cached chunk
                                │  leaves, is aborted
                                ▼
                             finished

`transfer_contiguous`: along every such run the request has exactly the metas its chunk ends call for,
and `_infly_kvt` holds it exactly between its first meta and its last.
-/

open List Machinery

namespace LlumnixKv

open PBackend

/-! ## One request along a run -/

namespace PBackend

/-- What is queued for a request. -/
def queueOf (s : PBackend) (reqid : String) : List RKVTDInfo := s.dinfoq.filter (·.reqid = reqid)

/-- Nothing of a request has changed. -/
structure Same (reqid : String) (s s' : PBackend) : Prop where
  view : s'.view reqid = s.view reqid
  sent : s'.sent reqid = s.sent reqid
  queue : s'.queueOf reqid = s.queueOf reqid
  sending : s.sending.get? reqid = none → s'.sending.get? reqid = none

end PBackend

/-- An event, no turn of the core thread, that is about other requests. -/
def PEvent.Elsewhere (reqid : String) : PEvent → Prop
  | .transfer rdinfo _ => rdinfo.reqid ≠ reqid
  | .turn _ _ => False
  | .leave r | .enter r _ | .engine r _ _ => r ≠ reqid
  | .markSendDone | .sendDone _ _ | .answer _ => True

variable {sout : SchedOut} {env : BuildEnv} {s : PBackend} {v : ReqView}

namespace PBackend

variable {naming : Bool} {tpSize : ℕ} {s s' : PBackend} {reqid : String}

theorem same_updateReq {r : String} (hr : r ≠ reqid) (f : Req → Req) :
    Same reqid s (s.updateReq r f) := by
  refine ⟨?_, rfl, rfl, id⟩
  simp only [PCore.view, updateReq, Function.update_of_ne hr.symm]

theorem same_updateSending (r : Option String) (f : SendingReq → SendingReq) (rest : List IoRet) :
    Same reqid s ({ s with scheduled := rest }.updateSending r f) := by
  unfold updateSending
  split
  · exact ⟨rfl, rfl, rfl, id⟩
  · next r =>
    split
    · exact ⟨rfl, rfl, rfl, id⟩
    · next st hst =>
      refine ⟨rfl, rfl, rfl, fun hnone => ?_⟩
      have hne : reqid ≠ r := by
        rintro rfl
        cases hnone.symm.trans hst
      exact (Dict.get?_set_ne _ _ hne).trans hnone

/-- **An event about other requests leaves this one alone.** -/
theorem step_elsewhere (naming : Bool) (tpSize : ℕ) (s : PBackend) {e : PEvent}
    (he : e.Elsewhere reqid) : ∃ s', s.step naming tpSize e = .ok s' ∧ Same reqid s s' := by
  cases e with
  | transfer rdinfo dTp =>
    refine ⟨_, rfl, ?_⟩
    unfold submitTransferKv
    split
    · refine ⟨rfl, rfl, ?_, fun hnone => ?_⟩
      · have hne : decide (rdinfo.reqid = reqid) = false := decide_eq_false he
        simp [queueOf, hne]
      · exact (Dict.get?_set_ne _ _ (Ne.symm he)).trans hnone
    · exact ⟨rfl, rfl, rfl, id⟩
  | turn env sout => exact absurd he id
  | leave r => exact ⟨_, rfl, same_updateReq he _⟩
  | enter r req =>
    simp only [step]
    split
    · exact ⟨_, rfl, same_updateReq he _⟩
    · exact ⟨_, rfl, rfl, rfl, rfl, id⟩
  | engine r numTokens blkids => exact ⟨_, rfl, same_updateReq he _⟩
  | markSendDone =>
    simp only [step]
    split
    · exact ⟨_, rfl, rfl, rfl, rfl, id⟩
    · exact ⟨_, rfl, same_updateSending _ _ _⟩
  | sendDone workerTprank ioret => exact ⟨_, rfl, same_updateSending _ _ s.scheduled⟩
  | answer r =>
    simp only [step]
    split
    · refine ⟨_, rfl, rfl, rfl, rfl, fun hnone => ?_⟩
      dsimp only
      rw [Dict.get?_erase]
      split
      · rfl
      · exact hnone
    · exact ⟨_, rfl, rfl, rfl, rfl, id⟩

theorem view_updateReq_self (f : Req → Req) :
    (s.updateReq reqid f).view reqid = { s.view reqid with req := f (s.reqs reqid) } := by
  simp only [PCore.view, updateReq, Function.update_self]

/-- **What a turn does to a request is what the rounds of that request do.** -/
theorem turn_of_thread {out : List Emit}
    (h : Keyed.thread (handle env) (s.roundsOf env sout reqid) (s.turnView sout reqid) =
      some (v, out)) :
    s.turn env sout ≠ .error reqid ∧ ∀ s', s.turn env sout = .ok s' →
      s'.view reqid = v ∧ s'.sent reqid = s.sent reqid ++ out.filterMap Emit.sent? ∧
      s'.queueOf reqid = [] ∧ s'.sending = s.sending := by
  refine ⟨fun herror => (by cases (turn_error herror).symm.trans h), fun s' hok => ?_⟩
  obtain ⟨delta, ht⟩ := turned_of_turn hok
  obtain ⟨out', n, hthread, hemitted⟩ := ht.thread reqid
  obtain ⟨rfl, rfl⟩ := Prod.mk.inj (Option.some.inj (hthread.symm.trans h))
  refine ⟨rfl, ?_, by rw [queueOf, ht.dinfoq]; rfl, ht.sending⟩
  rw [sent, sent, ht.log, Keyed.emitted_append, hemitted, filterMap_append,
    filterMap_append, filterMap_replicate_of_none rfl, append_nil]

/-- **What every event of a track keeps, a run along the track keeps**; and no assertion of the
request fails, unless the track has gone bad. -/
theorem run_of_follow (naming : Bool) (tpSize : ℕ) {τ : Type} {next : τ → PEvent → Option τ}
    {I : PBackend → τ → Prop} {bad : τ → Prop} (hbad : ∀ t e t', next t e = some t' → bad t → bad t')
    (hstep : ∀ s t e t', I s t → next t e = some t' →
      (¬bad t' → s.step naming tpSize e ≠ .error reqid) ∧
      ∀ s', s.step naming tpSize e = .ok s' → I s' t') :
    ∀ {events : List PEvent} {s : PBackend} {t t' : τ}, I s t → follow next t events = some t' →
      (¬bad t' → PBackend.run naming tpSize s events ≠ .error reqid) ∧
      ∀ s', PBackend.run naming tpSize s events = .ok s' → I s' t'
  | [], s, t, t', hI, hfollow => by
      cases hfollow
      refine ⟨fun _ => nofun, fun s' hrun => ?_⟩
      cases hrun
      exact hI
  | e :: events, s, t, t', hI, hfollow => by
      obtain ⟨t₁, hnext, hrest⟩ := follow_cons hfollow
      obtain ⟨hno, hok⟩ := hstep s t e t₁ hI hnext
      rw [run]
      split
      · next r hr =>
        refine ⟨fun hgood h => ?_, nofun⟩
        have hgood₁ : ¬bad t₁ := fun h => hgood (follow_keeps hbad hrest h)
        exact hno hgood₁ (hr.trans (congrArg _ (Except.error.inj h)))
      · next s₁ hs₁ => exact run_of_follow naming tpSize hbad hstep (hok s₁ hs₁) hrest

end PBackend

/-! ## The rounds of a request in a turn -/

/-- What the step itself schedules; a substep schedules nothing. -/
def SchedOut.main (sout : SchedOut) : Scheduled :=
  match sout.hcParent with
  | none => sout.scheduled
  | some _ => {}

/-- A round of a substep. -/
def Work.IsSubstep : Work → Prop
  | .schedNew _ substepMode | .schedCached _ substepMode => substepMode = true
  | _ => False

/-- The rounds of the last loop, for one request: those of the step itself, or of a substep. -/
theorem SchedOut.schedRounds_cases (sout : SchedOut) (env : BuildEnv) (reqid : String) :
    ((sout.schedRounds env).filter (·.reqid = reqid) =
      (sout.main.newReqs.filter (·.reqid = reqid)).map (.schedNew · false) ++
      (sout.main.cachedReqs.filter (·.reqid = reqid)).map (.schedCached · false)) ∨
    (sout.hcParent.isSome = true ∧
      ∀ w ∈ (sout.schedRounds env).filter (·.reqid = reqid), w.IsSubstep) := by
  cases hparent : sout.hcParent with
  | none =>
    refine .inl ?_
    simp only [schedRounds, main, hparent, Scheduled.rounds, filter_append, filter_map]
    rfl
  | some parent =>
    refine .inr ⟨rfl, fun w hw => ?_⟩
    have hmem := (mem_filter.mp hw).1
    simp only [schedRounds, hparent] at hmem
    split at hmem
    · rcases mem_append.mp hmem with hmem | hmem
      · obtain ⟨_, -, rfl⟩ := mem_map.mp hmem
        rfl
      · obtain ⟨_, -, rfl⟩ := mem_map.mp hmem
        rfl
    · cases hmem

/-- The rounds of a request that the step schedules. -/
theorem PBackend.roundsOf_scheduled {reqid : String} {news : List NewReqData}
    {cached : List CachedReqData} (hstop : reqid ∉ sout.hcStop0)
    (haborted : reqid ∉ sout.hcAbortedSave) (hfinished : reqid ∉ sout.finishedReqIds)
    (hnews : sout.main.newReqs.filter (·.reqid = reqid) = news)
    (hcached : sout.main.cachedReqs.filter (·.reqid = reqid) = cached)
    (hsome : news ≠ [] ∨ cached ≠ []) :
    s.roundsOf env sout reqid = (s.queueOf reqid).map .dinfo ++
      (news.map (.schedNew · false) ++ cached.map (.schedCached · false)) := by
  rw [roundsOf_eq, count_eq_zero.mpr hstop, count_eq_zero.mpr haborted,
    count_eq_zero.mpr hfinished, replicate_zero, replicate_zero, replicate_zero,
    nil_append, nil_append, append_nil]
  rcases sout.schedRounds_cases env reqid with hmain | ⟨hparent, -⟩
  · rw [hmain, hnews, hcached]
    rfl
  · obtain ⟨parent, hparent⟩ := Option.isSome_iff_exists.mp hparent
    rw [SchedOut.main, hparent] at hnews hcached
    exact absurd hsome (by simp [← hnews, ← hcached])

/-- A substep passes over a request whose transfer is not new in it. -/
theorem handle_substep {w : Work} (hw : w.IsSubstep) (hv : v.isNew = false) :
    handle env w v = some (v, []) := by
  cases w with
  | schedNew reqdata substepMode =>
    obtain rfl : substepMode = true := hw
    exact if_pos ⟨rfl, hv⟩
  | schedCached reqdata substepMode =>
    obtain rfl : substepMode = true := hw
    exact if_pos ⟨rfl, hv⟩
  | _ => exact absurd hw id

/-! ## The schedule of one request -/

/-- What the scheduler has done with a request. -/
structure ChunkTrack where
  /-- the ends of the chunks scheduled so far -/
  ends : List ℤ := []
  /-- it has left the scheduler -/
  left : Bool := false
  /-- it was reported in `finished_req_ids` -/
  finished : Bool := false
  deriving DecidableEq, Repr

namespace ChunkTrack

/-- A turn of the core thread. -/
def turn (reqid : String) (t : ChunkTrack) (sout : SchedOut) : Option ChunkTrack :=
  if reqid ∈ sout.hcStop0 then none
  else
    match sout.main.newReqs.filter (·.reqid = reqid),
        sout.main.cachedReqs.filter (·.reqid = reqid) with
    | [], [] =>
      if t.ends = [] then none
      else some { t with
        left := t.left || decide (reqid ∈ sout.hcAbortedSave)
        finished := t.finished || decide (reqid ∈ sout.finishedReqIds) }
    | [reqdata], [] =>
      if t.ends = [] ∧ reqid ∉ sout.hcAbortedSave ∧ reqid ∉ sout.finishedReqIds ∧
          0 ≤ reqdata.numComputedTokens ∧ 0 < reqdata.numScheduledTokens then
        some { t with ends := [reqdata.numScheduledTokens + reqdata.numComputedTokens] }
      else none
    | [], [reqdata] =>
      if t.left = false ∧ t.finished = false ∧ reqid ∉ sout.hcAbortedSave ∧
          reqid ∉ sout.finishedReqIds ∧ t.ends.getLast? = some reqdata.numComputedTokens ∧
          0 < reqdata.numScheduledTokens then
        some { t with
          ends := t.ends ++ [reqdata.numComputedTokens + reqdata.numScheduledTokens] }
      else none
    | _, _ => none

/-- The events that continue a schedule of contiguous chunks. -/
def next (reqid : String) (t : ChunkTrack) : PEvent → Option ChunkTrack
  | .turn _ sout => t.turn reqid sout
  | .transfer rdinfo _ => if t.ends = [] ∨ rdinfo.reqid = reqid then none else some t
  | .enter r _ => if t.ends = [] ∨ r = reqid then none else some t
  | .leave r =>
    if t.ends = [] then none else some { t with left := t.left || decide (r = reqid) }
  | _ => if t.ends = [] then none else some t

/-- The metas such a schedule calls for: its chunks, and the abort of a transfer that has started and
is not complete when the request finishes. -/
def metas (t : ChunkTrack) (dinfo : KVTDInfo) (m : ℤ) : List Sent :=
  chunkMetas dinfo m t.ends ++
    if t.finished = true ∧ dinfo.cachedTokens < t.ends.getLastD dinfo.cachedTokens ∧
        t.ends.getLastD dinfo.cachedTokens < m then
      [{ kind := .abort, seenTokens := t.ends.getLastD dinfo.cachedTokens, newTokens := 0
         hasLastToken := true, dBlockIds := [] }]
    else []

end ChunkTrack

/-! ## What is kept along the schedule -/

/-- The request stands where its schedule leaves it. -/
structure ReqView.Tracked (v : ReqView) (dinfo : KVTDInfo) (m : ℤ) (t : ChunkTrack) : Prop where
  dual : v.dual = none
  limit : m ≤ v.req.limit
  live : t.left = false → v.req.live = true
  sending : t.finished = false → v.Sending dinfo m t.ends
  closed : t.finished = true → v.infly = none
  started : t.ends ≠ []
  sorted : t.ends.Pairwise (· < ·)
  pos : ∀ e ∈ t.ends, 0 < e

namespace ReqView.Tracked

variable {env : BuildEnv} {reqid : String} {v : ReqView} {dinfo : KVTDInfo} {m : ℤ}
  {t : ChunkTrack}

/-- What the engine may change of the request meanwhile. -/
theorem setReq (hv : v.Tracked dinfo m t) {req : Req} {left : Bool}
    (hkvt : req.kvtState = v.req.kvtState) (hlimit : req.limit = v.req.limit)
    (hlive : left = false → t.left = false ∧ req.live = v.req.live) :
    ReqView.Tracked { v with req := req } dinfo m { t with left := left } where
  dual := hv.dual
  limit := hv.limit.trans_eq hlimit.symm
  live := fun h => (hlive h).2.trans (hv.live (hlive h).1)
  sending := fun h => by
    obtain ⟨⟨kvtstate, hbound, hrest⟩, hinfly, hidle⟩ := hv.sending h
    exact ⟨⟨kvtstate, hkvt.trans hbound, hrest⟩, hinfly, hidle⟩
  closed := hv.closed
  started := hv.started
  sorted := hv.sorted
  pos := hv.pos

/-- An abort leaves a transfer that has started to the round that finishes the request. -/
theorem quiet_abortedSave : Keyed.Quiet (handle env)
    (fun v => v.Tracked dinfo m t ∧ v.isNew = false) Emit.sent? (.abortedSave reqid) := by
  rintro v ⟨hv, hnew⟩
  -- an untouched transfer has no meta in flight
  have hidle : v.infly = none ∨ ∃ kvtstate, v.req.kvtState = some kvtstate ∧
      kvtstate.untouched = false := by
    cases hfinished : t.finished with
    | true => exact .inl (hv.closed hfinished)
    | false =>
      have hsending := hv.sending hfinished
      obtain ⟨kvtstate, hkvt, -, -, huntouched⟩ := hsending.bound
      rcases le_or_gt (t.ends.getLastD dinfo.cachedTokens) dinfo.cachedTokens with hlast | hlast
      · exact .inl (hsending.idle (.inl hlast))
      · exact .inr ⟨kvtstate, hkvt, huntouched hlast⟩
  have hkeep : ({ v with dual := none } : ReqView) = v := by rw [← hv.dual]
  simp only [handle, ReqView.stepAborting]
  split
  · next kvtstate hkvt =>
    split
    · exact ⟨v, _, rfl, ⟨hv, hnew⟩, rfl⟩
    · next huntouched =>
      have hnone : v.infly = none := hidle.resolve_right fun ⟨k, hk, hfalse⟩ =>
        huntouched (Option.some.inj (hkvt.symm.trans hk) ▸ hfalse)
      rw [if_neg (by simp [hnone]), hkeep]
      exact ⟨v, _, rfl, ⟨hv, hnew⟩, rfl⟩
  · next hkvt =>
    have hnone : v.infly = none := hidle.resolve_right fun ⟨k, hk, _⟩ =>
      by cases hkvt.symm.trans hk
    rw [if_neg (by simp [hnone]), hkeep]
    exact ⟨v, _, rfl, ⟨hv, hnew⟩, rfl⟩

/-- **The round that finishes the request** aborts a transfer that has started and is not
complete. -/
theorem stepFinishedReqs (reqid : String) (hv : v.Tracked dinfo m t) (hnew : v.isNew = false) :
    ∃ v' out, v.stepFinishedReqs reqid = some (v', out) ∧
      (v'.Tracked dinfo m { t with finished := true } ∧ v'.isNew = false) ∧
      t.metas dinfo m ++ out.filterMap Emit.sent? = { t with finished := true }.metas dinfo m := by
  -- nothing in flight: the round does nothing
  have hidle (hnone : v.infly = none) : v.stepFinishedReqs reqid = some (v, []) := by
    rw [ReqView.stepFinishedReqs, hnone]
    dsimp only
    rw [ReqView.dualReqFinish, hv.dual]
  cases hfinished : t.finished with
  | true =>
    have ht : { t with finished := true } = t := by rw [← hfinished]
    rw [ht]
    exact ⟨v, [], hidle (hv.closed hfinished), ⟨hv, hnew⟩, append_nil _⟩
  | false =>
    have hsending := hv.sending hfinished
    have hopen : t.metas dinfo m = chunkMetas dinfo m t.ends := by
      rw [ChunkTrack.metas, if_neg (by simp [hfinished]), append_nil]
    rw [hopen, ChunkTrack.metas]
    by_cases hflying : dinfo.cachedTokens < t.ends.getLastD dinfo.cachedTokens ∧
        t.ends.getLastD dinfo.cachedTokens < m
    · obtain ⟨prev, hinfly, hlast, hpos, hend⟩ := hsending.infly hflying.1 hflying.2
      have hassert : ¬(v.dual.isSome = true ∨ prev.hasLastToken = true ∨ prev.newTokens ≤ 0) := by
        simp [hv.dual, hlast, hpos]
      have hstep : ∃ out, v.stepFinishedReqs reqid = some ({ v with infly := none }, out) ∧
          out.filterMap Emit.sent? = [{ kind := .abort
                                        seenTokens := prev.seenTokens + prev.newTokens
                                        newTokens := 0, hasLastToken := true, dBlockIds := [] }] := by
        rw [ReqView.stepFinishedReqs, hinfly]
        exact ⟨_, if_neg hassert, rfl⟩
      obtain ⟨out, hstep, hout⟩ := hstep
      refine ⟨_, out, hstep, ⟨?_, hnew⟩, ?_⟩
      · exact { hv with sending := nofun, closed := fun _ => rfl }
      · rw [if_pos ⟨rfl, hflying⟩, hout, hend]
    · have hnone : v.infly = none := hsending.idle (by omega)
      refine ⟨v, [], hidle hnone, ⟨?_, hnew⟩, ?_⟩
      · exact { hv with sending := nofun, closed := fun _ => hnone }
      · rw [if_neg fun h => hflying h.2]
        rfl

/-- The rounds that finish the request, however often it is reported. -/
theorem finished (env : BuildEnv) (reqid : String) (ids : List String) (hv : v.Tracked dinfo m t)
    (hnew : v.isNew = false) :
    ∃ v' out, Keyed.thread (handle env) (List.replicate (ids.count reqid) (.finished reqid)) v =
        some (v', out) ∧
      (v'.Tracked dinfo m { t with finished := t.finished || decide (reqid ∈ ids) } ∧
        v'.isNew = false) ∧
      t.metas dinfo m ++ out.filterMap Emit.sent? =
        { t with finished := t.finished || decide (reqid ∈ ids) }.metas dinfo m := by
  by_cases hmem : reqid ∈ ids
  · obtain ⟨n, hn⟩ := Nat.exists_eq_succ_of_ne_zero (count_pos_iff.mpr hmem).ne'
    rw [hn, replicate_succ, decide_eq_true hmem, Bool.or_true]
    obtain ⟨v₁, out₁, h₁, hv₁, hmetas₁⟩ := hv.stepFinishedReqs reqid hnew
    -- a request that is finished already is not finished again
    have hagain : Keyed.Quiet (handle env) (fun u => u.Tracked dinfo m { t with finished := true } ∧
        u.isNew = false) Emit.sent? (.finished reqid) := by
      intro u hu
      obtain ⟨u', out, hstep, hu', hmetas⟩ := hu.1.stepFinishedReqs reqid hu.2
      exact ⟨u', out, hstep, hu', append_right_eq_self.mp hmetas⟩
    obtain ⟨v₂, out₂, h₂, hv₂, hout₂⟩ := hagain.replicate n v₁ hv₁
    refine ⟨v₂, out₁ ++ out₂, Keyed.thread_cons_some h₁ h₂, hv₂, ?_⟩
    rw [filterMap_append, hout₂, append_nil, hmetas₁]
  · rw [count_eq_zero.mpr hmem, decide_eq_false hmem, Bool.or_false]
    exact ⟨v, [], rfl, ⟨hv, hnew⟩, append_nil _⟩

/-- **A turn that does not schedule the request** takes note of its end. -/
theorem turn (hv : (s.view reqid).Tracked dinfo m t) (hqueue : s.queueOf reqid = [])
    (hstop : reqid ∉ sout.hcStop0) (hnews : sout.main.newReqs.filter (·.reqid = reqid) = [])
    (hcached : sout.main.cachedReqs.filter (·.reqid = reqid) = []) :
    ∃ v' out, Keyed.thread (handle env) (s.roundsOf env sout reqid) (s.turnView sout reqid) =
        some (v', out) ∧
      v'.Tracked dinfo m { t with
        left := t.left || decide (reqid ∈ sout.hcAbortedSave)
        finished := t.finished || decide (reqid ∈ sout.finishedReqIds) } ∧
      t.metas dinfo m ++ out.filterMap Emit.sent? =
        { t with
          left := t.left || decide (reqid ∈ sout.hcAbortedSave)
          finished := t.finished || decide (reqid ∈ sout.finishedReqIds) }.metas dinfo m := by
  have hview : (s.turnView sout reqid).Tracked dinfo m
      { t with left := t.left || decide (reqid ∈ sout.hcAbortedSave) } := by
    refine { hv with limit := ?_, live := ?_, sending := ?_ }
    · refine hv.limit.trans_eq ?_
      unfold turnView
      split <;> rfl
    · intro hleft
      obtain ⟨hleft, haborted⟩ := Bool.or_eq_false_iff.mp hleft
      rw [turnView, if_neg (of_decide_eq_false haborted)]
      exact hv.live hleft
    · intro hfinished
      obtain ⟨hbound, hinfly, hidle⟩ := hv.sending hfinished
      refine ⟨?_, hinfly, hidle⟩
      unfold turnView
      split <;> exact hbound
  obtain ⟨v₁, out₁, h₁, ⟨hv₁, hnew₁⟩, hout₁⟩ :=
    quiet_abortedSave.replicate (sout.hcAbortedSave.count reqid) _ ⟨hview, rfl⟩
  obtain ⟨v₂, out₂, h₂, hv₂, hmetas₂⟩ := hv₁.finished env reqid sout.finishedReqIds hnew₁
  have hsched : ∀ w ∈ (sout.schedRounds env).filter (·.reqid = reqid), w.IsSubstep := by
    rcases sout.schedRounds_cases env reqid with hmain | ⟨-, hsub⟩
    · rw [hmain, hnews, hcached]
      exact fun w hw => absurd hw not_mem_nil
    · exact hsub
  obtain ⟨v₃, out₃, h₃, hv₃, hout₃⟩ := Keyed.thread_quiet
    (P := fun u => u.Tracked dinfo m { t with
      left := t.left || decide (reqid ∈ sout.hcAbortedSave)
      finished := t.finished || decide (reqid ∈ sout.finishedReqIds) } ∧ u.isNew = false)
    (fun w hw u hu => ⟨u, [], handle_substep (hsched w hw) hu.2, hu, rfl⟩) v₂ hv₂
  refine ⟨v₃, out₁ ++ out₂ ++ out₃, ?_, hv₃.1, ?_⟩
  · have hq : s.dinfoq.filter (·.reqid = reqid) = [] := hqueue
    rw [roundsOf_eq, count_eq_zero.mpr hstop, hq, replicate_zero, nil_append,
      map_nil, append_nil]
    exact Keyed.thread_append_some (Keyed.thread_append_some h₁ h₂) h₃
  · rw [filterMap_append, filterMap_append, hout₁, hout₃, append_nil,
      nil_append]
    exact hmetas₂

/-- **A turn that schedules the next chunk.** -/
theorem turn_cached {reqdata : CachedReqData} (hv : (s.view reqid).Tracked dinfo m t)
    (hqueue : s.queueOf reqid = []) (hcm : dinfo.cachedTokens < m) (hblk : dinfo.blkids ≠ [])
    (hstop : reqid ∉ sout.hcStop0) (haborted : reqid ∉ sout.hcAbortedSave)
    (hfin : reqid ∉ sout.finishedReqIds) (hnews : sout.main.newReqs.filter (·.reqid = reqid) = [])
    (hcached : sout.main.cachedReqs.filter (·.reqid = reqid) = [reqdata]) (hleft : t.left = false)
    (hfinished : t.finished = false) (hlast : t.ends.getLast? = some reqdata.numComputedTokens)
    (hpos : 0 < reqdata.numScheduledTokens) :
    ∃ v' out, Keyed.thread (handle env) (s.roundsOf env sout reqid) (s.turnView sout reqid) =
        some (v', out) ∧
      v'.Tracked dinfo m { t with
        ends := t.ends ++ [reqdata.numComputedTokens + reqdata.numScheduledTokens] } ∧
      t.metas dinfo m ++ out.filterMap Emit.sent? = { t with
        ends := t.ends ++
          [reqdata.numComputedTokens + reqdata.numScheduledTokens] }.metas dinfo m := by
  have hlastD : t.ends.getLastD dinfo.cachedTokens = reqdata.numComputedTokens := by
    rw [getLastD_eq_getLast?, hlast, Option.getD_some]
  have hsorted : (t.ends ++ [reqdata.numComputedTokens + reqdata.numScheduledTokens]).Pairwise
      (· < ·) := by
    refine pairwise_append.mpr ⟨hv.sorted, pairwise_singleton _ _, fun x hx y hy => ?_⟩
    have := le_getLastD hv.sorted dinfo.cachedTokens x hx
    rw [mem_singleton.mp hy]
    omega
  have hcomputed : 0 < reqdata.numComputedTokens := hv.pos _ (mem_of_getLast? hlast)
  have hview : s.turnView sout reqid = { s.view reqid with isNew := false } := by
    rw [turnView, if_neg haborted]
    rfl
  have hsending : ({ s.view reqid with isNew := false } : ReqView).Sending dinfo m t.ends := by
    obtain ⟨hbound, hinfly, hidle⟩ := hv.sending hfinished
    exact ⟨hbound, hinfly, hidle⟩
  obtain ⟨v', out, hstep, hsent, hmoved, -, hmetas⟩ := hsending.cached env.now hcm hblk hv.limit
    (hv.live hleft) rfl hsorted (fun hle kvtstate _ => by split <;> omega)
    (fun _ _ => hlastD.symm) fun hm => hlastD ▸ hm
  refine ⟨v', out, ?_, ?_, ?_⟩
  · rw [roundsOf_scheduled hstop haborted hfin hnews hcached (.inr nofun), hqueue, hview]
    exact Keyed.thread_singleton hstep
  · exact {
      dual := hmoved.dual.trans hv.dual
      limit := hv.limit.trans_eq hmoved.limit.symm
      live := fun _ => hmoved.live.trans (hv.live hleft)
      sending := fun _ => hsent
      closed := fun h => by cases hfinished.symm.trans h
      started := by simp
      sorted := hsorted
      pos := fun e he => by
        rcases mem_append.mp he with he | he
        · exact hv.pos e he
        · rw [mem_singleton.mp he]
          omega }
  · simp only [ChunkTrack.metas, hfinished, Bool.false_eq_true, false_and, if_false,
      append_nil]
    exact hmetas

end ReqView.Tracked

/-! ## Before the first chunk -/

/-- The transfer is set up and no chunk of the request has been scheduled. -/
inductive PBackend.Awaiting (s : PBackend) (reqid : String) (dinfo : KVTDInfo) (m : ℤ) : Prop
  /-- the request is bound to the transfer -/
  | bound (kvtstate : KVTState) (hkvt : (s.reqs reqid).kvtState = some kvtstate)
      (hdinfo : kvtstate.dinfo = dinfo) (hm : kvtstate.maxtokens = m) (hqueue : s.queueOf reqid = [])
  /-- the next turn binds it -/
  | queued (rdinfo : RKVTDInfo) (hkvt : (s.reqs reqid).kvtState = none)
      (hqueue : s.queueOf reqid = [rdinfo]) (hmigration : rdinfo.migration = false)
      (hdinfo : rdinfo.dinfo = dinfo) (hm : (s.reqs reqid).transferEnd dinfo = m)

/-- A request that nothing was emitted for. -/
structure PBackend.Fresh (s : PBackend) (reqid : String) : Prop where
  live : (s.reqs reqid).live = true
  dual : s.dualReqDone.get? reqid = none
  infly : s.inflyKvt.get? reqid = none
  sent : s.sent reqid = []

section Start

variable {env : BuildEnv} {reqid : String} {dinfo : KVTDInfo} {m : ℤ} {s : PBackend}
  {sout : SchedOut}

/-- The queue is empty of the request when its first chunk comes, and the request bound. -/
theorem PBackend.Awaiting.bind (env : BuildEnv) (hs : s.Awaiting reqid dinfo m) (hfresh : s.Fresh reqid)
    (hcm : dinfo.cachedTokens < m) (haborted : reqid ∉ sout.hcAbortedSave) :
    ∃ v, Keyed.thread (handle env) ((s.queueOf reqid).map .dinfo) (s.turnView sout reqid) =
        some (v, []) ∧
      v.Sending dinfo m [] ∧ v.dual = none ∧ v.req.live = true ∧
      v.req.limit = (s.reqs reqid).limit := by
  have hview : s.turnView sout reqid = { s.view reqid with isNew := false } := by
    rw [turnView, if_neg haborted]
    rfl
  rw [hview]
  cases hs with
  | bound kvtstate hkvt hdinfo hm hqueue =>
    rw [hqueue]
    exact ⟨_, rfl, .start hkvt hdinfo hm hfresh.infly, hfresh.dual, hfresh.live, rfl⟩
  | queued rdinfo hkvt hqueue hmigration hdinfo hm =>
    subst hdinfo hm
    have hunfinished : (s.dualReqDone.get? reqid).filter (·.finished) = none := by
      rw [hfresh.dual]
      rfl
    have hstep : ({ s.view reqid with isNew := false } : ReqView).stepDinfo env rdinfo = _ :=
      ReqView.stepDinfo_bind (.inr hfresh.live) hkvt hcm hunfinished hmigration
    rw [hqueue]
    exact ⟨_, Keyed.thread_singleton hstep, .start rfl rfl rfl hfresh.infly, hfresh.dual,
      hfresh.live, rfl⟩

/-- **The turn that schedules the first chunk.** -/
theorem PBackend.Awaiting.turn_new {reqdata : NewReqData} (hs : s.Awaiting reqid dinfo m)
    (hfresh : s.Fresh reqid) (hcm : dinfo.cachedTokens < m) (hblk : dinfo.blkids ≠ [])
    (hlimit : m ≤ (s.reqs reqid).limit) (hstop : reqid ∉ sout.hcStop0)
    (haborted : reqid ∉ sout.hcAbortedSave) (hfin : reqid ∉ sout.finishedReqIds)
    (hnews : sout.main.newReqs.filter (·.reqid = reqid) = [reqdata])
    (hcached : sout.main.cachedReqs.filter (·.reqid = reqid) = [])
    (hcomputed : 0 ≤ reqdata.numComputedTokens) (hpos : 0 < reqdata.numScheduledTokens) :
    ∃ v' out, Keyed.thread (handle env) (s.roundsOf env sout reqid) (s.turnView sout reqid) =
        some (v', out) ∧
      v'.Tracked dinfo m
        { ends := [reqdata.numScheduledTokens + reqdata.numComputedTokens] } ∧
      out.filterMap Emit.sent? = ChunkTrack.metas
        { ends := [reqdata.numScheduledTokens + reqdata.numComputedTokens] } dinfo m := by
  obtain ⟨v, hbind, hsending, hdual, hlive, hlimit'⟩ := hs.bind env hfresh hcm haborted
  rw [← hlimit'] at hlimit
  obtain ⟨v', out, hstep, hsent, hmoved, -, hmetas⟩ :=
    hsending.new env.now hcm hblk hlimit hlive rfl
  refine ⟨v', out, ?_, ?_, ?_⟩
  · rw [roundsOf_scheduled hstop haborted hfin hnews hcached (.inl nofun)]
    exact Keyed.thread_append_some hbind (Keyed.thread_singleton hstep)
  · exact {
      dual := hmoved.dual.trans hdual
      limit := hlimit.trans_eq hmoved.limit.symm
      live := fun _ => hmoved.live.trans hlive
      sending := fun _ => hsent
      closed := nofun
      started := nofun
      sorted := pairwise_singleton _ _
      pos := fun e he => by
        rw [mem_singleton.mp he]
        omega }
  · rw [hmetas, ChunkTrack.metas, if_neg nofun, append_nil]

end Start

/-! ## Whole runs -/

/-- What holds of the backend along the schedule of a request. -/
def PBackend.Along (reqid : String) (dinfo : KVTDInfo) (m : ℤ) (s : PBackend) (t : ChunkTrack) :
    Prop :=
  (t = {} ∧ s.Awaiting reqid dinfo m ∧ s.Fresh reqid ∧ m ≤ (s.reqs reqid).limit) ∨
  ((s.view reqid).Tracked dinfo m t ∧ s.queueOf reqid = [] ∧ s.sent reqid = t.metas dinfo m)

section Runs

variable {naming : Bool} {tpSize : ℕ} {reqid : String} {dinfo : KVTDInfo} {m : ℤ} {s : PBackend}
  {t t' : ChunkTrack}

/-- Rounds that take the request along its track. -/
theorem PBackend.Along.of_thread {out : List Emit}
    (h : Keyed.thread (handle env) (s.roundsOf env sout reqid) (s.turnView sout reqid) =
      some (v, out)) (hv : v.Tracked dinfo m t')
    (hsent : s.sent reqid ++ out.filterMap Emit.sent? = t'.metas dinfo m) :
    s.turn env sout ≠ .error reqid ∧
      ∀ s', s.turn env sout = .ok s' → PBackend.Along reqid dinfo m s' t' := by
  obtain ⟨hno, hok⟩ := turn_of_thread h
  refine ⟨hno, fun s' hs' => .inr ?_⟩
  obtain ⟨hview, hsent', hqueue, -⟩ := hok s' hs'
  exact ⟨hview ▸ hv, hqueue, hsent'.trans hsent⟩

section Along

variable (hs : PBackend.Along reqid dinfo m s t)
include hs

theorem PBackend.Along.turn (hcm : dinfo.cachedTokens < m) (hblk : dinfo.blkids ≠ [])
    (hnext : t.turn reqid sout = some t') :
    s.turn env sout ≠ .error reqid ∧
      ∀ s', s.turn env sout = .ok s' → PBackend.Along reqid dinfo m s' t' := by
  unfold ChunkTrack.turn at hnext
  split at hnext
  · cases hnext
  · next hstop =>
    split at hnext
    · next hnews hcached =>
      split at hnext
      · cases hnext
      · next hends =>
        cases hnext
        rcases hs with ⟨rfl, -⟩ | ⟨hv, hqueue, hsent⟩
        · exact absurd rfl hends
        · obtain ⟨v', out, hthread, hv', hmetas⟩ := hv.turn hqueue hstop hnews hcached
          exact PBackend.Along.of_thread hthread hv' (hsent ▸ hmetas)
    · next reqdata hnews hcached =>
      split at hnext
      · next hguard =>
        obtain ⟨hends, haborted, hfin, hcomputed, hpos⟩ := hguard
        cases hnext
        rcases hs with ⟨rfl, hawaiting, hfresh, hlimit⟩ | ⟨hv, -⟩
        · obtain ⟨v', out, hthread, hv', hmetas⟩ := hawaiting.turn_new hfresh hcm hblk hlimit hstop
            haborted hfin hnews hcached hcomputed hpos
          refine PBackend.Along.of_thread hthread hv' ?_
          rw [hfresh.sent, nil_append]
          exact hmetas
        · exact absurd hends hv.started
      · cases hnext
    · next reqdata hnews hcached =>
      split at hnext
      · next hguard =>
        obtain ⟨hleft, hfinished, haborted, hfin, hlast, hpos⟩ := hguard
        cases hnext
        rcases hs with ⟨rfl, -⟩ | ⟨hv, hqueue, hsent⟩
        · cases hlast
        · obtain ⟨v', out, hthread, hv', hmetas⟩ := hv.turn_cached hqueue hcm hblk hstop haborted
            hfin hnews hcached hleft hfinished hlast hpos
          exact PBackend.Along.of_thread hthread hv' (hsent ▸ hmetas)
      · cases hnext
    · cases hnext

theorem PBackend.Along.same {s' : PBackend} (hends : t.ends ≠ []) (hsame : PBackend.Same reqid s s') :
    PBackend.Along reqid dinfo m s' t := by
  rcases hs with ⟨rfl, -⟩ | ⟨hv, hqueue, hsent⟩
  · exact absurd rfl hends
  · exact .inr ⟨hsame.view ▸ hv, hsame.queue.trans hqueue, hsame.sent.trans hsent⟩

/-- The engine changes the request itself. -/
theorem PBackend.Along.updateReq {f : Req → Req} {left : Bool} (hends : t.ends ≠ [])
    (hkvt : (f (s.reqs reqid)).kvtState = (s.reqs reqid).kvtState)
    (hlimit : (f (s.reqs reqid)).limit = (s.reqs reqid).limit)
    (hlive : left = false → t.left = false ∧ (f (s.reqs reqid)).live = (s.reqs reqid).live) :
    PBackend.Along reqid dinfo m (s.updateReq reqid f) { t with left := left } := by
  rcases hs with ⟨rfl, -⟩ | ⟨hv, hqueue, hsent⟩
  · exact absurd rfl hends
  · refine .inr ⟨?_, hqueue, hsent⟩
    rw [view_updateReq_self]
    exact hv.setReq hkvt hlimit hlive

/-- **Every event of a schedule keeps the request along it.** -/
theorem PBackend.Along.step {e : PEvent} (hcm : dinfo.cachedTokens < m) (hblk : dinfo.blkids ≠ [])
    (hnext : t.next reqid e = some t') : s.step naming tpSize e ≠ .error reqid ∧
      ∀ s', s.step naming tpSize e = .ok s' → PBackend.Along reqid dinfo m s' t' := by
  -- an event that is about other requests
  have helsewhere (hends : t.ends ≠ []) (he : e.Elsewhere reqid) :
      s.step naming tpSize e ≠ .error reqid ∧
        ∀ s', s.step naming tpSize e = .ok s' → PBackend.Along reqid dinfo m s' t := by
    obtain ⟨s₁, hstep, hsame⟩ := step_elsewhere naming tpSize s he
    rw [hstep]
    refine ⟨nofun, fun s' h => ?_⟩
    cases h
    exact hs.same hends hsame
  cases e with
  | turn env sout => exact hs.turn hcm hblk hnext
  | transfer rdinfo dTp =>
    obtain ⟨hguard, ⟨⟩⟩ := Option.ite_none_left_eq_some.mp hnext
    exact helsewhere (fun h => hguard (.inl h)) fun h => hguard (.inr h)
  | enter r req =>
    obtain ⟨hguard, ⟨⟩⟩ := Option.ite_none_left_eq_some.mp hnext
    exact helsewhere (fun h => hguard (.inl h)) fun h => hguard (.inr h)
  | leave r =>
    obtain ⟨hends, ⟨⟩⟩ := Option.ite_none_left_eq_some.mp hnext
    by_cases hr : r = reqid
    · subst hr
      refine ⟨nofun, fun s' h => ?_⟩
      cases h
      refine hs.updateReq hends rfl rfl fun hleft => ?_
      rw [decide_eq_true rfl, Bool.or_true] at hleft
      cases hleft
    · rw [decide_eq_false hr, Bool.or_false]
      exact helsewhere hends hr
  | engine r numTokens blkids =>
    obtain ⟨hends, ⟨⟩⟩ := Option.ite_none_left_eq_some.mp hnext
    by_cases hr : r = reqid
    · subst hr
      refine ⟨nofun, fun s' h => ?_⟩
      cases h
      exact hs.updateReq hends rfl rfl fun hleft => ⟨hleft, rfl⟩
    · exact helsewhere hends hr
  | markSendDone | sendDone _ _ | answer _ =>
    obtain ⟨hends, ⟨⟩⟩ := Option.ite_none_left_eq_some.mp hnext
    exact helsewhere hends trivial

/-- `_infly_kvt` holds the request between its first meta and its last. -/
theorem PBackend.Along.infly (hcm : dinfo.cachedTokens < m) : s.sent reqid = t.metas dinfo m ∧
    ((s.inflyKvt.get? reqid).isSome = true ↔
      s.sent reqid ≠ [] ∧ ∀ x ∈ s.sent reqid, x.hasLastToken = false) := by
  rcases hs with ⟨rfl, -, hfresh, -⟩ | ⟨hv, -, hsent⟩
  · rw [hfresh.infly, hfresh.sent]
    exact ⟨rfl, by simp⟩
  · refine ⟨hsent, ?_⟩
    rw [hsent]
    -- neither an empty list of metas nor one with a last meta goes with an entry
    have hclosed (hnone : s.inflyKvt.get? reqid = none)
        (hmetas : t.metas dinfo m = [] ∨ ∃ x ∈ t.metas dinfo m, x.hasLastToken = true) :
        (s.inflyKvt.get? reqid).isSome = true ↔
          t.metas dinfo m ≠ [] ∧ ∀ x ∈ t.metas dinfo m, x.hasLastToken = false := by
      rw [hnone, Option.isSome_none]
      refine ⟨nofun, fun ⟨hne, hall⟩ => ?_⟩
      obtain ⟨x, hx, hlast⟩ := hmetas.resolve_left hne
      cases (hall x hx).symm.trans hlast
    have hcount := countP_hasLastToken_chunkMetas hcm hv.sorted
    rcases le_or_gt (t.ends.getLastD dinfo.cachedTokens) dinfo.cachedTokens with hle | hgt
    · refine hclosed ?_ (.inl ?_)
      · cases hfinished : t.finished with
        | true => exact hv.closed hfinished
        | false => exact (hv.sending hfinished).idle (.inl hle)
      · rw [ChunkTrack.metas, (chunkMetas_eq_nil_iff hcm hv.sorted).mpr hle, if_neg (by omega)]
        rfl
    · rcases le_or_gt m (t.ends.getLastD dinfo.cachedTokens) with hm | hm
      · refine hclosed ?_ (.inr ?_)
        · cases hfinished : t.finished with
          | true => exact hv.closed hfinished
          | false => exact (hv.sending hfinished).idle (.inr hm)
        · rw [if_pos hm] at hcount
          obtain ⟨x, hx, hlast⟩ := countP_pos_iff.mp (hcount ▸ Nat.one_pos)
          exact ⟨x, mem_append_left _ hx, hlast⟩
      · cases hfinished : t.finished with
        | true =>
          refine hclosed (hv.closed hfinished) (.inr ?_)
          rw [ChunkTrack.metas, if_pos ⟨hfinished, hgt, hm⟩]
          exact ⟨_, mem_append_right _ (mem_singleton_self _), rfl⟩
        | false =>
          obtain ⟨prev, hprev, -⟩ := (hv.sending hfinished).infly hgt hm
          have hmetas : t.metas dinfo m = chunkMetas dinfo m t.ends := by
            rw [ChunkTrack.metas, if_neg (by simp [hfinished]), append_nil]
          rw [if_neg (not_le.mpr hm), countP_eq_zero] at hcount
          rw [show s.inflyKvt.get? reqid = some prev from hprev, hmetas]
          refine ⟨fun _ => ⟨fun hnil => ?_, fun x hx => by simpa using hcount x hx⟩, fun _ => rfl⟩
          exact absurd ((chunkMetas_eq_nil_iff hcm hv.sorted).mp hnil) (not_le.mpr hgt)

end Along

/-- **The transfer of a request is contiguous and complete.**  The request is bound to a transfer of
`[c, m)` when its first chunk is scheduled; then along every schedule of contiguous chunks none of its
assertions fails, its metas are the pieces of `[c, m)` that the chunk ends cut, and a request that
finishes in between is aborted once, where its last meta ended. -/
theorem transfer_contiguous {s₀ : PBackend} {events : List PEvent} (h₀ : s₀.Awaiting reqid dinfo m)
    (hfresh : s₀.Fresh reqid) (hcm : dinfo.cachedTokens < m) (hlimit : m ≤ (s₀.reqs reqid).limit)
    (hblk : dinfo.blkids ≠ []) (htrack : follow (ChunkTrack.next reqid) {} events = some t) :
    PBackend.run naming tpSize s₀ events ≠ .error reqid ∧
    ∀ s, PBackend.run naming tpSize s₀ events = .ok s →
      s.sent reqid = t.metas dinfo m ∧
      ((s.inflyKvt.get? reqid).isSome = true ↔
        s.sent reqid ≠ [] ∧ ∀ x ∈ s.sent reqid, x.hasLastToken = false) := by
  have hstart : PBackend.Along reqid dinfo m s₀ {} := .inl ⟨rfl, h₀, hfresh, hlimit⟩
  obtain ⟨hno, hok⟩ := run_of_follow naming tpSize (fun _ _ _ _ h => (h : False))
    (fun s t e t' hs hnext => by
      obtain ⟨hno, hok⟩ := PBackend.Along.step hs hcm hblk hnext
      exact ⟨fun _ => hno, hok⟩) hstart htrack
  exact ⟨hno id, fun s hs => (hok s hs).infly hcm⟩

end Runs

/-- A D that has `3` tokens of a request and wants `7`… -/
def threeToSeven : KVTDInfo where
  instid := "d"
  blkids := [[5, 6]]
  cachedTokens := 3
  maxTokens := 7
  dWorkersInfo := ["w"]

/-- …and a P that is about to compute its `8` prompt tokens… -/
def boundRequest : PBackend where
  reqs := fun _ => {
    numPromptTokens := 8, numTokens := 8, maxComputedTokens := none, remoteDecode := true
    savePrepared := true, kvtState := some { dinfo := threeToSeven, maxtokens := 7 }, live := true
    blkids := [[1, 2]] }
  dualReqDone := Dict.empty
  inflyKvt := Dict.empty
  substepNews := fun _ => false
  dinfoq := []
  sending := Dict.empty
  scheduled := []
  log := []

/-- …in the chunks `[0, 2)`, `[2, 5)` and `[5, 8)`. -/
def threeChunks : List PEvent :=
  [.turn {} { scheduled := { newReqs :=
      [{ reqid := "r", numScheduledTokens := 2, numComputedTokens := 0, blockIds := [[1, 2]] }] } },
    .turn {} { scheduled := { cachedReqs :=
      [{ reqid := "r", numScheduledTokens := 3, numComputedTokens := 2 }] } },
    .turn {} { scheduled := { cachedReqs :=
      [{ reqid := "r", numScheduledTokens := 3, numComputedTokens := 5 }] } }]

theorem transfer_contiguous_threeChunks :
    (PBackend.run false 1 boundRequest threeChunks).toOption.isSome = true ∧
    ∀ s, PBackend.run false 1 boundRequest threeChunks = .ok s →
      s.sent "r" = [
        { kind := .nonfreeze, seenTokens := 3, newTokens := 2, hasLastToken := false
          dBlockIds := [[5, 6]] },
        { kind := .nonfreeze, seenTokens := 5, newTokens := 2, hasLastToken := true
          dBlockIds := [] }] := by
  refine ⟨by decide +kernel, fun s hs => ?_⟩
  have hawaiting : boundRequest.Awaiting "r" threeToSeven 7 := .bound _ rfl rfl rfl rfl
  exact ((transfer_contiguous hawaiting ⟨rfl, rfl, rfl, rfl⟩ (by decide) (by decide) (by decide)
    rfl).2 s hs).1

end LlumnixKv
