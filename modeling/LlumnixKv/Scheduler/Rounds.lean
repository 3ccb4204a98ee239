import LlumnixKv.Scheduler.PBackend

/-!
# Scheduler/Rounds — what a round of a build can do to a request

Two lists, one for a request that is bound to a transfer and one for a request that is not:

    bound      skip, refuse, abort, cut, close, finish, first, delta       BoundRound
    unbound    skip, record, finish, forget, cut, refuse,                  UnboundRound
               nothing, bind, mismatch, transfer, migrate

Each entry names the loop it comes from, what it changes and what it emits, and the two theorems
`boundRound_of_handle` and `unboundRound_of_handle` say that the lists are complete.  What holds along
every run is then a case analysis of the list, not of the loops.
-/

open Machinery

namespace LlumnixKv

/-! ## What a round does to a request that is bound -/

/-- `_dual_req_get` does not find the request. -/
def ReqView.Gone (v : ReqView) : Prop := v.dual = none ∧ v.req.live = false

instance (v : ReqView) : Decidable v.Gone := inferInstanceAs (Decidable (_ ∧ _))

/-- A scheduled chunk that a transfer can start with. -/
def Work.Starts (kvtstate : KVTState) : Work → Prop
  | .schedNew reqdata substepMode =>
    kvtstate.dinfo.cachedTokens < reqdata.numScheduledTokens + reqdata.numComputedTokens ∧
      (substepMode = true → kvtstate.untouched = true)
  | .schedCached reqdata substepMode =>
    kvtstate.dinfo.cachedTokens < reqdata.numComputedTokens + reqdata.numScheduledTokens ∧
      (substepMode = true → kvtstate.untouched = true) ∧
      (kvtstate.untouched = false → reqdata.numComputedTokens ≤ kvtstate.dinfo.cachedTokens)
  | _ => False

/-- What a round can do to a request that is bound to a transfer. -/
inductive ReqView.BoundRound (v : ReqView) (kvtstate : KVTState) :
    Work → ReqView → List Emit → Prop
  | skip (w : Work) : BoundRound v kvtstate w v []
  /-- a copy finds the request gone -/
  | refuse (rdinfo : RKVTDInfo) (ioret : IoRet) (hgone : v.Gone)
      (hreqid : ioret.reqid = some rdinfo.reqid) :
      BoundRound v kvtstate (.dinfo rdinfo) v [.markSendDone ioret]
  /-- it is aborted before the transfer has started -/
  | abort (reqid : String) (ioret : IoRet) (huntouched : kvtstate.untouched = true)
      (hreqid : ioret.reqid = some reqid) :
      BoundRound v kvtstate (.abortedSave reqid) { v with dual := none }
        [.markSendDone ioret, .saveDone]
  /-- it ends while the transfer is under way -/
  | cut (reqid : String) (m : PReqMeta) (hblkids : m.dBlockIds = []) :
      BoundRound v kvtstate (.finished reqid) { v with infly := none } [.abort m]
  /-- it ends after the transfer -/
  | close (reqid : String) (huntouched : kvtstate.untouched = false) :
      BoundRound v kvtstate (.finished reqid) { v with dual := none } []
  /-- it ends before the transfer -/
  | finish (reqid : String) (m : PReqMeta) (huntouched : kvtstate.untouched = true)
      (hdual : v.dual.isSome = true) :
      BoundRound v kvtstate (.finished reqid)
        { v.setKvt { kvtstate with untouched := false } with dual := none } [.freeze m]
  /-- a chunk starts the transfer -/
  | first (w : Work) (m : PReqMeta) (infly : Option PReqMeta) (hstarts : w.Starts kvtstate)
      (hlive : v.req.live = true) :
      BoundRound v kvtstate w { v.setKvt { kvtstate with untouched := false } with infly }
        [.nonfreeze m]
  /-- a chunk goes on with it -/
  | delta (w : Work) (m : PReqMeta) (infly : Option PReqMeta) (hblkids : m.dBlockIds = []) :
      BoundRound v kvtstate w { v with infly } [.nonfreeze m]

variable {reqid : String}

namespace ReqView

variable {env : BuildEnv} {v v' : ReqView} {kvtstate : KVTState} {out : List Emit}

theorem emitMeta_eq_some {m : PReqMeta} (h : v.emitMeta m = some (v', out)) :
    ∃ infly, v' = { v with infly } ∧ out = [.nonfreeze m] := by
  obtain ⟨v₁, hupdate, heq⟩ := Option.map_eq_some_iff.mp h
  obtain ⟨rfl, rfl⟩ := Prod.mk.inj heq
  refine ⟨v₁.infly, ?_, rfl⟩
  unfold updateInflyKvt at hupdate
  split at hupdate
  · split at hupdate
    · cases hupdate
    · split at hupdate <;> exact Option.some.inj hupdate ▸ rfl
  · split at hupdate
    · cases hupdate
    · split at hupdate <;> exact Option.some.inj hupdate ▸ rfl

theorem BoundRound.of_emitFirst {w : Work} {pBlockIds : List (List ℕ)}
    {endTokens : ℤ} {hasLastToken substepMode : Bool} (hstarts : w.Starts kvtstate)
    (hlive : v.req.live = true)
    (h : v.emitFirst reqid kvtstate pBlockIds endTokens hasLastToken substepMode =
      some (v', out)) : v.BoundRound kvtstate w v' out := by
  unfold emitFirst at h
  obtain ⟨-, h⟩ := Option.ite_none_left_eq_some.mp h
  obtain ⟨infly, rfl, rfl⟩ := emitMeta_eq_some h
  exact .first w _ infly hstarts hlive

end ReqView

/-- The choice to send: the chunk ends beyond what D has, and in a substep the transfer has not
started. -/
theorem KVTState.choose_send {kvtstate : KVTState} {limit e e' : ℤ} {substepMode last : Bool}
    (h : kvtstate.choose limit e substepMode = .send e' last) :
    kvtstate.dinfo.cachedTokens < e ∧ (substepMode = true → kvtstate.untouched = true) := by
  unfold KVTState.choose at h
  split at h
  · cases h
  · next hcached =>
    split at h
    · cases h
    · split at h
      · cases h
      · next hsubstep =>
        refine ⟨not_le.mp hcached, fun hmode => ?_⟩
        rcases Bool.eq_false_or_eq_true kvtstate.untouched with huntouched | huntouched
        · exact huntouched
        · exact absurd ⟨hmode, huntouched⟩ hsubstep

namespace ReqView

variable {env : BuildEnv} {v v' : ReqView} {kvtstate : KVTState} {out : List Emit}

theorem BoundRound.of_finished (hkvt : v.req.kvtState = some kvtstate)
    (h : v.stepFinishedReqs reqid = some (v', out)) :
    v.BoundRound kvtstate (.finished reqid) v' out := by
  unfold stepFinishedReqs at h
  split at h
  · unfold dualReqFinish at h
    split at h
    · cases h
      exact .skip _
    · next hdual =>
      rw [hkvt] at h
      dsimp only at h
      obtain ⟨-, h⟩ := Option.ite_none_left_eq_some.mp h
      split at h
      · next huntouched =>
        cases h
        exact .close reqid huntouched
      · next huntouched =>
        cases h
        exact .finish reqid _ (Bool.not_eq_false _ ▸ huntouched) (by rw [hdual]; rfl)
  · obtain ⟨-, h⟩ := Option.ite_none_left_eq_some.mp h
    cases h
    exact .cut reqid _ rfl

variable {substepMode : Bool} {now : ℕ} {w : Work} {reqdata : CachedReqData}

theorem BoundRound.of_schedNew {reqdata : NewReqData} (hkvt : v.req.kvtState = some kvtstate)
    (h : v.stepSchedNew now reqdata substepMode = some (v', out)) :
    v.BoundRound kvtstate (.schedNew reqdata substepMode) v' out := by
  unfold stepSchedNew at h
  split at h
  · cases h
    exact .skip _
  · obtain ⟨hlive, h⟩ := Option.ite_none_left_eq_some.mp h
    rw [hkvt] at h
    dsimp only at h
    split at h
    · cases h
    · cases h
      exact .skip _
    · next hchoose => exact .of_emitFirst (KVTState.choose_send hchoose) (by simpa using hlive) h

theorem BoundRound.of_schedCached (hkvt : v.req.kvtState = some kvtstate)
    (h : v.stepSchedCached now reqdata substepMode = some (v', out)) :
    v.BoundRound kvtstate (.schedCached reqdata substepMode) v' out := by
  unfold stepSchedCached at h
  split at h
  · cases h
    exact .skip _
  · obtain ⟨hlive, h⟩ := Option.ite_none_left_eq_some.mp h
    rw [hkvt] at h
    dsimp only at h
    split at h
    · cases h
    · cases h
      exact .skip _
    · next hchoose =>
      obtain ⟨hend, hsubstep⟩ := KVTState.choose_send hchoose
      generalize hseen : (if kvtstate.untouched = true then 0 else reqdata.numComputedTokens) =
        seenTokens at h
      split at h
      · next hle =>
        refine .of_emitFirst ⟨hend, hsubstep, fun htouched => ?_⟩ (by simpa using hlive) h
        rw [htouched, if_neg Bool.false_ne_true] at hseen
        exact hseen ▸ hle
      · split at h
        · obtain ⟨-, h⟩ := Option.ite_none_left_eq_some.mp h
          obtain ⟨infly, rfl, rfl⟩ := emitMeta_eq_some h
          exact .delta _ _ infly rfl
        · cases h
          exact .skip _

/-- **The rounds of a request that is bound.** -/
theorem boundRound_of_handle (hkvt : v.req.kvtState = some kvtstate)
    (h : handle env w v = some (v', out)) : v.BoundRound kvtstate w v' out := by
  cases w with
  | stop0 reqid =>
    simp only [handle, stepStop0, hkvt] at h
    exact absurd h (by simp)
  | abortedSave reqid =>
    simp only [handle, stepAborting, hkvt] at h
    split at h
    · cases h
      exact .skip _
    · next huntouched =>
      obtain ⟨-, h⟩ := Option.ite_none_left_eq_some.mp h
      cases h
      exact .abort reqid _ (Bool.not_eq_false _ ▸ huntouched) rfl
  | dinfo rdinfo =>
    simp only [handle, stepDinfo] at h
    split at h
    · next hgone =>
      cases h
      exact .refuse rdinfo _ ⟨Option.isNone_iff_eq_none.mp hgone.1, hgone.2⟩ rfl
    · rw [hkvt, Option.isSome_some, if_pos rfl] at h
      cases h
  | finished reqid => exact .of_finished hkvt h
  | schedNew reqdata substepMode => exact .of_schedNew hkvt h
  | schedCached reqdata substepMode => exact .of_schedCached hkvt h

/-! ## What a round does to a request that is not bound -/

/-- What a round can do to a request that is not bound to a transfer. -/
inductive UnboundRound (v : ReqView) : Work → ReqView → List Emit → Prop
  | skip (w : Work) (hw : ∀ rdinfo, w ≠ .dinfo rdinfo) : UnboundRound v w v []
  /-- its last tokens are scheduled, or it is stopped before the first -/
  | record (w : Work) (dualReq : DualReq) (hw : ∀ rdinfo, w ≠ .dinfo rdinfo)
      (hstop0 : dualReq.finished = true → ∃ reqid, w = .stop0 reqid) :
      UnboundRound v w { v with dual := some dualReq } []
  /-- it ends before a transfer was asked for -/
  | finish (reqid : String) (dualReq : DualReq) :
      UnboundRound v (.finished reqid) { v with dual := some { dualReq with finished := true } } []
  /-- it is aborted -/
  | forget (reqid : String) :
      UnboundRound v (.abortedSave reqid) { v with dual := none } [.saveDone]
  /-- it ends while a transfer is under way -/
  | cut (reqid : String) (m : PReqMeta) (hblkids : m.dBlockIds = []) :
      UnboundRound v (.finished reqid) { v with infly := none } [.abort m]
  /-- it is asked for, and gone -/
  | refuse (rdinfo : RKVTDInfo) (ioret : IoRet) (hreqid : ioret.reqid = some rdinfo.reqid) :
      UnboundRound v (.dinfo rdinfo) v [.markSendDone ioret]
  /-- D has all it computes -/
  | nothing (rdinfo : RKVTDInfo) (kvtstate : KVTState) (ioret : IoRet) (maxcomputed : ℤ)
      (huntouched : kvtstate.untouched = false)
      (hmax : v.req.maxComputedTokens = some maxcomputed)
      (hcached : maxcomputed ≤ kvtstate.dinfo.cachedTokens)
      (hreqid : ioret.reqid = some rdinfo.reqid) :
      UnboundRound v (.dinfo rdinfo) { v.setKvt kvtstate with dual := none }
        [.markSendDone ioret, .saveDone]
  /-- it is bound while it is computed -/
  | bind (rdinfo : RKVTDInfo) (kvtstate : KVTState) :
      UnboundRound v (.dinfo rdinfo) { v.setKvt kvtstate with isNew := true } []
  /-- it is finished, and asked for more than its prompt -/
  | mismatch (rdinfo : RKVTDInfo) (kvtstate : KVTState) (dualReq : DualReq) (reason : AbortReason)
      (huntouched : kvtstate.untouched = false) (hdual : v.dual = some dualReq)
      (hfinished : dualReq.finished = true) :
      UnboundRound v (.dinfo rdinfo) (v.setKvt kvtstate) [.abortReq reason]
  /-- it is finished, and all of it is sent -/
  | transfer (rdinfo : RKVTDInfo) (kvtstate : KVTState) (dualReq : DualReq) (m : PReqMeta)
      (huntouched : kvtstate.untouched = false) (hdual : v.dual = some dualReq)
      (hfinished : dualReq.finished = true) :
      UnboundRound v (.dinfo rdinfo) { v.setKvt kvtstate with dual := none } [.freeze m]
  /-- it migrates -/
  | migrate (rdinfo : RKVTDInfo) (req : Req) (m : PReqMeta) (hmigration : rdinfo.migration = true) :
      UnboundRound v (.dinfo rdinfo) { v with req } [.freeze m]

theorem UnboundRound.of_updateDualReqDone {islast finished : Bool}
    {pblkids : Option (List (List ℕ))} (hw : ∀ rdinfo, w ≠ .dinfo rdinfo)
    (hstop0 : finished = true → ∃ reqid, w = .stop0 reqid)
    (h : (v.updateDualReqDone now islast pblkids finished).map (fun v' => (v', ([] : List Emit))) =
      some (v', out)) : v.UnboundRound w v' out := by
  obtain ⟨v₁, hupdate, heq⟩ := Option.map_eq_some_iff.mp h
  cases heq
  unfold updateDualReqDone at hupdate
  split at hupdate
  · cases hupdate
    exact .skip w hw
  · split at hupdate
    · obtain ⟨-, ⟨⟩⟩ := Option.ite_none_left_eq_some.mp hupdate
      exact .record w _ hw hstop0
    · obtain ⟨-, ⟨⟩⟩ := Option.ite_none_left_eq_some.mp hupdate
      exact .record w _ hw hstop0

variable (hkvt : v.req.kvtState = none)
include hkvt

theorem UnboundRound.of_dinfo {rdinfo : RKVTDInfo} (h : v.stepDinfo env rdinfo = some (v', out)) :
    v.UnboundRound (.dinfo rdinfo) v' out := by
  simp only [stepDinfo, hkvt, Option.isSome_none, Bool.false_eq_true, if_false] at h
  split at h
  · cases h
    exact .refuse rdinfo _ rfl
  · split at h
    · next hmax =>
      obtain ⟨maxcomputed, hsome⟩ : ∃ maxcomputed, v.req.maxComputedTokens = some maxcomputed := by
        refine Option.isSome_iff_exists.mp ?_
        cases hnone : v.req.maxComputedTokens with
        | none => simp [hnone] at hmax
        | some _ => rfl
      cases h
      rw [hsome] at hmax
      exact .nothing rdinfo _ _ maxcomputed rfl hsome (of_decide_eq_true hmax) rfl
    · split at h
      · split at h
        · next hmigration =>
          obtain ⟨-, ⟨⟩⟩ := Option.ite_none_left_eq_some.mp h
          exact .migrate rdinfo _ _ hmigration
        · cases h
          exact .bind rdinfo _
      · next dualReq hdual =>
        obtain ⟨hsome, hfinished⟩ := Option.filter_eq_some_iff.mp hdual
        split at h
        · cases h
          exact .mismatch rdinfo _ dualReq _ rfl hsome hfinished
        · cases h
          exact .transfer rdinfo _ dualReq _ rfl hsome hfinished

theorem UnboundRound.of_finished (h : v.stepFinishedReqs reqid = some (v', out)) :
    v.UnboundRound (.finished reqid) v' out := by
  unfold stepFinishedReqs at h
  split at h
  · unfold dualReqFinish at h
    split at h
    · cases h
      exact .skip _ nofun
    · rw [hkvt] at h
      cases h
      exact .finish reqid _
  · obtain ⟨-, ⟨⟩⟩ := Option.ite_none_left_eq_some.mp h
    exact .cut reqid _ rfl

theorem UnboundRound.of_schedNew {reqdata : NewReqData}
    (h : v.stepSchedNew now reqdata substepMode = some (v', out)) :
    v.UnboundRound (.schedNew reqdata substepMode) v' out := by
  unfold stepSchedNew at h
  split at h
  · cases h
    exact .skip _ nofun
  · obtain ⟨-, h⟩ := Option.ite_none_left_eq_some.mp h
    rw [hkvt] at h
    obtain ⟨-, h⟩ := Option.ite_none_left_eq_some.mp h
    exact .of_updateDualReqDone (by nofun) (by nofun) h

theorem UnboundRound.of_schedCached (h : v.stepSchedCached now reqdata substepMode = some (v', out)) :
    v.UnboundRound (.schedCached reqdata substepMode) v' out := by
  unfold stepSchedCached at h
  split at h
  · cases h
    exact .skip _ nofun
  · obtain ⟨-, h⟩ := Option.ite_none_left_eq_some.mp h
    rw [hkvt] at h
    obtain ⟨-, h⟩ := Option.ite_none_left_eq_some.mp h
    exact .of_updateDualReqDone (by nofun) (by nofun) h

/-- **The rounds of a request that is not bound.** -/
theorem unboundRound_of_handle (h : handle env w v = some (v', out)) : v.UnboundRound w v' out := by
  cases w with
  | stop0 reqid =>
    obtain ⟨-, h⟩ := Option.ite_none_left_eq_some.mp h
    exact .of_updateDualReqDone nofun (fun _ => ⟨reqid, rfl⟩) h
  | abortedSave reqid =>
    simp only [handle, stepAborting, hkvt] at h
    obtain ⟨-, ⟨⟩⟩ := Option.ite_none_left_eq_some.mp h
    exact .forget reqid
  | dinfo rdinfo => exact .of_dinfo hkvt h
  | finished reqid => exact .of_finished hkvt h
  | schedNew reqdata substepMode => exact .of_schedNew hkvt h
  | schedCached reqdata substepMode => exact .of_schedCached hkvt h

end ReqView

/-- Only a message from the queue and an abort make a call of `_mark_send_done`, and it is for their
request. -/
theorem markSendDone_of_handle {env : BuildEnv} {w : Work} {v v' : ReqView} {out : List Emit}
    (h : handle env w v = some (v', out)) {ioret : IoRet} (hmem : .markSendDone ioret ∈ out) :
    ioret.reqid = some w.reqid ∧ ((∃ rdinfo, w = .dinfo rdinfo) ∨ ∃ reqid, w = .abortedSave reqid) := by
  have hhead {mark : IoRet} {rest : List Emit} (hrest : .markSendDone ioret ∉ rest)
      (hmem : .markSendDone ioret ∈ Emit.markSendDone mark :: rest) : ioret = mark :=
    (List.mem_cons.mp hmem).elim Emit.markSendDone.inj fun h => absurd h hrest
  cases hkvt : v.req.kvtState with
  | none =>
    cases ReqView.unboundRound_of_handle hkvt h with
    | refuse rdinfo _ hreqid => exact ⟨hhead (by simp) hmem ▸ hreqid, .inl ⟨rdinfo, rfl⟩⟩
    | nothing rdinfo _ _ _ _ _ _ hreqid => exact ⟨hhead (by simp) hmem ▸ hreqid, .inl ⟨rdinfo, rfl⟩⟩
    | _ => simp at hmem
  | some k =>
    cases ReqView.boundRound_of_handle hkvt h with
    | refuse rdinfo _ _ hreqid => exact ⟨hhead (by simp) hmem ▸ hreqid, .inl ⟨rdinfo, rfl⟩⟩
    | abort reqid _ _ hreqid => exact ⟨hhead (by simp) hmem ▸ hreqid, .inr ⟨reqid, rfl⟩⟩
    | _ => simp at hmem

end LlumnixKv
