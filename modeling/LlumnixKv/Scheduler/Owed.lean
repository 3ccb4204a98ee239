import LlumnixKv.Scheduler.Rounds

/-!
# Scheduler/Owed — a waiting D is owed an answer

An entry of `_sending` whose future is unresolved keeps a D scheduler waiting.  Its answer must be on
the way (`Owed`): the request is queued, or a `_mark_send_done` is scheduled, or the request still
carries an untouched `KVTState` that some later loop will find, or the workers have a meta of it.

The obligation moves from one place to the next inside the loops of a turn: `handle_carried` says
that no round loses it, `stepDinfo_carried` that the round that creates it passes it on — unless D
asks a finished request for more tokens than its prompt has.  That branch aborts the request and
stops; the abort comes back to a `KVTState` that is no longer untouched, and `_step_aborting` skips
it.  `noOrphan_of_careful` is the invariant for the runs that stay clear of it.
-/

open List Machinery

namespace LlumnixKv

open ReqView

/-! ## The obligation -/

/-- A meta for the workers. -/
def Emit.isMeta : Emit → Bool
  | .freeze _ | .abort _ | .nonfreeze _ => true
  | _ => false

/-- The request carries an untouched `KVTState` and a later loop will find it. -/
def ReqView.Carried (v : ReqView) : Prop :=
  ∃ kvtstate, v.req.kvtState = some kvtstate ∧ kvtstate.untouched = true ∧
    (v.req.live = true ∨ v.dual.isSome = true)

instance (v : ReqView) : Decidable v.Carried :=
  decidable_of_iff (∃ kvtstate ∈ v.req.kvtState, kvtstate.untouched = true ∧
    (v.req.live = true ∨ v.dual.isSome = true)) Iff.rfl

/-- Some event to come answers the D that waits for the request. -/
inductive PBackend.Owed (s : PBackend) (reqid : String) : Prop
  /-- the request is queued in `_dinfoq` -/
  | queued (rdinfo : RKVTDInfo) (hmem : rdinfo ∈ s.dinfoq) (hreqid : rdinfo.reqid = reqid)
  /-- a `_mark_send_done` is scheduled -/
  | scheduled (ioret : IoRet) (hmem : ioret ∈ s.scheduled) (hreqid : ioret.reqid = some reqid)
  /-- it carries an untouched `KVTState`, and is live or recorded in `_dual_req_done` -/
  | carried (h : (s.view reqid).Carried)
  /-- a meta was emitted to the workers -/
  | emitted (e : Emit) (hmem : e ∈ Keyed.emitted reqid s.log) (hmeta : e.isMeta = true)

variable {reqid : String} {out : List Emit} {rdinfo : RKVTDInfo}

theorem PBackend.owed_iff {s : PBackend} : s.Owed reqid ↔
    (∃ rdinfo ∈ s.dinfoq, rdinfo.reqid = reqid) ∨
    (∃ ioret ∈ s.scheduled, ioret.reqid = some reqid) ∨ (s.view reqid).Carried ∨
    ∃ e ∈ Keyed.emitted reqid s.log, e.isMeta = true := by
  constructor
  · rintro (⟨rdinfo, hmem, hreqid⟩ | ⟨ioret, hmem, hreqid⟩ | h | ⟨e, hmem, hmeta⟩)
    · exact .inl ⟨rdinfo, hmem, hreqid⟩
    · exact .inr (.inl ⟨ioret, hmem, hreqid⟩)
    · exact .inr (.inr (.inl h))
    · exact .inr (.inr (.inr ⟨e, hmem, hmeta⟩))
  · rintro (⟨rdinfo, hmem, hreqid⟩ | ⟨ioret, hmem, hreqid⟩ | h | ⟨e, hmem, hmeta⟩)
    · exact .queued rdinfo hmem hreqid
    · exact .scheduled ioret hmem hreqid
    · exact .carried h
    · exact .emitted e hmem hmeta

instance (s : PBackend) (reqid : String) : Decidable (s.Owed reqid) :=
  decidable_of_iff _ PBackend.owed_iff.symm

/-- **No transfer is orphaned.** -/
def PBackend.NoOrphan (s : PBackend) : Prop :=
  ∀ reqid st, s.sending.get? reqid = some st → st.fut = none → s.Owed reqid

/-- What was emitted answers the D, or lets the workers do it. -/
def Discharged (reqid : String) (out : List Emit) : Prop :=
  ∃ e ∈ out, e.isMeta = true ∨ ∃ ioret, e = .markSendDone ioret ∧ ioret.reqid = some reqid

theorem Discharged.append_left (h : Discharged reqid out) (out' : List Emit) :
    Discharged reqid (out ++ out') := by
  obtain ⟨e, he, hcase⟩ := h
  exact ⟨e, mem_append_left out' he, hcase⟩

theorem Discharged.append_right (h : Discharged reqid out) (out' : List Emit) :
    Discharged reqid (out' ++ out) := by
  obtain ⟨e, he, hcase⟩ := h
  exact ⟨e, mem_append_right out' he, hcase⟩

/-! ## One round -/

section Rounds

variable {env : BuildEnv} {v v' : ReqView} {out : List Emit}

variable {reqid : String} {kvtstate : KVTState}

theorem ReqView.stepAborting_carried
    (hkvt : v.req.kvtState = some kvtstate) (huntouched : kvtstate.untouched = true)
    (h : v.stepAborting reqid = some (v', out)) : Discharged reqid out := by
  simp only [stepAborting, hkvt, huntouched, Bool.true_eq_false, if_false] at h
  split at h
  · cases h
  · cases h
    exact ⟨_, mem_cons_self, .inr ⟨_, rfl, rfl⟩⟩

/-- **No round loses an obligation.** -/
theorem handle_carried {w : Work} (hv : v.Carried) (h : handle env w v = some (v', out)) :
    v'.Carried ∨ Discharged w.reqid out := by
  obtain ⟨kvtstate, hkvt, huntouched, hfound⟩ := id hv
  cases boundRound_of_handle hkvt h with
  | skip => exact .inl hv
  | refuse rdinfo ioret hgone =>
    rcases hfound with hlive | hdual
    · exact absurd (hlive.symm.trans hgone.2) (by decide)
    · rw [hgone.1] at hdual
      exact absurd hdual (by decide)
  | abort reqid ioret _ hreqid => exact .inr ⟨_, mem_cons_self, .inr ⟨ioret, rfl, hreqid⟩⟩
  | close reqid htouched => exact absurd (huntouched.symm.trans htouched) (by decide)
  | cut | finish | first | delta => exact .inr ⟨_, mem_singleton_self _, .inl rfl⟩

/-- **The round that takes a request from the queue passes the obligation on**, if D does not ask a
finished request for more than its prompt. -/
theorem ReqView.stepDinfo_carried
    (hprompt : v.dual.any (·.finished) = true → rdinfo.dinfo.maxTokens ≤ v.req.numPromptTokens)
    (h : v.stepDinfo env rdinfo = some (v', out)) : v'.Carried ∨ Discharged rdinfo.reqid out := by
  simp only [stepDinfo] at h
  split at h
  · cases h
    exact .inr ⟨_, mem_singleton_self _, .inr ⟨_, rfl, rfl⟩⟩
  · next hfound =>
    split at h
    · cases h
    · split at h
      · cases h
        exact .inr ⟨_, mem_cons_self, .inr ⟨_, rfl, rfl⟩⟩
      · split at h
        · split at h
          · split at h
            · cases h
            · cases h
              exact .inr ⟨_, mem_singleton_self _, .inl rfl⟩
          · cases h
            refine .inl ⟨_, rfl, rfl, ?_⟩
            rw [not_and_or] at hfound
            rcases hfound with hdual | hlive
            · exact .inr (by simpa [setKvt, Option.isSome_iff_ne_none] using hdual)
            · exact .inl (by simpa [setKvt] using hlive)
        · next dualReq hdual =>
          obtain ⟨hsome, hfinished⟩ := Option.filter_eq_some_iff.mp hdual
          have hle := hprompt (by rw [hsome]; exact hfinished)
          split at h
          · exact absurd ‹_› (not_lt.mpr hle)
          · cases h
            exact .inr ⟨_, mem_singleton_self _, .inl rfl⟩

end Rounds

/-! ## All rounds of one request -/

section Threads

variable {env : BuildEnv} {reqid : String} {later : List Work}

/-- **An obligation goes through a whole turn.** -/
theorem thread_carried : ∀ {ws : List Work} {v v' : ReqView} {out : List Emit},
    (∀ w ∈ ws, w.reqid = reqid) → v.Carried →
    Keyed.thread (handle env) ws v = some (v', out) → v'.Carried ∨ Discharged reqid out
  | [], v, v', out, _, hv, h => by
      cases h
      exact .inl hv
  | w :: ws, v, v', out, hws, hv, h => by
      obtain ⟨v₁, out₁, out₂, hw, hrest, rfl⟩ := Keyed.thread_cons h
      rcases handle_carried hv hw with hv₁ | hout
      · rcases thread_carried (fun u hu => hws u (mem_cons_of_mem w hu)) hv₁ hrest with
          hv₂ | hout
        · exact .inl hv₂
        · exact .inr (hout.append_right out₁)
      · rw [hws w mem_cons_self] at hout
        exact .inr (hout.append_left out₂)

/-- The rounds before a request is taken from the queue leave the prompt alone, and finish no
request that `finished` does not speak of. -/
def Work.Early (finished : Prop) : Work → Prop
  | .stop0 _ => finished
  | .abortedSave _ | .dinfo _ => True
  | _ => False

/-- The prompt has `n` tokens, and a finished entry is one that `finished` speaks of. -/
def ReqView.PromptOk (n : ℤ) (finished : Prop) (v : ReqView) : Prop :=
  v.req.numPromptTokens = n ∧ (v.dual.any (·.finished) = true → finished)

theorem handle_promptOk {n : ℤ} {finished : Prop} {w : Work} {v v' : ReqView}
    (hw : w.Early finished) (hv : v.PromptOk n finished) (h : handle env w v = some (v', out)) :
    v'.PromptOk n finished := by
  cases w with
  | stop0 r =>
    simp only [handle, stepStop0] at h
    split at h
    · cases h
    · obtain ⟨u, hu, heq⟩ := Option.map_eq_some_iff.mp h
      obtain ⟨rfl, -⟩ := Prod.mk.inj heq
      refine ⟨?_, fun _ => hw⟩
      simp only [updateDualReqDone] at hu
      split at hu
      · rw [← Option.some.inj hu]
        exact hv.1
      · split at hu
        · cases hu
        · rw [← Option.some.inj hu]
          exact hv.1
  | abortedSave r =>
    simp only [handle, stepAborting] at h
    split at h
    · split at h
      · cases h
        exact hv
      · split at h
        · cases h
        · cases h
          exact ⟨hv.1, fun hd => absurd hd (by simp)⟩
    · split at h
      · cases h
      · cases h
        exact ⟨hv.1, fun hd => absurd hd (by simp)⟩
  | dinfo rdinfo =>
    simp only [handle, stepDinfo] at h
    split at h
    · cases h
      exact hv
    · split at h
      · cases h
      · split at h
        · cases h
          exact ⟨hv.1, fun hd => absurd hd (by simp)⟩
        · split at h
          · split at h
            · split at h
              · cases h
              · cases h
                exact hv
            · cases h
              exact hv
          · split at h
            · cases h
              exact hv
            · cases h
              exact ⟨hv.1, fun hd => absurd hd (by simp)⟩
  | finished r => exact absurd hw id
  | schedNew reqdata substepMode => exact absurd hw id
  | schedCached reqdata substepMode => exact absurd hw id

/-- **A queued request is passed on by the round that takes it from the queue.** -/
theorem thread_queued {n : ℤ} {finished : Prop} (hreqid : rdinfo.reqid = reqid)
    (hprompt : finished → rdinfo.dinfo.maxTokens ≤ n) (hlater : ∀ w ∈ later, w.reqid = reqid) :
    ∀ {early : List Work} {v v' : ReqView} {out : List Emit},
    (∀ w ∈ early, w.Early finished) → v.PromptOk n finished →
    Keyed.thread (handle env) (early ++ .dinfo rdinfo :: later) v = some (v', out) →
    v'.Carried ∨ Discharged reqid out
  | [], v, v', out, _, hv, h => by
      rw [nil_append] at h
      obtain ⟨v₁, out₁, out₂, hw, hrest, rfl⟩ := Keyed.thread_cons h
      have hle : v.dual.any (·.finished) = true →
          rdinfo.dinfo.maxTokens ≤ v.req.numPromptTokens := by
        intro hfinished
        rw [hv.1]
        exact hprompt (hv.2 hfinished)
      rcases stepDinfo_carried hle hw with hv₁ | hout
      · rcases thread_carried hlater hv₁ hrest with hv₂ | hout
        · exact .inl hv₂
        · exact .inr (hout.append_right out₁)
      · rw [hreqid] at hout
        exact .inr (hout.append_left out₂)
  | w :: early, v, v', out, hearly, hv, h => by
      rw [cons_append] at h
      obtain ⟨v₁, out₁, out₂, hw, hrest, rfl⟩ := Keyed.thread_cons h
      have hv₁ := handle_promptOk (hearly w mem_cons_self) hv hw
      rcases thread_queued hreqid hprompt hlater
        (fun u hu => hearly u (mem_cons_of_mem w hu)) hv₁ hrest with hv₂ | hout
      · exact .inl hv₂
      · exact .inr (hout.append_right out₁)

/-- **An aborted request that carries an obligation is answered.** -/
theorem thread_aborted {m n : ℕ} {v v' : ReqView}
    {kvtstate : KVTState} (hkvt : v.req.kvtState = some kvtstate)
    (huntouched : kvtstate.untouched = true) (hn : 0 < n)
    (h : Keyed.thread (handle env) (List.replicate m (.stop0 reqid) ++
      (List.replicate n (.abortedSave reqid) ++ later)) v = some (v', out)) :
    Discharged reqid out := by
  cases m with
  | succ m =>
    rw [replicate_succ, cons_append, Keyed.thread] at h
    simp only [handle, stepStop0, hkvt] at h
    exact absurd h (by simp)
  | zero =>
    obtain ⟨n, rfl⟩ := Nat.exists_eq_succ_of_ne_zero hn.ne'
    rw [replicate_zero, nil_append, replicate_succ, cons_append] at h
    obtain ⟨v₁, out₁, out₂, hw, -, rfl⟩ := Keyed.thread_cons h
    exact (stepAborting_carried hkvt huntouched hw).append_left out₂

end Threads

/-! ## One event -/

namespace PBackend

/-- What keeps an event clear of the two ways to lose an obligation. -/
def Careful (s : PBackend) : PEvent → Prop
  /- D asks a request that is finished, or that this turn finishes, for no more than its prompt -/
  | .turn _ sout => ∀ rdinfo ∈ s.dinfoq,
      rdinfo.reqid ∈ sout.hcStop0 ∨ (s.dualReqDone.get? rdinfo.reqid).any (·.finished) = true →
      rdinfo.dinfo.maxTokens ≤ (s.reqs rdinfo.reqid).numPromptTokens
  /- a request that leaves the scheduler before its transfer starts is in `_dual_req_done` -/
  | .leave reqid => (s.reqs reqid).kvtState.any (·.untouched) = true →
      (s.dualReqDone.get? reqid).isSome = true
  | _ => True

instance (s : PBackend) (e : PEvent) : Decidable (s.Careful e) := by
  cases e <;> unfold Careful <;> infer_instance

variable {naming : Bool} {tpSize : ℕ} {s s' : PBackend} {reqid : String}

/-- What was emitted for a request in a turn stands in the log, and its `_mark_send_done` is
scheduled. -/
theorem Turned.owed {env : BuildEnv} {sout : SchedOut} {delta : List (String × Emit)}
    (ht : Turned s env sout s' delta) {n : ℕ}
    (hout : Keyed.emitted reqid delta =
      out ++ List.replicate n (.abortReq .dualReqDoneTimeout))
    (h : Discharged reqid out) : s'.Owed reqid := by
  obtain ⟨e, he, hcase⟩ := h
  have hmem : e ∈ Keyed.emitted reqid delta := hout ▸ mem_append_left _ he
  rcases hcase with hmeta | ⟨ioret, rfl, hreqid⟩
  · refine .emitted e ?_ hmeta
    rw [ht.log, Keyed.emitted_append]
    exact mem_append_right _ hmem
  · refine .scheduled ioret ?_ hreqid
    rw [ht.scheduled]
    obtain ⟨⟨r, e⟩, hpair, heq⟩ := mem_filterMap.mp hmem
    dsimp only at heq
    split at heq
    · cases heq
      exact mem_append_right _ (mem_filterMap.mpr ⟨_, hpair, rfl⟩)
    · cases heq

/-- **A turn passes every obligation on.** -/
theorem Owed.turn {env : BuildEnv} {sout : SchedOut} (howed : s.Owed reqid)
    (hcareful : s.Careful (.turn env sout)) (h : s.turn env sout = .ok s') : s'.Owed reqid := by
  obtain ⟨delta, ht⟩ := turned_of_turn h
  obtain ⟨out, n, hthread, hout⟩ := ht.thread reqid
  -- the rounds leave an obligation with the request, or discharge it
  have hdone : (s'.view reqid).Carried ∨ Discharged reqid out → s'.Owed reqid := by
    rintro (hcarried | hdischarged)
    · exact .carried hcarried
    · exact ht.owed hout hdischarged
  cases howed with
  | queued rdinfo hmem hreqid =>
    subst hreqid
    obtain ⟨q₁, q₂, hq⟩ := append_of_mem hmem
    have hrounds : s.roundsOf env sout rdinfo.reqid =
        (List.replicate (sout.hcStop0.count rdinfo.reqid) (.stop0 rdinfo.reqid) ++
          List.replicate (sout.hcAbortedSave.count rdinfo.reqid) (.abortedSave rdinfo.reqid) ++
          (q₁.filter (·.reqid = rdinfo.reqid)).map .dinfo) ++ .dinfo rdinfo ::
        ((q₂.filter (·.reqid = rdinfo.reqid)).map .dinfo ++
          List.replicate (sout.finishedReqIds.count rdinfo.reqid) (.finished rdinfo.reqid) ++
          (sout.schedRounds env).filter (·.reqid = rdinfo.reqid)) := by
      rw [roundsOf_eq, hq]
      simp
    have hlater : ∀ w ∈ (q₂.filter (·.reqid = rdinfo.reqid)).map Work.dinfo ++
        List.replicate (sout.finishedReqIds.count rdinfo.reqid) (.finished rdinfo.reqid) ++
        (sout.schedRounds env).filter (·.reqid = rdinfo.reqid), w.reqid = rdinfo.reqid := by
      intro w hw
      have hin : w ∈ s.roundsOf env sout rdinfo.reqid := by
        rw [hrounds]
        exact mem_append_right _ (mem_cons_of_mem _ hw)
      exact of_decide_eq_true (mem_filter.mp hin).2
    rw [hrounds] at hthread
    refine hdone (thread_queued (n := (s.reqs rdinfo.reqid).numPromptTokens)
      rfl (hcareful rdinfo hmem) hlater ?_ ?_ hthread)
    · intro w hw
      simp only [mem_append, mem_replicate, mem_map] at hw
      rcases hw with (⟨hcount, rfl⟩ | ⟨-, rfl⟩) | ⟨_, -, rfl⟩
      · exact .inl (count_pos_iff.mp (Nat.pos_of_ne_zero hcount))
      · trivial
      · trivial
    · refine ⟨?_, fun hfinished => .inr hfinished⟩
      simp only [turnView]
      split <;> rfl
  | scheduled ioret hmem hreqid =>
    refine .scheduled ioret ?_ hreqid
    rw [ht.scheduled]
    exact mem_append_left _ hmem
  | carried hcarried =>
    obtain ⟨kvtstate, hkvt, huntouched, hfound⟩ := hcarried
    by_cases haborted : reqid ∈ sout.hcAbortedSave
    · rw [roundsOf_eq, append_assoc, append_assoc, append_assoc] at hthread
      refine hdone (.inr (thread_aborted ?_ huntouched (count_pos_iff.mpr haborted) hthread))
      simp only [turnView, if_pos haborted]
      exact hkvt
    · refine hdone (thread_carried (fun w hw => of_decide_eq_true (mem_filter.mp hw).2) ?_
        hthread)
      refine ⟨kvtstate, ?_, huntouched, ?_⟩ <;> simp only [turnView, if_neg haborted]
      · exact hkvt
      · exact hfound
  | emitted e hmem hmeta =>
    refine .emitted e ?_ hmeta
    rw [ht.log, Keyed.emitted_append]
    exact mem_append_left _ hmem

/-- An obligation does not depend on `_sending`, nor on what else is kept for the request. -/
theorem Owed.mono (howed : s.Owed reqid) (hdinfoq : s.dinfoq ⊆ s'.dinfoq)
    (hscheduled : ∀ ioret ∈ s.scheduled, ioret.reqid = some reqid → ioret ∈ s'.scheduled)
    (hlog : s'.log = s.log) (hview : (s.view reqid).Carried → (s'.view reqid).Carried) :
    s'.Owed reqid := by
  cases howed with
  | queued rdinfo hmem hreqid => exact .queued rdinfo (hdinfoq hmem) hreqid
  | scheduled ioret hmem hreqid => exact .scheduled ioret (hscheduled ioret hmem hreqid) hreqid
  | carried hcarried => exact .carried (hview hcarried)
  | emitted e hmem hmeta => exact .emitted e (hlog ▸ hmem) hmeta

theorem NoOrphan.updateReq (hno : s.NoOrphan) (r : String) (f : Req → Req)
    (hf : (s.view r).Carried → ((s.updateReq r f).view r).Carried) :
    (s.updateReq r f).NoOrphan := by
  intro reqid st hst hfut
  refine (hno reqid st hst hfut).mono (List.Subset.refl _) (fun _ hmem _ => hmem) rfl ?_
  intro hcarried
  by_cases hreqid : reqid = r
  · subst hreqid
    exact hf hcarried
  · have hview : (s.updateReq r f).view reqid = s.view reqid := by
      simp only [PCore.view, PBackend.updateReq, Function.update_of_ne hreqid]
    rw [hview]
    exact hcarried

/-- A change of an entry that is still unresolved afterwards needs what it needed before. -/
theorem NoOrphan.updateSending (hno : s.NoOrphan) (r : Option String) (f : SendingReq → SendingReq)
    (hf : ∀ st, (f st).fut = none → st.fut = none) : (s.updateSending r f).NoOrphan := by
  intro reqid st hst hfut
  unfold PBackend.updateSending at hst ⊢
  split at hst
  · exact hno reqid st hst hfut
  · next r =>
    split at hst
    · next hget => exact hno reqid st hst hfut
    · next st₀ hget =>
      have howed : s.Owed reqid := by
        by_cases hreqid : reqid = r
        · subst hreqid
          dsimp only at hst
          rw [Dict.get?_set_self] at hst
          cases hst
          exact hno reqid st₀ hget (hf st₀ hfut)
        · dsimp only at hst
          rw [Dict.get?_set_ne _ _ hreqid] at hst
          exact hno reqid st hst hfut
      exact howed.mono (List.Subset.refl _) (fun _ hmem _ => hmem) rfl id

end PBackend

theorem SendingReq.tryMarkDone_resolved (st : SendingReq) (ioret : IoRet) :
    (st.tryMarkDone ioret).fut ≠ none := by
  unfold tryMarkDone
  split
  · next h => rw [h]; exact nofun
  · exact nofun

theorem SendingReq.fut_of_doSendDone {st : SendingReq} {tpSize workerTprank : ℕ} {ioret : IoRet}
    (h : (st.doSendDone tpSize workerTprank ioret).fut = none) : st.fut = none := by
  simp only [doSendDone] at h
  split at h
  · split at h
    · exact absurd h (tryMarkDone_resolved _ _)
    · exact h
  · exact h

namespace PBackend

variable {naming : Bool} {tpSize : ℕ} {s s' : PBackend} {reqid : String}

/-- The oldest `_mark_send_done` resolves the future it is for. -/
theorem NoOrphan.markSendDone (hno : s.NoOrphan) {ioret : IoRet} {rest : List IoRet}
    (hscheduled : s.scheduled = ioret :: rest) (mark : IoRet) :
    ({ s with scheduled := rest }.updateSending ioret.reqid
      fun st => st.tryMarkDone mark).NoOrphan := by
  intro reqid st hst hfut
  -- the entry of the request the mark is for is resolved
  have hne : ioret.reqid ≠ some reqid := by
    intro heq
    unfold PBackend.updateSending at hst
    rw [heq] at hst
    dsimp only at hst
    split at hst
    · next hget => cases hget.symm.trans hst
    · dsimp only at hst
      rw [Dict.get?_set_self] at hst
      exact SendingReq.tryMarkDone_resolved _ _ (Option.some.inj hst ▸ hfut)
  have hentry : s.sending.get? reqid = some st := by
    unfold PBackend.updateSending at hst
    split at hst
    · exact hst
    · next r hr =>
      split at hst
      · exact hst
      · dsimp only at hst
        rwa [Dict.get?_set_ne _ _ fun h => hne (by rw [hr, h])] at hst
  have hkeep : ∀ io ∈ s.scheduled, io.reqid = some reqid → io ∈ rest := by
    intro io hmem hio
    rw [hscheduled] at hmem
    rcases mem_cons.mp hmem with rfl | hmem
    · exact absurd hio hne
    · exact hmem
  have howed := hno reqid st hentry hfut
  unfold PBackend.updateSending
  split
  · exact howed.mono (List.Subset.refl _) hkeep rfl id
  · split
    · exact howed.mono (List.Subset.refl _) hkeep rfl id
    · exact howed.mono (List.Subset.refl _) hkeep rfl id

theorem NoOrphan.submitTransferKv (hno : s.NoOrphan) (rdinfo : RKVTDInfo) (dTp : Option ℕ) :
    (s.submitTransferKv naming tpSize rdinfo dTp).NoOrphan := by
  unfold PBackend.submitTransferKv
  split
  · intro reqid st hst hfut
    by_cases hreqid : reqid = rdinfo.reqid
    · exact .queued rdinfo (mem_append_right _ (mem_singleton_self _)) hreqid.symm
    · dsimp only at hst
      rw [Dict.get?_set_ne _ _ hreqid] at hst
      exact (hno reqid st hst hfut).mono (subset_append_left _ _) (fun _ hmem _ => hmem) rfl id
  · exact hno

/-- **A careful event orphans no transfer.** -/
theorem NoOrphan.step {e : PEvent} (hno : s.NoOrphan) (hcareful : s.Careful e)
    (h : s.step naming tpSize e = .ok s') : s'.NoOrphan := by
  cases e with
  | transfer rdinfo dTp =>
    cases h
    exact hno.submitTransferKv rdinfo dTp
  | turn env sout =>
    intro reqid st hst hfut
    obtain ⟨delta, ht⟩ := turned_of_turn h
    exact (hno reqid st (ht.sending ▸ hst) hfut).turn hcareful h
  | leave r =>
    cases h
    refine hno.updateReq r _ ?_
    rintro ⟨kvtstate, hkvt, huntouched, -⟩
    refine ⟨kvtstate, ?_, huntouched, .inr (hcareful ?_)⟩
    · simp only [PCore.view, PBackend.updateReq, Function.update_self]
      exact hkvt
    · rw [show (s.reqs r).kvtState = some kvtstate from hkvt]
      exact huntouched
  | enter r req =>
    simp only [PBackend.step] at h
    split at h
    · next hfresh =>
      cases h
      refine hno.updateReq r _ ?_
      rintro ⟨kvtstate, hkvt, -⟩
      cases hfresh.2.1.symm.trans hkvt
    · cases h
      exact hno
  | engine r numTokens blkids =>
    cases h
    refine hno.updateReq r _ ?_
    rintro ⟨kvtstate, hkvt, huntouched, hfound⟩
    refine ⟨kvtstate, ?_, huntouched, ?_⟩ <;>
      simp only [PCore.view, PBackend.updateReq, Function.update_self]
    · exact hkvt
    · exact hfound
  | markSendDone =>
    simp only [PBackend.step] at h
    split at h
    · cases h
      exact hno
    · next ioret rest hscheduled =>
      cases h
      exact hno.markSendDone hscheduled _
  | sendDone workerTprank ioret =>
    cases h
    exact hno.updateSending _ _ fun _ => SendingReq.fut_of_doSendDone
  | answer r =>
    simp only [PBackend.step] at h
    split at h
    · cases h
      intro reqid st hst hfut
      dsimp only at hst
      rw [Dict.get?_erase] at hst
      split at hst
      · cases hst
      · exact (hno reqid st hst hfut).mono (List.Subset.refl _) (fun _ hmem _ => hmem) rfl id
    · cases h
      exact hno

/-! ## Whole runs -/

/-- A run whose events are all careful. -/
def CarefulRun (naming : Bool) (tpSize : ℕ) : PBackend → List PEvent → Prop
  | _, [] => True
  | s, e :: events => s.Careful e ∧
    match s.step naming tpSize e with
    | .error _ => True
    | .ok s' => CarefulRun naming tpSize s' events

instance decidableCarefulRun (naming : Bool) (tpSize : ℕ) : ∀ (s : PBackend) (events : List PEvent),
    Decidable (CarefulRun naming tpSize s events)
  | _, [] => isTrue trivial
  | s, e :: events =>
    have : Decidable (match s.step naming tpSize e with
        | .error _ => True
        | .ok s' => CarefulRun naming tpSize s' events) :=
      match s.step naming tpSize e with
      | .error _ => isTrue trivial
      | .ok s' => decidableCarefulRun naming tpSize s' events
    inferInstanceAs (Decidable (_ ∧ _))

theorem NoOrphan.run : ∀ {events : List PEvent} {s s' : PBackend}, s.NoOrphan →
    CarefulRun naming tpSize s events → PBackend.run naming tpSize s events = .ok s' → s'.NoOrphan
  | [], s, s', hno, _, h => by
      cases h
      exact hno
  | e :: events, s, s', hno, hcareful, h => by
      rw [PBackend.run] at h
      split at h
      · cases h
      · next s₁ hstep =>
        have hrest := hcareful.2
        rw [hstep] at hrest
        exact (hno.step hcareful.1 hstep).run hrest h

/-- **No transfer is orphaned in a careful run**: in every state it reaches, each D that waits is
owed an answer. -/
theorem noOrphan_of_careful {s₀ s : PBackend} {events : List PEvent}
    (h₀ : s₀.sending = Dict.empty) (hcareful : CarefulRun naming tpSize s₀ events)
    (hrun : PBackend.run naming tpSize s₀ events = .ok s) : s.NoOrphan := by
  have hinit : s₀.NoOrphan := by
    intro reqid st hst
    rw [h₀, Dict.get?_empty] at hst
    cases hst
  exact hinit.run hcareful hrun

/-- A P whose one request, of `8` prompt tokens, runs for a remote D. -/
def oneRequest : PBackend where
  reqs := fun reqid => {
    numPromptTokens := 8, numTokens := 8, maxComputedTokens := none, remoteDecode := true
    savePrepared := true, kvtState := none, live := reqid = "r", blkids := [[1, 2]] }
  dualReqDone := Dict.empty
  inflyKvt := Dict.empty
  substepNews := fun _ => false
  dinfoq := []
  sending := Dict.empty
  scheduled := []
  log := []

/-- …its prompt in one step… -/
def wholePrompt : PEvent := .turn {} { scheduled := { newReqs :=
  [{ reqid := "r", numScheduledTokens := 8, numComputedTokens := 0, blockIds := [[1, 2]] }] } }

/-- …and a D that asks for the first `maxTokens` tokens. -/
def askFor (maxTokens : ℤ) : PEvent := .transfer
  { reqid := "r", dinfo := {
      instid := "d", blkids := [[5, 6]], cachedTokens := 0, maxTokens, dWorkersInfo := ["w"] } } none

theorem noOrphan_of_careful_dual :
    (PBackend.run false 1 oneRequest [wholePrompt, .leave "r",
      .turn {} { finishedReqIds := ["r"] }, askFor 8, .turn {} {}]).toOption.isSome = true ∧
    ∀ s, PBackend.run false 1 oneRequest [wholePrompt, .leave "r",
      .turn {} { finishedReqIds := ["r"] }, askFor 8, .turn {} {}] = .ok s → s.NoOrphan := by
  refine ⟨by decide +kernel, fun s hs => noOrphan_of_careful rfl ?_ hs⟩
  decide +kernel

/-- **A finished request that is asked for more than its prompt orphans the transfer.**  It is aborted,
and the abort finds a `KVTState` that is no longer untouched. -/
theorem tokenMismatch_orphans :
    ∃ s, PBackend.run false 1 oneRequest [wholePrompt, .leave "r",
      .turn {} { finishedReqIds := ["r"] }, askFor 9, .turn {} {},
      .turn {} { hcAbortedSave := ["r"] }] = .ok s ∧ ¬s.NoOrphan := by
  refine ⟨_, rfl, fun hno => ?_⟩
  exact absurd (hno "r" _ rfl rfl) (by decide +kernel)

end PBackend

end LlumnixKv
