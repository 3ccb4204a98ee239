import LlumnixKv.Ranks.ValidRanks
import LlumnixKv.Scheduler.Signals

/-!
# Scheduler/Saving — when the blocks of a saved request are given back

    core thread      _setup_save ──────────────────────────────► _step_saved ─► sched_free_blocks
                          │                                          ▲
    disagg thread     _saving ─► _do_save_done … _do_save_done ─► _saved

`_setup_save` takes the blocks of a request and names the sources whose done signals it waits for;
`_do_save_done` files the signals, and once every worker has signalled every source the request goes
to `_saved`; the core thread's next `_step_saved` frees the blocks.

A P worker of a fan-out (`p_tp < d_tp`) writes to several D workers through one stub each, and each
stub sends its own done message, all with the worker's rank and the source `"kvt"`.  One entry per
rank and source is all `_saving` has, so the first of them speaks for the others:
`savedAfterAll_iff` says exactly in which arrival orders the blocks outlive the transfer.
-/

open List Machinery

namespace LlumnixKv

/-! ## The state -/

/-- `_SavingReq`.  `sourceFailed` has the keys of `source_done_times` too; the times are left out. -/
structure SavingReq extends IoState where
  kvblks : List (List ℕ)
  sourceFailed : Dict String Bool := .empty
  deriving DecidableEq, Repr

/-- The calls to the block pool, with the request they are made for. -/
inductive BlockOp
  /-- `sched_acquire_blocks` -/
  | acquire (reqid : String) (kvblks : List (List ℕ))
  /-- `sched_free_blocks` -/
  | free (reqid : String) (kvblks : List (List ℕ))
  deriving DecidableEq, Repr

/-- The saving side of `HybridScheduler`.  A request carries `_SAVE_PREPARED` exactly while it is in
`_saving` — `_setup_save` sets both, `_try_teardown_save` clears both — so the flag is not kept. -/
structure SaveState where
  tpSize : ℕ
  saving : Dict String SavingReq := .empty
  saved : List String := []
  /-- the requests with `HB_SAVE_IORET = IoRet(n=0)` -/
  saveFailed : List String := []
  blockOps : List BlockOp := []
  deriving DecidableEq, Repr

/-! ## Done signals -/

variable (st : SavingReq) {rank : ℕ}

/-- `_source_done_for_all_workers`. -/
def SavingReq.sourceDoneForAllWorkers (tpSize : ℕ) (source : String) : Bool :=
  (List.range tpSize).all fun rank => (st.signals rank).any fun sig => sig.source == some source

/-- `_source_failed`. -/
def SavingReq.isSourceFailed (source : String) : Bool :=
  st.workerSignals.values.any fun sigs =>
    sigs.any fun sig => sig.source == some source && sig.n == some 0

/-- `_mark_save_source_done_time`, the callback of `try_advance` on a signal it files. -/
def SavingReq.markSaveSourceDoneTime (tpSize : ℕ) (ioret : IoRet) : SavingReq :=
  match ioret.source with
  | none => st
  | some source =>
    if (st.sourceFailed.get? source).isSome then st
    else if st.sourceDoneForAllWorkers tpSize source then
      { st with sourceFailed := st.sourceFailed.set source (st.isSourceFailed source) }
    else st

/-- `_SavingReq` after a signal: filed, and the callback run if it counts. -/
def SavingReq.advance (ioret : IoRet) (workerTprank tpSize : ℕ) : SavingReq :=
  let io := st.toIoState.tryAdvance ioret workerTprank tpSize
  match io.2 with
  | .dropped => { st with toIoState := io.1 }
  | _ => SavingReq.markSaveSourceDoneTime { st with toIoState := io.1 } tpSize ioret

namespace SaveState

variable (s : SaveState)

/-- `_setup_save`; `none` is a failed assertion. -/
def setupSave (reqid : String) (kvblks : List (List ℕ)) (saveCount : ℕ) (sources : List String) :
    Option SaveState :=
  if (s.saving.get? reqid).isNone ∧ sources ≠ [] ∧ sources.length = saveCount then
    some { s with
      saving := s.saving.set reqid
        { signalsPerWorker := saveCount, expectedSources := sources, kvblks }
      blockOps := s.blockOps ++ [.acquire reqid kvblks] }
  else none

/-- `_do_save_done`; a message without a request id fails an assertion of its own task. -/
def doSaveDone (workerTprank : ℕ) (ioret : IoRet) : SaveState :=
  match ioret.reqid with
  | none => s
  | some reqid =>
    match s.saving.get? reqid with
    | none => s
    | some st =>
      let st' := st.advance ioret workerTprank s.tpSize
      let s' := { s with saving := s.saving.set reqid st' }
      match (st.toIoState.tryAdvance ioret workerTprank s.tpSize).2 with
      | .done =>
        { s' with
          saved := s.saved ++ [reqid]
          saveFailed := if st'.sourceFailed.values.any id then s.saveFailed ++ [reqid]
            else s.saveFailed }
      | _ => s'

/-- `_do_save_done2`: the stubs' messages carry no source. -/
def doSaveDone2 (workerTprank : ℕ) (ioret : IoRet) : SaveState :=
  s.doSaveDone workerTprank { ioret with source := some (ioret.source.getD "kvt") }

/-- `_try_teardown_save`. -/
def tryTeardownSave (reqid : String) : SaveState :=
  match s.saving.get? reqid with
  | none => s
  | some st =>
    { s with
      saving := s.saving.erase reqid
      blockOps := s.blockOps ++ [.free reqid st.kvblks] }

/-- `_step_saved`. -/
def stepSaved : SaveState :=
  s.saved.foldl tryTeardownSave { s with saved := [] }

end SaveState

/-- What the two threads do on the saving side.  `target` is the D worker whose stub sent the
message; the message does not carry it. -/
inductive SaveEvent
  | setupSave (reqid : String) (kvblks : List (List ℕ)) (saveCount : ℕ) (sources : List String)
  | saveDone (workerTprank : ℕ) (ioret : IoRet)
  | saveDone2 (workerTprank target : ℕ) (ioret : IoRet)
  | stepSaved
  deriving DecidableEq, Repr

namespace SaveState

/-- One event; a failed assertion of `_setup_save` changes nothing here. -/
def on (s : SaveState) : SaveEvent → SaveState
  | .setupSave reqid kvblks saveCount sources =>
    (s.setupSave reqid kvblks saveCount sources).getD s
  | .saveDone workerTprank ioret => s.doSaveDone workerTprank ioret
  | .saveDone2 workerTprank _ ioret => s.doSaveDone2 workerTprank ioret
  | .stepSaved => s.stepSaved

/-- A sequence of events. -/
def run (s : SaveState) (events : List SaveEvent) : SaveState := events.foldl on s

/-- The blocks of the request have been given back. -/
def Released (s : SaveState) (reqid : String) : Prop := ∃ kvblks, .free reqid kvblks ∈ s.blockOps

/-- The save is declared done: it waits for its teardown, or its blocks are given back already. -/
def DeclaredDone (s : SaveState) (reqid : String) : Prop := reqid ∈ s.saved ∨ s.Released reqid

/-- Nothing is known of the request. -/
structure Unknown (s : SaveState) (reqid : String) : Prop where
  saving : s.saving.get? reqid = none
  saved : reqid ∉ s.saved
  released : ¬s.Released reqid

end SaveState

/-! ## What the messages say -/

namespace SaveEvent

/-- The request, rank and source a message reports. -/
def report : SaveEvent → Option (String × ℕ × String)
  | .saveDone rank ioret => ioret.reqid.bind fun reqid => ioret.source.map fun src => (reqid, rank, src)
  | .saveDone2 rank _ ioret => ioret.reqid.map fun reqid => (reqid, rank, ioret.source.getD "kvt")
  | _ => none

/-- The P rank and the D worker whose stub reports the request. -/
def stubPair (reqid : String) : SaveEvent → Option (ℕ × ℕ)
  | .saveDone2 rank target ioret => if ioret.reqid = some reqid then some (rank, target) else none
  | _ => none

end SaveEvent

/-- A worker has reported a source of the request in these events. -/
def Reported (reqid : String) (events : List SaveEvent) (rank : ℕ) (source : String) : Prop :=
  ∃ e ∈ events, e.report = some (reqid, rank, source)

/-- The P ranks and the D workers they send to. -/
def fanOut (pTp : ℕ) (d : DInstId) : List (ℕ × ℕ) :=
  (List.range pTp).flatMap fun rank => (getDist rank pTp d).map fun t => (rank, t.2.1)

/-- The messages of one request: each pair of the fan-out reports once, the other backends report
other sources, all from ranks of the group, and the request is set up only once. -/
structure FanOutRun (pTp : ℕ) (d : DInstId) (reqid : String) (events : List SaveEvent) : Prop where
  stubs : (events.filterMap (SaveEvent.stubPair reqid)).Perm (fanOut pTp d)
  sourceless : ∀ rank target ioret, .saveDone2 rank target ioret ∈ events →
    ioret.reqid = some reqid → ioret.source = none
  others : ∀ rank ioret, .saveDone rank ioret ∈ events → ioret.reqid = some reqid →
    rank < pTp ∧ ioret.source ≠ some "kvt"
  once : ∀ kvblks saveCount sources, .setupSave reqid kvblks saveCount sources ∉ events

/-- **The blocks outlive the transfer**: whenever the save is declared done, every pair of the
fan-out has reported. -/
def SavedAfterAll (s : SaveState) (pTp : ℕ) (d : DInstId) (reqid : String)
    (events : List SaveEvent) : Prop :=
  ∀ before after, events = before ++ after → (s.run before).DeclaredDone reqid →
    ∀ pair ∈ fanOut pTp d, pair ∈ before.filterMap (SaveEvent.stubPair reqid)

/-! ## What an event does to one request -/

section Events

variable {s : SaveState} {reqid : String} {rank : ℕ} {ioret : IoRet}

theorem SavingReq.advance_toIoState (st : SavingReq) (ioret : IoRet) (rank tpSize : ℕ) :
    (st.advance ioret rank tpSize).toIoState = (st.toIoState.tryAdvance ioret rank tpSize).1 := by
  have hmark : ∀ st' : SavingReq,
      (st'.markSaveSourceDoneTime tpSize ioret).toIoState = st'.toIoState := by
    intro st'
    unfold SavingReq.markSaveSourceDoneTime
    split
    · rfl
    · split_ifs <;> rfl
  simp only [SavingReq.advance]
  split
  · rfl
  · exact hmark _

namespace SaveState

theorem doSaveDone_tpSize : (s.doSaveDone rank ioret).tpSize = s.tpSize := by
  unfold doSaveDone
  split
  · rfl
  · split
    · rfl
    · split <;> rfl

theorem doSaveDone_blockOps : (s.doSaveDone rank ioret).blockOps = s.blockOps := by
  unfold doSaveDone
  split
  · rfl
  · split
    · rfl
    · split <;> rfl

/-- A message of another request leaves the request alone. -/
theorem doSaveDone_of_ne (s : SaveState) (rank : ℕ) (h : ioret.reqid ≠ some reqid) :
    (s.doSaveDone rank ioret).saving.get? reqid = s.saving.get? reqid ∧
    (reqid ∈ (s.doSaveDone rank ioret).saved ↔ reqid ∈ s.saved) := by
  unfold doSaveDone
  split
  · exact ⟨rfl, Iff.rfl⟩
  · next other hother =>
    have hne : reqid ≠ other := fun heq => h (heq ▸ hother)
    split
    · exact ⟨rfl, Iff.rfl⟩
    · split
      · exact ⟨Dict.get?_set_ne _ _ hne, by simp [hne]⟩
      · exact ⟨Dict.get?_set_ne _ _ hne, Iff.rfl⟩

/-- A message of the request advances its entry, and declares the save done with the last signal. -/
theorem doSaveDone_of_eq (rank : ℕ) {st : SavingReq} (h : ioret.reqid = some reqid)
    (hst : s.saving.get? reqid = some st) :
    (s.doSaveDone rank ioret).saving.get? reqid = some (st.advance ioret rank s.tpSize) ∧
    (reqid ∈ (s.doSaveDone rank ioret).saved ↔
      (st.toIoState.tryAdvance ioret rank s.tpSize).2 = .done ∨ reqid ∈ s.saved) := by
  simp only [doSaveDone, h, hst]
  split
  · next hdone => exact ⟨Dict.get?_set_self _ _ _, by simp [hdone]⟩
  · next hdone => exact ⟨Dict.get?_set_self _ _ _, .inr, fun h' => h'.resolve_left hdone⟩

theorem get?_tryTeardownSave (s : SaveState) (r : String) :
    (s.tryTeardownSave r).saving.get? reqid = if reqid = r then none else s.saving.get? reqid := by
  unfold tryTeardownSave
  split
  · next hnone =>
    split
    · next heq => rw [heq, hnone]
    · rfl
  · exact Dict.get?_erase _ _ _

theorem released_tryTeardownSave (s : SaveState) (r : String) :
    (s.tryTeardownSave r).Released reqid ↔
      s.Released reqid ∨ (reqid = r ∧ (s.saving.get? reqid).isSome = true) := by
  unfold tryTeardownSave
  split
  · next hnone =>
    refine ⟨.inl, fun h => h.elim id fun h => ?_⟩
    rw [h.1, hnone] at h
    exact absurd h.2 Bool.false_ne_true
  · next st hst =>
    simp only [Released, mem_append, mem_singleton, BlockOp.free.injEq, exists_or]
    refine or_congr Iff.rfl ⟨fun ⟨_, heq, _⟩ => ⟨heq, by rw [heq, hst]; rfl⟩,
      fun ⟨heq, _⟩ => ⟨_, heq, rfl⟩⟩

theorem teardown_all (reqid : String) : ∀ (rs : List String) (s : SaveState),
    (rs.foldl tryTeardownSave s).saving.get? reqid =
      (if reqid ∈ rs then none else s.saving.get? reqid) ∧
    ((rs.foldl tryTeardownSave s).Released reqid ↔
      s.Released reqid ∨ (reqid ∈ rs ∧ (s.saving.get? reqid).isSome = true)) ∧
    (rs.foldl tryTeardownSave s).saved = s.saved ∧
    (rs.foldl tryTeardownSave s).tpSize = s.tpSize
  | [], s => by simp
  | r :: rs, s => by
      have hkeep : (s.tryTeardownSave r).saved = s.saved ∧ (s.tryTeardownSave r).tpSize = s.tpSize := by
        unfold tryTeardownSave
        split <;> exact ⟨rfl, rfl⟩
      obtain ⟨hget, hrel, hsaved, htp⟩ := teardown_all reqid rs (s.tryTeardownSave r)
      rw [foldl_cons]
      refine ⟨?_, ?_, hsaved.trans hkeep.1, htp.trans hkeep.2⟩
      · rw [hget, get?_tryTeardownSave]
        by_cases h : reqid = r <;> simp [h]
      · rw [hrel, released_tryTeardownSave, get?_tryTeardownSave]
        by_cases h : reqid = r
        · simp [h]
        · simp [h]

/-- `_step_saved` tears down what is in `_saved`, and nothing else. -/
theorem stepSaved_get? (s : SaveState) :
    s.stepSaved.saving.get? reqid = if reqid ∈ s.saved then none else s.saving.get? reqid :=
  (teardown_all reqid s.saved _).1

theorem stepSaved_released (s : SaveState) :
    s.stepSaved.Released reqid ↔
      s.Released reqid ∨ (reqid ∈ s.saved ∧ (s.saving.get? reqid).isSome = true) :=
  (teardown_all reqid s.saved _).2.1

theorem stepSaved_saved (s : SaveState) : s.stepSaved.saved = [] :=
  (teardown_all "" s.saved { s with saved := [] }).2.2.1

theorem stepSaved_tpSize (s : SaveState) : s.stepSaved.tpSize = s.tpSize :=
  (teardown_all "" s.saved { s with saved := [] }).2.2.2

/-- The set-up of another request leaves the request alone. -/
theorem setupSave_of_ne {other : String} (h : reqid ≠ other) (kvblks : List (List ℕ)) (saveCount : ℕ)
    (sources : List String) :
    ((s.setupSave other kvblks saveCount sources).getD s).saving.get? reqid = s.saving.get? reqid ∧
    ((s.setupSave other kvblks saveCount sources).getD s).saved = s.saved ∧
    (((s.setupSave other kvblks saveCount sources).getD s).Released reqid ↔ s.Released reqid) ∧
    ((s.setupSave other kvblks saveCount sources).getD s).tpSize = s.tpSize := by
  unfold setupSave
  split
  · exact ⟨Dict.get?_set_ne _ _ h, rfl, by simp [Released], rfl⟩
  · exact ⟨rfl, rfl, Iff.rfl, rfl⟩

end SaveState

end Events

/-! ## What the scheduler knows of a request -/

/-- Every worker has reported every source. -/
def CompleteReports (pTp : ℕ) (reqid : String) (sources : List String) (events : List SaveEvent) :
    Prop :=
  ∀ rank < pTp, ∀ source ∈ sources, Reported reqid events rank source

/-- Where the save of a request stands after these events. -/
inductive Tracks (pTp : ℕ) (reqid : String) (sources : List String) (s : SaveState)
    (events : List SaveEvent) : Prop
  /-- some report is missing; its entry holds the others -/
  | collecting (st : SavingReq) (hst : s.saving.get? reqid = some st)
      (hsources : st.expectedSources = sources) (hbelow : st.RanksBelow pTp)
      (hreports : ∀ rank, ∀ source ∈ sources,
        st.Reports rank source ↔ Reported reqid events rank source)
      (hmissing : ¬CompleteReports pTp reqid sources events)
      (hsaved : reqid ∉ s.saved) (hreleased : ¬s.Released reqid)
  /-- nothing is missing; the teardown is to come -/
  | waiting (hcomplete : CompleteReports pTp reqid sources events)
      (hst : (s.saving.get? reqid).isSome = true) (hsaved : reqid ∈ s.saved)
  /-- the blocks are given back -/
  | released (hcomplete : CompleteReports pTp reqid sources events) (hreleased : s.Released reqid)

/-- What `FanOutRun` says of each single event. -/
def SaveEvent.Fits (pTp : ℕ) (reqid : String) : SaveEvent → Prop
  | .setupSave other _ _ _ => reqid ≠ other
  | .saveDone rank ioret => ioret.reqid = some reqid → rank < pTp
  | .saveDone2 rank _ ioret => ioret.reqid = some reqid → rank < pTp
  | .stepSaved => True

section Tracks

variable {pTp : ℕ} {reqid : String} {sources : List String} {s : SaveState}
  {events : List SaveEvent} {e : SaveEvent}

theorem reported_append_singleton {source : String} :
    Reported reqid (events ++ [e]) rank source ↔
      Reported reqid events rank source ∨ e.report = some (reqid, rank, source) := by
  simp [Reported, or_and_right, exists_or]

theorem CompleteReports.append (h : CompleteReports pTp reqid sources events) (es : List SaveEvent) :
    CompleteReports pTp reqid sources (events ++ es) := by
  intro rank hrank source hsource
  obtain ⟨e, he, hrep⟩ := h rank hrank source hsource
  exact ⟨e, mem_append_left es he, hrep⟩

/-- An event that says nothing of the request and leaves it alone. -/
theorem Tracks.frame {s' : SaveState} (h : Tracks pTp reqid sources s events)
    (hrep : ∀ rank source, e.report ≠ some (reqid, rank, source))
    (hget : s'.saving.get? reqid = s.saving.get? reqid)
    (hsaved : reqid ∈ s'.saved ↔ reqid ∈ s.saved)
    (hreleased : s'.Released reqid ↔ s.Released reqid) :
    Tracks pTp reqid sources s' (events ++ [e]) := by
  have hsame : ∀ rank source, Reported reqid (events ++ [e]) rank source ↔
      Reported reqid events rank source := fun rank source =>
    reported_append_singleton.trans (or_iff_left (hrep rank source))
  cases h with
  | collecting st hst hsources hbelow hreports hmissing hnot hnotRel =>
    refine .collecting st (hget.trans hst) hsources hbelow
      (fun rank source hsource => (hreports rank source hsource).trans (hsame rank source).symm)
      (fun hcomplete => hmissing fun rank hrank source hsource => ?_)
      (fun hmem => hnot (hsaved.mp hmem)) fun hrel => hnotRel (hreleased.mp hrel)
    exact (hsame rank source).mp (hcomplete rank hrank source hsource)
  | waiting hcomplete hst hmem =>
    exact .waiting (hcomplete.append _) (hget ▸ hst) (hsaved.mpr hmem)
  | released hcomplete hrel => exact .released (hcomplete.append _) (hreleased.mpr hrel)

/-- **A message of the request** files its report, and the last one missing declares it done. -/
theorem Tracks.message {ioret : IoRet} (h : Tracks pTp reqid sources s events)
    (htp : s.tpSize = pTp) (hne : sources ≠ [])
    (hrank : ioret.reqid = some reqid → rank < pTp)
    (hrep : ∀ r source, e.report = some (reqid, r, source) ↔
      ioret.reqid = some reqid ∧ r = rank ∧ ioret.source = some source) :
    Tracks pTp reqid sources (s.doSaveDone rank ioret) (events ++ [e]) := by
  have hrel : (s.doSaveDone rank ioret).Released reqid ↔ s.Released reqid := by
    rw [SaveState.Released, SaveState.doSaveDone_blockOps, SaveState.Released]
  by_cases hreq : ioret.reqid = some reqid
  · have hreported : ∀ r source, Reported reqid (events ++ [e]) r source ↔
        Reported reqid events r source ∨ (r = rank ∧ ioret.source = some source) := by
      intro r source
      rw [reported_append_singleton, hrep, and_iff_right hreq]
    cases h with
    | collecting st hst hsources hbelow hreports hmissing hnot hnotRel =>
      obtain ⟨hget, hsaved⟩ := SaveState.doSaveDone_of_eq rank hreq hst
      rw [htp] at hget hsaved
      have hst_ne : st.expectedSources ≠ [] := hsources.symm ▸ hne
      -- the entry after the message knows the reports of all events so far
      have hreports' : ∀ r, ∀ source ∈ sources,
          (st.advance ioret rank pTp).Reports r source ↔ Reported reqid (events ++ [e]) r source := by
        intro r source hsource
        rw [SavingReq.advance_toIoState, IoState.reports_tryAdvance (hsources.symm ▸ hsource),
          hreported, hreports r source hsource]
      have hsources' : (st.advance ioret rank pTp).expectedSources = sources := by
        rw [SavingReq.advance_toIoState, IoState.tryAdvance_fst]
        exact hsources
      have hready : (st.toIoState.tryAdvance ioret rank pTp).1.AllReady pTp ↔
          CompleteReports pTp reqid sources (events ++ [e]) := by
        rw [← SavingReq.advance_toIoState, IoState.allReady_iff_reports (hsources'.symm ▸ hne),
          hsources']
        exact forall₂_congr fun r _ => forall₂_congr fun source hsource => hreports' r source hsource
      have hbefore : ¬st.toIoState.AllReady pTp := by
        rw [IoState.allReady_iff_reports hst_ne, hsources]
        exact fun hall => hmissing fun r hr source hsource =>
          (hreports r source hsource).mp (hall r hr source hsource)
      have hdone := IoState.tryAdvance_done_iff ioret hbelow (hrank hreq)
      by_cases hcomplete : CompleteReports pTp reqid sources (events ++ [e])
      · have hafter := hready.mpr hcomplete
        exact .waiting hcomplete (hget ▸ rfl)
          (hsaved.mpr (.inl (hdone.mpr ⟨hbefore, hafter⟩)))
      · refine .collecting _ hget hsources' ?_ hreports' hcomplete ?_ fun h => hnotRel (hrel.mp h)
        · rw [SavingReq.advance_toIoState]
          exact hbelow.tryAdvance (hrank hreq)
        · exact fun hmem => (hsaved.mp hmem).elim
            (fun h => hcomplete (hready.mp (hdone.mp h).2)) hnot
    | waiting hcomplete hst hmem =>
      obtain ⟨st, hst⟩ := Option.isSome_iff_exists.mp hst
      obtain ⟨hget, hsaved⟩ := SaveState.doSaveDone_of_eq rank hreq hst
      exact .waiting (hcomplete.append _) (hget ▸ rfl) (hsaved.mpr (.inr hmem))
    | released hcomplete hreleased =>
      exact .released (hcomplete.append _) (hrel.mpr hreleased)
  · obtain ⟨hget, hsaved⟩ := SaveState.doSaveDone_of_ne s rank hreq
    exact h.frame (fun r source heq => hreq ((hrep r source).mp heq).1) hget hsaved hrel

/-- **One event**, of either thread. -/
theorem Tracks.on (h : Tracks pTp reqid sources s events) (htp : s.tpSize = pTp) (hne : sources ≠ [])
    (hfits : e.Fits pTp reqid) : Tracks pTp reqid sources (s.on e) (events ++ [e]) := by
  cases e with
  | setupSave other kvblks saveCount srcs =>
    obtain ⟨hget, hsaved, hrel, -⟩ := SaveState.setupSave_of_ne (s := s) hfits kvblks saveCount srcs
    exact h.frame nofun hget (by rw [SaveState.on, hsaved]) hrel
  | saveDone rank ioret =>
    refine h.message htp hne hfits fun r source => ?_
    cases hq : ioret.reqid <;> cases hs : ioret.source <;>
      simp [SaveEvent.report, hq, hs, and_comm, eq_comm]
  | saveDone2 rank target ioret =>
    refine h.message htp hne hfits fun r source => ?_
    cases hq : ioret.reqid <;> simp [SaveEvent.report, hq, eq_comm]
  | stepSaved =>
    cases h with
    | collecting st hst hsources hbelow hreports hmissing hnot hnotRel =>
      refine Tracks.frame (.collecting st hst hsources hbelow hreports hmissing hnot hnotRel) nofun
        ?_ ?_ ?_
      · rw [SaveState.on, SaveState.stepSaved_get?, if_neg hnot]
      · rw [SaveState.on, SaveState.stepSaved_saved]
        exact ⟨nofun, fun hmem => absurd hmem hnot⟩
      · rw [SaveState.on, SaveState.stepSaved_released]
        exact or_iff_left fun hmem => hnot hmem.1
    | waiting hcomplete hst hmem =>
      exact .released (hcomplete.append _)
        ((SaveState.stepSaved_released s).mpr (.inr ⟨hmem, hst⟩))
    | released hcomplete hreleased =>
      exact .released (hcomplete.append _) ((SaveState.stepSaved_released s).mpr (.inl hreleased))

theorem on_tpSize (s : SaveState) (e : SaveEvent) : (s.on e).tpSize = s.tpSize := by
  cases e with
  | setupSave other kvblks saveCount srcs =>
    rw [SaveState.on, SaveState.setupSave]
    split <;> rfl
  | saveDone rank ioret => exact SaveState.doSaveDone_tpSize
  | saveDone2 rank target ioret => exact SaveState.doSaveDone_tpSize
  | stepSaved => exact SaveState.stepSaved_tpSize s

/-- **A whole run**, by induction on the events still to come. -/
theorem Tracks.run (hne : sources ≠ []) : ∀ {later : List SaveEvent} {s : SaveState}
    {events : List SaveEvent}, Tracks pTp reqid sources s events → s.tpSize = pTp →
    (∀ e ∈ later, e.Fits pTp reqid) → Tracks pTp reqid sources (s.run later) (events ++ later)
  | [], s, events, h, _, _ => by rwa [append_nil]
  | e :: later, s, events, h, htp, hfits => by
      have hstep := h.on htp hne (hfits e mem_cons_self)
      have hrest := Tracks.run hne hstep ((on_tpSize s e).trans htp)
        fun e' he' => hfits e' (mem_cons_of_mem e he')
      rwa [append_assoc, singleton_append] at hrest

/-- A request that was just set up. -/
theorem tracks_setupSave {s₀ : SaveState} {kvblks : List (List ℕ)} {saveCount : ℕ} (hp : 0 < pTp)
    (hunknown : s₀.Unknown reqid) (hsetup : s₀.setupSave reqid kvblks saveCount sources = some s) :
    sources ≠ [] ∧ s.tpSize = s₀.tpSize ∧ Tracks pTp reqid sources s [] := by
  unfold SaveState.setupSave at hsetup
  split at hsetup
  · next hguard =>
    cases hsetup
    obtain ⟨source, hsource⟩ := exists_mem_of_ne_nil _ hguard.2.1
    refine ⟨hguard.2.1, rfl, .collecting _ (Dict.get?_set_self _ _ _) rfl ?_ ?_ ?_ hunknown.saved ?_⟩
    · exact fun r hr => absurd hr not_mem_nil
    · exact fun r src _ => ⟨fun ⟨_, h, _⟩ => absurd h not_mem_nil, fun ⟨_, h, _⟩ => absurd h
        not_mem_nil⟩
    · intro hall
      obtain ⟨e, he, -⟩ := hall 0 hp source hsource
      cases he
    · rintro ⟨blks, hmem⟩
      rcases mem_append.mp hmem with hmem | hmem
      · exact hunknown.released ⟨blks, hmem⟩
      · cases mem_singleton.mp hmem
  · cases hsetup

/-- **The save is declared done exactly when no report is missing.** -/
theorem Tracks.declaredDone_iff (h : Tracks pTp reqid sources s events) :
    s.DeclaredDone reqid ↔ CompleteReports pTp reqid sources events := by
  cases h with
  | collecting st _ _ _ _ hmissing hnot hnotRel =>
    exact ⟨fun h => (h.elim hnot hnotRel).elim, fun h => absurd h hmissing⟩
  | waiting hcomplete _ hmem => exact ⟨fun _ => hcomplete, fun _ => .inl hmem⟩
  | released hcomplete hrel => exact ⟨fun _ => hcomplete, fun _ => .inr hrel⟩

end Tracks

/-! ## The fan-out -/

section FanOut

variable {pTp : ℕ} {d : DInstId} {reqid : String} {events : List SaveEvent}

section Several

variable (hlt : pTp < d.dstTpsize) (hdvd : pTp ∣ d.dstTpsize) {pair : ℕ × ℕ}
include hlt hdvd

/-- **One P rank feeds several D workers.** -/
theorem getDist_of_lt (rank : ℕ) :
    getDist rank pTp d = (List.range (d.dstTpsize / pTp)).map fun j =>
      (d.dstInstName, d.dstDprank * d.dstTpsize + rank * (d.dstTpsize / pTp) + j,
        rank * (d.dstTpsize / pTp) + j) := by
  simp [getDist, hlt.ne', hlt.not_gt, Nat.mul_div_cancel' hdvd]

theorem mem_fanOut : pair ∈ fanOut pTp d ↔ pair.1 < pTp ∧ ∃ j < d.dstTpsize / pTp,
      pair.2 = d.dstDprank * d.dstTpsize + pair.1 * (d.dstTpsize / pTp) + j := by
  obtain ⟨rank, target⟩ := pair
  simp only [fanOut, getDist_of_lt hlt hdvd, mem_flatMap, mem_range, map_map,
    mem_map, Function.comp_apply, Prod.mk.injEq]
  constructor
  · rintro ⟨r, hr, j, hj, rfl, rfl⟩
    exact ⟨hr, j, hj, rfl⟩
  · rintro ⟨hr, j, hj, rfl⟩
    exact ⟨rank, hr, j, hj, rfl, rfl⟩

theorem nodup_fanOut : (fanOut pTp d).Nodup := by
  refine nodup_flatMap.mpr ⟨fun rank _ => ?_, nodup_range.imp fun {a b} hab => ?_⟩
  · rw [getDist_of_lt hlt hdvd, map_map]
    refine nodup_range.map fun i j hij => ?_
    simpa using hij
  · refine disjoint_left.mpr ?_
    intro pair ha hb
    obtain ⟨_, -, rfl⟩ := mem_map.mp ha
    obtain ⟨_, -, hb⟩ := mem_map.mp hb
    exact hab (congrArg Prod.fst hb).symm

theorem two_le_group : 2 ≤ d.dstTpsize / pTp := by
  obtain ⟨k, hk⟩ := hdvd
  have hp : 0 < pTp := Nat.pos_of_ne_zero fun h => by simp [hk, h] at hlt
  rw [hk, Nat.mul_div_cancel_left k hp]
  rw [hk] at hlt
  exact (Nat.lt_mul_iff_one_lt_right hp).mp hlt

omit hlt hdvd in
theorem SaveEvent.report_of_stubPair {e : SaveEvent}
    (hsourceless : ∀ rank target ioret, e = .saveDone2 rank target ioret →
      ioret.reqid = some reqid → ioret.source = none)
    (h : e.stubPair reqid = some pair) : e.report = some (reqid, pair.1, "kvt") := by
  cases e with
  | saveDone2 rank target ioret =>
    rw [stubPair] at h
    split at h
    · next hreq =>
      cases h
      simp [report, hreq, hsourceless rank target ioret rfl hreq]
    · cases h
  | setupSave | saveDone | stepSaved => cases h

theorem FanOutRun.fits (h : FanOutRun pTp d reqid events) : ∀ e ∈ events, e.Fits pTp reqid := by
  intro e he
  cases e with
  | setupSave other kvblks saveCount sources =>
    rintro rfl
    exact h.once kvblks saveCount sources he
  | saveDone rank ioret => exact fun hreq => (h.others rank ioret he hreq).1
  | saveDone2 rank target ioret =>
    intro hreq
    have hmem : (rank, target) ∈ events.filterMap (SaveEvent.stubPair reqid) :=
      mem_filterMap.mpr ⟨_, he, if_pos hreq⟩
    exact ((mem_fanOut hlt hdvd).mp (h.stubs.mem_iff.mp hmem)).1
  | stepSaved => trivial

/-- The last stub to report, and what came before it. -/
theorem FanOutRun.exists_last (h : FanOutRun pTp d reqid events) (hp : 0 < pTp) :
    ∃ before e after pair, events = before ++ e :: after ∧ e.stubPair reqid = some pair ∧
      ∀ x ∈ after, x.stubPair reqid = none := by
  have hmem : (0, d.dstDprank * d.dstTpsize) ∈ fanOut pTp d :=
    (mem_fanOut hlt hdvd).mpr ⟨hp, 0, by have := two_le_group hlt hdvd; omega, by simp⟩
  obtain ⟨e₀, he₀, hpair₀⟩ := mem_filterMap.mp (h.stubs.mem_iff.mpr hmem)
  cases hfind : events.reverse.find? fun e => (e.stubPair reqid).isSome with
  | none =>
    have := find?_eq_none.mp hfind e₀ (mem_reverse.mpr he₀)
    rw [hpair₀] at this
    exact absurd rfl this
  | some e =>
    obtain ⟨he, front, back, hsplit, hfront⟩ := find?_eq_some_iff_append.mp hfind
    obtain ⟨pair, hpair⟩ := Option.isSome_iff_exists.mp he
    refine ⟨back.reverse, e, front.reverse, pair, ?_, hpair, fun x hx => ?_⟩
    · rw [← reverse_reverse events, hsplit]
      simp
    · simpa using hfront x (mem_reverse.mp hx)

end Several

section Last

variable {before after : List SaveEvent} {e : SaveEvent} {pair : ℕ × ℕ}

/-- The stubs that reported before the last one are all but it. -/
theorem filterMap_stubPair_last (hsplit : events = before ++ e :: after)
    (hpair : e.stubPair reqid = some pair) (hafter : ∀ x ∈ after, x.stubPair reqid = none) :
    events.filterMap (SaveEvent.stubPair reqid) =
      before.filterMap (SaveEvent.stubPair reqid) ++ [pair] := by
  rw [hsplit, filterMap_append, filterMap_cons_some hpair,
    filterMap_eq_nil_iff.mpr hafter]

/-- **Every rank has a stub that is not the last to report.** -/
theorem FanOutRun.reported_kvt (h : FanOutRun pTp d reqid events) (hlt : pTp < d.dstTpsize)
    (hdvd : pTp ∣ d.dstTpsize) (hsplit : events = before ++ e :: after)
    (hpair : e.stubPair reqid = some pair) (hafter : ∀ x ∈ after, x.stubPair reqid = none)
    (hrank : rank < pTp) : Reported reqid before rank "kvt" := by
  have hgroup := two_le_group hlt hdvd
  obtain ⟨j, hj, hne⟩ : ∃ j < d.dstTpsize / pTp,
      (rank, d.dstDprank * d.dstTpsize + rank * (d.dstTpsize / pTp) + j) ≠ pair := by
    by_cases h0 : (rank, d.dstDprank * d.dstTpsize + rank * (d.dstTpsize / pTp) + 0) = pair
    · refine ⟨1, by omega, fun h1 => ?_⟩
      have := congrArg Prod.snd (h0.trans h1.symm)
      simp at this
    · exact ⟨0, by omega, h0⟩
  have hmem : (rank, d.dstDprank * d.dstTpsize + rank * (d.dstTpsize / pTp) + j) ∈
      events.filterMap (SaveEvent.stubPair reqid) :=
    h.stubs.mem_iff.mpr ((mem_fanOut hlt hdvd).mpr ⟨hrank, j, hj, rfl⟩)
  rw [filterMap_stubPair_last hsplit hpair hafter] at hmem
  rcases mem_append.mp hmem with hmem | hmem
  · obtain ⟨x, hx, hxpair⟩ := mem_filterMap.mp hmem
    refine ⟨x, hx, SaveEvent.report_of_stubPair ?_ hxpair⟩
    rintro r target ioret rfl
    exact h.sourceless r target ioret (hsplit ▸ mem_append_left _ hx)
  · exact absurd (mem_singleton.mp hmem) hne

/-- A part of the events that leaves a stub to report ends before the last one does. -/
theorem reported_before_last {before' after' : List SaveEvent} {source : String}
    (hsplit : events = before ++ e :: after) (hafter : ∀ x ∈ after, x.stubPair reqid = none)
    (hsplit' : events = before' ++ after') (hreported : Reported reqid before' rank source)
    {x : SaveEvent} (hx : x ∈ after') (hxpair : x.stubPair reqid ≠ none) :
    Reported reqid before rank source := by
  obtain ⟨y, hy, hyrep⟩ := hreported
  rcases append_eq_append_iff.mp (hsplit'.symm.trans hsplit) with ⟨t, hbefore, -⟩ | ⟨t, ht, hrest⟩
  · exact ⟨y, hbefore ▸ mem_append_left t hy, hyrep⟩
  · cases t with
    | nil =>
      rw [append_nil] at ht
      exact ⟨y, ht ▸ hy, hyrep⟩
    | cons z t =>
      have hxafter : x ∈ after := (cons.inj hrest).2 ▸ mem_append_right t hx
      exact absurd (hafter x hxafter) hxpair

end Last

/-- **When the blocks outlive the transfer**: exactly when some other source of some worker is not
reported before the last stub is.  A fan-out has at least two stubs to a rank, so `"kvt"` itself is
reported by every rank before the last stub reports. -/
theorem savedAfterAll_iff {sources : List String} {s₀ s : SaveState} {kvblks : List (List ℕ)}
    {saveCount : ℕ} (hlt : s₀.tpSize < d.dstTpsize) (hdvd : s₀.tpSize ∣ d.dstTpsize)
    (hunknown : s₀.Unknown reqid) (hsetup : s₀.setupSave reqid kvblks saveCount sources = some s)
    (hrun : FanOutRun s₀.tpSize d reqid events) :
    SavedAfterAll s s₀.tpSize d reqid events ↔
      ∃ rank < s₀.tpSize, ∃ source ∈ sources, source ≠ "kvt" ∧
        ∀ before after, events = before ++ after → Reported reqid before rank source →
          ∀ e ∈ after, e.stubPair reqid = none := by
  have hp : 0 < s₀.tpSize :=
    Nat.pos_of_ne_zero fun h => by
      rw [h, zero_dvd_iff] at hdvd
      omega
  obtain ⟨hne, htp, hstart⟩ := tracks_setupSave hp hunknown hsetup
  have hfits := hrun.fits hlt hdvd
  have hdone : ∀ before after, events = before ++ after →
      ((s.run before).DeclaredDone reqid ↔ CompleteReports s₀.tpSize reqid sources before) := by
    intro before after hsplit
    exact (hstart.run hne htp fun e he => hfits e (hsplit ▸ mem_append_left after he)).declaredDone_iff
  have hall : ∀ pair ∈ fanOut s₀.tpSize d, pair ∈ events.filterMap (SaveEvent.stubPair reqid) :=
    fun pair hpair => hrun.stubs.mem_iff.mpr hpair
  constructor
  · intro hsafe
    by_contra hnone
    push Not at hnone
    obtain ⟨before, e, after, pair, hsplit, hpair, hafter⟩ := hrun.exists_last hlt hdvd hp
    -- before the last stub reports, the save is declared done all the same
    have hcomplete : CompleteReports s₀.tpSize reqid sources before := by
      intro rank hrank source hsource
      by_cases hother : source = "kvt"
      · exact hother ▸ hrun.reported_kvt hlt hdvd hsplit hpair hafter hrank
      · obtain ⟨before', after', hsplit', hreported, x, hx, hxpair⟩ :=
          hnone rank hrank source hsource hother
        exact reported_before_last hsplit hafter hsplit' hreported hx hxpair
    have hpairs := filterMap_stubPair_last hsplit hpair hafter
    have hmem : pair ∈ before.filterMap (SaveEvent.stubPair reqid) :=
      hsafe before (e :: after) hsplit ((hdone before (e :: after) hsplit).mpr hcomplete) pair
        (hrun.stubs.mem_iff.mp (hpairs ▸ mem_append_right _ (mem_singleton_self pair)))
    have hnodup : (before.filterMap (SaveEvent.stubPair reqid) ++ [pair]).Nodup :=
      hpairs ▸ hrun.stubs.nodup_iff.mpr (nodup_fanOut hlt hdvd)
    exact disjoint_of_nodup_append hnodup hmem (mem_singleton_self pair)
  · rintro ⟨rank, hrank, source, hsource, -, hlast⟩ before after hsplit hdeclared pair hpair
    have hreported := (hdone before after hsplit).mp hdeclared rank hrank source hsource
    obtain ⟨e, he, hepair⟩ := mem_filterMap.mp (hall pair hpair)
    rw [hsplit] at he
    rcases mem_append.mp he with hbefore | hafter
    · exact mem_filterMap.mpr ⟨e, hbefore, hepair⟩
    · rw [hlast before after hsplit hreported e hafter] at hepair
      cases hepair

/-- One P worker, two D workers. -/
def twoTargets : DInstId := ⟨"d", 0, 2, Nat.two_pos⟩

/-- The done message of request `"a"`. -/
def doneA : IoRet := .ofRecord 16 0 "a"

theorem fanOutRun_twoTargets {events : List SaveEvent}
    (hstubs : events.filterMap (SaveEvent.stubPair "a") = [(0, 0), (0, 1)])
    (hevents : ∀ e ∈ events, e = .stepSaved ∨ (∃ target, e = .saveDone2 0 target doneA) ∨
      e = .saveDone 0 { reqid := some "a", source := some "v6d_object" }) :
    FanOutRun 1 twoTargets "a" events where
  stubs := by
    rw [hstubs]
    decide
  sourceless := by
    intro rank target ioret he _
    rcases hevents _ he with h | ⟨target', h⟩ | h
    · cases h
    · obtain ⟨-, -, rfl⟩ := SaveEvent.saveDone2.inj h
      rfl
    · cases h
  others := by
    intro rank ioret he _
    rcases hevents _ he with h | ⟨target', h⟩ | h
    · cases h
    · cases h
    · obtain ⟨rfl, rfl⟩ := SaveEvent.saveDone.inj h
      exact ⟨by decide, by decide⟩
  once := by
    intro kvblks saveCount sources he
    rcases hevents _ he with h | ⟨target', h⟩ | h
    · cases h
    · cases h
    · cases h

/-- The state after request `"a"` was set up with these sources. -/
def savingA (sources : List String) : SaveState :=
  { tpSize := 1
    saving := Dict.empty.set "a"
      { signalsPerWorker := sources.length, expectedSources := sources, kvblks := [[7]] }
    blockOps := [.acquire "a" [[7]]] }

theorem unknown_empty (reqid : String) : SaveState.Unknown { tpSize := 1 } reqid :=
  ⟨rfl, not_mem_nil, fun ⟨_, h⟩ => absurd h not_mem_nil⟩

/-- Both stubs, then the other backend. -/
def v6dLast : List SaveEvent :=
  [.saveDone2 0 0 doneA, .stepSaved, .saveDone2 0 1 doneA,
    .saveDone 0 { reqid := some "a", source := some "v6d_object" }, .stepSaved]

/-- A second source that is reported last keeps the blocks until both stubs are done. -/
theorem savedAfterAll_v6dLast :
    SavedAfterAll (savingA ["kvt", "v6d_object"]) 1 twoTargets "a" v6dLast := by
  have hsetup : SaveState.setupSave { tpSize := 1 } "a" [[7]] 2 ["kvt", "v6d_object"] =
      some (savingA ["kvt", "v6d_object"]) := by decide +kernel
  have hlast : ∀ n ≤ v6dLast.length,
      (∃ e ∈ v6dLast.take n, e.report = some ("a", 0, "v6d_object")) →
        ∀ e ∈ v6dLast.drop n, e.stubPair "a" = none := by decide +kernel
  refine (savedAfterAll_iff (by decide) (by decide) (unknown_empty "a") hsetup
    (fanOutRun_twoTargets (by decide +kernel) (by simp [v6dLast]))).mpr
    ⟨0, by decide, "v6d_object", by decide, by decide, fun before after hsplit hreported => ?_⟩
  have h := hlast before.length (by rw [hsplit]; simp)
  rw [hsplit, take_left, drop_left] at h
  exact h hreported

/-- **A single source**: the first stub to report frees the blocks the second still reads. -/
theorem kvt_alone_not_savedAfterAll :
    SaveState.setupSave { tpSize := 1 } "a" [[7]] 1 ["kvt"] = some (savingA ["kvt"]) ∧
    FanOutRun 1 twoTargets "a" [.saveDone2 0 0 doneA, .stepSaved, .saveDone2 0 1 doneA] ∧
    .free "a" [[7]] ∈ ((savingA ["kvt"]).run [.saveDone2 0 0 doneA, .stepSaved]).blockOps ∧
    ¬SavedAfterAll (savingA ["kvt"]) 1 twoTargets "a"
      [.saveDone2 0 0 doneA, .stepSaved, .saveDone2 0 1 doneA] := by
  have hfree : .free "a" [[7]] ∈
      ((savingA ["kvt"]).run [.saveDone2 0 0 doneA, .stepSaved]).blockOps := by decide +kernel
  refine ⟨by decide +kernel, fanOutRun_twoTargets (by decide +kernel) (by simp), hfree, fun hsafe => ?_⟩
  have hmem := hsafe [.saveDone2 0 0 doneA, .stepSaved] [.saveDone2 0 1 doneA] rfl
    (.inr ⟨_, hfree⟩) (0, 1) (by decide)
  exact absurd hmem (by decide +kernel)

end FanOut

end LlumnixKv
