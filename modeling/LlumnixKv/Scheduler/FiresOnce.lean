import LlumnixKv.Scheduler.Saving

/-!
# Scheduler/FiresOnce — one signal completes the group

    hist   =   (rank, signal), (rank, signal), …        in the order they are filed

What `try_advance` keeps of a history of signals is the first report of each worker on each source,
or as many signals of each worker as it waits for (`Tallies`).  So the group is ready exactly when
the history has all that is awaited, and the one signal that brings the rest is the one that is
answered with the state (`tryAdvance_firesOnce`).
-/

open List Machinery

namespace LlumnixKv

namespace IoState

/-! ## Histories of signals -/

/-- The state after a history of signals, each with the rank it came from. -/
def collect (st : IoState) (tpsize : ℕ) (hist : List (ℕ × IoRet)) : IoState :=
  hist.foldl (fun st x => (st.tryAdvance x.2 x.1 tpsize).1) st

/-- What `try_advance` made of each of them. -/
def answers (st : IoState) (tpsize : ℕ) : List (ℕ × IoRet) → List Advance
  | [] => []
  | x :: hist =>
    (st.tryAdvance x.2 x.1 tpsize).2 :: answers (st.tryAdvance x.2 x.1 tpsize).1 tpsize hist

/-- The history has all that the state waits for: every source from every rank, or so many signals. -/
def Awaited (st : IoState) (tpsize : ℕ) (hist : List (ℕ × IoRet)) : Prop :=
  ∀ rank < tpsize,
    if st.expectedSources = [] then st.signalsPerWorker ≤ hist.countP (fun x => x.1 = rank)
    else ∀ source ∈ st.expectedSources, ∃ x ∈ hist, x.1 = rank ∧ x.2.source = some source

instance (st : IoState) (tpsize : ℕ) (hist : List (ℕ × IoRet)) : Decidable (st.Awaited tpsize hist) :=
  inferInstanceAs (Decidable (∀ rank < tpsize, ite _ _ _))

end IoState

/-- The first signal of a rank on a source. -/
def firstReport (hist : List (ℕ × IoRet)) (rank : ℕ) (source : String) : Option IoRet :=
  (hist.find? fun x => x.1 = rank ∧ x.2.source = some source).map Prod.snd

/-- The state of a save after a history of signals. -/
def SavingReq.collect (st : SavingReq) (tpSize : ℕ) (hist : List (ℕ × IoRet)) : SavingReq :=
  hist.foldl (fun st x => st.advance x.2 x.1 tpSize) st

theorem firstReport_concat (hist : List (ℕ × IoRet)) (x : ℕ × IoRet) (rank : ℕ) (source : String) :
    firstReport (hist ++ [x]) rank source = (firstReport hist rank source).or
      (if x.1 = rank ∧ x.2.source = some source then some x.2 else none) := by
  rw [firstReport, find?_append, Option.map_or, firstReport, find?_singleton]
  by_cases h : x.1 = rank ∧ x.2.source = some source <;> simp [h]

variable {source : String} {hist : List (ℕ × IoRet)}

theorem isSome_firstReport {rank : ℕ} :
    (firstReport hist rank source).isSome = true ↔
      ∃ x ∈ hist, x.1 = rank ∧ x.2.source = some source := by
  simp [firstReport]

namespace IoState

/-! ## What is kept of a history -/

/-- What is kept of a history of signals. -/
structure Tallies (st₀ : IoState) (tpsize : ℕ) (hist : List (ℕ × IoRet)) (st : IoState) : Prop where
  sources : st.expectedSources = st₀.expectedSources
  perWorker : st.signalsPerWorker = st₀.signalsPerWorker
  below : st.RanksBelow tpsize
  length : st₀.expectedSources = [] → ∀ rank, (st.signals rank).length =
    min st₀.signalsPerWorker (hist.countP fun x => x.1 = rank)
  filed : ∀ source ∈ st₀.expectedSources, ∀ rank sig,
    (sig ∈ st.signals rank ∧ sig.source = some source) ↔ firstReport hist rank source = some sig

namespace Tallies

variable {st₀ st : IoState} {tpsize rank : ℕ} {hist : List (ℕ × IoRet)} {ioret : IoRet}

theorem refl (hfresh : st₀.workerSignals = .empty) (tpsize : ℕ) : Tallies st₀ tpsize [] st₀ := by
  have hnone : ∀ rank, st₀.signals rank = [] := fun rank => by
    rw [signals, hfresh, Dict.get?_empty, Option.getD_none]
  refine ⟨rfl, rfl, ?_, fun _ rank => by simp [hnone], fun source _ rank sig => ?_⟩
  · rw [RanksBelow, hfresh]
    exact fun _ hmem => absurd hmem not_mem_nil
  · simp [hnone, firstReport]

variable (h : Tallies st₀ tpsize hist st)
include h

theorem reports_iff (hsource : source ∈ st₀.expectedSources) (rank : ℕ) :
    st.Reports rank source ↔ (firstReport hist rank source).isSome = true := by
  rw [Option.isSome_iff_exists]
  exact exists_congr (h.filed source hsource rank)

/-- **The group is ready when the history has all that is awaited.** -/
theorem allReady_iff : st.AllReady tpsize ↔ st₀.Awaited tpsize hist := by
  by_cases hsources : st₀.expectedSources = []
  · refine forall₂_congr fun rank _ => ?_
    rw [if_pos hsources, ready_of_count (h.sources.trans hsources), h.length hsources, h.perWorker,
      decide_eq_true_eq, le_min_iff]
    exact and_iff_right le_rfl
  · rw [allReady_iff_reports (h.sources ▸ hsources)]
    refine forall₂_congr fun rank _ => ?_
    rw [if_neg hsources, h.sources]
    exact forall₂_congr fun source hsource =>
      (h.reports_iff hsource rank).trans isSome_firstReport

/-- A signal that is dropped is nobody's first report. -/
theorem firstReport_of_drops (hsource : source ∈ st₀.expectedSources)
    (hd : st.drops (st.signals rank) ioret = true) (r : ℕ) :
    firstReport (hist ++ [(rank, ioret)]) r source = firstReport hist r source := by
  rw [firstReport_concat]
  split
  · next hx =>
    obtain ⟨rfl, hioret⟩ := hx
    have hreports := (drops_iff_reports (h.sources ▸ hsource) hioret).mp hd
    exact Option.or_of_isSome ((h.reports_iff hsource _).mp hreports)
  · exact Option.or_none

theorem step (ioret : IoRet) (hrank : rank < tpsize) :
    Tallies st₀ tpsize (hist ++ [(rank, ioret)]) (st.tryAdvance ioret rank tpsize).1 where
  sources := (congrArg expectedSources (tryAdvance_fst st ioret rank tpsize)).trans h.sources
  perWorker := (congrArg signalsPerWorker (tryAdvance_fst st ioret rank tpsize)).trans h.perWorker
  below := h.below.tryAdvance hrank
  length := fun hsources r => by
    have hlen := h.length hsources r
    have hdrops : ∀ sigs, st.drops sigs ioret = decide (st.signalsPerWorker ≤ sigs.length) :=
      fun _ => drops_of_count (h.sources.trans hsources)
    rw [tryAdvance_fst, signals_file, countP_append, countP_singleton, hdrops, h.perWorker]
    grind
  filed := fun source hsource r sig => by
    have hfiled := h.filed source hsource r
    have hdrops : ioret.source = some source → (st.drops (st.signals rank) ioret = true ↔
        ∃ sig ∈ st.signals rank, sig.source = some source) := drops_iff_reports (h.sources ▸ hsource)
    rw [tryAdvance_fst, signals_file, firstReport_concat]
    -- the rank's first report on the source is known, or this is it
    cases hfirst : firstReport hist r source <;> grind

theorem collect : ∀ (more : List (ℕ × IoRet)),
    (∀ x ∈ more, x.1 < tpsize) → Tallies st₀ tpsize (hist ++ more) (st.collect tpsize more) := by
  intro more
  induction more generalizing hist st with
  | nil => exact fun _ => (append_nil hist).symm ▸ h
  | cons x more ih =>
    intro hranks
    rw [append_cons]
    exact ih (h.step x.2 (hranks x mem_cons_self)) fun y hy => hranks y (mem_cons_of_mem x hy)

/-- The signal that brings the last of what is awaited. -/
theorem done_iff (ioret : IoRet) (hrank : rank < tpsize) :
    (st.tryAdvance ioret rank tpsize).2 = .done ↔
      st₀.Awaited tpsize (hist ++ [(rank, ioret)]) ∧ ¬st₀.Awaited tpsize hist := by
  rw [tryAdvance_done_iff ioret h.below hrank, (h.step ioret hrank).allReady_iff, h.allReady_iff]
  exact and_comm

end Tallies

/-- What is awaited does not go away. -/
theorem Awaited.append {st : IoState} {tpsize : ℕ} (h : st.Awaited tpsize hist)
    (more : List (ℕ × IoRet)) : st.Awaited tpsize (hist ++ more) := by
  intro rank hrank
  have hbefore := h rank hrank
  split at hbefore
  · next hsources =>
    rw [if_pos hsources, countP_append]
    exact hbefore.trans (Nat.le_add_right _ _)
  · next hsources =>
    rw [if_neg hsources]
    intro source hsource
    obtain ⟨x, hx, hreport⟩ := hbefore source hsource
    exact ⟨x, mem_append_left more hx, hreport⟩

/-- Of all the signals still to come one completes the group, if it is not complete and will be. -/
theorem Tallies.count_answers {st₀ : IoState} {tpsize : ℕ} : ∀ (more : List (ℕ × IoRet))
    {hist : List (ℕ × IoRet)} {st : IoState}, Tallies st₀ tpsize hist st →
    (∀ x ∈ more, x.1 < tpsize) → (st.answers tpsize more).count .done =
      if st₀.Awaited tpsize (hist ++ more) ∧ ¬st₀.Awaited tpsize hist then 1 else 0
  | [], hist, st, _, _ => by simp [answers]
  | x :: more, hist, st, h, hranks => by
      have hrank := hranks x mem_cons_self
      have hrest := count_answers more (h.step x.2 hrank) fun y hy =>
        hranks y (mem_cons_of_mem x hy)
      have hdone := h.done_iff x.2 hrank
      rw [answers, count_cons, hrest, append_cons]
      by_cases hbefore : st₀.Awaited tpsize hist
      · have hnow := hbefore.append [x]
        simp [hdone, hbefore, hnow]
      · by_cases hnow : st₀.Awaited tpsize (hist ++ [x])
        · have hall := hnow.append more
          rw [← append_cons] at hall
          simp [hdone, hbefore, hnow, hall]
        · simp [hdone, hbefore, hnow]

end IoState

/-! ## The save's sources -/

namespace SavingReq

variable {tpSize rank : ℕ} {hist : List (ℕ × IoRet)} {ioret : IoRet} {st₀ : IoState} {st : SavingReq}

/-- What `source_done_times` and `source_failed` hold of a source. -/
def doneEntry (sources : List String) (tpSize : ℕ) (hist : List (ℕ × IoRet)) (source : String) :
    Option Bool :=
  if source ∈ sources ∧ hist ≠ [] ∧ ∀ rank < tpSize, (firstReport hist rank source).isSome = true then
    some (decide (∃ rank < tpSize, (firstReport hist rank source).any (·.n = some 0) = true))
  else none

theorem sourceDoneForAllWorkers_iff (st : SavingReq) (h : st₀.Tallies tpSize hist st.toIoState)
    (hsource : source ∈ st₀.expectedSources) :
    st.sourceDoneForAllWorkers tpSize source = true ↔
      ∀ rank < tpSize, (firstReport hist rank source).isSome = true := by
  simp only [sourceDoneForAllWorkers, all_eq_true, mem_range, any_eq_true, beq_iff_eq,
    ← h.reports_iff hsource, IoState.Reports]

theorem isSourceFailed_iff (st : SavingReq) (h : st₀.Tallies tpSize hist st.toIoState)
    (hsource : source ∈ st₀.expectedSources) :
    st.isSourceFailed source = true ↔
      ∃ rank < tpSize, (firstReport hist rank source).any (·.n = some 0) = true := by
  simp only [isSourceFailed, any_eq_true, Bool.and_eq_true, beq_iff_eq, Option.any_eq_true,
    decide_eq_true_eq]
  constructor
  · rintro ⟨sigs, hsigs, sig, hsig, hsrc, hn⟩
    obtain ⟨⟨rank, sigs⟩, hmem, rfl⟩ := mem_map.mp hsigs
    have hget : st.toIoState.signals rank = sigs := by
      rw [IoState.signals, Dict.get?_eq_some.mpr hmem, Option.getD_some]
    refine ⟨rank, h.below rank (mem_map_of_mem hmem), sig, ?_, hn⟩
    exact (h.filed source hsource rank sig).mp ⟨hget.symm ▸ hsig, hsrc⟩
  · rintro ⟨rank, -, sig, hsig, hn⟩
    obtain ⟨hmem, hsrc⟩ := (h.filed source hsource rank sig).mpr hsig
    rw [IoState.signals] at hmem
    cases hget : st.workerSignals.get? rank with
    | none => simp [hget] at hmem
    | some sigs =>
      rw [hget, Option.getD_some] at hmem
      exact ⟨sigs, mem_map_of_mem (Dict.get?_eq_some.mp hget), sig, hmem, hsrc, hn⟩

/-- A signal that is dropped changes no entry … -/
theorem advance_of_drops (h : st.toIoState.drops (st.toIoState.signals rank) ioret = true) :
    (st.advance ioret rank tpSize).sourceFailed = st.sourceFailed := by
  rw [advance, IoState.tryAdvance_of_drops h]

/-- …and one that is filed runs the callback. -/
theorem advance_of_not_drops (h : st.toIoState.drops (st.toIoState.signals rank) ioret = false) :
    st.advance ioret rank tpSize = markSaveSourceDoneTime
      { st with toIoState := (st.toIoState.tryAdvance ioret rank tpSize).1 } tpSize ioret := by
  rw [advance, IoState.tryAdvance_of_not_drops h]
  dsimp only
  split
  · next hadv => split at hadv <;> cases hadv
  · rfl

/-- **A signal enters its source when it is the last rank's**, and no other. -/
theorem doneEntry_advance (h : st₀.Tallies tpSize hist st.toIoState) (hrank : rank < tpSize)
    (hne : st₀.expectedSources ≠ [])
    (hentries : ∀ source, st.sourceFailed.get? source = doneEntry st₀.expectedSources tpSize hist source)
    (source : String) :
    (st.advance ioret rank tpSize).sourceFailed.get? source =
      doneEntry st₀.expectedSources tpSize (hist ++ [(rank, ioret)]) source := by
  have hstep := h.step ioret hrank
  -- a source whose first reports stay the same has the same entry
  have hkeep (hsame : source ∈ st₀.expectedSources → ∀ r,
      firstReport (hist ++ [(rank, ioret)]) r source = firstReport hist r source) :
      doneEntry st₀.expectedSources tpSize (hist ++ [(rank, ioret)]) source =
        doneEntry st₀.expectedSources tpSize hist source := by
    by_cases hsource : source ∈ st₀.expectedSources
    · have hne : (∀ r < tpSize, (firstReport hist r source).isSome = true) → hist ≠ [] := by
        rintro hall rfl
        cases hall rank hrank
      simp only [doneEntry, hsame hsource, hsource, true_and]
      exact if_congr ⟨fun hall => ⟨hne hall.2, hall.2⟩, fun hall => ⟨by simp, hall.2⟩⟩ rfl rfl
    · simp [doneEntry, hsource]
  cases hd : st.toIoState.drops (st.toIoState.signals rank) ioret with
  | true =>
    rw [advance_of_drops hd]
    exact (hentries source).trans (hkeep fun hsource => h.firstReport_of_drops hsource hd).symm
  | false =>
    -- the signal is filed, the rank's first on an expected source: that one has no entry yet
    obtain ⟨src, hioret, hsrc⟩ : ∃ src, ioret.source = some src ∧ src ∈ st₀.expectedSources := by
      have hsources := h.sources
      cases hioret : ioret.source <;> grind [IoState.drops]
    have hnot := (IoState.drops_iff_reports (h.sources ▸ hsrc) hioret).not.mp (hd ▸ Bool.false_ne_true)
    have hnone : st.sourceFailed.get? src = none := (hentries src).trans
      (if_neg fun hall => hnot ((h.reports_iff hsrc rank).mpr (hall.2.2 rank hrank)))
    have hdone := sourceDoneForAllWorkers_iff
      { st with toIoState := (st.toIoState.tryAdvance ioret rank tpSize).1 } hstep hsrc
    have hfailed := isSourceFailed_iff
      { st with toIoState := (st.toIoState.tryAdvance ioret rank tpSize).1 } hstep hsrc
    rw [advance_of_not_drops hd, markSaveSourceDoneTime, hioret]
    dsimp only
    rw [hnone, Option.isSome_none, if_neg Bool.false_ne_true]
    by_cases hsource : source = src
    · subst hsource
      by_cases hall : ∀ r < tpSize, (firstReport (hist ++ [(rank, ioret)]) r source).isSome = true
      · rw [if_pos (hdone.mpr hall), Dict.get?_set_self, doneEntry, if_pos ⟨hsrc, by simp, hall⟩]
        exact congrArg some (Bool.eq_iff_iff.mpr (hfailed.trans decide_eq_true_iff.symm))
      · rw [if_neg fun h => hall (hdone.mp h), doneEntry, if_neg fun h => hall h.2.2]
        exact hnone
    · have hsame := hkeep fun _ r => by grind [firstReport_concat]
      grind [Dict.get?_set_ne]

theorem doneEntry_collect (hne : st₀.expectedSources ≠ []) : ∀ (more : List (ℕ × IoRet))
    {hist : List (ℕ × IoRet)} {st : SavingReq}, st₀.Tallies tpSize hist st.toIoState →
    (∀ source, st.sourceFailed.get? source = doneEntry st₀.expectedSources tpSize hist source) →
    (∀ x ∈ more, x.1 < tpSize) → ∀ source, (st.collect tpSize more).sourceFailed.get? source =
      doneEntry st₀.expectedSources tpSize (hist ++ more) source
  | [], hist, st, _, hentries, _, source => by rw [append_nil]; exact hentries source
  | x :: more, hist, st, h, hentries, hranks, source => by
      have hrank := hranks x mem_cons_self
      have hstep := h.step x.2 hrank
      rw [← advance_toIoState] at hstep
      rw [append_cons]
      exact doneEntry_collect hne more hstep (doneEntry_advance h hrank hne hentries)
        (fun y hy => hranks y (mem_cons_of_mem x hy)) source

end SavingReq

/-- **One signal completes the group.**  Of all the signals that come, `try_advance` answers with the
state the one that brings the last of what is awaited and no other; and a save's source is entered
when every rank has reported it, as failed if one of these reports has `n == 0`. -/
theorem tryAdvance_firesOnce (tpsize : ℕ) (st : IoState) (hfresh : st.workerSignals = .empty)
    (hist : List (ℕ × IoRet)) (hranks : ∀ x ∈ hist, x.1 < tpsize) :
    (∀ before x after, hist = before ++ x :: after →
      (((st.collect tpsize before).tryAdvance x.2 x.1 tpsize).2 = .done ↔
        st.Awaited tpsize (before ++ [x]) ∧ ¬st.Awaited tpsize before)) ∧
    (st.answers tpsize hist).count .done =
      (if st.Awaited tpsize hist ∧ ¬st.Awaited tpsize [] then 1 else 0) ∧
    ∀ kvblks, st.expectedSources ≠ [] → ∀ source,
      (SavingReq.collect { toIoState := st, kvblks } tpsize hist).sourceFailed.get? source =
        SavingReq.doneEntry st.expectedSources tpsize hist source := by
  have hstart := IoState.Tallies.refl hfresh tpsize
  refine ⟨fun before x after heq => ?_, hstart.count_answers hist hranks, fun kvblks hne source => ?_⟩
  · subst heq
    have hbefore := hstart.collect before fun y hy => hranks y (mem_append_left _ hy)
    exact hbefore.done_iff x.2 (hranks x (by simp))
  · have hnone : ∀ source, ({ toIoState := st, kvblks } : SavingReq).sourceFailed.get? source =
        SavingReq.doneEntry st.expectedSources tpsize [] source := fun source => by
      simp [SavingReq.doneEntry]
    exact SavingReq.doneEntry_collect hne hist hstart hnone hranks source

/-- …here of a save that waits for two sources from two ranks, one report being repeated. -/
theorem tryAdvance_firesOnce_twoSources :
    (IoState.answers { signalsPerWorker := 2, expectedSources := ["kvt", "v6d"] } 2
      [(0, { source := some "kvt" }), (0, { source := some "kvt", n := some 0 }),
        (1, { source := some "v6d" }), (1, { source := some "kvt" }),
        (0, { source := some "v6d", n := some 0 }), (1, { source := some "v6d" })]).count .done = 1 :=
  (tryAdvance_firesOnce 2 { signalsPerWorker := 2, expectedSources := ["kvt", "v6d"] } rfl _
    (by decide)).2.1.trans (if_pos (by decide))

end LlumnixKv
