import LlumnixKv.Machinery.Quota
import LlumnixKv.Scheduler.Accounting

/-!
# Scheduler/Resends — done messages that arrive twice

    P worker r ──▸ stub for target 0 ──(rank r)──┐
               ──▸ stub for target 1 ──(rank r)──┼──▸ _do_send_done ──▸ worker_signals[r]
               …                                 ┘

A stub whose done message meets a socket error sends it a second time, though the first copy may
have been handled.  The entry of the request counts the messages of a rank and does not know their
targets: of each rank it takes the first `signals_per_worker` and drops the rest, whichever they are
(`Collected.run_keepFirst`).  So a second copy can take the place of a target that has not reported.
`successAfterAll_iff` says for exactly which arrival orders this cannot happen.
-/

open List Machinery

namespace LlumnixKv

/-! ## Arrivals -/

/-- The arrival of a copy of the done message of one fan-out target of a P rank. -/
structure Arrival where
  rank : ℕ
  target : ℕ
  deriving DecidableEq, Repr

/-- What a message says of the request; both copies say the same. -/
structure Said where
  plen : ℕ
  code : ℕ
  deriving DecidableEq, Repr

/-- A copy as `_do_send_done` sees it. -/
def Arrival.report (body : Arrival → Said) (a : Arrival) : DoneReport :=
  ⟨a.rank, (body a).plen, (body a).code⟩

/-- The messages of `pTp` ranks with `spw` targets each, every one once or twice. -/
def OnceOrTwice (pTp spw : ℕ) (arrivals : List Arrival) : Prop :=
  ∀ a : Arrival, if a.rank < pTp ∧ a.target < spw then arrivals.count a = 1 ∨ arrivals.count a = 2
    else arrivals.count a = 0

/-- The entry of the request after these arrivals. -/
def sendingAfter (pTp spw : ℕ) (reqid : String) (body : Arrival → Said) (arrivals : List Arrival) :
    SendingReq :=
  SendingReq.run { signalsPerWorker := spw } pTp reqid (arrivals.map (Arrival.report body))

/-- **Whenever the entry has resolved with success, every target of every rank has reported
success.** -/
def SuccessAfterAll (pTp spw : ℕ) (reqid : String) (body : Arrival → Said)
    (arrivals : List Arrival) : Prop :=
  ∀ (n : ℕ) (ioret : IoRet), (sendingAfter pTp spw reqid body (arrivals.take n)).fut = some ioret →
    ioret.ex = none → ∀ rank < pTp, ∀ target < spw,
      ⟨rank, target⟩ ∈ arrivals.take n ∧ (body ⟨rank, target⟩).code = 0

/-- The first copies that arrive from a rank, as many as it has targets. -/
def firstArrivals (spw : ℕ) (arrivals : List Arrival) (rank : ℕ) : List Arrival :=
  (arrivals.filter fun a => a.rank = rank).take spw

/-! ## What the entry takes -/

section Entry

variable {tpSize spw : ℕ} {reqid : String} {st : SendingReq} {reports : List DoneReport}

variable {io : IoState}

/-- A report that does not complete the group is filed. -/
theorem SendingReq.doSendDone_of_ne_done {r : DoneReport} {a : Advance}
    (hio : st.toIoState.tryAdvance (r.signal reqid) r.rank tpSize = (io, a)) (ha : a ≠ .done) :
    st.doSendDone tpSize r.rank (.ofRecord r.plen r.code reqid) = { st with toIoState := io } := by
  have hsignal : ({ IoRet.ofRecord r.plen r.code reqid with
      source := some ((IoRet.ofRecord r.plen r.code reqid).source.getD "kvt") } : IoRet) =
      r.signal reqid := rfl
  simp only [SendingReq.doSendDone, hsignal, hio]

/-- …and one that does is merged with the others. -/
theorem SendingReq.doSendDone_of_done {r : DoneReport} {merged : IoRet}
    (hio : st.toIoState.tryAdvance (r.signal reqid) r.rank tpSize = (io, .done))
    (hmerge : io.merge = some merged) :
    st.doSendDone tpSize r.rank (.ofRecord r.plen r.code reqid) =
      SendingReq.tryMarkDone { st with toIoState := io } merged := by
  have hsignal : ({ IoRet.ofRecord r.plen r.code reqid with
      source := some ((IoRet.ofRecord r.plen r.code reqid).source.getD "kvt") } : IoRet) =
      r.signal reqid := rfl
  simp only [SendingReq.doSendDone, hsignal, hio, hmerge]

/-- A report beyond the rank's number is dropped without a trace. -/
theorem Collected.doSendDone_of_full (h : Collected tpSize spw reqid st reports) (hspw : 0 < spw)
    (r : DoneReport) (hfull : spw ≤ reports.countP fun x => x.rank = r.rank) :
    st.doSendDone tpSize r.rank (.ofRecord r.plen r.code reqid) = st := by
  have hlen : spw ≤ (st.toIoState.signals r.rank).length := (h.lengths r.rank).symm ▸ hfull
  have hdrops : st.toIoState.drops (st.toIoState.signals r.rank) (r.signal reqid) = true := by
    rw [IoState.drops_of_count h.sources, h.perWorker]
    exact decide_eq_true hlen
  have hget : st.workerSignals.get? r.rank = some (st.toIoState.signals r.rank) := by
    rw [IoState.signals] at hlen ⊢
    cases hsigs : st.workerSignals.get? r.rank with
    | none =>
      rw [hsigs] at hlen
      exact absurd (hspw.trans_le hlen) (Nat.lt_irrefl 0)
    | some sigs => rfl
  have hfile : st.toIoState.file r.rank (st.toIoState.signals r.rank) = st.toIoState := by
    rw [IoState.file, Dict.set_of_get? hget]
  have hio : st.toIoState.tryAdvance (r.signal reqid) r.rank tpSize = (st.toIoState, .dropped) := by
    rw [IoState.tryAdvance_of_drops hdrops, hfile]
  exact SendingReq.doSendDone_of_ne_done hio (by simp)

/-- Where every rank has sent its number, the entry has resolved. -/
def Settled (tpSize spw : ℕ) (st : SendingReq) (reports : List DoneReport) : Prop :=
  (∀ rank < tpSize, spw ≤ reports.countP fun r => r.rank = rank) → st.fut ≠ none

/-- **The last report that was missing resolves the entry.** -/
theorem Collected.settled_doSendDone (h : Collected tpSize spw reqid st reports) (r : DoneReport)
    (hrank : r.rank < tpSize) (hroom : (reports.countP fun x => x.rank = r.rank) < spw) :
    Settled tpSize spw (st.doSendDone tpSize r.rank (.ofRecord r.plen r.code reqid))
      (reports ++ [r]) := by
  intro hfull
  have hafter := h.doSendDone r hrank hroom
  have hio := st.doSendDone_toIoState reqid tpSize r
  have hready : (st.toIoState.tryAdvance (r.signal reqid) r.rank tpSize).1.AllReady tpSize := by
    intro rank hlt
    rw [← hio, IoState.ready_of_count hafter.sources, hafter.perWorker, hafter.lengths]
    exact decide_eq_true (hfull rank hlt)
  have hbefore : ¬st.toIoState.AllReady tpSize := fun hall => by
    have := hall r.rank hrank
    rw [IoState.ready_of_count h.sources, h.perWorker, h.lengths] at this
    exact hroom.not_ge (of_decide_eq_true this)
  have hdone := (IoState.tryAdvance_done_iff (r.signal reqid) h.below hrank).mpr ⟨hbefore, hready⟩
  have hne : (st.doSendDone tpSize r.rank (.ofRecord r.plen r.code reqid)).toIoState.workerSignals.values.flatten
      ≠ [] := by
    intro hnil
    have hlen := hafter.signals.length_eq
    rw [hnil] at hlen
    simp at hlen
  obtain ⟨ret, rest, hmerge, -⟩ := IoState.exists_merge
    (IoState.AllReady.le_length (hio ▸ hready) hafter.sources hafter.below) hne
  rw [hio] at hmerge
  rw [SendingReq.doSendDone_of_done (Prod.ext rfl hdone) hmerge, SendingReq.tryMarkDone]
  cases st.fut with
  | none => simp
  | some _ => simp

/-- **Of each rank the entry takes the first reports, and drops the rest.** -/
theorem Collected.run_keepFirst (hspw : 0 < spw) : ∀ {later : List DoneReport} {st : SendingReq}
    {reports : List DoneReport}, Collected tpSize spw reqid st reports →
    Settled tpSize spw st reports → (∀ r ∈ later, r.rank < tpSize) →
    Collected tpSize spw reqid (st.run tpSize reqid later)
      (keepFirst DoneReport.rank spw reports later) ∧
    Settled tpSize spw (st.run tpSize reqid later) (keepFirst DoneReport.rank spw reports later)
  | [], st, reports, h, hsettled, _ => ⟨h, hsettled⟩
  | r :: later, st, reports, h, hsettled, hranks => by
      obtain ⟨hrank, hlater⟩ := forall_mem_cons.mp hranks
      rw [keepFirst, SendingReq.run, foldl_cons]
      split
      · next hroom =>
        exact (h.doSendDone r hrank hroom).run_keepFirst hspw (h.settled_doSendDone r hrank hroom) hlater
      · next hfull =>
        rw [h.doSendDone_of_full hspw r (Nat.not_lt.mp hfull)]
        exact h.run_keepFirst hspw hsettled hlater

theorem settled_nil (htp : 0 < tpSize) (hspw : 0 < spw) :
    Settled tpSize spw { signalsPerWorker := spw } [] :=
  fun hfull => absurd (hfull 0 htp) (Nat.not_le.mpr hspw)

/-- **While a rank owes a report, the entry does not resolve**, however many the others send. -/
theorem SendingReq.fut_eq_none_of_missing (reqid : String) (hspw : 0 < spw)
    (hranks : ∀ r ∈ reports, r.rank < tpSize) {rank : ℕ} (hrank : rank < tpSize)
    (hmissing : (reports.countP fun r => r.rank = rank) < spw) :
    (SendingReq.run { signalsPerWorker := spw } tpSize reqid reports).fut = none := by
  have hcollected := ((collected_nil tpSize spw reqid).run_keepFirst hspw
    (settled_nil (Nat.zero_lt_of_lt hrank) hspw) hranks).1
  refine Option.eq_none_iff_forall_ne_some.mpr fun ioret hfut => ?_
  have hfull := (hcollected.resolved ioret hfut).1 rank hrank
  rw [countP_eq_length_filter, filter_keepFirst_nil, length_take,
    ← countP_eq_length_filter] at hfull
  omega

/-- The merged result is a success exactly if every report it is made of is. -/
theorem Collected.ex_eq_none_iff (h : Collected tpSize spw reqid st reports) {ioret : IoRet}
    (hfut : st.fut = some ioret) : ioret.ex = none ↔ ∀ r ∈ reports, r.code = 0 := by
  refine ⟨fun hex => (h.merged hfut hex).1, fun hcodes => ?_⟩
  refine (h.merges hfut).ex.mpr fun wio hwio => ?_
  obtain ⟨r, hr, rfl⟩ := mem_map.mp hwio
  simp [DoneReport.signal, IoRet.ofRecord, hcodes r hr]

end Entry

/-! ## Arrival orders -/

section Orders

variable {pTp spw : ℕ} {reqid : String} {body : Arrival → Said} {arrivals : List Arrival}

variable {a : Arrival} {rank : ℕ}

theorem OnceOrTwice.rank_lt (h : OnceOrTwice pTp spw arrivals) (ha : a ∈ arrivals) :
    a.rank < pTp ∧ a.target < spw := by
  by_contra hnot
  have hcount := h a
  rw [if_neg hnot] at hcount
  exact absurd ha (count_eq_zero.mp hcount)

theorem OnceOrTwice.mem (h : OnceOrTwice pTp spw arrivals) {rank target : ℕ} (hrank : rank < pTp)
    (htarget : target < spw) : ⟨rank, target⟩ ∈ arrivals := by
  have hcount := h ⟨rank, target⟩
  rw [if_pos ⟨hrank, htarget⟩] at hcount
  exact count_pos_iff.mp (by omega)

theorem onceOrTwice_iff : OnceOrTwice pTp spw arrivals ↔
    (∀ a ∈ arrivals, (a.rank < pTp ∧ a.target < spw) ∧ arrivals.count a ≤ 2) ∧
      ∀ rank < pTp, ∀ target < spw, ⟨rank, target⟩ ∈ arrivals := by
  constructor
  · refine fun h => ⟨fun a ha => ⟨h.rank_lt ha, ?_⟩, fun rank hrank target => h.mem hrank⟩
    have hcount := h a
    rw [if_pos (h.rank_lt ha)] at hcount
    omega
  · rintro ⟨hof, hall⟩ a
    split
    · next hlt =>
      have hmem : a ∈ arrivals := hall a.rank hlt.1 a.target hlt.2
      have hle := (hof a hmem).2
      have hpos := count_pos_iff.mpr hmem
      omega
    · next hnot => exact count_eq_zero.mpr fun hmem => hnot (hof a hmem).1

instance : Decidable (OnceOrTwice pTp spw arrivals) := decidable_of_iff' _ onceOrTwice_iff

/-- The arrivals the entry has taken. -/
def taken (spw : ℕ) (arrivals : List Arrival) : List Arrival := keepFirst Arrival.rank spw [] arrivals

theorem keepFirst_reports (body : Arrival → Said) (arrivals : List Arrival) :
    keepFirst DoneReport.rank spw [] (arrivals.map (Arrival.report body)) =
      (taken spw arrivals).map (Arrival.report body) :=
  keepFirst_map (fun _ => rfl) arrivals []

theorem report_rank_lt (hranks : ∀ a ∈ arrivals, a.rank < pTp) :
    ∀ r ∈ arrivals.map (Arrival.report body), r.rank < pTp := by
  intro r hr
  obtain ⟨a, ha, rfl⟩ := mem_map.mp hr
  exact hranks a ha

theorem sendingAfter_collected (reqid : String) (body : Arrival → Said) (htp : 0 < pTp)
    (hspw : 0 < spw) (hranks : ∀ a ∈ arrivals, a.rank < pTp) :
    Collected pTp spw reqid (sendingAfter pTp spw reqid body arrivals)
      ((taken spw arrivals).map (Arrival.report body)) ∧
    Settled pTp spw (sendingAfter pTp spw reqid body arrivals)
      ((taken spw arrivals).map (Arrival.report body)) :=
  keepFirst_reports body arrivals ▸ (collected_nil pTp spw reqid).run_keepFirst hspw
    (settled_nil htp hspw) (report_rank_lt hranks)

theorem mem_taken : a ∈ taken spw arrivals ↔ a ∈ firstArrivals spw arrivals a.rank :=
  mem_keepFirst

theorem countP_taken (rank : ℕ) :
    (((taken spw arrivals).map (Arrival.report body)).countP fun r => r.rank = rank) =
      (firstArrivals spw arrivals rank).length := by
  rw [countP_map, firstArrivals, ← filter_keepFirst_nil, ← countP_eq_length_filter]
  rfl

theorem mem_firstArrivals (h : a ∈ firstArrivals spw arrivals rank) :
    a ∈ arrivals ∧ a.rank = rank := by
  obtain ⟨hmem, hrank⟩ := mem_filter.mp (mem_of_mem_take h)
  exact ⟨hmem, of_decide_eq_true hrank⟩

/-- Once a rank has sent its number, its first arrivals are what they are. -/
theorem firstArrivals_take {n rank : ℕ}
    (h : spw ≤ (firstArrivals spw (arrivals.take n) rank).length) :
    firstArrivals spw (arrivals.take n) rank = firstArrivals spw arrivals rank := by
  obtain ⟨later, hlater⟩ := (List.take_prefix n arrivals).filter fun a => a.rank = rank
  rw [firstArrivals, length_take] at h
  rw [firstArrivals, firstArrivals, ← hlater, take_append_of_le_length (by omega)]

theorem OnceOrTwice.length_firstArrivals (h : OnceOrTwice pTp spw arrivals)
    (hrank : rank < pTp) : (firstArrivals spw arrivals rank).length = spw := by
  have hcovers : ∀ target < spw,
      target ∈ (arrivals.filter fun a => a.rank = rank).map Arrival.target := fun target ht =>
    mem_map.mpr ⟨⟨rank, target⟩,
      mem_filter.mpr ⟨h.mem hrank ht, decide_eq_true rfl⟩, rfl⟩
  have hle := le_length_of_covers hcovers
  rw [length_map] at hle
  rw [firstArrivals, length_take, Nat.min_eq_left hle]

/-- **The first arrivals of a rank are of all its targets exactly if none is a second copy.** -/
theorem OnceOrTwice.nodup_iff (h : OnceOrTwice pTp spw arrivals) (hrank : rank < pTp) :
    (firstArrivals spw arrivals rank).Nodup ↔
      ∀ target < spw, ⟨rank, target⟩ ∈ firstArrivals spw arrivals rank := by
  have hof : ∀ a ∈ firstArrivals spw arrivals rank, a = ⟨rank, a.target⟩ := fun a ha => by
    obtain rfl := (mem_firstArrivals ha).2
    rfl
  have hlt : ∀ target ∈ (firstArrivals spw arrivals rank).map Arrival.target, target < spw := by
    intro target ht
    obtain ⟨a, ha, rfl⟩ := mem_map.mp ht
    exact (h.rank_lt (mem_firstArrivals ha).1).2
  have hmap : (firstArrivals spw arrivals rank).Nodup ↔
      ((firstArrivals spw arrivals rank).map Arrival.target).Nodup := by
    refine ⟨fun hn => hn.map_on fun a ha b hb hab => ?_, Nodup.of_map _⟩
    rw [hof a ha, hof b hb, hab]
  rw [hmap, nodup_iff_covers hlt (by rw [length_map, h.length_firstArrivals hrank])]
  refine forall₂_congr fun target _ => ⟨fun hmem => ?_, fun hmem => mem_map.mpr ⟨_, hmem, rfl⟩⟩
  obtain ⟨a, ha, rfl⟩ := mem_map.mp hmem
  exact hof a ha ▸ ha

/-- Without a second copy among the first arrivals, success is the success of all. -/
theorem successAfterAll_of_nodup (reqid : String) (body : Arrival → Said) (hspw : 0 < spw)
    (h : OnceOrTwice pTp spw arrivals)
    (hnodup : ∀ rank < pTp, (firstArrivals spw arrivals rank).Nodup) :
    SuccessAfterAll pTp spw reqid body arrivals := by
  intro n ioret hfut hex rank hrank target htarget
  have hranks : ∀ a ∈ arrivals.take n, a.rank < pTp := fun a ha =>
    (h.rank_lt (mem_of_mem_take ha)).1
  have hcollected := (sendingAfter_collected reqid body (Nat.zero_lt_of_lt hrank) hspw hranks).1
  have hfull := (hcollected.resolved ioret hfut).1 rank hrank
  rw [countP_taken] at hfull
  have hfirst := (h.nodup_iff hrank).mp (hnodup rank hrank) target htarget
  rw [← firstArrivals_take hfull] at hfirst
  refine ⟨(mem_firstArrivals hfirst).1, ?_⟩
  exact (hcollected.ex_eq_none_iff hfut).mp hex (Arrival.report body ⟨rank, target⟩)
    (mem_map_of_mem (mem_taken.mpr hfirst))

/-- The messages of all targets say success but one. -/
def allButOne (failed : Arrival) (a : Arrival) : Said := ⟨0, if a = failed then 500 else 0⟩

/-- If one target is not among the first arrivals of its rank, its failure is not heard. -/
theorem exists_success_of_missing (reqid : String) (htp : 0 < pTp) (hspw : 0 < spw)
    (h : OnceOrTwice pTp spw arrivals) (failed : Arrival)
    (hmissing : failed ∉ firstArrivals spw arrivals failed.rank) :
    ∃ ioret, (sendingAfter pTp spw reqid (allButOne failed) arrivals).fut = some ioret ∧
      ioret.ex = none := by
  have hranks : ∀ a ∈ arrivals, a.rank < pTp := fun a ha => (h.rank_lt ha).1
  obtain ⟨hcollected, hsettled⟩ := sendingAfter_collected reqid (allButOne failed) htp hspw hranks
  obtain ⟨ioret, hfut⟩ := Option.ne_none_iff_exists'.mp
    (hsettled fun rank hrank => by rw [countP_taken, h.length_firstArrivals hrank])
  refine ⟨ioret, hfut, (hcollected.ex_eq_none_iff hfut).mpr ?_⟩
  intro r hr
  obtain ⟨a, ha, rfl⟩ := mem_map.mp hr
  have hne : a ≠ failed := fun heq => hmissing (heq ▸ mem_taken.mp ha)
  exact if_neg hne

/-- **Success means the success of all targets, whatever the messages say, exactly for the arrival
orders in which no second copy comes among the first `d_tp / p_tp` arrivals of its rank.** -/
theorem successAfterAll_iff (reqid : String) {pTp dTp : ℕ} (hlt : pTp < dTp) (hdvd : pTp ∣ dTp)
    {arrivals : List Arrival} (h : OnceOrTwice pTp (kvtSignalsPerWorker pTp (some dTp)) arrivals) :
    (∀ body, SuccessAfterAll pTp (kvtSignalsPerWorker pTp (some dTp)) reqid body arrivals) ↔
      ∀ rank < pTp, (firstArrivals (dTp / pTp) arrivals rank).Nodup := by
  have htp : 0 < pTp := Nat.pos_of_dvd_of_pos hdvd (Nat.zero_lt_of_lt hlt)
  have hspw : kvtSignalsPerWorker pTp (some dTp) = dTp / pTp :=
    if_pos ⟨hlt, Nat.mod_eq_zero_of_dvd hdvd⟩
  rw [hspw] at h ⊢
  have hpos : 0 < dTp / pTp := Nat.div_pos hlt.le htp
  refine ⟨fun hall rank hrank => (h.nodup_iff hrank).mpr fun target htarget => ?_,
    fun hnodup body => successAfterAll_of_nodup reqid body hpos h hnodup⟩
  by_contra hmissing
  obtain ⟨ioret, hfut, hex⟩ := exists_success_of_missing reqid htp hpos h ⟨rank, target⟩ hmissing
  have hsuccess := hall (allButOne ⟨rank, target⟩) arrivals.length ioret
    (by rwa [take_length]) hex rank hrank target htarget
  exact absurd hsuccess.2 (by simp [allButOne])

/-- One P rank, two targets; the second copy of target 1 comes after both have reported. -/
theorem successAfterAll_late_copy :
    (1 < 2 ∧ 1 ∣ 2 ∧ OnceOrTwice 1 (kvtSignalsPerWorker 1 (some 2)) [⟨0, 1⟩, ⟨0, 0⟩, ⟨0, 1⟩]) ∧
    ∀ body, SuccessAfterAll 1 (kvtSignalsPerWorker 1 (some 2)) "a" body [⟨0, 1⟩, ⟨0, 0⟩, ⟨0, 1⟩] :=
  ⟨by decide, (successAfterAll_iff "a" (by decide) (by decide) (by decide)).mpr (by decide)⟩

/-- **A second copy passes for a target that has not reported**: target 0 reports success twice, and
the transfer to target 1, which then fails, counts as done. -/
theorem copy_counts_as_target :
    OnceOrTwice 1 (kvtSignalsPerWorker 1 (some 2)) [⟨0, 0⟩, ⟨0, 0⟩, ⟨0, 1⟩] ∧
    ¬SuccessAfterAll 1 (kvtSignalsPerWorker 1 (some 2)) "a" (allButOne ⟨0, 1⟩)
      [⟨0, 0⟩, ⟨0, 0⟩, ⟨0, 1⟩] := by
  refine ⟨by decide, fun h => ?_⟩
  have hfut : (sendingAfter 1 (kvtSignalsPerWorker 1 (some 2)) "a" (allButOne ⟨0, 1⟩)
      [⟨0, 0⟩, ⟨0, 0⟩]).fut = some { reqid := some "a", n := some 0, source := some "kvt" } := by
    decide +kernel
  exact absurd (h 2 _ hfut rfl 0 (by decide) 1 (by decide)).2 (by decide)

end Orders

end LlumnixKv
