import LlumnixKv.Scheduler.Signals
import Mathlib.Data.List.MinMax

/-!
# Scheduler/Accounting — how many tokens a remote load brings

    P workers ──(plen, code)──▸ _do_send_done ──merge──▸ _wait_kvt_state
                                                              │ KVTResp(code, cached)
    D scheduler ◂── _step_loaded ◂── async_update_state_after_alloc

The number of tokens D counts as computed starts as the `plen` of a done record and passes through
the merge over the P workers, the answer to D's request and two clamps on D.  `loaded_eq_min` follows
it from end to end: a load that ends well ends at the least `plen`, or at what D asked for if that is
less.
-/

open List Machinery

namespace LlumnixKv

open IoState

/-! ## P: collecting the reports -/

/-- `_kvt_signals_per_worker`, of the third part of D's instance id if that is a number. -/
def kvtSignalsPerWorker (pTp : ℕ) : Option ℕ → ℕ
  | none => 1
  | some dTp => if pTp < dTp ∧ dTp % pTp = 0 then dTp / pTp else 1

/-- `_SendingReq`; `fut` is the result of its future. -/
structure SendingReq extends IoState where
  fut : Option IoRet := none
  deriving DecidableEq, Repr

variable (st : SendingReq)

/-- `try_mark_done`. -/
def SendingReq.tryMarkDone (ioret : IoRet) : SendingReq :=
  match st.fut with
  | some _ => st
  | none => { st with fut := some ioret }

/-- `_do_send_done`, for the entry of `_sending` under the request's id. -/
def SendingReq.doSendDone (tpSize workerTprank : ℕ) (ioret : IoRet) : SendingReq :=
  let signal := { ioret with source := some (ioret.source.getD "kvt") }
  let io := st.toIoState.tryAdvance signal workerTprank tpSize
  let st' := { st with toIoState := io.1 }
  match io.2 with
  | .done =>
    match st'.merge with
    | some merged => st'.tryMarkDone merged
    | none => st'
  | _ => st'

/-- A done record of one request, and the rank of the worker that sent it. -/
structure DoneReport where
  rank : ℕ
  plen : ℕ
  code : ℕ
  deriving DecidableEq, Repr

/-- The reports as they arrive at the entry of the request. -/
def SendingReq.run (tpSize : ℕ) (reqid : String) (reports : List DoneReport) : SendingReq :=
  reports.foldl (fun st r => st.doSendDone tpSize r.rank (.ofRecord r.plen r.code reqid)) st

/-- `KVTResp`, less what D only logs. -/
structure KVTResp where
  code : ℕ
  cached : ℤ
  deriving DecidableEq, Repr

/-- `_wait_kvt_state`: the answer made of the future's result. -/
def waitKvtState (ioret : IoRet) : KVTResp where
  code := match ioret.ex with
    | none => 0
    | some (.codeError code _) => code
    | some (.other _) => 500
  cached := ioret.n.getD 0

/-! ## D: asking and counting -/

/-- How one call of `_kvt_rpc` ends. -/
inductive RpcOutcome
  | resp (r : KVTResp)
  | raised (msg : String)
  deriving DecidableEq, Repr

/-- `_prefill_rpc`, on the outcome of its one call. -/
def prefillRpc : List RpcOutcome → Option (Except String ℤ)
  | [] => none
  | .raised msg :: _ => some (.error msg)
  | .resp r :: _ => if r.code = 0 then some (.ok r.cached) else some (.error "bad resp")

/-- `_dual_req_prefill_rpc`: up to `retries` calls, a new one after each `CODE_REQNOTFOUND`; `none`
while the next call has not ended. -/
def dualReqPrefillRpc : ℕ → List RpcOutcome → Option (Except String ℤ)
  | 0, _ => some (.error "bad 404 resp")
  | _ + 1, [] => none
  | _ + 1, .raised msg :: _ => some (.error msg)
  | retries + 1, .resp r :: outcomes =>
    if r.code = 0 then some (.ok r.cached)
    else if r.code = 404 then dualReqPrefillRpc retries outcomes
    else if r.code = 410 then some (.error "kv gone on P")
    else some (.error "bad resp")

/-- The part of a request and of its parameters that a load reads. -/
structure LoadReq where
  numComputedTokens : ℤ
  numExternalComputedTokens : ℤ
  numPromptTokens : ℤ
  maxComputedTokens : Option ℤ
  /-- `req_aborted` -/
  aborted : Bool
  /-- `D_REMOTE_PREFILL` -/
  remotePrefill : Bool
  deriving DecidableEq, Repr

/-- `async_update_state_after_alloc`; the outer `none` while a call has not ended. -/
def asyncUpdateStateAfterAlloc (req : LoadReq) (rmtTokens : ℤ) (retries : ℕ)
    (outcomes : List RpcOutcome) : Option (Option IoRet) :=
  if rmtTokens ≤ 0 then some none
  else
    let call := if req.remotePrefill then dualReqPrefillRpc retries outcomes else prefillRpc outcomes
    call.map fun
      | .ok cached => some { n := some (min (cached - req.numComputedTokens) rmtTokens) }
      | .error msg => some { n := some 0, ex := some (.other msg) }

/-- What `_on_add_req` hands to `mark_loaded`. -/
def onAddReq (rmtTokens : ℤ) (ioret : Option IoRet) : Option IoRet :=
  ioret.map fun ret => { ret with n := some (ret.n.getD rmtTokens) }

/-- What `_step_loaded` makes of a request. -/
structure Loaded where
  req : LoadReq
  /-- the exception of the load -/
  ex : Option Exn
  /-- appended to `_stop0` -/
  stop0 : Bool
  /-- `sched_cache_blocks` was called -/
  cached : Bool
  /-- aborted with reason `load fail` -/
  loadFailed : Bool
  deriving DecidableEq, Repr

/-- `_step_loaded`, for a request that was in `_loading`; `none` is the failed assertion that
`max_computed` is below the prompt length. -/
def stepLoaded (enablePrefixCaching : Bool) (req : LoadReq) (hbIoret : Option IoRet) : Option Loaded :=
  let ioret := hbIoret.getD { n := some 0 }
  let n := ioret.n.getD 0
  let computed := req.numComputedTokens + n
  let req' := { req with
    numComputedTokens := computed
    numExternalComputedTokens := req.numExternalComputedTokens + n }
  let loadFailed := ioret.ex.isSome || req.aborted
  match req.maxComputedTokens with
  | none => some { req := req', ex := ioret.ex, stop0 := false, cached := false, loadFailed }
  | some maxComputed =>
    if maxComputed < req.numPromptTokens then
      let willStop0 := decide (maxComputed ≤ computed)
      some {
        req := if willStop0 then { req' with maxComputedTokens := some computed } else req'
        ex := ioret.ex
        stop0 := willStop0
        cached := !loadFailed && decide (0 < n) && enablePrefixCaching && decide (0 < computed) &&
          willStop0
        loadFailed }
    else none

/-- The load of a request on D, from its allocation to the scheduler; `none` while it has not
ended. -/
def remoteLoad (enablePrefixCaching : Bool) (req : LoadReq) (rmtTokens : ℤ) (retries : ℕ)
    (outcomes : List RpcOutcome) : Option Loaded :=
  (asyncUpdateStateAfterAlloc req rmtTokens retries outcomes).bind fun ioret =>
    stepLoaded enablePrefixCaching req (onAddReq rmtTokens ioret)

/-! ## The merged report -/

section Reports

variable {tpSize spw : ℕ} {reqid : String} {st : SendingReq} {reports : List DoneReport}
  {ioret : IoRet}

/-- The signal a report is filed as. -/
def DoneReport.signal (reqid : String) (r : DoneReport) : IoRet :=
  { IoRet.ofRecord r.plen r.code reqid with source := some "kvt" }

/-- What the entry of a request knows after these reports. -/
structure Collected (tpSize spw : ℕ) (reqid : String) (st : SendingReq) (reports : List DoneReport) :
    Prop where
  sources : st.expectedSources = []
  perWorker : st.signalsPerWorker = spw
  below : st.RanksBelow tpSize
  lengths : ∀ rank, (st.signals rank).length = reports.countP fun r => r.rank = rank
  signals : st.workerSignals.values.flatten.Perm (reports.map (DoneReport.signal reqid))
  /-- the future is resolved once no report is missing, with all of them merged -/
  resolved : ∀ ioret, st.fut = some ioret →
    (∀ rank < tpSize, spw ≤ reports.countP fun r => r.rank = rank) ∧
    ∃ ret rest, ioret = mergeLoop ret rest ∧
      (ret :: rest).Perm (reports.map (DoneReport.signal reqid))

theorem SendingReq.tryMarkDone_toIoState (st : SendingReq) (ioret : IoRet) :
    (st.tryMarkDone ioret).toIoState = st.toIoState := by
  unfold SendingReq.tryMarkDone
  split <;> rfl

theorem SendingReq.doSendDone_toIoState (st : SendingReq) (reqid : String) (tpSize : ℕ)
    (r : DoneReport) :
    (st.doSendDone tpSize r.rank (.ofRecord r.plen r.code reqid)).toIoState =
      (st.toIoState.tryAdvance (r.signal reqid) r.rank tpSize).1 := by
  simp only [SendingReq.doSendDone]
  split
  · split
    · exact SendingReq.tryMarkDone_toIoState _ _
    · rfl
  · rfl

/-- A report resolves an unresolved future if it is the last one missing. -/
theorem SendingReq.doSendDone_fut (hfut : st.fut = none) (r : DoneReport)
    (h : (st.doSendDone tpSize r.rank (.ofRecord r.plen r.code reqid)).fut = some ioret) :
    (st.toIoState.tryAdvance (r.signal reqid) r.rank tpSize).2 = .done ∧
    (st.toIoState.tryAdvance (r.signal reqid) r.rank tpSize).1.merge = some ioret := by
  simp only [SendingReq.doSendDone] at h
  split at h
  · next hdone =>
    split at h
    · next merged hmerged =>
      simp only [SendingReq.tryMarkDone, hfut] at h
      exact ⟨hdone, hmerged.trans h⟩
    · cases hfut.symm.trans h
  · cases hfut.symm.trans h

theorem collected_nil (tpSize spw : ℕ) (reqid : String) :
    Collected tpSize spw reqid { signalsPerWorker := spw } [] where
  sources := rfl
  perWorker := rfl
  below := fun _ h => absurd h not_mem_nil
  lengths := fun _ => rfl
  signals := .nil
  resolved := fun _ h => absurd h nofun

/-- **One report more.** -/
theorem Collected.doSendDone (h : Collected tpSize spw reqid st reports) (r : DoneReport)
    (hrank : r.rank < tpSize) (hroom : (reports.countP fun x => x.rank = r.rank) < spw) :
    Collected tpSize spw reqid (st.doSendDone tpSize r.rank (.ofRecord r.plen r.code reqid))
      (reports ++ [r]) := by
  have hdrops : st.toIoState.drops (st.toIoState.signals r.rank) (r.signal reqid) = false := by
    rw [drops_of_count h.sources, h.perWorker, h.lengths]
    exact decide_eq_false hroom.not_ge
  have hio : (st.toIoState.tryAdvance (r.signal reqid) r.rank tpSize).1 =
      st.toIoState.file r.rank (st.toIoState.signals r.rank ++ [r.signal reqid]) := by
    rw [tryAdvance_of_not_drops hdrops]
  have hio' := (st.doSendDone_toIoState reqid tpSize r).trans hio
  have hlengths : ∀ rank, ((st.toIoState.file r.rank
      (st.toIoState.signals r.rank ++ [r.signal reqid])).signals rank).length =
      (reports ++ [r]).countP fun x => x.rank = rank := by
    intro rank
    rw [signals_file, countP_append, countP_singleton]
    by_cases hr : rank = r.rank
    · simp [hr, h.lengths]
    · simp [hr, Ne.symm hr, h.lengths]
  have hsignals : (st.toIoState.file r.rank
      (st.toIoState.signals r.rank ++ [r.signal reqid])).workerSignals.values.flatten.Perm
      ((reports ++ [r]).map (DoneReport.signal reqid)) := by
    rw [map_append]
    exact (flatten_file_perm st.toIoState r.rank (r.signal reqid)).trans
      ((h.signals.cons _).trans (perm_append_singleton _ _).symm)
  have hfut : st.fut = none := by
    refine Option.eq_none_iff_forall_ne_some.mpr fun ioret hio => ?_
    exact absurd ((h.resolved ioret hio).1 r.rank hrank) hroom.not_ge
  refine ⟨hio' ▸ h.sources, hio' ▸ h.perWorker, hio' ▸ h.below.file hrank _, hio' ▸ hlengths,
    hio' ▸ hsignals, fun ioret hioret => ?_⟩
  obtain ⟨hdone, hmerge⟩ := SendingReq.doSendDone_fut hfut r hioret
  have hready := ((tryAdvance_done_iff (r.signal reqid) h.below hrank).mp hdone).2
  rw [hio] at hready hmerge
  refine ⟨fun rank hlt => ?_, ?_⟩
  · have hrankReady := hready rank hlt
    rw [file_ready, ready_of_count h.sources, h.perWorker, hlengths] at hrankReady
    exact of_decide_eq_true hrankReady
  · obtain ⟨ret, rest, hmerged, hflat⟩ := exists_merge
      (hready.le_length h.sources (h.below.file hrank _)) fun hnil => by simp [hnil] at hsignals
    exact ⟨ret, rest, Option.some.inj (hmerge.symm.trans hmerged), hflat ▸ hsignals⟩

/-- **All reports**, by induction on those still to come. -/
theorem Collected.run : ∀ {later : List DoneReport} {st : SendingReq} {reports : List DoneReport},
    Collected tpSize spw reqid st reports →
    (∀ rank, ((reports ++ later).countP fun r => r.rank = rank) ≤ if rank < tpSize then spw else 0) →
    Collected tpSize spw reqid (st.run tpSize reqid later) (reports ++ later)
  | [], st, reports, h, _ => by rwa [append_nil]
  | r :: later, st, reports, h, hcount => by
      have hr := hcount r.rank
      rw [countP_append, countP_cons_of_pos (by simp)] at hr
      have hrank : r.rank < tpSize := by
        by_contra hge
        rw [if_neg hge] at hr
        omega
      rw [if_pos hrank] at hr
      have hstep := h.doSendDone r hrank (by omega)
      have hrest := Collected.run hstep (by simpa using hcount)
      rwa [append_assoc, singleton_append] at hrest

theorem Collected.merges (h : Collected tpSize spw reqid st reports) (hfut : st.fut = some ioret) :
    ioret.Merges (reports.map (DoneReport.signal reqid)) := by
  obtain ⟨-, ret, rest, rfl, hperm⟩ := h.resolved ioret hfut
  exact (merges_mergeLoop ret rest).perm hperm

/-- The answer made of the merged reports is `CODE_OK` only if no report has an exception. -/
theorem Collected.ex_of_code (h : Collected tpSize spw reqid st reports)
    (hfut : st.fut = some ioret) (hcode : (waitKvtState ioret).code = 0) : ioret.ex = none := by
  obtain ⟨wio, hwio, hex⟩ := (h.merges hfut).mem
  obtain ⟨r, -, rfl⟩ := mem_map.mp hwio
  rw [hex]
  by_cases hzero : r.code = 0
  · simp [DoneReport.signal, IoRet.ofRecord, hzero]
  · have hsig : (r.signal reqid).ex = some (.codeError r.code "done req") := by
      simp [DoneReport.signal, IoRet.ofRecord, hzero]
    rw [waitKvtState, hex, hsig] at hcode
    exact absurd hcode hzero

theorem le_foldl_min : ∀ {l : List ℤ} {b c : ℤ}, c ≤ l.foldl min b ↔ c ≤ b ∧ ∀ x ∈ l, c ≤ x
  | [], _, _ => by simp
  | y :: l, b, c => by
      rw [foldl_cons, le_foldl_min, le_min_iff, and_assoc, forall_mem_cons]

/-- **The merged report**: without an exception, every code was zero and the count is the least
`plen`; so a bound above all of them can be put in before or after. -/
theorem Collected.merged (h : Collected tpSize spw reqid st reports) (hfut : st.fut = some ioret)
    (hex : ioret.ex = none) :
    (∀ r ∈ reports, r.code = 0) ∧
    ∃ n, ioret.n = some n ∧
      ∀ b : ℤ, min n b = (reports.map fun r => (r.plen : ℤ)).foldl min b := by
  have hmerges := h.merges hfut
  refine ⟨fun r hr => ?_, ?_⟩
  · have hsig := hmerges.ex.mp hex _ (mem_map_of_mem hr)
    by_contra hcode
    simp [DoneReport.signal, IoRet.ofRecord, hcode] at hsig
  · obtain ⟨n, hn, hle⟩ := hmerges.exists_n hex fun wio hwio => by
      obtain ⟨r, -, rfl⟩ := mem_map.mp hwio
      exact nofun
    refine ⟨n, hn, fun b => eq_of_forall_le_iff fun c => ?_⟩
    rw [le_min_iff, hle, and_comm, le_foldl_min]
    simp [DoneReport.signal, IoRet.ofRecord]

end Reports

/-! ## From end to end -/

/-- The reports of one request: from every P worker as many as it has targets, if D asks for the
transfer at all. -/
def DoneReports (pTp spw : ℕ) (rmtTokens : ℤ) (reports : List DoneReport) : Prop :=
  ∀ rank, (reports.countP fun r => r.rank = rank) = if rank < pTp ∧ 0 < rmtTokens then spw else 0

section EndToEnd

variable {outcomes : List RpcOutcome}

theorem prefillRpc_ok {cached : ℤ} (h : prefillRpc outcomes = some (.ok cached)) :
    ∃ r, .resp r ∈ outcomes ∧ r.code = 0 ∧ r.cached = cached := by
  unfold prefillRpc at h
  split at h
  · cases h
  · cases h
  · next r rest =>
    split at h
    · next hcode => exact ⟨r, mem_cons_self, hcode, by simpa using h⟩
    · cases h

theorem dualReqPrefillRpc_ok {cached : ℤ} : ∀ {retries : ℕ} {outcomes : List RpcOutcome},
    dualReqPrefillRpc retries outcomes = some (.ok cached) →
    ∃ r, .resp r ∈ outcomes ∧ r.code = 0 ∧ r.cached = cached
  | 0, _, h => absurd h nofun
  | _ + 1, [], h => absurd h nofun
  | _ + 1, .raised _ :: _, h => absurd h nofun
  | retries + 1, .resp r :: outcomes, h => by
      rw [dualReqPrefillRpc] at h
      split at h
      · next hcode => exact ⟨r, mem_cons_self, hcode, by simpa using h⟩
      · split at h
        · obtain ⟨r', hr', hok⟩ := dualReqPrefillRpc_ok h
          exact ⟨r', mem_cons_of_mem _ hr', hok⟩
        · split at h
          · cases h
          · cases h

theorem stepLoaded_eq_some {enablePrefixCaching : Bool} {req : LoadReq} {hbIoret : Option IoRet}
    {loaded : Loaded} (h : stepLoaded enablePrefixCaching req hbIoret = some loaded) :
    loaded.ex = (hbIoret.getD { n := some 0 }).ex ∧
    loaded.req.numComputedTokens =
      req.numComputedTokens + (hbIoret.getD { n := some 0 }).n.getD 0 := by
  simp only [stepLoaded] at h
  split at h
  · cases h
    exact ⟨rfl, rfl⟩
  · split at h
    · cases h
      refine ⟨rfl, ?_⟩
      dsimp only
      split <;> rfl
    · cases h

/-- How the request to P ends: not made, failed, or answered with `CODE_OK`. -/
theorem asyncUpdateStateAfterAlloc_cases {req : LoadReq} {rmtTokens : ℤ} {retries : ℕ}
    {ioret : Option IoRet}
    (h : asyncUpdateStateAfterAlloc req rmtTokens retries outcomes = some ioret) :
    (rmtTokens ≤ 0 ∧ ioret = none) ∨
    (0 < rmtTokens ∧ ∃ msg, ioret = some { n := some 0, ex := some (.other msg) }) ∨
    (0 < rmtTokens ∧ ∃ r, .resp r ∈ outcomes ∧ r.code = 0 ∧
      ioret = some { n := some (min (r.cached - req.numComputedTokens) rmtTokens) }) := by
  unfold asyncUpdateStateAfterAlloc at h
  split at h
  · next hle => exact .inl ⟨hle, (Option.some.inj h).symm⟩
  · next hpos =>
    obtain ⟨result, hcall, rfl⟩ := Option.map_eq_some_iff.mp h
    cases result with
    | error msg => exact .inr (.inl ⟨not_le.mp hpos, msg, rfl⟩)
    | ok cached =>
      refine .inr (.inr ⟨not_le.mp hpos, ?_⟩)
      have hok : ∃ r, .resp r ∈ outcomes ∧ r.code = 0 ∧ r.cached = cached := by
        split at hcall
        · exact dualReqPrefillRpc_ok hcall
        · exact prefillRpc_ok hcall
      obtain ⟨r, hr, hcode, rfl⟩ := hok
      exact ⟨r, hr, hcode, rfl⟩

theorem DoneReports.eq_nil {pTp spw : ℕ} {rmtTokens : ℤ} {reports : List DoneReport}
    (h : DoneReports pTp spw rmtTokens reports) (hzero : rmtTokens = 0) : reports = [] := by
  refine eq_nil_iff_forall_not_mem.mpr fun r hr => ?_
  have hcount := h r.rank
  rw [if_neg (by simp [hzero]), countP_eq_zero] at hcount
  exact hcount r hr (decide_eq_true rfl)

/-- **A load that ends well counts what every P worker has sent, and no more than D asked for.**
The reports may arrive in any order; `hanswer` says that D was told of success only by the merged
reports. -/
theorem loaded_eq_min (reqid : String) {pTp : ℕ} {dTp : Option ℕ} {reports : List DoneReport}
    {enablePrefixCaching : Bool} {req : LoadReq} {rmtTokens : ℤ} {retries : ℕ} {loaded : Loaded}
    (hreports : DoneReports pTp (kvtSignalsPerWorker pTp dTp) rmtTokens reports)
    (hrmt : 0 ≤ rmtTokens)
    (hanswer : ∀ r, .resp r ∈ outcomes → r.code = 0 → ∃ ioret,
      (SendingReq.run { signalsPerWorker := kvtSignalsPerWorker pTp dTp } pTp reqid reports).fut =
        some ioret ∧ r = waitKvtState ioret)
    (hload : remoteLoad enablePrefixCaching req rmtTokens retries outcomes = some loaded)
    (hex : loaded.ex = none) :
    (∀ r ∈ reports, r.code = 0) ∧
    loaded.req.numComputedTokens =
      (reports.map fun r => (r.plen : ℤ)).foldl min (req.numComputedTokens + rmtTokens) ∧
    ∀ r ∈ reports, loaded.req.numComputedTokens ≤ r.plen := by
  suffices hmain : (∀ r ∈ reports, r.code = 0) ∧ loaded.req.numComputedTokens =
      (reports.map fun r => (r.plen : ℤ)).foldl min (req.numComputedTokens + rmtTokens) by
    refine ⟨hmain.1, hmain.2, fun r hr => ?_⟩
    rw [hmain.2]
    exact (le_foldl_min.mp le_rfl).2 _ (mem_map_of_mem hr)
  obtain ⟨ioret, hcall, hstep⟩ := Option.bind_eq_some_iff.mp hload
  obtain ⟨hloadedEx, hcomputed⟩ := stepLoaded_eq_some hstep
  rw [hex] at hloadedEx
  rcases asyncUpdateStateAfterAlloc_cases hcall with ⟨hle, rfl⟩ | ⟨-, msg, rfl⟩ | ⟨hpos, r, hr, hcode, rfl⟩
  · -- D has asked for nothing
    have hnil := hreports.eq_nil (le_antisymm hle hrmt)
    subst hnil
    refine ⟨nofun, ?_⟩
    rw [hcomputed, le_antisymm hle hrmt]
    rfl
  · cases hloadedEx
  · obtain ⟨merged, hfut, rfl⟩ := hanswer r hr hcode
    have hcollected : Collected pTp (kvtSignalsPerWorker pTp dTp) reqid _ ([] ++ reports) :=
      (collected_nil pTp _ reqid).run fun rank => by
        rw [nil_append, hreports rank]
        simp [hpos]
    obtain ⟨hcodes, n, hn, hmin⟩ := hcollected.merged hfut (hcollected.ex_of_code hfut hcode)
    refine ⟨hcodes, ?_⟩
    have hcached : (waitKvtState merged).cached = n := by rw [waitKvtState, hn, Option.getD_some]
    rw [nil_append] at hmin
    rw [hcomputed, ← hmin, hcached]
    simp only [onAddReq, Option.map_some, Option.getD_some]
    omega

/-- A request with eight tokens on D. -/
def eightTokens : LoadReq where
  numComputedTokens := 8
  numExternalComputedTokens := 0
  numPromptTokens := 32
  maxComputedTokens := some 30
  aborted := false
  remotePrefill := true

/-- …and with sixteen. -/
def sixteenTokens : Loaded where
  req := { eightTokens with numComputedTokens := 16, numExternalComputedTokens := 8 }
  ex := none
  stop0 := false
  cached := false
  loadFailed := false

/-- Worker 1 has sent 20 tokens, worker 0 only 16: after a first answer *not found*, D counts 16. -/
theorem loaded_eq_min_two_workers :
    remoteLoad true eightTokens 22 3 [.resp ⟨404, 0⟩, .resp ⟨0, 16⟩] = some sixteenTokens ∧
    sixteenTokens.req.numComputedTokens = ([20, 16] : List ℤ).foldl min (8 + 22) := by
  have hreports : DoneReports 2 (kvtSignalsPerWorker 2 (some 2)) 22 [⟨1, 20, 0⟩, ⟨0, 16, 0⟩] := by
    intro rank
    match rank with
    | 0 => rfl
    | 1 => rfl
    | n + 2 => simp
  have hload : remoteLoad true eightTokens 22 3 [.resp ⟨404, 0⟩, .resp ⟨0, 16⟩] =
      some sixteenTokens := by decide +kernel
  have hfut : (SendingReq.run { signalsPerWorker := kvtSignalsPerWorker 2 (some 2) } 2 "a"
      [⟨1, 20, 0⟩, ⟨0, 16, 0⟩]).fut =
      some { reqid := some "a", n := some 16, source := some "kvt" } := by decide +kernel
  refine ⟨hload, (loaded_eq_min "a" hreports (by decide) (fun r hr hcode => ?_) hload rfl).2.1⟩
  rcases mem_cons.mp hr with h | h
  · obtain rfl := RpcOutcome.resp.inj h
    exact absurd hcode (by decide)
  · obtain rfl := RpcOutcome.resp.inj (mem_singleton.mp h)
    exact ⟨_, hfut, rfl⟩

end EndToEnd

end LlumnixKv
