import LlumnixKv.Ranks.ValidRanks
import LlumnixKv.Scheduler.DoneWire
import LlumnixKv.Scheduler.PBackend
import LlumnixKv.Scheduler.Resends

/-!
# Scheduler/Submitting — the targets a P worker submits, and the signals that come of it

    freeze_metas     _build_req_send_batch ──▸ start_req_send        ┐ one done signal for each
    nonfreeze_metas  submit_req_send2, target by target              ┘ target submitted
    failed_reqids    send_error_done_req                             one for each request

The scheduler expects of every worker as many signals as `_kvt_signals_per_worker` says; the worker
makes them in two places.  If submitting raises at a target, the targets before it stay submitted,
those after it are given up, and the request is reported once: `signals_complete_iff` says when the
count comes out.
-/

open List Machinery

namespace LlumnixKv

/-! ## Instance ids -/

/-- A number in decimal digits, as `int` reads it. -/
def decimal? (cs : List Char) : Option ℕ :=
  if cs ≠ [] ∧ cs.all Char.isDigit then some (cs.foldl (fun n c => 10 * n + (c.toNat - '0'.toNat)) 0)
  else none

/-- `d_inst_id.split("|")`, and the two numbers in it.  `_get_dist` divides by the second: an id with a
TP size of 0 raises too. -/
def parseInstId (dInstId : String) : Option DInstId :=
  match dInstId.toList.splitOn '|' with
  | [name, dprank, tpsize] =>
    (decimal? dprank).bind fun dprank => (decimal? tpsize).bind fun tpsize =>
      if h : 0 < tpsize then some ⟨String.ofList name, dprank, tpsize, h⟩ else none
  | _ => none

/-- `int(dinfo.instid.split("|")[2])`, which `_kvt_signals_per_worker` reads. -/
def instTp (instid : String) : Option ℕ := ((instid.toList.splitOn '|')[2]?).bind decimal?

/-! ## Targets -/

/-- A target of a request. -/
structure Target where
  dstInst : String
  dstWorker : ℕ
  dstWorkerInfo : Option String
  deriving DecidableEq, Repr

/-- The loop of `_get_distinfo`; `none` is an `IndexError`. -/
def distinfos (dWorkersInfo : List String) : List (String × ℕ × ℕ) → Option (List Target)
  | [] => some []
  | (dstInst, dstWorker, workerTpRank) :: rest =>
    let info := if dWorkersInfo = [] then some none else (dWorkersInfo[workerTpRank]?).map some
    info.bind fun info => (distinfos dWorkersInfo rest).map (⟨dstInst, dstWorker, info⟩ :: ·)

/-- `_get_distinfo`; `none` is an exception. -/
def getDistinfo (srcTprank srcTpsize : ℕ) (m : PReqMeta) : Option (List Target) :=
  (parseInstId m.dInstId).bind fun d => distinfos m.dWorkersInfo (getDist srcTprank srcTpsize d)

/-! ## Submitting -/

/-- A P worker.  `raises reqid j`: submitting the request to its `j`-th target raises. -/
structure PWorker where
  tprank : ℕ
  tpsize : ℕ
  raises : String → ℕ → Bool

/-- A request submitted to a target: a `bladekv.ReqMeta`, or a call of `submit_req_send2`. -/
structure TargetSend where
  reqm : PReqMeta
  target : Target
  deriving DecidableEq, Repr

/-- What has been submitted so far, and `failed_reqids`. -/
structure SendBatch where
  submissions : List TargetSend := []
  failedReqids : List String := []
  deriving DecidableEq, Repr

/-- One batch after another. -/
def SendBatch.append (b c : SendBatch) : SendBatch :=
  ⟨b.submissions ++ c.submissions, b.failedReqids ++ c.failedReqids⟩

/-- The `for` loop over the targets, from the `j`-th on: what it submits, and whether it raises. -/
def submitTargets (raises : ℕ → Bool) (m : PReqMeta) : ℕ → List Target → List TargetSend × Bool
  | _, [] => ([], false)
  | j, target :: rest =>
    if raises j then ([], true)
    else
      let more := submitTargets raises m (j + 1) rest
      (⟨m, target⟩ :: more.1, more.2)

variable (w : PWorker)

/-- One request, in both loops over metas. -/
def submitReq (m : PReqMeta) : Option SendBatch :=
  (getDistinfo w.tprank w.tpsize m).map fun targets =>
    if targets = [] then { failedReqids := [m.reqid] }
    else
      let sent := submitTargets (w.raises m.reqid) m 0 targets
      ⟨sent.1, if sent.2 then [m.reqid] else []⟩

/-- `_build_req_send_batch`. -/
def buildReqSendBatch (w : PWorker) (expectFreeze : Bool) : List PReqMeta → Option SendBatch
  | [] => some {}
  | m :: rest =>
    if m.hasFreeze = expectFreeze ∧ m.hasLastToken = true ∧ m.dBlockIds ≠ [] ∧ m.dInstId ≠ "" then
      (submitReq w m).bind fun b => (buildReqSendBatch w expectFreeze rest).map b.append
    else none

/-- The loop of `bind_backend_metadata` over `nonfreeze_metas`; a meta without blocks goes on with a
transfer by `submit_delta_send`, which submits no target. -/
def bindNonfreeze (w : PWorker) : List PReqMeta → Option SendBatch
  | [] => some {}
  | m :: rest =>
    if m.hasFreeze then none
    else if m.dBlockIds ≠ [] then
      (submitReq w m).bind fun b => (bindNonfreeze w rest).map b.append
    else bindNonfreeze w rest

/-- `KVTPMeta`, less what is only passed on. -/
structure KVTPMeta where
  substepid : ℕ := 0
  freezeMetas : List PReqMeta := []
  abortMetas : List PReqMeta := []
  nonfreezeMetas : List PReqMeta := []
  deriving DecidableEq, Repr

variable (kvtpmeta : KVTPMeta)

/-- `bind_backend_metadata`, the main step; `none` is an exception. -/
def bindBackendMetadata : Option SendBatch :=
  (buildReqSendBatch w true kvtpmeta.freezeMetas).bind fun started =>
    if kvtpmeta.substepid = 0 ∧ ∀ m ∈ kvtpmeta.abortMetas,
        m.newTokens = 0 ∧ m.hasLastToken = true ∧ m.hasFreeze = false then
      (bindNonfreeze w kvtpmeta.nonfreezeMetas).map started.append
    else none

/-- `bypass_bind`, a bypass substep. -/
def bypassBind : Option SendBatch :=
  (buildReqSendBatch w true kvtpmeta.freezeMetas).bind fun started =>
    if kvtpmeta.substepid ≠ 0 ∧ kvtpmeta.abortMetas = [] then
      (buildReqSendBatch w false kvtpmeta.nonfreezeMetas).map started.append
    else none

/-- The two entry points assert which kind of step they are called for. -/
def bindMeta : Option SendBatch :=
  if kvtpmeta.substepid = 0 then bindBackendMetadata w kvtpmeta else bypassBind w kvtpmeta

/-- The codes of the done signals for a request that come of a batch: one for each target submitted,
as its transfer ends, and one for each time `send_error_done_req` names the request. -/
def SendBatch.signals (b : SendBatch) (code : TargetSend → ℕ) (reqid : String) : List ℕ :=
  (b.submissions.filter fun s => s.reqm.reqid = reqid).map code ++
    ((errorRecords 0 b.failedReqids).filter fun r => r.reqId = reqid).map DoneRecord.code

/-- The metas that submit a request to its targets. -/
def KVTPMeta.submits : List PReqMeta :=
  kvtpmeta.freezeMetas ++ kvtpmeta.nonfreezeMetas.filter fun m => m.dBlockIds ≠ []

/-! ## How many targets -/

/-- A meta of a D that gave its TP size, and no or all of its workers. -/
structure PReqMeta.OfD (m : PReqMeta) (d : DInstId) : Prop where
  inst : parseInstId m.dInstId = some d
  workers : m.dWorkersInfo = [] ∨ d.dstTpsize ≤ m.dWorkersInfo.length

variable {d : DInstId} {w : PWorker} {m : PReqMeta}

/-- Both sides read the same TP size. -/
theorem instTp_of_parse {instid : String} (h : parseInstId instid = some d) :
    instTp instid = some d.dstTpsize := by
  unfold parseInstId at h
  split at h
  · next name dprank tpsize hsplit =>
    obtain ⟨dp, -, h⟩ := Option.bind_eq_some_iff.mp h
    obtain ⟨tp, htp, h⟩ := Option.bind_eq_some_iff.mp h
    rw [instTp, hsplit]
    split at h
    · rw [← Option.some.inj h]
      exact htp
    · cases h
  · cases h

theorem distinfos_of_lt {infos : List String} : ∀ dists : List (String × ℕ × ℕ),
    (infos = [] ∨ ∀ dist ∈ dists, dist.2.2 < infos.length) →
    ∃ targets, distinfos infos dists = some targets ∧ targets.length = dists.length
  | [], _ => ⟨[], rfl, rfl⟩
  | (dstInst, dstWorker, rank) :: rest, h => by
      obtain ⟨targets, hrest, hlen⟩ := distinfos_of_lt rest
        (h.imp_right fun hall => (forall_mem_cons.mp hall).2)
      have hinfo : ∃ info, (if infos = [] then some none else (infos[rank]?).map some) =
          some info := by
        split
        · exact ⟨_, rfl⟩
        · next hne =>
          have hlt := (forall_mem_cons.mp (h.resolve_left hne)).1
          exact ⟨_, by rw [getElem?_eq_getElem hlt, Option.map_some]⟩
      obtain ⟨info, hinfo⟩ := hinfo
      refine ⟨⟨dstInst, dstWorker, info⟩ :: targets, ?_, by simp [hlen]⟩
      rw [distinfos]
      simp only [hinfo, Option.bind_some, hrest, Option.map_some]

theorem kvtSignalsPerWorker_eq_one {pTp dTp : ℕ} (h : ¬(pTp < dTp ∧ dTp % pTp = 0)) :
    kvtSignalsPerWorker pTp (some dTp) = 1 := if_neg h

theorem kvtSignalsPerWorker_pos {pTp : ℕ} (h : 0 < pTp) : ∀ dTp : Option ℕ,
    0 < kvtSignalsPerWorker pTp dTp
  | none => one_pos
  | some dTp => by
      rw [kvtSignalsPerWorker]
      split
      · next hlt => exact Nat.div_pos hlt.1.le h
      · exact one_pos

/-- **A worker has as many targets as signals are expected of it, or none where one is.** -/
theorem getDist_length (d : DInstId) {tprank tpsize : ℕ} (hrank : tprank < tpsize) :
    (∀ dist ∈ getDist tprank tpsize d, dist.2.2 < d.dstTpsize) ∧
      ((getDist tprank tpsize d).length = kvtSignalsPerWorker tpsize (some d.dstTpsize) ∨
        getDist tprank tpsize d = [] ∧ kvtSignalsPerWorker tpsize (some d.dstTpsize) = 1) := by
  unfold getDist
  split
  · next heq =>
    refine ⟨by simpa [heq] using hrank, .inl ?_⟩
    rw [kvtSignalsPerWorker_eq_one fun h => absurd h.1 (by omega)]
    rfl
  · next hne =>
    split
    · next hlt =>
      have hone : kvtSignalsPerWorker tpsize (some d.dstTpsize) = 1 :=
        kvtSignalsPerWorker_eq_one fun h => absurd h.1 (by omega)
      dsimp only
      split
      · exact ⟨nofun, .inr ⟨rfl, hone⟩⟩
      · next hmul =>
        refine ⟨?_, .inl (by rw [hone]; rfl)⟩
        simp only [mem_singleton, forall_eq]
        refine Nat.div_lt_of_lt_mul ?_
        rw [mul_comm, not_not.mp hmul]
        exact hrank
    · next hge =>
      dsimp only
      split
      · next hmul =>
        refine ⟨nofun, .inr ⟨rfl, kvtSignalsPerWorker_eq_one fun h => hmul ?_⟩⟩
        exact Nat.mul_div_cancel' (Nat.dvd_of_mod_eq_zero h.2)
      · next hmul =>
        have hmul := not_not.mp hmul
        have hspw : kvtSignalsPerWorker tpsize (some d.dstTpsize) = d.dstTpsize / tpsize :=
          if_pos ⟨by omega, Nat.mod_eq_zero_of_dvd ⟨_, hmul.symm⟩⟩
        refine ⟨?_, .inl (by rw [hspw, length_map, length_range])⟩
        intro dist hdist
        obtain ⟨j, hj, rfl⟩ := mem_map.mp hdist
        have hj := mem_range.mp hj
        calc tprank * (d.dstTpsize / tpsize) + j
            < (tprank + 1) * (d.dstTpsize / tpsize) := by rw [Nat.succ_mul]; omega
          _ ≤ tpsize * (d.dstTpsize / tpsize) := Nat.mul_le_mul_right _ hrank
          _ = d.dstTpsize := hmul

theorem getDistinfo_length (hrank : w.tprank < w.tpsize)
    (h : m.OfD d) : ∃ targets, getDistinfo w.tprank w.tpsize m = some targets ∧
      (targets.length = kvtSignalsPerWorker w.tpsize (instTp m.dInstId) ∨
        targets = [] ∧ kvtSignalsPerWorker w.tpsize (instTp m.dInstId) = 1) := by
  obtain ⟨hlt, hlen⟩ := getDist_length d hrank
  obtain ⟨targets, htargets, hsame⟩ := distinfos_of_lt (getDist w.tprank w.tpsize d)
    (h.workers.imp_right fun hle dist hmem => (hlt dist hmem).trans_le hle)
  refine ⟨targets, ?_, ?_⟩
  · rw [getDistinfo, h.inst, Option.bind_some, htargets]
  · rw [instTp_of_parse h.inst, hsame]
    refine hlen.imp_right fun hnil => ⟨length_eq_zero_iff.mp ?_, hnil.2⟩
    rw [hsame, hnil.1]
    rfl

/-! ## How many signals -/

/-- **The loop submits to the targets before the first that raises.** -/
theorem submitTargets_stop (raises : ℕ → Bool) (m : PReqMeta) : ∀ (j : ℕ) (targets : List Target),
    ∃ k ≤ targets.length, (∀ i < k, raises (j + i) = false) ∧
      (k < targets.length → raises (j + k) = true) ∧
      submitTargets raises m j targets = ((targets.take k).map (⟨m, ·⟩), decide (k < targets.length))
  | _, [] => ⟨0, le_rfl, nofun, nofun, rfl⟩
  | j, target :: rest => by
      rw [submitTargets]
      split
      · next hj => exact ⟨0, Nat.zero_le _, nofun, fun _ => hj, by simp⟩
      · next hj =>
        obtain ⟨k, hk, hbefore, hat, hrest⟩ := submitTargets_stop raises m (j + 1) rest
        refine ⟨k + 1, Nat.succ_le_succ hk, fun i hi => ?_, fun hlt => ?_, by simp [hrest]⟩
        · cases i with
          | zero => exact Bool.eq_false_iff.mpr hj
          | succ i => exact Nat.succ_add_eq_add_succ j i ▸ hbefore i (Nat.lt_of_succ_lt_succ hi)
        · exact Nat.succ_add_eq_add_succ j k ▸ hat (Nat.lt_of_succ_lt_succ hlt)

/-- A batch is about one request. -/
structure SendBatch.About (b : SendBatch) (reqid : String) : Prop where
  submissions : ∀ s ∈ b.submissions, s.reqm.reqid = reqid
  failed : ∀ r ∈ b.failedReqids, r = reqid

theorem submitReq_about {b : SendBatch} (h : submitReq w m = some b) : b.About m.reqid := by
  obtain ⟨targets, -, rfl⟩ := Option.map_eq_some_iff.mp h
  split
  · exact ⟨nofun, fun r hr => mem_singleton.mp hr⟩
  · obtain ⟨k, -, -, -, hloop⟩ := submitTargets_stop (w.raises m.reqid) m 0 targets
    rw [hloop]
    refine ⟨fun s hs => ?_, by simp⟩
    obtain ⟨target, -, rfl⟩ := mem_map.mp hs
    rfl

section Signals

variable {b : SendBatch} {code : TargetSend → ℕ} {reqid : String}

theorem SendBatch.signals_append (code : TargetSend → ℕ) (reqid : String) (b c : SendBatch) :
    ((b.append c).signals code reqid).Perm (b.signals code reqid ++ c.signals code reqid) := by
  simp only [signals, append, errorRecords, map_append, filter_append]
  rw [append_assoc, append_assoc]
  refine Perm.append_left _ ?_
  rw [← append_assoc, ← append_assoc]
  exact Perm.append_right _ perm_append_comm

theorem SendBatch.About.signals_eq_nil (h : b.About reqid) {other : String} (hne : reqid ≠ other) :
    b.signals code other = [] := by
  have hsub : (b.submissions.filter fun s => s.reqm.reqid = other) = [] :=
    filter_eq_nil_iff.mpr fun s hs => by simp [h.submissions s hs, hne]
  have hfail : ((errorRecords 0 b.failedReqids).filter fun r => r.reqId = other) = [] := by
    refine filter_eq_nil_iff.mpr fun r hr => ?_
    obtain ⟨id, hid, rfl⟩ := mem_map.mp hr
    simp [h.failed id hid, hne]
  rw [signals, hsub, hfail]
  rfl

/-- All signals of a batch about one request are its. -/
theorem SendBatch.About.signals_eq (h : b.About reqid) : b.signals code reqid =
    b.submissions.map code ++ (errorRecords 0 b.failedReqids).map DoneRecord.code := by
  have hsub : (b.submissions.filter fun s => s.reqm.reqid = reqid) = b.submissions :=
    filter_eq_self.mpr fun s hs => decide_eq_true (h.submissions s hs)
  have hfail : ((errorRecords 0 b.failedReqids).filter fun r => r.reqId = reqid) =
      errorRecords 0 b.failedReqids := by
    refine filter_eq_self.mpr fun r hr => ?_
    obtain ⟨id, hid, rfl⟩ := mem_map.mp hr
    exact decide_eq_true (h.failed id hid)
  rw [signals, hsub, hfail]

end Signals

/-- The signals of a request are as many as expected, and a failure is among them if submitting
has raised. -/
def AllReported (w : PWorker) (m : PReqMeta) (signals : List ℕ) : Prop :=
  signals.length = kvtSignalsPerWorker w.tpsize (instTp m.dInstId) ∧
  ((∃ j < kvtSignalsPerWorker w.tpsize (instTp m.dInstId), w.raises m.reqid j = true) →
    ∃ code ∈ signals, code ≠ 0)

/-- No target before the last raises. -/
def NoEarlyRaise (w : PWorker) (m : PReqMeta) : Prop :=
  ∀ j, j + 1 < kvtSignalsPerWorker w.tpsize (instTp m.dInstId) → w.raises m.reqid j = false

/-- What is known of the signals of a request. -/
structure Signalled (w : PWorker) (m : PReqMeta) (signals : List ℕ) : Prop where
  le : signals.length ≤ kvtSignalsPerWorker w.tpsize (instTp m.dInstId)
  count : signals.length = kvtSignalsPerWorker w.tpsize (instTp m.dInstId) ↔ NoEarlyRaise w m
  failure : (∃ j < kvtSignalsPerWorker w.tpsize (instTp m.dInstId), w.raises m.reqid j = true) →
    ∃ code ∈ signals, code ≠ 0

theorem Signalled.of_perm {signals signals' : List ℕ}
    (h : Signalled w m signals) (hperm : signals'.Perm signals) : Signalled w m signals' := by
  refine ⟨hperm.length_eq ▸ h.le, hperm.length_eq ▸ h.count, fun hraises => ?_⟩
  obtain ⟨code, hmem, hcode⟩ := h.failure hraises
  exact ⟨code, hperm.mem_iff.mpr hmem, hcode⟩

theorem Signalled.reported_iff {signals : List ℕ}
    (h : Signalled w m signals) : AllReported w m signals ↔ NoEarlyRaise w m :=
  ⟨fun hreported => h.count.mp hreported.1, fun hno => ⟨h.count.mpr hno, h.failure⟩⟩

/-- **One request.** -/
theorem submitReq_signalled (hrank : w.tprank < w.tpsize) (h : m.OfD d) (code : TargetSend → ℕ) :
    ∃ b, submitReq w m = some b ∧ Signalled w m (b.signals code m.reqid) := by
  obtain ⟨targets, htargets, hlen⟩ := getDistinfo_length hrank h
  obtain ⟨b, hb⟩ : ∃ b, submitReq w m = some b := by rw [submitReq, htargets]; exact ⟨_, rfl⟩
  refine ⟨b, hb, ?_⟩
  rw [(submitReq_about hb).signals_eq]
  rw [submitReq, htargets, Option.map_some] at hb
  cases hb
  by_cases hnil : targets = []
  · -- no valid TP configuration: one error record, one signal expected
    have hone : kvtSignalsPerWorker w.tpsize (instTp m.dInstId) = 1 := by
      refine (hlen.resolve_left fun hlen => ?_).2
      rw [hnil] at hlen
      exact absurd hlen (kvtSignalsPerWorker_pos (Nat.zero_lt_of_lt hrank) _).ne
    rw [if_pos hnil]
    refine ⟨?_, ?_, fun _ => ⟨codeInternalerror, mem_singleton_self _, by decide⟩⟩
    · rw [hone]
      exact le_rfl
    · rw [NoEarlyRaise, hone]
      simp [errorRecords]
  · have hlen := hlen.resolve_right fun h => hnil h.1
    obtain ⟨k, hk, hbefore, hat, hloop⟩ := submitTargets_stop (w.raises m.reqid) m 0 targets
    simp only [zero_add] at hbefore hat
    rw [if_neg hnil, hloop]
    by_cases hlt : k < targets.length
    · simp only [hlt, decide_true, if_true]
      refine ⟨?_, ?_, fun _ => ⟨codeInternalerror, by simp [errorRecords], by decide⟩⟩ <;>
        rw [← hlen, length_append, length_map, length_map, length_take,
          min_eq_left hk]
      · exact hlt
      · rw [NoEarlyRaise, ← hlen]
        refine ⟨fun (heq : k + 1 = _) i hi => hbefore i (by omega), fun hall => ?_⟩
        refine Nat.le_antisymm hlt (not_lt.mp fun hmore => ?_)
        cases (hall k hmore).symm.trans (hat hlt)
    · obtain rfl : k = targets.length := by omega
      refine ⟨by simp [← hlen, errorRecords], ?_, fun hraised => ?_⟩
      · rw [NoEarlyRaise, ← hlen]
        simpa [errorRecords] using fun i hi => hbefore i (by omega)
      · obtain ⟨i, hi, hraises⟩ := hraised
        cases (hbefore i (hlen ▸ hi)).symm.trans hraises

/-! ## A batch -/

/-- The requests of a batch, one after another. -/
def submitAll (w : PWorker) : List PReqMeta → Option SendBatch
  | [] => some {}
  | m :: rest => (submitReq w m).bind fun b => (submitAll w rest).map b.append

theorem submitAll_append {ms : List PReqMeta} {c : SendBatch} :
    ∀ {ls : List PReqMeta} {b : SendBatch}, submitAll w ls = some b → submitAll w ms = some c →
      submitAll w (ls ++ ms) = some (b.append c)
  | [], b, hb, hc => by
      cases hb
      exact hc
  | m :: ls, b, hb, hc => by
      obtain ⟨first, hfirst, hb⟩ := Option.bind_eq_some_iff.mp hb
      obtain ⟨rest, hrest, rfl⟩ := Option.map_eq_some_iff.mp hb
      rw [cons_append, submitAll, hfirst, Option.bind_some, submitAll_append hrest hc,
        Option.map_some]
      simp only [SendBatch.append, append_assoc]

theorem submitAll_of_ofD (hrank : w.tprank < w.tpsize) : ∀ {ms : List PReqMeta},
    (∀ m ∈ ms, ∃ d, m.OfD d) → ∃ b, submitAll w ms = some b
  | [], _ => ⟨_, rfl⟩
  | m :: ms, h => by
      obtain ⟨⟨d, hd⟩, hms⟩ := forall_mem_cons.mp h
      obtain ⟨first, hfirst, -⟩ := submitReq_signalled hrank hd fun _ => 0
      obtain ⟨rest, hrest⟩ := submitAll_of_ofD hrank hms
      exact ⟨first.append rest, by
        rw [submitAll, hfirst, Option.bind_some, hrest, Option.map_some]⟩

theorem signals_eq_nil_of_not_mem {code : TargetSend → ℕ} {reqid : String} :
    ∀ {ms : List PReqMeta} {b : SendBatch}, submitAll w ms = some b →
      reqid ∉ ms.map PReqMeta.reqid → b.signals code reqid = []
  | [], b, hb, _ => by
      cases hb
      rfl
  | m :: ms, b, hb, hnot => by
      obtain ⟨first, hfirst, hb⟩ := Option.bind_eq_some_iff.mp hb
      obtain ⟨rest, hrest, rfl⟩ := Option.map_eq_some_iff.mp hb
      rw [map_cons, mem_cons, not_or] at hnot
      obtain ⟨hne, hms⟩ := hnot
      have hperm := SendBatch.signals_append code reqid first rest
      rw [(submitReq_about hfirst).signals_eq_nil (Ne.symm hne),
        signals_eq_nil_of_not_mem hrest hms] at hperm
      exact hperm.eq_nil

/-- **Every request of a batch**, by induction on the batch: no other request adds to its signals. -/
theorem submitAll_signalled (hrank : w.tprank < w.tpsize) (code : TargetSend → ℕ) :
    ∀ {ms : List PReqMeta} {b : SendBatch}, submitAll w ms = some b →
      (ms.map PReqMeta.reqid).Nodup → ∀ m ∈ ms, (∃ d, m.OfD d) →
      Signalled w m (b.signals code m.reqid)
  | [], b, _, _, m, hm, _ => absurd hm not_mem_nil
  | m :: ms, b, hb, hnodup, m', hm', ⟨d, hd⟩ => by
      obtain ⟨first, hfirst, hb⟩ := Option.bind_eq_some_iff.mp hb
      obtain ⟨rest, hrest, rfl⟩ := Option.map_eq_some_iff.mp hb
      obtain ⟨hnot, hms⟩ := nodup_cons.mp hnodup
      have hperm := SendBatch.signals_append code m'.reqid first rest
      rcases mem_cons.mp hm' with rfl | hm'
      · obtain ⟨b, hb, hsignalled⟩ := submitReq_signalled hrank hd code
        cases hfirst.symm.trans hb
        rw [signals_eq_nil_of_not_mem hrest hnot, append_nil] at hperm
        exact hsignalled.of_perm hperm
      · have hne : m.reqid ≠ m'.reqid := fun heq => hnot (heq ▸ mem_map_of_mem hm')
        rw [(submitReq_about hfirst).signals_eq_nil hne, nil_append] at hperm
        exact (submitAll_signalled hrank code hrest hms m' hm' ⟨d, hd⟩).of_perm hperm

theorem buildReqSendBatch_eq {expectFreeze : Bool} : ∀ {ms : List PReqMeta},
    (∀ m ∈ ms, m.hasFreeze = expectFreeze ∧ m.hasLastToken = true ∧ m.dBlockIds ≠ [] ∧
      m.dInstId ≠ "") → buildReqSendBatch w expectFreeze ms = submitAll w ms
  | [], _ => rfl
  | m :: ms, h => by
      obtain ⟨hm, hms⟩ := forall_mem_cons.mp h
      rw [buildReqSendBatch, if_pos hm, buildReqSendBatch_eq hms, submitAll]

theorem bindNonfreeze_eq : ∀ {ms : List PReqMeta},
    (∀ m ∈ ms, m.hasFreeze = false) →
    bindNonfreeze w ms = submitAll w (ms.filter fun m => m.dBlockIds ≠ [])
  | [], _ => rfl
  | m :: ms, h => by
      obtain ⟨hm, hms⟩ := forall_mem_cons.mp h
      have ih := bindNonfreeze_eq hms
      rw [bindNonfreeze, hm, if_neg Bool.false_ne_true, ih]
      by_cases hblocks : m.dBlockIds ≠ []
      · rw [if_pos hblocks, filter_cons_of_pos (by simpa using hblocks), submitAll]
      · rw [if_neg hblocks, filter_cons_of_neg (by simpa using hblocks)]

/-- What the scheduler puts into a `KVTPMeta`: the metas the workers' assertions ask for, one for
each request it submits, each of a D it knows. -/
structure KVTPMeta.Valid (kvtpmeta : KVTPMeta) : Prop where
  freeze : ∀ m ∈ kvtpmeta.freezeMetas,
    m.hasFreeze = true ∧ m.hasLastToken = true ∧ m.dBlockIds ≠ [] ∧ m.dInstId ≠ ""
  abort : ∀ m ∈ kvtpmeta.abortMetas,
    m.newTokens = 0 ∧ m.hasLastToken = true ∧ m.hasFreeze = false
  nonfreeze : ∀ m ∈ kvtpmeta.nonfreezeMetas, m.hasFreeze = false
  /-- a substep has only whole transfers -/
  substep : kvtpmeta.substepid ≠ 0 → kvtpmeta.abortMetas = [] ∧
    ∀ m ∈ kvtpmeta.nonfreezeMetas, m.hasLastToken = true ∧ m.dBlockIds ≠ [] ∧ m.dInstId ≠ ""
  nodup : (kvtpmeta.submits.map PReqMeta.reqid).Nodup
  ofD : ∀ m ∈ kvtpmeta.submits, ∃ d, m.OfD d

/-- Both kinds of step submit the requests of their metas. -/
theorem KVTPMeta.Valid.bindMeta_eq {kvtpmeta : KVTPMeta} (h : kvtpmeta.Valid)
    (hrank : w.tprank < w.tpsize) :
    ∃ b, bindMeta w kvtpmeta = some b ∧ submitAll w kvtpmeta.submits = some b := by
  obtain ⟨started, hstarted⟩ := submitAll_of_ofD hrank fun m hm =>
    h.ofD m (mem_append_left _ hm)
  obtain ⟨queued, hqueued⟩ := submitAll_of_ofD hrank fun m hm =>
    h.ofD m (mem_append_right _ hm)
  refine ⟨started.append queued, ?_, submitAll_append hstarted hqueued⟩
  have hfreeze := buildReqSendBatch_eq (w := w) h.freeze
  rw [hstarted] at hfreeze
  unfold bindMeta
  split
  · next hstep =>
    rw [bindBackendMetadata, hfreeze, Option.bind_some, if_pos ⟨hstep, h.abort⟩,
      bindNonfreeze_eq h.nonfreeze, hqueued, Option.map_some]
  · next hstep =>
    obtain ⟨habort, hwhole⟩ := h.substep hstep
    have hall : (kvtpmeta.nonfreezeMetas.filter fun m => m.dBlockIds ≠ []) =
        kvtpmeta.nonfreezeMetas :=
      filter_eq_self.mpr fun m hm => decide_eq_true (hwhole m hm).2.1
    rw [hall] at hqueued
    rw [bypassBind, hfreeze, Option.bind_some, if_pos ⟨hstep, habort⟩,
      buildReqSendBatch_eq fun m hm => ⟨h.nonfreeze m hm, hwhole m hm⟩, hqueued, Option.map_some]

/-- **Every request of a step is reported as the scheduler expects it exactly if no submit raises
before the last target of its request.** -/
theorem signals_complete_iff {w : PWorker} (hrank : w.tprank < w.tpsize) {kvtpmeta : KVTPMeta}
    (h : kvtpmeta.Valid) (code : TargetSend → ℕ) : ∃ b, bindMeta w kvtpmeta = some b ∧
      ∀ m ∈ kvtpmeta.submits, (AllReported w m (b.signals code m.reqid) ↔ NoEarlyRaise w m) ∧
        ((∃ j < kvtSignalsPerWorker w.tpsize (instTp m.dInstId), w.raises m.reqid j = true) →
          ∃ c ∈ b.signals code m.reqid, c ≠ 0) := by
  obtain ⟨b, hbind, hall⟩ := h.bindMeta_eq hrank
  refine ⟨b, hbind, fun m hm => ?_⟩
  have hsignalled := submitAll_signalled hrank code hall h.nodup m hm (h.ofD m hm)
  exact ⟨hsignalled.reported_iff, hsignalled.failure⟩

/-- A whole transfer of request `a` to a D of so many workers. -/
def wholeTransfer (dInstId : String) : KVTPMeta where
  freezeMetas := [{ reqid := "a", dInstId, pBlockIds := [[0]], dBlockIds := [[0]], newTokens := 16
                    hasLastToken := true, seenTokens := 0, hasFreeze := true }]

theorem wholeTransfer_valid {dInstId : String} (h : parseInstId dInstId = some d)
    (hne : dInstId ≠ "") : (wholeTransfer dInstId).Valid where
  freeze := by simp [wholeTransfer, hne]
  abort := nofun
  nonfreeze := nofun
  substep := fun hstep => absurd rfl hstep
  nodup := nodup_singleton _
  ofD := by
    intro m hm
    obtain rfl := mem_singleton.mp hm
    exact ⟨d, h, .inl rfl⟩

/-- Two targets, and submitting to the second raises: one signal for each, the second a failure. -/
theorem signals_complete_last_raises : ∃ b,
    bindMeta ⟨0, 1, fun _ j => j == 1⟩ (wholeTransfer "d|0|2") = some b ∧
    ∀ m ∈ (wholeTransfer "d|0|2").submits,
      AllReported ⟨0, 1, fun _ j => j == 1⟩ m (b.signals (fun _ => 0) m.reqid) := by
  have hparse : parseInstId "d|0|2" = some ⟨"d", 0, 2, by decide⟩ := by decide +kernel
  obtain ⟨b, hbind, hall⟩ := signals_complete_iff (w := ⟨0, 1, fun _ j => j == 1⟩) (by decide)
    (wholeTransfer_valid hparse (by decide)) fun _ => 0
  refine ⟨b, hbind, fun m hm => (hall m hm).1.mpr fun j hj => ?_⟩
  obtain rfl := mem_singleton.mp hm
  have htp : instTp "d|0|2" = some 2 := instTp_of_parse hparse
  have hspw : kvtSignalsPerWorker 1 (instTp "d|0|2") = 2 := by rw [htp]; rfl
  have hj : j + 1 < 2 := hspw ▸ hj
  exact beq_false_of_ne (by omega)

/-- **A submit that raises early is counted short**: of four targets the first raises, one signal
comes of the request, and four are expected. -/
theorem early_raise_counted_short : (wholeTransfer "d|0|4").Valid ∧ ∃ b,
    bindMeta ⟨0, 1, fun _ j => j == 0⟩ (wholeTransfer "d|0|4") = some b ∧
    ∃ m ∈ (wholeTransfer "d|0|4").submits,
      ¬AllReported ⟨0, 1, fun _ j => j == 0⟩ m (b.signals (fun _ => 0) m.reqid) := by
  have hparse : parseInstId "d|0|4" = some ⟨"d", 0, 4, by decide⟩ := by decide +kernel
  refine ⟨wholeTransfer_valid hparse (by decide), { failedReqids := ["a"] },
    by decide +kernel, _, mem_singleton_self _, fun h => absurd h.1 ?_⟩
  decide +kernel

/-- …and the request waits on P for ever: whatever the other workers report, its entry does not
resolve. -/
theorem early_raise_never_resolves (hrank : w.tprank < w.tpsize) {kvtpmeta : KVTPMeta}
    (h : kvtpmeta.Valid) {code : TargetSend → ℕ} {b : SendBatch}
    (hbind : bindMeta w kvtpmeta = some b) (hm : m ∈ kvtpmeta.submits) (hearly : ¬NoEarlyRaise w m)
    {reports : List DoneReport} (hranks : ∀ r ∈ reports, r.rank < w.tpsize)
    (hreports : (reports.countP fun r => r.rank = w.tprank) = (b.signals code m.reqid).length) :
    (SendingReq.run { signalsPerWorker := kvtSignalsPerWorker w.tpsize (instTp m.dInstId) }
      w.tpsize m.reqid reports).fut = none := by
  obtain ⟨b', hbind', hall⟩ := h.bindMeta_eq hrank
  cases hbind.symm.trans hbind'
  have hsignalled := submitAll_signalled hrank code hall h.nodup m hm (h.ofD m hm)
  have hne := fun heq => hearly (hsignalled.count.mp heq)
  refine SendingReq.fut_eq_none_of_missing m.reqid
    (kvtSignalsPerWorker_pos (Nat.zero_lt_of_lt hrank) _) hranks hrank ?_
  rw [hreports]
  exact lt_of_le_of_ne hsignalled.le hne

/-- …here the request to four targets, after the one report that comes of it. -/
theorem early_raise_never_resolves_reported : ∃ m ∈ (wholeTransfer "d|0|4").submits,
    (SendingReq.run { signalsPerWorker := kvtSignalsPerWorker 1 (instTp m.dInstId) } 1 m.reqid
      [⟨0, 16, 500⟩]).fut = none := by
  have hparse : parseInstId "d|0|4" = some ⟨"d", 0, 4, by decide⟩ := by decide +kernel
  have hcount : ([⟨0, 16, 500⟩] : List DoneReport).countP (fun r => r.rank = 0) =
      (SendBatch.signals { failedReqids := ["a"] } (fun _ => 0) "a").length := by decide +kernel
  refine ⟨_, mem_singleton_self _, early_raise_never_resolves (w := ⟨0, 1, fun _ j => j == 0⟩)
    one_pos (wholeTransfer_valid hparse (by decide)) (by decide +kernel)
    (mem_singleton_self _) (fun hnone => ?_) (by decide) hcount⟩
  have htwo : 0 + 1 < kvtSignalsPerWorker 1 (instTp "d|0|4") := by
    rw [instTp_of_parse hparse]
    decide
  exact Bool.noConfusion (hnone 0 htwo)

end LlumnixKv
