import LlumnixKv.Machinery.Keyed
import LlumnixKv.Scheduler.Accounting

/-!
# Scheduler/PBackend — what the P scheduler hands to its workers

`PBackend.build_backend_meta` turns one scheduler output into the transfers its workers make:

    hc_stop0, hc_aborted_save      _step_stop0, _step_aborting
    _dinfoq                        _step_dinfoq           ──▸ freeze_metas
    finished_req_ids               _step_finished_reqs    ──▸ freeze_metas, abort_metas
    scheduled requests             _step_sched_req        ──▸ nonfreeze_metas

Every loop body reads and writes what is kept for one request: its `KVTState`, its entries in
`_dual_req_done` and `_infly_kvt`.  That is a `ReqView`, the bodies are functions on views (`handle`),
and `turned_of_turn` splits a turn of the core thread by request: requests do not disturb each other.
-/

open List Machinery

namespace LlumnixKv

open Keyed

/-! ## Records -/

/-- `KVTDInfo`: where D wants the tokens from `cachedTokens` on. -/
structure KVTDInfo where
  instid : String
  blkids : List (List ℕ)
  cachedTokens : ℤ
  maxTokens : ℤ
  dWorkersInfo : List String
  deriving DecidableEq, Repr

/-- `RKVTDInfo`, the body of `TRANSFER_KV_REQ`. -/
structure RKVTDInfo where
  reqid : String
  dinfo : KVTDInfo
  migration : Bool := false
  deriving DecidableEq, Repr

/-- `KVTState`, the transfer a request is bound to. -/
structure KVTState where
  dinfo : KVTDInfo
  maxtokens : ℤ
  untouched : Bool := true
  deriving DecidableEq, Repr

/-- `PReqMeta`: tokens `[seenTokens, seenTokens + newTokens)` of a request, for the workers. -/
structure PReqMeta where
  reqid : String
  dInstId : String
  pBlockIds : List (List ℕ)
  dBlockIds : List (List ℕ)
  newTokens : ℤ
  hasLastToken : Bool
  seenTokens : ℤ
  dWorkersInfo : List String := []
  hasFreeze : Bool := false
  deriving DecidableEq, Repr

/-- `DualReq`, less the request it belongs to. -/
structure DualReq where
  pblkids : List (List ℕ)
  finished : Bool
  insertTs : ℕ
  deriving DecidableEq, Repr

/-- What the backend reads of a request and of its parameters. -/
structure Req where
  numPromptTokens : ℤ
  numTokens : ℤ
  maxComputedTokens : Option ℤ
  /-- `P_REMOTE_DECODE` -/
  remoteDecode : Bool
  /-- `has_setup_save` -/
  savePrepared : Bool
  /-- `P_KVT_STATE` -/
  kvtState : Option KVTState
  /-- `get_request` finds it -/
  live : Bool
  /-- `get_kvblk_ids` -/
  blkids : List (List ℕ)
  deriving DecidableEq, Repr

/-- The tokens a request computes: `max_computed_tokens`, or the whole prompt. -/
def Req.limit (req : Req) : ℤ := req.maxComputedTokens.getD req.numPromptTokens

/-- A request of `scheduled_new_reqs`, with its share of `num_scheduled_tokens`. -/
structure NewReqData where
  reqid : String
  numScheduledTokens : ℤ
  numComputedTokens : ℤ
  blockIds : List (List ℕ)
  deriving DecidableEq, Repr

/-- A request of `scheduled_cached_reqs`, with its share of `num_scheduled_tokens`. -/
structure CachedReqData where
  reqid : String
  numScheduledTokens : ℤ
  numComputedTokens : ℤ
  deriving DecidableEq, Repr

/-- The requests of one step. -/
structure Scheduled where
  newReqs : List NewReqData := []
  cachedReqs : List CachedReqData := []
  deriving DecidableEq, Repr

/-- `HCSchedOutput`; in a bypass substep `hcParent` is the output of the step it belongs to. -/
structure SchedOut where
  hcStop0 : List String := []
  hcAbortedSave : List String := []
  finishedReqIds : List String := []
  scheduled : Scheduled := {}
  hcParent : Option Scheduled := none
  deriving DecidableEq, Repr

/-! ## What is kept for one request -/

/-- A request as the backend sees it. -/
structure ReqView where
  req : Req
  /-- its entry in `_dual_req_done` -/
  dual : Option DualReq := none
  /-- its entry in `_infly_kvt` -/
  infly : Option PReqMeta := none
  /-- in the `substep_news` of this call -/
  isNew : Bool := false
  deriving DecidableEq, Repr

/-- Why `core_abort_req` is called. -/
inductive AbortReason
  /-- D asks a finished request for more tokens than its prompt has -/
  | tokenMismatch
  /-- `"dual_req_done.timeout"` -/
  | dualReqDoneTimeout
  deriving DecidableEq, Repr

/-- What a loop body does besides. -/
inductive Emit
  /-- appended to `freeze_metas` -/
  | freeze (m : PReqMeta)
  /-- appended to `abort_metas` -/
  | abort (m : PReqMeta)
  /-- appended to `nonfreeze_metas` -/
  | nonfreeze (m : PReqMeta)
  /-- `loop.call_soon_threadsafe(self._mark_send_done, ioret)` -/
  | markSendDone (ioret : IoRet)
  /-- `core_abort_req` -/
  | abortReq (reason : AbortReason)
  /-- `mark_backend_save_done` -/
  | saveDone
  deriving DecidableEq, Repr

/-- The clock, the process environment, and the requests `_is_gone` knows. -/
structure BuildEnv where
  now : ℕ := 0
  /-- `VLLM_ENABLE_BYPASS_SUBSTEP` -/
  enableBypassSubstep : Bool := true
  /-- `VLLM_PD_TRY_CONNECT_TIMEOUT_SECONDS` -/
  tryConnectTimeout : ℕ := 0
  isGone : String → Bool := fun _ => false

/-- What the loops of `_step_sched_req` choose for a request that is bound to a transfer. -/
inductive Choice
  /-- a failed assertion -/
  | fail
  /-- `continue` -/
  | skip
  /-- a meta that ends here -/
  | send (endTokens : ℤ) (hasLastToken : Bool)
  deriving DecidableEq, Repr

/-- The part both loops of `_step_sched_req` share: `endTokens` is where the scheduled tokens end, and
`limit` the tokens the request computes. -/
def KVTState.choose (kvtstate : KVTState) (limit endTokens : ℤ) (substepMode : Bool) : Choice :=
  if endTokens ≤ kvtstate.dinfo.cachedTokens then .skip
  else if limit ≤ endTokens ∧ endTokens < kvtstate.maxtokens then .fail
  else if substepMode = true ∧ kvtstate.untouched = false then .fail
  else if kvtstate.maxtokens ≤ endTokens then .send kvtstate.maxtokens true
  else if substepMode then .skip
  else .send endTokens false

namespace ReqView

variable (v : ReqView)

/-- `set_param(req, P_KVT_STATE, kvtstate)`. -/
def setKvt (kvtstate : KVTState) : ReqView :=
  { v with req := { v.req with kvtState := some kvtstate } }

/-- `_update_dual_req_done`; `none` is a failed assertion on the block ids. -/
def updateDualReqDone (now : ℕ) (islast : Bool) (pblkids : Option (List (List ℕ))) (finished : Bool)
    : Option ReqView :=
  if v.req.remoteDecode = false ∨ islast = false ∨ v.dual.isSome then some v
  else
    match pblkids with
    | some blks => if blks = [] then none
        else some { v with dual := some { pblkids := blks, finished, insertTs := now } }
    | none => if v.req.blkids.headD [] = [] then none
        else some { v with dual := some { pblkids := v.req.blkids, finished, insertTs := now } }

/-- `_update_infly_kvt`. -/
def updateInflyKvt (m : PReqMeta) : Option ReqView :=
  if m.dBlockIds ≠ [] then
    if v.infly.isSome then none
    else if m.hasLastToken then some v
    else some { v with infly := some m }
  else if v.infly.isNone then none
  else if m.hasLastToken then some { v with infly := none }
  else some { v with infly := some m }

variable (reqid : String)

/-- The meta of `_dual_req_transfer` and of `_migration_bypass`: everything at once. -/
def transferAll (pblkids : List (List ℕ)) (kvtstate : KVTState) : PReqMeta where
  reqid := reqid
  dInstId := kvtstate.dinfo.instid
  pBlockIds := pblkids
  dBlockIds := kvtstate.dinfo.blkids
  newTokens := kvtstate.maxtokens - kvtstate.dinfo.cachedTokens
  hasLastToken := true
  seenTokens := kvtstate.dinfo.cachedTokens
  dWorkersInfo := kvtstate.dinfo.dWorkersInfo
  hasFreeze := true

/-- The body of `_step_stop0`. -/
def stepStop0 (now : ℕ) : Option (ReqView × List Emit) :=
  if v.req.kvtState.isSome ∨ v.dual.isSome then none
  else (v.updateDualReqDone now true none true).map fun v' => (v', [])

/-- The body of `_step_aborting`. -/
def stepAborting : Option (ReqView × List Emit) :=
  match v.req.kvtState with
  | some kvtstate =>
    if kvtstate.untouched = false then some (v, [])
    else if v.infly.isSome then none
    else some ({ v with dual := none },
      [.markSendDone { reqid := some reqid, ex := some (.codeError 500 "aborted") }, .saveDone])
  | none =>
    if v.infly.isSome then none
    else some ({ v with dual := none }, [.saveDone])

/-- The body of `_step_dinfoq`. -/
def stepDinfo (env : BuildEnv) (rdinfo : RKVTDInfo) : Option (ReqView × List Emit) :=
  let dinfo := rdinfo.dinfo
  if v.dual.isNone ∧ v.req.live = false then
    let ex := if env.isGone rdinfo.reqid then .codeError 410 "req gone"
      else .codeError 404 "req not found"
    some (v, [.markSendDone { reqid := some rdinfo.reqid, ex := some ex }])
  else if v.req.kvtState.isSome then none
  else
    let maxtokens := min v.req.numTokens dinfo.maxTokens
    let kvtstat : KVTState :=
      { dinfo, maxtokens := v.req.maxComputedTokens.elim maxtokens (min maxtokens), untouched := false }
    if v.req.maxComputedTokens.any fun maxcomputed => maxcomputed ≤ dinfo.cachedTokens then
      some ({ v.setKvt kvtstat with dual := none },
        [.markSendDone { reqid := some rdinfo.reqid, n := some dinfo.cachedTokens }, .saveDone])
    else
      match v.dual.filter (·.finished) with
      | none =>
        if rdinfo.migration then
          if v.req.savePrepared ∨ v.req.blkids = [] then none
          else some ({ v with req := { v.req with kvtState := some kvtstat, savePrepared := true } },
            [.freeze (transferAll rdinfo.reqid v.req.blkids kvtstat)])
        else some ({ v.setKvt { kvtstat with untouched := true } with isNew := true }, [])
      | some dualReq =>
        if v.req.numPromptTokens < dinfo.maxTokens then
          some (v.setKvt kvtstat, [.abortReq .tokenMismatch])
        else
          some ({ v.setKvt kvtstat with dual := none },
            [.freeze (transferAll rdinfo.reqid dualReq.pblkids kvtstat)])

/-- `_dual_req_finish`. -/
def dualReqFinish : Option (ReqView × List Emit) :=
  match v.dual with
  | none => some (v, [])
  | some dualReq =>
    match v.req.kvtState with
    | none => some ({ v with dual := some { dualReq with finished := true } }, [])
    | some kvtstate =>
      if dualReq.finished then none
      else if kvtstate.untouched = false then some ({ v with dual := none }, [])
      else some ({ v.setKvt { kvtstate with untouched := false } with dual := none },
        [.freeze (transferAll reqid dualReq.pblkids kvtstate)])

/-- The body of `_step_finished_reqs`. -/
def stepFinishedReqs : Option (ReqView × List Emit) :=
  match v.infly with
  | none => v.dualReqFinish reqid
  | some m =>
    if v.dual.isSome ∨ m.hasLastToken = true ∨ m.newTokens ≤ 0 then none
    else some ({ v with infly := none },
      [.abort {
        reqid := m.reqid, dInstId := "", pBlockIds := [], dBlockIds := [], newTokens := 0
        hasLastToken := true, seenTokens := m.seenTokens + m.newTokens
        dWorkersInfo := m.dWorkersInfo }])

/-- The meta that starts a transfer, up to `endTokens`. -/
def firstMeta (kvtstate : KVTState) (pBlockIds : List (List ℕ)) (endTokens : ℤ)
    (hasLastToken : Bool) : PReqMeta where
  reqid := reqid
  dInstId := kvtstate.dinfo.instid
  pBlockIds := pBlockIds
  dBlockIds := kvtstate.dinfo.blkids
  newTokens := endTokens - kvtstate.dinfo.cachedTokens
  hasLastToken := hasLastToken
  seenTokens := kvtstate.dinfo.cachedTokens
  dWorkersInfo := kvtstate.dinfo.dWorkersInfo

/-- The meta that goes on with a transfer. -/
def deltaMeta (seenTokens endTokens : ℤ) (hasLastToken : Bool) : PReqMeta where
  reqid := reqid
  dInstId := ""
  pBlockIds := []
  dBlockIds := []
  newTokens := endTokens - seenTokens
  hasLastToken := hasLastToken
  seenTokens := seenTokens

/-- `ret.append(kvtmeta)` and `_update_infly_kvt(kvtmeta)`. -/
def emitMeta (m : PReqMeta) : Option (ReqView × List Emit) :=
  (v.updateInflyKvt m).map fun v' => (v', [.nonfreeze m])

/-- `kvtstate.untouched = False`, and the meta that starts the transfer. -/
def emitFirst (kvtstate : KVTState) (pBlockIds : List (List ℕ)) (endTokens : ℤ)
    (hasLastToken substepMode : Bool) : Option (ReqView × List Emit) :=
  if substepMode = true ∧ kvtstate.dinfo.blkids = [] then none
  else (v.setKvt { kvtstate with untouched := false }).emitMeta
    (firstMeta reqid kvtstate pBlockIds endTokens hasLastToken)

/-- The body of `_step_sched_req`'s first loop. -/
def stepSchedNew (now : ℕ) (reqdata : NewReqData) (substepMode : Bool) :
    Option (ReqView × List Emit) :=
  if substepMode = true ∧ v.isNew = false then some (v, [])
  else if v.req.live = false then none
  else
    let newTokens := reqdata.numScheduledTokens + reqdata.numComputedTokens
    match v.req.kvtState with
    | none =>
      if substepMode then none
      else (v.updateDualReqDone now (v.req.limit ≤ newTokens) (some reqdata.blockIds) false).map
        fun v' => (v', [])
    | some kvtstate =>
      match kvtstate.choose v.req.limit newTokens substepMode with
      | .fail => none
      | .skip => some (v, [])
      | .send newTokens hasLastToken =>
        v.emitFirst reqdata.reqid kvtstate reqdata.blockIds newTokens hasLastToken substepMode

/-- The body of `_step_sched_req`'s second loop. -/
def stepSchedCached (now : ℕ) (reqdata : CachedReqData) (substepMode : Bool) :
    Option (ReqView × List Emit) :=
  if substepMode = true ∧ v.isNew = false then some (v, [])
  else if v.req.live = false then none
  else
    let endTokens := reqdata.numComputedTokens + reqdata.numScheduledTokens
    match v.req.kvtState with
    | none =>
      if substepMode then none
      else (v.updateDualReqDone now (v.req.limit ≤ endTokens) none false).map fun v' => (v', [])
    | some kvtstate =>
      match kvtstate.choose v.req.limit endTokens substepMode with
      | .fail => none
      | .skip => some (v, [])
      | .send endTokens hasLastToken =>
        let seenTokens := if kvtstate.untouched then 0 else reqdata.numComputedTokens
        if seenTokens ≤ kvtstate.dinfo.cachedTokens then
          v.emitFirst reqdata.reqid kvtstate v.req.blkids endTokens hasLastToken substepMode
        else if seenTokens < kvtstate.maxtokens then
          if substepMode = true ∨ kvtstate.untouched = true then none
          else v.emitMeta (deltaMeta reqdata.reqid seenTokens endTokens hasLastToken)
        else some (v, [])

end ReqView

/-! ## The loops -/

/-- One round of one of the loops of `build_backend_meta`. -/
inductive Work
  | stop0 (reqid : String)
  | abortedSave (reqid : String)
  | dinfo (rdinfo : RKVTDInfo)
  | finished (reqid : String)
  | schedNew (reqdata : NewReqData) (substepMode : Bool)
  | schedCached (reqdata : CachedReqData) (substepMode : Bool)
  deriving DecidableEq, Repr

/-- The request a round is about. -/
def Work.reqid : Work → String
  | .stop0 reqid | .abortedSave reqid | .finished reqid => reqid
  | .dinfo rdinfo => rdinfo.reqid
  | .schedNew reqdata _ => reqdata.reqid
  | .schedCached reqdata _ => reqdata.reqid

/-- A round, on what is kept for its request. -/
def handle (env : BuildEnv) : Work → ReqView → Option (ReqView × List Emit)
  | .stop0 _, v => v.stepStop0 env.now
  | .abortedSave reqid, v => v.stepAborting reqid
  | .dinfo rdinfo, v => v.stepDinfo env rdinfo
  | .finished reqid, v => v.stepFinishedReqs reqid
  | .schedNew reqdata substepMode, v => v.stepSchedNew env.now reqdata substepMode
  | .schedCached reqdata substepMode, v => v.stepSchedCached env.now reqdata substepMode

variable (sout : SchedOut)

/-- The rounds before `_step_dual_req_done`. -/
def SchedOut.rounds (dinfoq : List RKVTDInfo) : List Work :=
  sout.hcStop0.map .stop0 ++ sout.hcAbortedSave.map .abortedSave ++ dinfoq.map .dinfo ++
    sout.finishedReqIds.map .finished

/-- The rounds of one call of `_step_sched_req`. -/
def Scheduled.rounds (sched : Scheduled) (substepMode : Bool) : List Work :=
  sched.newReqs.map (.schedNew · substepMode) ++ sched.cachedReqs.map (.schedCached · substepMode)

/-- …and which call it is: the main step's own output, or its parent's in a substep.  An empty
`substep_news` makes the source skip the call, and makes every round of it one that does nothing. -/
def SchedOut.schedRounds (env : BuildEnv) : List Work :=
  match sout.hcParent with
  | none => sout.scheduled.rounds false
  | some parent => if env.enableBypassSubstep then parent.rounds true else []

/-- All rounds of a call, in order. -/
def SchedOut.allRounds (env : BuildEnv) (dinfoq : List RKVTDInfo) : List Work :=
  sout.rounds dinfoq ++ sout.schedRounds env

/-- The requests and the dictionaries the loops work on. -/
structure PCore where
  reqs : String → Req
  dualReqDone : Dict String DualReq
  inflyKvt : Dict String PReqMeta
  substepNews : String → Bool

namespace PCore

/-- What is kept for one request. -/
def view (s : PCore) (reqid : String) : ReqView where
  req := s.reqs reqid
  dual := s.dualReqDone.get? reqid
  infly := s.inflyKvt.get? reqid
  isNew := s.substepNews reqid

/-- An optional entry of a dictionary, written back. -/
def putEntry {ν : Type} (d : Dict String ν) (reqid : String) : Option ν → Dict String ν
  | none => d.erase reqid
  | some x => d.set reqid x

theorem get?_putEntry_self {ν : Type} (d : Dict String ν) (reqid : String) (x : Option ν) :
    (putEntry d reqid x).get? reqid = x := by
  cases x with
  | none => exact Dict.get?_erase_self d reqid
  | some x => exact Dict.get?_set_self d reqid x

theorem get?_putEntry_ne {ν : Type} (d : Dict String ν) {reqid other : String} (x : Option ν)
    (h : other ≠ reqid) : (putEntry d reqid x).get? other = d.get? other := by
  cases x with
  | none => exact Dict.get?_erase_ne d h
  | some x => exact Dict.get?_set_ne d x h

/-- What is kept for one request, written back. -/
def put (s : PCore) (reqid : String) (v : ReqView) : PCore where
  reqs := Function.update s.reqs reqid v.req
  dualReqDone := putEntry s.dualReqDone reqid v.dual
  inflyKvt := putEntry s.inflyKvt reqid v.infly
  substepNews := Function.update s.substepNews reqid v.isNew

/-- **The state of the loops is kept request by request.** -/
def keyed : Keyed PCore String ReqView where
  get := view
  put := put
  get_put_self s reqid v := by
    simp only [view, put, Function.update_self, get?_putEntry_self]
  get_put_ne s reqid v other h := by
    simp only [view, put, Function.update_of_ne h, get?_putEntry_ne _ _ h]

/-- `_step_dual_req_done`: the finished requests that have waited too long; the first that has not
ends the search. -/
def timedOut (now timeout : ℕ) : List (String × DualReq) → List String
  | [] => []
  | (reqid, dualReq) :: rest =>
    if dualReq.finished = false then timedOut now timeout rest
    else if now < dualReq.insertTs + timeout then []
    else reqid :: timedOut now timeout rest

/-- `build_backend_meta`.  The result holds what the loops emitted, each with its request; the error
is the request whose assertion failed. -/
def buildBackendMeta (s : PCore) (env : BuildEnv) (sout : SchedOut) (dinfoq : List RKVTDInfo) :
    Except String (PCore × List (String × Emit)) :=
  match keyed.forEach Work.reqid (handle env) (sout.rounds dinfoq)
      { s with substepNews := fun _ => false } with
  | .error reqid => .error reqid
  | .ok (s₁, out₁) =>
    let aborts := timedOut env.now env.tryConnectTimeout s₁.dualReqDone.entries
    match keyed.forEach Work.reqid (handle env) (sout.schedRounds env) s₁ with
    | .error reqid => .error reqid
    | .ok (s₂, out₂) =>
      .ok (s₂, out₁ ++ out₂ ++ aborts.map fun reqid => (reqid, .abortReq .dualReqDoneTimeout))

variable {s s' : PCore} {env : BuildEnv} {sout : SchedOut} {dinfoq : List RKVTDInfo}

/-- The two loops of a call that returns. -/
theorem buildBackendMeta_eq_ok {out : List (String × Emit)}
    (h : s.buildBackendMeta env sout dinfoq = .ok (s', out)) :
    ∃ (s₁ : PCore) (out₁ out₂ : List (String × Emit)) (aborts : List String),
      keyed.forEach Work.reqid (handle env) (sout.rounds dinfoq)
        { s with substepNews := fun _ => false } = .ok (s₁, out₁) ∧
      keyed.forEach Work.reqid (handle env) (sout.schedRounds env) s₁ = .ok (s', out₂) ∧
      out = out₁ ++ out₂ ++ aborts.map fun reqid => (reqid, .abortReq .dualReqDoneTimeout) := by
  unfold buildBackendMeta at h
  split at h
  · cases h
  · next s₁ out₁ hfirst =>
    dsimp only at h
    split at h
    · cases h
    · next s₂ out₂ hsecond =>
      obtain ⟨rfl, rfl⟩ := Prod.mk.inj (Except.ok.inj h)
      exact ⟨s₁, out₁, out₂, _, hfirst, hsecond, rfl⟩

/-- …and of one that does not. -/
theorem buildBackendMeta_eq_error {reqid : String}
    (h : s.buildBackendMeta env sout dinfoq = .error reqid) :
    keyed.forEach Work.reqid (handle env) (sout.rounds dinfoq)
      { s with substepNews := fun _ => false } = .error reqid ∨
    ∃ s₁ out₁,
      keyed.forEach Work.reqid (handle env) (sout.rounds dinfoq)
        { s with substepNews := fun _ => false } = .ok (s₁, out₁) ∧
      keyed.forEach Work.reqid (handle env) (sout.schedRounds env) s₁ = .error reqid := by
  unfold buildBackendMeta at h
  split at h
  · next hfirst =>
    cases h
    exact .inl hfirst
  · next s₁ out₁ hfirst =>
    dsimp only at h
    split at h
    · next hsecond =>
      cases h
      exact .inr ⟨s₁, out₁, hfirst, hsecond⟩
    · cases h

end PCore

/-! ## The backend and its threads -/

/-- The P backend.  `log` is the history of what the loops have emitted. -/
structure PBackend extends PCore where
  dinfoq : List RKVTDInfo
  sending : Dict String SendingReq
  /-- the calls of `_mark_send_done` the event loop has not made yet -/
  scheduled : List IoRet
  log : List (String × Emit)

/-- What happens to the backend. -/
inductive PEvent
  /-- disagg thread: `submit_transfer_kv`, for a D with `dTp` workers -/
  | transfer (rdinfo : RKVTDInfo) (dTp : Option ℕ)
  /-- core thread: the aborted requests leave the scheduler, and the metadata are built -/
  | turn (env : BuildEnv) (sout : SchedOut)
  /-- core thread: a finished request leaves the scheduler -/
  | leave (reqid : String)
  /-- core thread: a request enters the scheduler -/
  | enter (reqid : String) (req : Req)
  /-- core thread: the engine appends tokens and allocates blocks -/
  | engine (reqid : String) (numTokens : ℤ) (blkids : List (List ℕ))
  /-- disagg thread: the oldest scheduled `_mark_send_done` -/
  | markSendDone
  /-- disagg thread: `_do_send_done` -/
  | sendDone (workerTprank : ℕ) (ioret : IoRet)
  /-- disagg thread: `_wait_kvt_state` goes on, and answers D -/
  | answer (reqid : String)

/-- The `_mark_send_done` calls among what was emitted. -/
def Emit.mark? : Emit → Option IoRet
  | .markSendDone ioret => some ioret
  | _ => none

namespace PBackend

/-- `_check_kvtdinfo`. -/
def checkKvtdinfo (naming : Bool) (info : KVTDInfo) : Bool :=
  decide (info.cachedTokens < info.maxTokens) &&
    (naming || (info.dWorkersInfo ≠ [] && info.dWorkersInfo.all (· ≠ "")))

variable (s : PBackend)

/-- `submit_transfer_kv`, up to the wait; a failed assertion ends the handler of the connection. -/
def submitTransferKv (naming : Bool) (tpSize : ℕ) (rdinfo : RKVTDInfo) (dTp : Option ℕ) :
    PBackend :=
  if checkKvtdinfo naming rdinfo.dinfo = true ∧ (s.sending.get? rdinfo.reqid).isNone then
    { s with
      sending := s.sending.set rdinfo.reqid { signalsPerWorker := kvtSignalsPerWorker tpSize dTp }
      dinfoq := s.dinfoq ++ [rdinfo] }
  else s

/-- The requests, some of them out of the scheduler. -/
def dropLive (s : PCore) (reqids : List String) : PCore :=
  { s with reqs := fun reqid => if reqid ∈ reqids then { s.reqs reqid with live := false }
    else s.reqs reqid }

/-- One turn of the core thread. -/
def turn (env : BuildEnv) (sout : SchedOut) : Except String PBackend :=
  match (dropLive s.toPCore sout.hcAbortedSave).buildBackendMeta env sout s.dinfoq with
  | .error reqid => .error reqid
  | .ok (core, out) => .ok {
      toPCore := core
      dinfoq := []
      sending := s.sending
      scheduled := s.scheduled ++ out.filterMap fun e => e.2.mark?
      log := s.log ++ out }

/-- A change of the entry of `_sending` under an id, if there is one. -/
def updateSending (reqid : Option String) (f : SendingReq → SendingReq) : PBackend :=
  match reqid with
  | none => s
  | some reqid =>
    match s.sending.get? reqid with
    | none => s
    | some st => { s with sending := s.sending.set reqid (f st) }

/-- A change of what the engine knows of a request. -/
def updateReq (reqid : String) (f : Req → Req) : PBackend :=
  { s with reqs := Function.update s.reqs reqid (f (s.reqs reqid)) }

/-- One event; the error is the request whose assertion ended the core thread. -/
def step (naming : Bool) (tpSize : ℕ) (s : PBackend) : PEvent → Except String PBackend
  | .transfer rdinfo dTp => .ok (s.submitTransferKv naming tpSize rdinfo dTp)
  | .turn env sout => s.turn env sout
  | .leave reqid => .ok (s.updateReq reqid fun req => { req with live := false })
  | .enter reqid req =>
    -- request ids are unique: the entry is one nobody has heard of
    if (s.reqs reqid).live = false ∧ (s.reqs reqid).kvtState = none ∧
        s.dualReqDone.get? reqid = none ∧ s.inflyKvt.get? reqid = none then
      .ok (s.updateReq reqid fun _ => { req with live := true, kvtState := none })
    else .ok s
  | .engine reqid numTokens blkids =>
    .ok (s.updateReq reqid fun req => { req with numTokens, blkids })
  | .markSendDone =>
    match s.scheduled with
    | [] => .ok s
    | ioret :: rest =>
      .ok ({ s with scheduled := rest }.updateSending ioret.reqid fun st =>
        st.tryMarkDone { ioret with source := some (ioret.source.getD "kvt") })
  | .sendDone workerTprank ioret =>
    .ok (s.updateSending ioret.reqid fun st => st.doSendDone tpSize workerTprank ioret)
  | .answer reqid =>
    if ((s.sending.get? reqid).bind SendingReq.fut).isSome then
      .ok { s with sending := s.sending.erase reqid }
    else .ok s

/-- A run; it ends with the first failed assertion of the core thread. -/
def run (naming : Bool) (tpSize : ℕ) : PBackend → List PEvent → Except String PBackend
  | s, [] => .ok s
  | s, e :: es =>
    match s.step naming tpSize e with
    | .error reqid => .error reqid
    | .ok s' => run naming tpSize s' es

/-! ## One request at a time -/

/-- What is kept for a request when the loops start. -/
def turnView (sout : SchedOut) (reqid : String) : ReqView :=
  { s.view reqid with
    req := if reqid ∈ sout.hcAbortedSave then { s.reqs reqid with live := false } else s.reqs reqid
    isNew := false }

/-- The rounds of a turn that are about one request. -/
def roundsOf (env : BuildEnv) (sout : SchedOut) (reqid : String) : List Work :=
  (sout.allRounds env s.dinfoq).filter fun w => w.reqid = reqid

/-- They come in the order of the loops. -/
theorem roundsOf_eq (env : BuildEnv) (sout : SchedOut) (reqid : String) :
    s.roundsOf env sout reqid =
      List.replicate (sout.hcStop0.count reqid) (.stop0 reqid) ++
      List.replicate (sout.hcAbortedSave.count reqid) (.abortedSave reqid) ++
      (s.dinfoq.filter (·.reqid = reqid)).map .dinfo ++
      List.replicate (sout.finishedReqIds.count reqid) (.finished reqid) ++
      (sout.schedRounds env).filter (·.reqid = reqid) := by
  have hids (f : String → Work) (hf : ∀ r, (f r).reqid = r) (ids : List String) :
      (ids.map f).filter (·.reqid = reqid) = List.replicate (ids.count reqid) (f reqid) := by
    rw [filter_map, ← map_replicate, ← filter_beq]
    congr 1
    refine filter_congr fun r _ => ?_
    rw [Function.comp_apply, hf]
    rfl
  simp only [roundsOf, SchedOut.allRounds, SchedOut.rounds, filter_append]
  rw [hids _ fun _ => rfl, hids _ fun _ => rfl, hids _ fun _ => rfl, filter_map]
  rfl

theorem emitted_timedOut (reqid : String) : ∀ reqids : List String,
    ∃ n, Keyed.emitted reqid (reqids.map fun r => (r, Emit.abortReq .dualReqDoneTimeout)) =
      List.replicate n (.abortReq .dualReqDoneTimeout)
  | [] => ⟨0, rfl⟩
  | r :: reqids => by
      obtain ⟨n, hn⟩ := emitted_timedOut reqid reqids
      rw [emitted] at hn
      rw [map_cons, emitted]
      by_cases h : r = reqid
      · exact ⟨n + 1, by simp [h, hn, replicate_succ]⟩
      · exact ⟨n, by simp [h, hn]⟩

/-- What a turn leaves behind. -/
structure Turned (s : PBackend) (env : BuildEnv) (sout : SchedOut) (s' : PBackend)
    (delta : List (String × Emit)) : Prop where
  dinfoq : s'.dinfoq = []
  sending : s'.sending = s.sending
  scheduled : s'.scheduled = s.scheduled ++ delta.filterMap fun e => e.2.mark?
  log : s'.log = s.log ++ delta
  /-- what it did to one request is what the rounds of that one do -/
  thread : ∀ reqid, ∃ out n,
    Keyed.thread (handle env) (s.roundsOf env sout reqid) (s.turnView sout reqid) =
      some (s'.view reqid, out) ∧
    Keyed.emitted reqid delta = out ++ List.replicate n (.abortReq .dualReqDoneTimeout)

/-- **A turn splits by request.** -/
theorem turned_of_turn {s s' : PBackend} {env : BuildEnv} {sout : SchedOut}
    (h : s.turn env sout = .ok s') : ∃ delta, Turned s env sout s' delta := by
  unfold turn at h
  split at h
  · cases h
  · next core delta hbuild =>
    cases h
    refine ⟨delta, rfl, rfl, rfl, rfl, fun reqid => ?_⟩
    obtain ⟨s₁, out₁, out₂, aborts, hfirst, hsecond, rfl⟩ := PCore.buildBackendMeta_eq_ok hbuild
    obtain ⟨n, hn⟩ := emitted_timedOut reqid aborts
    refine ⟨emitted reqid out₁ ++ emitted reqid out₂, n, ?_, ?_⟩
    · rw [roundsOf, SchedOut.allRounds, filter_append]
      refine (thread_append (forEach_thread reqid hfirst)).trans ?_
      rw [forEach_thread reqid hsecond]
      rfl
    · rw [emitted_append, emitted_append, hn]

/-- …and where it fails, the rounds of the request it names fail. -/
theorem turn_error {s : PBackend} {env : BuildEnv} {sout : SchedOut} {reqid : String}
    (h : s.turn env sout = .error reqid) :
    Keyed.thread (handle env) (s.roundsOf env sout reqid) (s.turnView sout reqid) = none := by
  unfold turn at h
  rw [roundsOf, SchedOut.allRounds, filter_append]
  split at h
  · next hbuild =>
    cases h
    rcases PCore.buildBackendMeta_eq_error hbuild with hfirst | ⟨s₁, out₁, hfirst, hsecond⟩
    · exact thread_append_none (forEach_error hfirst)
    · refine (thread_append (forEach_thread _ hfirst)).trans ?_
      rw [forEach_error hsecond, Option.map_none]
  · cases h

end PBackend

end LlumnixKv
