import LlumnixKv.Scheduler.Owed
import LlumnixKv.Scheduler.Prefill

/-!
# Scheduler/DualRequest — a prefill and its transfer, in any order

A request for a remote D is computed on its own; D's `TRANSFER_KV_REQ` comes before, between or after
its chunks, or after its end.  Four places can send its tokens:

                    the transfer is taken from the queue …
    … before its last chunk      the chunks that follow              nonfreeze_metas
    … in a bypass substep        the chunks its parent has scheduled nonfreeze_metas
    … after its last chunk       the finish                          freeze_metas
    … after its finish           at once                             freeze_metas

`DualTrack` follows such a request round by round, and `Dual` is what the backend keeps of it: one
`untouched` flag and one entry of `_dual_req_done` decide which place it will be.

One interleaving breaks it.  A substep that takes the transfer from the queue looks the request up in
the scheduler if its parent lists it; a request that has left meanwhile fails the assertion, and the
core thread with it.  `DualTrack.stale` marks that round, and `dualRequest_exactlyOnce` is the rest.
-/

open List Machinery

namespace LlumnixKv

/-! ## The track of a request -/

/-- What has happened to a request and to its transfer. -/
structure DualTrack where
  /-- the ends of the chunks scheduled so far -/
  ends : List ℤ := []
  /-- it was stopped before its first chunk, by `hc_stop0` -/
  stopped : Bool := false
  /-- the `TRANSFER_KV_REQ` has come -/
  arrived : Bool := false
  /-- …and was taken from the queue: the ends that may have been sent since -/
  since : Option (List ℤ) := none
  /-- …in this turn, by a request that was not finished -/
  isNew : Bool := false
  /-- it has left the scheduler -/
  left : Bool := false
  /-- it was reported in `finished_req_ids` -/
  finished : Bool := false
  /-- a substep has looked it up after it left -/
  stale : Bool := false
  deriving DecidableEq, Repr

variable {sout : SchedOut} {env : BuildEnv} {e : ℤ} {reqid : String} {w : Work}
  {kvtstate : KVTState}

namespace DualTrack

variable (t : DualTrack)

/-- Its tokens are all scheduled. -/
def computed (limit : ℤ) : Bool := t.stopped || t.ends.getLast?.any (limit ≤ ·)

/-- What is queued of it. -/
def queue (rdinfo : RKVTDInfo) : List RKVTDInfo :=
  if t.arrived = true ∧ t.since = none then [rdinfo] else []

/-- A chunk of the main step. -/
def push (e : ℤ) : DualTrack :=
  { t with ends := t.ends ++ [e], since := t.since.map (· ++ [e]) }

/-- A substep whose parent has scheduled it up to `e`. -/
def substep (m e : ℤ) : Option DualTrack :=
  if t.isNew = false then some t
  else if t.left then some { t with stale := true }
  else if e ∈ t.ends ∧ t.since = some [] then
    some (if m ≤ e then { t with since := some [e] } else t)
  else none

/-- A round of a turn, for a transfer of `[c, m)`. -/
def round (rdinfo : RKVTDInfo) (m : ℤ) (t : DualTrack) : Work → Option DualTrack
  | .stop0 _ =>
    if t.ends = [] ∧ t.stopped = false ∧ t.since = none then
      some { t with stopped := true, finished := true }
    else none
  | .abortedSave _ => none
  | .dinfo rd =>
    if rd = rdinfo ∧ t.arrived = true ∧ t.since = none then
      some { t with since := some [], isNew := !t.finished }
    else none
  | .finished _ => if t.left = true ∨ t.stopped = true then some { t with finished := true } else none
  | .schedNew reqdata false =>
    if t.ends = [] ∧ t.stopped = false ∧ t.left = false ∧ reqdata.blockIds ≠ [] then
      some (t.push (reqdata.numScheduledTokens + reqdata.numComputedTokens))
    else none
  | .schedCached reqdata false =>
    if t.ends.getLast? = some reqdata.numComputedTokens ∧ t.left = false ∧
        0 < reqdata.numScheduledTokens then
      some (t.push (reqdata.numComputedTokens + reqdata.numScheduledTokens))
    else none
  | .schedNew reqdata true =>
    t.substep m (reqdata.numScheduledTokens + reqdata.numComputedTokens)
  | .schedCached reqdata true =>
    t.substep m (reqdata.numComputedTokens + reqdata.numScheduledTokens)

/-- An event, for a request that computes `limit` tokens. -/
def next (reqid : String) (rdinfo : RKVTDInfo) (limit m : ℤ) (t : DualTrack) :
    PEvent → Option DualTrack
  | .turn env sout =>
    follow (round rdinfo m) { t with isNew := false }
      ((sout.allRounds env (t.queue rdinfo)).filter (·.reqid = reqid))
  | .transfer rd _ =>
    if rd.reqid ≠ reqid then some t
    else if rd = rdinfo ∧ t.arrived = false then some { t with arrived := true }
    else none
  | .enter r _ => if r = reqid then none else some t
  | .leave r =>
    if r ≠ reqid then some t
    else if t.computed limit then some { t with left := true }
    else none
  | .engine r numTokens blkids =>
    if r ≠ reqid then some t
    else if rdinfo.dinfo.maxTokens ≤ numTokens ∧ blkids.headD [] ≠ [] then some t
    else none
  | _ => some t

variable {rdinfo : RKVTDInfo} {m : ℤ} {t t' : DualTrack}

/-- What no round takes back. -/
structure Onward (t t' : DualTrack) : Prop where
  arrived : t'.arrived = t.arrived
  stale : t.stale = true → t'.stale = true
  taken : t.since.isSome = true → t'.since.isSome = true
  asked : t'.since.isSome = true → t.since.isSome = true ∨ t.arrived = true

theorem Onward.substep (h : t.substep m e = some t') : t.Onward t' := by
  unfold DualTrack.substep at h
  split at h
  · cases h
    exact ⟨rfl, id, id, .inl⟩
  · split at h
    · cases h
      exact ⟨rfl, fun _ => rfl, id, .inl⟩
    · obtain ⟨⟨-, hsince⟩, ⟨⟩⟩ := Option.ite_none_right_eq_some.mp h
      have hsome : t.since.isSome = true := by rw [hsince]; rfl
      split
      · exact ⟨rfl, id, fun _ => rfl, fun _ => .inl hsome⟩
      · exact ⟨rfl, id, id, .inl⟩

theorem Onward.push (e : ℤ) : t.Onward (t.push e) where
  arrived := rfl
  stale := id
  taken := fun h => by rwa [DualTrack.push, Option.isSome_map]
  asked := fun h => by
    rw [DualTrack.push, Option.isSome_map] at h
    exact .inl h

theorem Onward.round (h : t.round rdinfo m w = some t') : t.Onward t' := by
  cases w with
  | abortedSave _ => cases h
  | stop0 _ | finished _ =>
    obtain ⟨-, ⟨⟩⟩ := Option.ite_none_right_eq_some.mp h
    exact ⟨rfl, id, id, .inl⟩
  | dinfo _ =>
    obtain ⟨⟨-, harrived, -⟩, ⟨⟩⟩ := Option.ite_none_right_eq_some.mp h
    exact ⟨rfl, id, fun _ => rfl, fun _ => .inr harrived⟩
  | schedNew reqdata substepMode | schedCached reqdata substepMode =>
    cases substepMode with
    | false =>
      obtain ⟨-, ⟨⟩⟩ := Option.ite_none_right_eq_some.mp h
      exact .push _
    | true => exact .substep h

theorem Onward.refl (t : DualTrack) : t.Onward t := ⟨rfl, id, id, Or.inl⟩

theorem Onward.trans {t₁ t₂ t₃ : DualTrack} (h : t₁.Onward t₂) (h' : t₂.Onward t₃) :
    t₁.Onward t₃ where
  arrived := h'.arrived.trans h.arrived
  stale := h'.stale ∘ h.stale
  taken := h'.taken ∘ h.taken
  asked := fun hsome => by
    rcases h'.asked hsome with hsome | harrived
    · exact h.asked hsome
    · exact .inr (h.arrived.symm.trans harrived)

/-- **No turn takes it back.** -/
theorem Onward.follow {ws : List Work} (h : follow (DualTrack.round rdinfo m) t ws = some t') :
    t.Onward t' :=
  follow_keeps (P := t.Onward) (fun _ _ _ hnext ht => ht.trans (.round hnext)) h (.refl t)

/-- A turn takes a transfer that is queued. -/
theorem queue_eq_nil
    (hreqid : rdinfo.reqid = reqid)
    (h : follow (DualTrack.round rdinfo m) { t with isNew := false }
      ((sout.allRounds env (t.queue rdinfo)).filter (·.reqid = reqid)) = some t') :
    t'.queue rdinfo = [] := by
  have honward := Onward.follow h
  refine if_neg fun ⟨harrived, hsince⟩ => ?_
  have hnone : t.since = none := by
    cases hsome : t.since with
    | none => rfl
    | some since =>
      have := honward.taken (by rw [hsome]; rfl)
      rw [hsince] at this
      exact absurd this nofun
  have hqueue : t.queue rdinfo = [rdinfo] := if_pos ⟨honward.arrived.symm.trans harrived, hnone⟩
  have hmem : Work.dinfo rdinfo ∈
      (sout.allRounds env (t.queue rdinfo)).filter (·.reqid = reqid) := by
    refine mem_filter.mpr ⟨?_, decide_eq_true hreqid⟩
    simp [SchedOut.allRounds, SchedOut.rounds, hqueue]
  have htaken := follow_reaches (P := fun t : DualTrack => t.since.isSome = true)
    (fun _ _ _ hnext ht => (Onward.round hnext).taken ht)
    (fun _ _ hnext => by
      obtain ⟨-, ⟨⟩⟩ := Option.ite_none_right_eq_some.mp hnext
      rfl) h hmem
  rw [hsince] at htaken
  cases htaken

/-- An aborted request leaves its track. -/
theorem not_aborted {dinfoq : List RKVTDInfo}
    (h : follow (DualTrack.round rdinfo m) t
      ((sout.allRounds env dinfoq).filter (·.reqid = reqid)) = some t') :
    reqid ∉ sout.hcAbortedSave := fun hmem => by
  have hround : Work.abortedSave reqid ∈
      (sout.allRounds env dinfoq).filter (·.reqid = reqid) := by
    refine mem_filter.mpr ⟨?_, decide_eq_true rfl⟩
    simp [SchedOut.allRounds, SchedOut.rounds, hmem]
  have hleaves (t t' : DualTrack) : t.round rdinfo m (.abortedSave reqid) ≠ some t' := by
    simp [DualTrack.round]
  exact follow_reaches (P := fun _ => False) (fun _ _ _ _ => id) hleaves h hround

end DualTrack

/-! ## Exactly once -/

/-- The tokens a meta sends. -/
def Sent.Covers (x : ℤ) (s : Sent) : Bool :=
  s.seenTokens ≤ x ∧ x < s.seenTokens + s.newTokens

/-- **One meta is the last**, and the metas together send every token of `[c, m)` once. -/
structure Complete (c m : ℤ) (sent : List Sent) : Prop where
  last : sent.countP (·.hasLastToken) = 1
  covers : ∀ x, sent.countP (Sent.Covers x) = if c ≤ x ∧ x < m then 1 else 0

/-- Chunks that reach the end of the range are complete. -/
theorem complete_chunkMetas {dinfo : KVTDInfo} {m : ℤ} {ends : List ℤ}
    (hcm : dinfo.cachedTokens < m) (hsorted : ends.Pairwise (· < ·))
    (hm : m ≤ ends.getLastD dinfo.cachedTokens) :
    Complete dinfo.cachedTokens m (chunkMetas dinfo m ends) where
  last := by rw [countP_hasLastToken_chunkMetas hcm hsorted, if_pos hm]
  covers := fun x => by
    have hlast : (cuts dinfo.cachedTokens m ends).getLastD dinfo.cachedTokens = m := by
      rw [getLastD_cuts hcm hsorted, min_eq_right hm, max_eq_right hcm.le]
    have hpiece : (Sent.Covers x ∘ chunkMeta dinfo m) =
        fun p : ℤ × ℤ => decide (p.1 ≤ x ∧ x < p.2) := by
      funext p
      have hend : p.1 + (p.2 - p.1) = p.2 := by omega
      simp [Sent.Covers, chunkMeta, hend]
    have hcount := countP_chain x _ _ (pairwise_cuts hcm hsorted)
    rw [chunkMetas, countP_map, hpiece, hcount, hlast]

/-- Everything at once is complete. -/
theorem complete_transferAll {pblkids : List (List ℕ)} {dinfo : KVTDInfo} {m : ℤ}
    (hdinfo : kvtstate.dinfo = dinfo) (hm : kvtstate.maxtokens = m) :
    Complete dinfo.cachedTokens m
      ([Emit.freeze (ReqView.transferAll reqid pblkids kvtstate)].filterMap Emit.sent?) where
  last := rfl
  covers := fun x => by
    have hend : dinfo.cachedTokens + (m - dinfo.cachedTokens) = m := by omega
    simp [Emit.sent?, Sent.Covers, ReqView.transferAll, PReqMeta.sent, hdinfo, hm, hend]

/-! ## What the backend keeps of the request -/

/-- The request, as far as no round changes it. -/
structure Req.Serves (req : Req) (rdinfo : RKVTDInfo) (limit m : ℤ) : Prop where
  remoteDecode : req.remoteDecode = true
  limit : req.limit = limit
  prompt : rdinfo.dinfo.maxTokens ≤ req.numPromptTokens
  tokens : rdinfo.dinfo.maxTokens ≤ req.numTokens
  ends : req.transferEnd rdinfo.dinfo = m
  blkids : req.blkids.headD [] ≠ []

/-- The transfer was not taken from the queue: `_dual_req_done` knows the request once its tokens are
all scheduled. -/
structure ReqView.Unbound (v : ReqView) (limit : ℤ) (t : DualTrack) (sent : List Sent) : Prop where
  kvtState : v.req.kvtState = none
  infly : v.infly = none
  sent : sent = []
  isNew : t.isNew = false
  recorded : t.computed limit = true → ∃ dualReq, v.dual = some dualReq ∧
    dualReq.finished = t.finished
  unrecorded : t.computed limit = false → v.dual = none

/-- The transfer was taken from the queue and the request is not finished. -/
structure ReqView.Open (v : ReqView) (dinfo : KVTDInfo) (limit m : ℤ) (t : DualTrack)
    (since : List ℤ) (sent : List Sent) : Prop where
  sending : v.Sending dinfo m since
  untouched : since.getLastD dinfo.cachedTokens ≤ dinfo.cachedTokens →
    ∀ kvtstate, v.req.kvtState = some kvtstate → kvtstate.untouched = true
  sent : sent = chunkMetas dinfo m since
  sorted : since.Pairwise (· < ·)
  /-- nothing was sent that is not scheduled -/
  scheduled : ∀ e ∈ since, ∃ last, t.ends.getLast? = some last ∧ e ≤ last
  /-- a transfer under way goes on from the last chunk -/
  underway : dinfo.cachedTokens < since.getLastD dinfo.cachedTokens →
    since.getLastD dinfo.cachedTokens < m →
    t.ends.getLast? = some (since.getLastD dinfo.cachedTokens)
  dual : ∀ dualReq, v.dual = some dualReq → dualReq.finished = false
  /-- all tokens are sent, or left to the finish -/
  computed : t.computed limit = true →
    m ≤ since.getLastD dinfo.cachedTokens ∨ (since = [] ∧ v.dual.isSome = true)

/-- The transfer was taken from the queue and the request is finished. -/
structure ReqView.Closed (v : ReqView) (dinfo : KVTDInfo) (m : ℤ) (sent : List Sent) : Prop where
  bound : v.req.kvtState.isSome = true
  infly : v.infly = none
  dual : v.dual = none
  complete : Complete dinfo.cachedTokens m sent

/-- Which of the three it is. -/
def ReqView.Stands (v : ReqView) (dinfo : KVTDInfo) (limit m : ℤ) (t : DualTrack)
    (sent : List Sent) : Prop :=
  match t.since with
  | none => v.Unbound limit t sent
  | some since => if t.finished then v.Closed dinfo m sent else v.Open dinfo limit m t since sent

/-- **The request stands where its track says.** -/
structure ReqView.Dual (v : ReqView) (rdinfo : RKVTDInfo) (limit m : ℤ) (t : DualTrack)
    (sent : List Sent) : Prop where
  serves : v.req.Serves rdinfo limit m
  live : v.req.live = !t.left
  isNew : v.isNew = t.isNew
  fresh : t.stale = false
  sorted : t.ends.Pairwise (· < ·)
  left : t.left = true → t.computed limit = true
  stopped : t.stopped = true → t.ends = []
  finished : t.finished = true → t.left = true ∨ t.stopped = true
  stands : v.Stands rdinfo.dinfo limit m t sent

/-- What D asks for: the tokens `[c, m)`, of which P computes all. -/
structure RKVTDInfo.Asks (rdinfo : RKVTDInfo) (limit m : ℤ) : Prop where
  cached : 0 ≤ rdinfo.dinfo.cachedTokens
  lt : rdinfo.dinfo.cachedTokens < m
  le : m ≤ limit
  blkids : rdinfo.dinfo.blkids ≠ []
  migration : rdinfo.migration = false

variable (r : Option (ReqView × List Emit)) {rdinfo : RKVTDInfo} {v : ReqView} {limit m : ℤ}

/-- A round takes the request to `t`. -/
def ReqView.Takes (rdinfo : RKVTDInfo) (limit m : ℤ) (t : DualTrack) (sent : List Sent) : Prop :=
  ∃ v out, r = some (v, out) ∧ v.Dual rdinfo limit m t (sent ++ out.filterMap Emit.sent?)

/-- …or ends the core thread, when `t` is stale. -/
def ReqView.Keeps (rdinfo : RKVTDInfo) (limit m : ℤ) (t : DualTrack) (sent : List Sent) : Prop :=
  (t.stale = true → r = none) ∧ (t.stale = false → Takes r rdinfo limit m t sent)

/-! ## One round -/

theorem Req.Serves.of_moved {v v' : ReqView} (hv : v.req.Serves rdinfo limit m) (h : v.Moved v') :
    v'.req.Serves rdinfo limit m where
  remoteDecode := (congrArg Req.remoteDecode h.req :).trans hv.remoteDecode
  limit := h.limit.trans hv.limit
  prompt := hv.prompt.trans_eq (congrArg Req.numPromptTokens h.req :).symm
  tokens := hv.tokens.trans_eq (congrArg Req.numTokens h.req :).symm
  ends := (congrArg (Req.transferEnd · rdinfo.dinfo) h.req :).trans hv.ends
  blkids := (congrArg Req.blkids h.req :) ▸ hv.blkids

theorem Req.Serves.setKvt (hv : v.req.Serves rdinfo limit m) (kvtstate : KVTState) :
    (v.setKvt kvtstate).req.Serves rdinfo limit m :=
  ⟨hv.remoteDecode, hv.limit, hv.prompt, hv.tokens, hv.ends, hv.blkids⟩

namespace ReqView

/-- `_update_dual_req_done` enters a request once its last tokens are scheduled… -/
theorem updateDualReqDone_record (now : ℕ) (pblkids : Option (List (List ℕ))) (finished : Bool)
    (hremote : v.req.remoteDecode = true) (hnone : v.dual = none) (hsome : pblkids ≠ some [])
    (hblkids : v.req.blkids.headD [] ≠ []) :
    ∃ dualReq, v.updateDualReqDone now true pblkids finished =
      some { v with dual := some dualReq } ∧ dualReq.finished = finished := by
  have hgate : ¬(v.req.remoteDecode = false ∨ true = false ∨ v.dual.isSome = true) := by
    simp [hremote, hnone]
  unfold updateDualReqDone
  rw [if_neg hgate]
  cases pblkids with
  | none => exact ⟨_, if_neg hblkids, rfl⟩
  | some blks => exact ⟨_, if_neg fun h => hsome (congrArg some h), rfl⟩

/-- …and leaves it alone otherwise. -/
theorem updateDualReqDone_keep {now : ℕ} {islast : Bool} {pblkids : Option (List (List ℕ))}
    {finished : Bool} (h : islast = false ∨ v.dual.isSome = true) :
    v.updateDualReqDone now islast pblkids finished = some v := if_pos (.inr h)

/-- `_step_dinfoq` sends a finished request at once. -/
theorem stepDinfo_transfer {dualReq : DualReq} (hdual : v.dual = some dualReq)
    (hdone : dualReq.finished = true) (hkvt : v.req.kvtState = none)
    (hcm : rdinfo.dinfo.cachedTokens < v.req.transferEnd rdinfo.dinfo)
    (hprompt : rdinfo.dinfo.maxTokens ≤ v.req.numPromptTokens) :
    v.stepDinfo env rdinfo = some ({ v.setKvt
        { dinfo := rdinfo.dinfo, maxtokens := v.req.transferEnd rdinfo.dinfo, untouched := false }
          with dual := none },
      [.freeze (transferAll rdinfo.reqid dualReq.pblkids { dinfo := rdinfo.dinfo
                                                           maxtokens := v.req.transferEnd rdinfo.dinfo
                                                           untouched := false })]) := by
  have hnot : ¬(v.dual.isNone = true ∧ v.req.live = false) := by simp [hdual]
  have hfilter : v.dual.filter (·.finished) = some dualReq := by
    rw [hdual, Option.filter_some, if_pos hdone]
  rw [stepDinfo]
  dsimp only
  rw [if_neg hnot, hkvt, Option.isSome_none, if_neg Bool.false_ne_true,
    Req.any_maxComputed_eq_false hcm, if_neg Bool.false_ne_true, hfilter]
  dsimp only
  rw [if_neg (not_lt.mpr hprompt)]
  rfl

end ReqView

namespace ReqView.Dual

variable {env : BuildEnv} {reqid : String} {rdinfo : RKVTDInfo} {limit m : ℤ} {v : ReqView}
  {t : DualTrack} {sent : List Sent} (hv : v.Dual rdinfo limit m t sent) {since : List ℤ}

include hv

theorem unbound (hsince : t.since = none) : v.Unbound limit t sent := by
  have h := hv.stands
  rwa [ReqView.Stands, hsince] at h

theorem opened (hsince : t.since = some since) (hfinished : t.finished = false) :
    v.Open rdinfo.dinfo limit m t since sent := by
  have h := hv.stands
  rw [ReqView.Stands, hsince, hfinished] at h
  exact h

theorem closed (hsince : t.since = some since) (hfinished : t.finished = true) :
    v.Closed rdinfo.dinfo m sent := by
  have h := hv.stands
  rw [ReqView.Stands, hsince, hfinished] at h
  exact h

/-- `_step_stop0`. -/
theorem stop0 (env : BuildEnv) (reqid : String) (hends : t.ends = []) (hstopped : t.stopped = false)
    (hsince : t.since = none) :
    Takes (handle env (.stop0 reqid) v) rdinfo limit m { t with stopped := true, finished := true }
      sent := by
  have hcomputed : t.computed limit = false := by simp [DualTrack.computed, hends, hstopped]
  have hunbound := hv.unbound hsince
  have hnone := hunbound.unrecorded hcomputed
  obtain ⟨dualReq, hrecord, hfinished⟩ := updateDualReqDone_record env.now none true
    hv.serves.remoteDecode hnone (by simp) hv.serves.blkids
  refine ⟨{ v with dual := some dualReq }, [], ?_, ?_⟩
  · have hassert : ¬(v.req.kvtState.isSome = true ∨ v.dual.isSome = true) := by
      simp [hunbound.kvtState, hnone]
    rw [handle, stepStop0, if_neg hassert, hrecord, Option.map_some]
  · refine { hv with
      left := fun _ => rfl, stopped := fun _ => hends, finished := fun _ => .inr rfl
      stands := ?_ }
    rw [ReqView.Stands, hsince, filterMap_nil, append_nil]
    exact { hunbound with
      recorded := fun _ => ⟨dualReq, rfl, hfinished⟩, unrecorded := fun h => (by cases h) }

/-- `_step_dinfoq`: the request is bound, or its tokens are sent at once. -/
theorem dinfo (env : BuildEnv) (hasks : rdinfo.Asks limit m) (hsince : t.since = none) :
    Takes (handle env (.dinfo rdinfo) v) rdinfo limit m
      { t with since := some [], isNew := !t.finished } sent := by
  have hunbound := hv.unbound hsince
  have hcm' : rdinfo.dinfo.cachedTokens < v.req.transferEnd rdinfo.dinfo := hv.serves.ends ▸ hasks.lt
  have hfound : v.dual.isSome = true ∨ v.req.live = true := by
    cases hcomputed : t.computed limit with
    | true =>
      obtain ⟨dualReq, hdual, -⟩ := hunbound.recorded hcomputed
      exact .inl (by rw [hdual]; rfl)
    | false =>
      refine .inr (hv.live.trans ?_)
      cases hleft : t.left with
      | false => rfl
      | true => cases hcomputed.symm.trans (hv.left hleft)
  rcases Bool.eq_false_or_eq_true t.finished with hfinished | hfinished
  · -- finished: everything at once
    obtain ⟨dualReq, hdual, hdone⟩ : ∃ dualReq, v.dual = some dualReq ∧ dualReq.finished = true := by
      have hcomputed : t.computed limit = true := by
        rcases hv.finished hfinished with hleft | hstopped
        · exact hv.left hleft
        · rw [DualTrack.computed, hstopped, Bool.true_or]
      obtain ⟨dualReq, hdual, hdone⟩ := hunbound.recorded hcomputed
      exact ⟨dualReq, hdual, hdone.trans hfinished⟩
    refine ⟨_, _, stepDinfo_transfer hdual hdone hunbound.kvtState hcm' hv.serves.prompt, ?_⟩
    refine { hv with
      serves := hv.serves.setKvt _, stands := ?_
      isNew := by rw [hfinished]; exact hv.isNew.trans hunbound.isNew }
    simp only [ReqView.Stands, hfinished, if_true, hunbound.sent, nil_append]
    exact { bound := rfl, infly := hunbound.infly, dual := rfl
            complete := complete_transferAll rfl hv.serves.ends }
  · -- not finished: bound, untouched
    have hunfinished : ∀ dualReq, v.dual = some dualReq → dualReq.finished = false := by
      intro dualReq hdual
      cases hcomputed : t.computed limit with
      | true =>
        obtain ⟨dualReq', hdual', heq⟩ := hunbound.recorded hcomputed
        cases hdual.symm.trans hdual'
        exact heq.trans hfinished
      | false => cases (hunbound.unrecorded hcomputed).symm.trans hdual
    have hfilter : v.dual.filter (·.finished) = none :=
      Option.filter_eq_none_iff.mpr fun dualReq hdual => by simp [hunfinished dualReq hdual]
    refine ⟨_, _, stepDinfo_bind hfound hunbound.kvtState hcm' hfilter hasks.migration, ?_⟩
    refine { hv with
      serves := hv.serves.setKvt _, isNew := by rw [hfinished]; rfl, stands := ?_ }
    simp only [ReqView.Stands, hfinished, Bool.false_eq_true, if_false, filterMap_nil,
      append_nil]
    exact {
      sending := .start rfl rfl hv.serves.ends hunbound.infly
      untouched := fun _ _ h => Option.some.inj h ▸ rfl
      sent := hunbound.sent
      sorted := List.Pairwise.nil
      scheduled := fun _ h => absurd h not_mem_nil
      underway := fun h => absurd h (lt_irrefl _)
      dual := hunfinished
      computed := fun hcomputed => by
        obtain ⟨dualReq, hdual, -⟩ := hunbound.recorded hcomputed
        exact .inr ⟨rfl, (congrArg Option.isSome hdual :)⟩ }

/-- `_step_finished_reqs`: what was not sent is sent now. -/
theorem finish (env : BuildEnv) (reqid : String) (hcm : rdinfo.dinfo.cachedTokens < m)
    (hgone : t.left = true ∨ t.stopped = true) :
    Takes (handle env (.finished reqid) v) rdinfo limit m { t with finished := true } sent := by
  have hcomputed : t.computed limit = true := by
    rcases hgone with hleft | hstopped
    · exact hv.left hleft
    · rw [DualTrack.computed, hstopped, Bool.true_or]
  have hfinish (hnone : v.infly = none) : handle env (.finished reqid) v = v.dualReqFinish reqid := by
    rw [handle, stepFinishedReqs, hnone]
  rcases hsince : t.since with _ | since
  · have hunbound := hv.unbound hsince
    obtain ⟨dualReq, hdual, -⟩ := hunbound.recorded hcomputed
    refine ⟨{ v with dual := some { dualReq with finished := true } }, [], ?_, ?_⟩
    · rw [hfinish hunbound.infly, dualReqFinish, hdual]
      dsimp only
      rw [hunbound.kvtState]
    · refine { hv with finished := fun _ => hgone, stands := ?_ }
      simp only [ReqView.Stands, filterMap_nil, append_nil]
      exact { hunbound with
        recorded := fun _ => ⟨_, rfl, rfl⟩
        unrecorded := fun h => (by cases hcomputed.symm.trans h) }
  · rcases Bool.eq_false_or_eq_true t.finished with hfinished | hfinished
    · have hclosed := hv.closed hsince hfinished
      refine ⟨v, [], ?_, ?_⟩
      · rw [hfinish hclosed.infly, dualReqFinish, hclosed.dual]
      · refine { hv with finished := fun _ => hgone, stands := ?_ }
        simp only [ReqView.Stands, if_true, filterMap_nil, append_nil]
        exact hclosed
    · have hopen := hv.opened hsince hfinished
      obtain ⟨kvtstate, hkvt, hdinfo, hm, htouched⟩ := hopen.sending.bound
      have hinfly : v.infly = none := by
        rcases hopen.computed hcomputed with hle | ⟨rfl, -⟩
        · exact hopen.sending.idle (.inr hle)
        · exact hopen.sending.idle (.inl le_rfl)
      rw [hfinish hinfly, dualReqFinish]
      cases hdual : v.dual with
      | none =>
        have hle := (hopen.computed hcomputed).resolve_right fun h => by simp [hdual] at h
        refine ⟨v, [], rfl, { hv with finished := fun _ => hgone, stands := ?_ }⟩
        simp only [ReqView.Stands, if_true, filterMap_nil, append_nil, hopen.sent]
        exact ⟨by rw [hkvt]; rfl, hinfly, hdual, complete_chunkMetas hcm hopen.sorted hle⟩
      | some dualReq =>
        dsimp only
        rw [hkvt]
        dsimp only
        rw [hopen.dual dualReq hdual, if_neg Bool.false_ne_true]
        rcases le_or_gt (since.getLastD rdinfo.dinfo.cachedTokens) rdinfo.dinfo.cachedTokens with
          hlast | hlast
        · -- untouched: the finish sends everything
          have hnil : since = [] := ((hopen.computed hcomputed).resolve_left (by omega)).1
          rw [hopen.untouched hlast kvtstate hkvt, if_neg (by simp)]
          refine ⟨_, _, rfl, ?_⟩
          refine { hv with serves := hv.serves.setKvt _, finished := fun _ => hgone, stands := ?_ }
          simp only [ReqView.Stands, if_true, hopen.sent, hnil]
          exact ⟨rfl, hinfly, rfl, complete_transferAll hdinfo hm⟩
        · -- the chunks have sent everything
          have hle := (hopen.computed hcomputed).resolve_right fun h => by
            rw [h.1] at hlast
            exact absurd hlast (lt_irrefl _)
          rw [htouched hlast, if_pos rfl]
          refine ⟨_, _, rfl, { hv with finished := fun _ => hgone, stands := ?_ }⟩
          simp only [ReqView.Stands, if_true, filterMap_nil, append_nil, hopen.sent]
          exact ⟨congrArg Option.isSome hkvt, hinfly, rfl, complete_chunkMetas hcm hopen.sorted hle⟩

/-- A live request that is scheduled is not finished. -/
theorem not_finished (hleft : t.left = false) (hstopped : t.stopped = false) :
    t.finished = false := by
  rcases Bool.eq_false_or_eq_true t.finished with hfinished | hfinished
  · rcases hv.finished hfinished with h | h
    · cases hleft.symm.trans h
    · cases hstopped.symm.trans h
  · exact hfinished

/-- What a chunk does to a request that is not bound: its last one enters it in
`_dual_req_done`. -/
theorem record (now : ℕ) (pblkids : Option (List (List ℕ))) (hsince : t.since = none)
    (hleft : t.left = false) (hstopped : t.stopped = false) (hblk : pblkids ≠ some [])
    (hlast : ∀ last, t.ends.getLast? = some last → last < e)
    (hsorted : (t.ends ++ [e]).Pairwise (· < ·)) :
    ∃ v', v.updateDualReqDone now (limit ≤ e) pblkids false = some v' ∧
      v'.Dual rdinfo limit m (t.push e) sent := by
  have hunbound := hv.unbound hsince
  have hfinished := hv.not_finished hleft hstopped
  have hpush : (t.push e).computed limit = decide (limit ≤ e) := by
    simp [DualTrack.computed, DualTrack.push, hstopped]
  have hnone : (t.push e).since = none := by rw [DualTrack.push, hsince, Option.map_none]
  -- the track aside, the request is where it was
  have hdual {v' : ReqView} (hreq : v'.req = v.req) (hinfly : v'.infly = v.infly)
      (hnew : v'.isNew = v.isNew)
      (hrecorded : limit ≤ e → ∃ dualReq, v'.dual = some dualReq ∧ dualReq.finished = false)
      (hunrecorded : e < limit → v'.dual = none) : v'.Dual rdinfo limit m (t.push e) sent := by
    refine {
      serves := hreq ▸ hv.serves, live := (congrArg Req.live hreq).trans hv.live
      isNew := hnew.trans hv.isNew, fresh := hv.fresh, sorted := hsorted
      left := fun h => by cases hleft.symm.trans h
      stopped := fun h => by cases hstopped.symm.trans h
      finished := fun h => (by cases hfinished.symm.trans h), stands := ?_ }
    rw [ReqView.Stands, hnone]
    exact {
      kvtState := (congrArg Req.kvtState hreq).trans hunbound.kvtState
      infly := hinfly.trans hunbound.infly, sent := hunbound.sent, isNew := hunbound.isNew
      recorded := fun h => by
        obtain ⟨dualReq, hsome, hfalse⟩ := hrecorded (of_decide_eq_true (hpush.symm.trans h))
        exact ⟨dualReq, hsome, hfalse.trans hfinished.symm⟩
      unrecorded := fun h => hunrecorded (not_le.mp (of_decide_eq_false (hpush.symm.trans h))) }
  cases hcomputed : t.computed limit with
  | true =>
    obtain ⟨dualReq, hsome, hdone⟩ := hunbound.recorded hcomputed
    have hle : limit ≤ e := by
      rw [DualTrack.computed, hstopped, Bool.false_or, Option.any_eq_true] at hcomputed
      obtain ⟨last, hmem, hlimit⟩ := hcomputed
      exact (of_decide_eq_true hlimit).trans (hlast last hmem).le
    refine ⟨v, updateDualReqDone_keep (.inr (by rw [hsome]; rfl)), hdual rfl rfl rfl ?_ ?_⟩
    · exact fun _ => ⟨dualReq, hsome, hdone.trans hfinished⟩
    · exact fun h => absurd hle (not_le.mpr h)
  | false =>
    have hvnone := hunbound.unrecorded hcomputed
    rcases le_or_gt limit e with hle | hlt
    · obtain ⟨dualReq, hrecord, hfalse⟩ := updateDualReqDone_record now pblkids false
        hv.serves.remoteDecode hvnone hblk hv.serves.blkids
      rw [decide_eq_true hle]
      refine ⟨_, hrecord, hdual rfl rfl rfl (fun _ => ⟨dualReq, rfl, hfalse⟩) ?_⟩
      exact fun h => absurd hle (not_le.mpr h)
    · refine ⟨v, updateDualReqDone_keep (.inl (decide_eq_false (not_le.mpr hlt))),
        hdual rfl rfl rfl ?_ fun _ => hvnone⟩
      exact fun h => absurd hlt (not_lt.mpr h)

/-- A chunk that goes out. -/
theorem pushed {v' : ReqView} {out : List Emit}
    (hsince : t.since = some since) (hlimit : m ≤ limit) (hleft : t.left = false)
    (hstopped : t.stopped = false) (hsorted : (t.ends ++ [e]).Pairwise (· < ·))
    (hsorted' : (since ++ [e]).Pairwise (· < ·))
    (hsending : v'.Sending rdinfo.dinfo m (since ++ [e])) (hmoved : v.Moved v')
    (hsame : e ≤ rdinfo.dinfo.cachedTokens → v' = v) (hmetas : chunkMetas rdinfo.dinfo m since ++
      out.filterMap Emit.sent? = chunkMetas rdinfo.dinfo m (since ++ [e])) :
    v'.Dual rdinfo limit m (t.push e) (sent ++ out.filterMap Emit.sent?) := by
  have hfinished := hv.not_finished hleft hstopped
  have hopen := hv.opened hsince hfinished
  have hcomputed : (t.push e).computed limit = decide (limit ≤ e) := by
    simp [DualTrack.computed, DualTrack.push, hstopped]
  have hlast : (t.push e).ends.getLast? = some e := getLast?_concat
  refine {
    serves := hv.serves.of_moved hmoved, live := hmoved.live.trans hv.live
    isNew := hmoved.isNew.trans hv.isNew, fresh := hv.fresh, sorted := hsorted
    left := fun h => by cases hleft.symm.trans h
    stopped := fun h => by cases hstopped.symm.trans h
    finished := fun h => (by cases hfinished.symm.trans h), stands := ?_ }
  simp only [ReqView.Stands, DualTrack.push, hsince, Option.map_some, hfinished,
    Bool.false_eq_true, if_false]
  exact {
    sending := hsending
    untouched := fun hle kvtstate hkvt => by
      rw [getLastD_concat] at hle
      obtain rfl := hsame hle
      refine hopen.untouched ?_ kvtstate hkvt
      rcases getLastD_cases hsorted' rdinfo.dinfo.cachedTokens with ⟨-, h⟩ | ⟨-, h⟩ <;> omega
    sent := hopen.sent ▸ hmetas
    sorted := hsorted'
    scheduled := fun x hx => by
      refine ⟨e, hlast, ?_⟩
      rcases mem_append.mp hx with hx | hx
      · exact ((pairwise_append.mp hsorted').2.2 x hx e (mem_singleton_self e)).le
      · exact (mem_singleton.mp hx).le
    underway := fun _ _ => by
      rw [getLastD_concat]
      exact hlast
    dual := fun dualReq h => hopen.dual dualReq (hmoved.dual.symm.trans h)
    computed := fun h => by
      rw [getLastD_concat]
      exact .inl (hlimit.trans (of_decide_eq_true (hcomputed.symm.trans h))) }

variable (hasks : rdinfo.Asks limit m)
include hasks

/-- `_step_sched_req`, for a new request. -/
theorem schedNew (env : BuildEnv) {reqdata : NewReqData} (hends : t.ends = [])
    (hstopped : t.stopped = false) (hleft : t.left = false) (hblkids : reqdata.blockIds ≠ []) :
    Takes (handle env (.schedNew reqdata false) v) rdinfo limit m
      (t.push (reqdata.numScheduledTokens + reqdata.numComputedTokens)) sent := by
  have hlive : v.req.live = true := hv.live.trans (by rw [hleft]; rfl)
  have hsorted : (t.ends ++ [reqdata.numScheduledTokens + reqdata.numComputedTokens]).Pairwise
      (· < ·) := by
    rw [hends]
    exact pairwise_singleton _ _
  rcases hsince : t.since with _ | since
  · obtain ⟨v', hrecord, hv'⟩ := hv.record env.now (some reqdata.blockIds) hsince hleft hstopped
      (fun h => hblkids (Option.some.inj h)) (fun last h => by simp [hends] at h) hsorted
    refine ⟨v', [], ?_, by rwa [filterMap_nil, append_nil]⟩
    rw [handle, stepSchedNew, if_neg (by simp), if_neg (by simp [hlive]),
      (hv.unbound hsince).kvtState]
    dsimp only
    rw [if_neg Bool.false_ne_true, hv.serves.limit, hrecord, Option.map_some]
  · have hopen := hv.opened hsince (hv.not_finished hleft hstopped)
    obtain rfl : since = [] := eq_nil_iff_forall_not_mem.mpr fun e he => by
      obtain ⟨last, hlast, -⟩ := hopen.scheduled e he
      simp [hends] at hlast
    obtain ⟨v', out, hstep, hsending, hmoved, hsame, hmetas⟩ :=
      hopen.sending.new env.now hasks.lt hasks.blkids (hasks.le.trans_eq hv.serves.limit.symm) hlive
        rfl
    exact ⟨v', out, hstep, hv.pushed hsince hasks.le hleft hstopped hsorted
      (pairwise_singleton _ _) hsending hmoved hsame hmetas⟩

/-- `_step_sched_req`, for a cached request. -/
theorem schedCached (env : BuildEnv) {reqdata : CachedReqData}
    (hlast : t.ends.getLast? = some reqdata.numComputedTokens) (hleft : t.left = false)
    (hpos : 0 < reqdata.numScheduledTokens) :
    Takes (handle env (.schedCached reqdata false) v) rdinfo limit m
      (t.push (reqdata.numComputedTokens + reqdata.numScheduledTokens)) sent := by
  obtain ⟨hc, hcm, hlimit, hblk, -⟩ := hasks
  have hlive : v.req.live = true := hv.live.trans (by rw [hleft]; rfl)
  have hstopped : t.stopped = false := by
    rcases Bool.eq_false_or_eq_true t.stopped with h | h
    · simp [hv.stopped h] at hlast
    · exact h
  -- a chunk end is at most the last one, so before the new one
  have hsorted {l : List ℤ} (hl : l.Pairwise (· < ·))
      (hle : ∀ x ∈ l, x ≤ reqdata.numComputedTokens) :
      (l ++ [reqdata.numComputedTokens + reqdata.numScheduledTokens]).Pairwise (· < ·) := by
    refine pairwise_append.mpr ⟨hl, pairwise_singleton _ _, fun x hx y hy => ?_⟩
    have := hle x hx
    rw [mem_singleton.mp hy]
    omega
  have hends := hsorted hv.sorted fun x hx => by
    have := le_getLastD hv.sorted 0 x hx
    rwa [getLastD_eq_getLast?, hlast, Option.getD_some] at this
  rcases hsince : t.since with _ | since
  · obtain ⟨v', hrecord, hv'⟩ := hv.record env.now none hsince hleft hstopped nofun
      (fun last h => by
        cases hlast.symm.trans h
        omega) hends
    refine ⟨v', [], ?_, by rwa [filterMap_nil, append_nil]⟩
    rw [handle, stepSchedCached, if_neg (by simp), if_neg (by simp [hlive]),
      (hv.unbound hsince).kvtState]
    dsimp only
    rw [if_neg Bool.false_ne_true, hv.serves.limit, hrecord, Option.map_some]
  · have hopen := hv.opened hsince (hv.not_finished hleft hstopped)
    have hle : ∀ x ∈ since, x ≤ reqdata.numComputedTokens := fun x hx => by
      obtain ⟨last, hlast', hx⟩ := hopen.scheduled x hx
      exact Option.some.inj (hlast'.symm.trans hlast) ▸ hx
    have hsince' := hsorted hopen.sorted hle
    obtain ⟨v', out, hstep, hsending, hmoved, hsame, hmetas⟩ :=
      hopen.sending.cached env.now hcm hblk (hlimit.trans_eq hv.serves.limit.symm) hlive rfl hsince'
        (fun hstart kvtstate hkvt => by rwa [hopen.untouched hstart kvtstate hkvt, if_pos rfl])
        (fun hstart hunder => Option.some.inj (hlast.symm.trans (hopen.underway hstart hunder)))
        (fun hm => by
          rcases getLastD_cases hsince' rdinfo.dinfo.cachedTokens with ⟨-, h⟩ | ⟨h, -⟩
          · omega
          · exact hm.trans (hle _ h))
    exact ⟨v', out, hstep, hv.pushed hsince hlimit hleft hstopped hends hsince' hsending hmoved
      hsame hmetas⟩

/-- A substep that sends the whole range at once. -/
theorem sentWhole {pBlockIds : List (List ℕ)} (reqid : String) (hsince : t.since = some [])
    (hfinished : t.finished = false) (hkvt : v.req.kvtState = some kvtstate) (he : e ∈ t.ends)
    (hme : m ≤ e) :
    Takes (v.emitFirst reqid kvtstate pBlockIds m true true) rdinfo limit m
      { t with since := some [e] } sent := by
  obtain ⟨-, hcm, -, hblk, -⟩ := hasks
  have hopen := hv.opened hsince hfinished
  obtain ⟨kvtstate', hkvt', hdinfo, hm, -⟩ := hopen.sending.bound
  cases hkvt.symm.trans hkvt'
  have hsorted : (([] : List ℤ) ++ [e]).Pairwise (· < ·) := pairwise_singleton _ e
  obtain ⟨v', out, hfirst, hsending, hmoved, hmetas⟩ := Sending.first
    (hopen.sending.idle (.inl le_rfl)) hblk hdinfo hm hcm (hcm.trans_le hme) le_rfl hsorted
  rw [min_eq_right hme, decide_eq_true hme] at hfirst
  refine ⟨v', out, hfirst, { hv with
    serves := hv.serves.of_moved hmoved, live := hmoved.live.trans hv.live
    isNew := hmoved.isNew.trans hv.isNew, stands := ?_ }⟩
  simp only [ReqView.Stands, hfinished, Bool.false_eq_true, if_false]
  exact {
    sending := hsending
    untouched := fun hle => absurd (hcm.trans_le hme) (not_lt.mpr hle)
    sent := hopen.sent ▸ hmetas
    sorted := hsorted
    scheduled := fun x hx => by
      obtain rfl := mem_singleton.mp hx
      have hle := le_getLastD hv.sorted 0 x he
      rw [getLastD_eq_getLast?] at hle
      cases hlast : t.ends.getLast? with
      | none =>
        rw [getLast?_eq_none_iff.mp hlast] at he
        cases he
      | some last =>
        rw [hlast, Option.getD_some] at hle
        exact ⟨last, rfl, hle⟩
    underway := fun _ hlt => absurd hme (not_le.mpr hlt)
    dual := fun dualReq h => hopen.dual dualReq (hmoved.dual.symm.trans h)
    computed := fun _ => .inl hme }

/-- A round of a substep, in which `e` is where its parent has come with the request. -/
theorem substep {t' : DualTrack} (reqid : String) (hw : w.IsSubstep)
    (hleft : v.isNew = true → v.req.live = false → handle env w v = none) (hsend : ∀ kvtstate,
      v.isNew = true → v.req.live = true → v.req.kvtState = some kvtstate → kvtstate.dinfo =
      rdinfo.dinfo → kvtstate.maxtokens = m → kvtstate.untouched = true → (m ≤ e → ∃ pBlockIds,
      handle env w v = v.emitFirst reqid kvtstate pBlockIds m true true) ∧ (e < m → handle env w v =
      some (v, []))) (hnext : t.substep m e = some t') :
    Keeps (handle env w v) rdinfo limit m t' sent := by
  unfold DualTrack.substep at hnext
  split at hnext
  · next hnew =>
    cases hnext
    refine ⟨fun h => (by cases hv.fresh.symm.trans h), fun _ => ⟨v, [], ?_, ?_⟩⟩
    · exact handle_substep hw (hv.isNew.trans hnew)
    · rwa [filterMap_nil, append_nil]
  · next hnew =>
    have hnew : v.isNew = true := hv.isNew.trans (Bool.not_eq_false _ ▸ hnew)
    split at hnext
    · next hgone =>
      cases hnext
      exact ⟨fun _ => hleft hnew (hv.live.trans (by rw [hgone]; rfl)), nofun⟩
    · next hstays =>
      obtain ⟨⟨he, hsince⟩, ⟨⟩⟩ := Option.ite_none_right_eq_some.mp hnext
      have hstays : t.left = false := Bool.not_eq_true _ ▸ hstays
      have hstopped : t.stopped = false := by
        rcases Bool.eq_false_or_eq_true t.stopped with h | h
        · exact absurd (hv.stopped h ▸ he) not_mem_nil
        · exact h
      have hfinished := hv.not_finished hstays hstopped
      have hopen := hv.opened hsince hfinished
      obtain ⟨kvtstate, hkvt, hdinfo, hm, -⟩ := hopen.sending.bound
      obtain ⟨hwhole, hskip⟩ := hsend kvtstate hnew (hv.live.trans (by rw [hstays]; rfl)) hkvt hdinfo
        hm (hopen.untouched le_rfl kvtstate hkvt)
      rcases le_or_gt m e with hme | hlt
      · rw [if_pos hme]
        refine ⟨fun h => (by cases hv.fresh.symm.trans h), fun _ => ?_⟩
        obtain ⟨pBlockIds, hstep⟩ := hwhole hme
        rw [hstep]
        exact hv.sentWhole hasks reqid hsince hfinished hkvt he hme
      · rw [if_neg (not_le.mpr hlt)]
        refine ⟨fun h => (by cases hv.fresh.symm.trans h), fun _ => ⟨v, [], hskip hlt, ?_⟩⟩
        rwa [filterMap_nil, append_nil]

/-- **Every round keeps the request on its track**, or finds it gone. -/
theorem round (env : BuildEnv) {t' : DualTrack} (hnext : t.round rdinfo m w = some t') :
    Keeps (handle env w v) rdinfo limit m t' sent := by
  -- away from the substeps nothing fails
  have hfine (h : Takes (handle env w v) rdinfo limit m t' sent) :
      Keeps (handle env w v) rdinfo limit m t' sent := by
    obtain ⟨v', out, hstep, hv'⟩ := h
    exact ⟨fun hstale => (by cases hv'.fresh.symm.trans hstale), fun _ => ⟨v', out, hstep, hv'⟩⟩
  cases w with
  | stop0 r =>
    obtain ⟨⟨hends, hstopped, hsince⟩, ⟨⟩⟩ := Option.ite_none_right_eq_some.mp hnext
    exact hfine (hv.stop0 env r hends hstopped hsince)
  | abortedSave r => cases hnext
  | dinfo rd =>
    obtain ⟨⟨rfl, -, hsince⟩, ⟨⟩⟩ := Option.ite_none_right_eq_some.mp hnext
    exact hfine (hv.dinfo env hasks hsince)
  | finished r =>
    obtain ⟨hgone, ⟨⟩⟩ := Option.ite_none_right_eq_some.mp hnext
    exact hfine (hv.finish env r hasks.lt hgone)
  | schedNew reqdata substepMode =>
    cases substepMode with
    | false =>
      obtain ⟨⟨hends, hstopped, hleft, hblkids⟩, ⟨⟩⟩ := Option.ite_none_right_eq_some.mp hnext
      exact hfine (hv.schedNew hasks env hends hstopped hleft hblkids)
    | true =>
      refine hv.substep hasks reqdata.reqid rfl (fun hnew hgone => ?_)
        (fun kvtstate hnew hlive hkvt hdinfo hm huntouched => ?_) hnext
      · rw [handle, stepSchedNew, if_neg (by simp [hnew]), if_pos hgone]
      · subst hm
        have hchoose := KVTState.choose_substep (hasks.le.trans_eq hv.serves.limit.symm)
          (hdinfo ▸ hasks.lt) huntouched (e := reqdata.numScheduledTokens + reqdata.numComputedTokens)
        rw [handle, stepSchedNew, if_neg (by simp [hnew]), if_neg (by simp [hlive]), hkvt]
        dsimp only
        rw [hchoose]
        exact ⟨fun hme => ⟨reqdata.blockIds, by rw [if_pos hme]⟩,
          fun hlt => by rw [if_neg (not_le.mpr hlt)]⟩
  | schedCached reqdata substepMode =>
    cases substepMode with
    | false =>
      obtain ⟨⟨hlast, hleft, hpos⟩, ⟨⟩⟩ := Option.ite_none_right_eq_some.mp hnext
      exact hfine (hv.schedCached hasks env hlast hleft hpos)
    | true =>
      refine hv.substep hasks reqdata.reqid rfl (fun hnew hgone => ?_)
        (fun kvtstate hnew hlive hkvt hdinfo hm huntouched => ?_) hnext
      · rw [handle, stepSchedCached, if_neg (by simp [hnew]), if_pos hgone]
      · subst hm
        have hchoose := KVTState.choose_substep (hasks.le.trans_eq hv.serves.limit.symm)
          (hdinfo ▸ hasks.lt) huntouched (e := reqdata.numComputedTokens + reqdata.numScheduledTokens)
        rw [handle, stepSchedCached, if_neg (by simp [hnew]), if_neg (by simp [hlive]), hkvt]
        dsimp only
        rw [hchoose]
        refine ⟨fun hme => ⟨v.req.blkids, ?_⟩, fun hlt => by rw [if_neg (not_le.mpr hlt)]⟩
        rw [if_pos hme]
        dsimp only
        rw [huntouched, if_pos rfl, hdinfo, if_pos hasks.cached]

omit hv in
/-- **All rounds of a turn.** -/
theorem rounds (env : BuildEnv) :
    ∀ {ws : List Work} {v : ReqView} {t t' : DualTrack} {sent : List Sent},
    v.Dual rdinfo limit m t sent → follow (DualTrack.round rdinfo m) t ws = some t' →
    Keeps (Keyed.thread (handle env) ws v) rdinfo limit m t' sent
  | [], v, t, t', sent, hv, hfollow => by
      cases hfollow
      refine ⟨fun h => (by cases hv.fresh.symm.trans h), fun _ => ⟨v, [], rfl, ?_⟩⟩
      rwa [filterMap_nil, append_nil]
  | w :: ws, v, t, t', sent, hv, hfollow => by
      obtain ⟨t₁, hnext, hrest⟩ := follow_cons hfollow
      obtain ⟨hgone, hfine⟩ := hv.round hasks env hnext
      rw [Keyed.thread]
      rcases Bool.eq_false_or_eq_true t₁.stale with hstale | hstale
      · have hstale' := (DualTrack.Onward.follow hrest).stale hstale
        rw [hgone hstale]
        exact ⟨fun _ => rfl, fun h => (by cases hstale'.symm.trans h)⟩
      · obtain ⟨v₁, out₁, hstep, hv₁⟩ := hfine hstale
        rw [hstep]
        dsimp only
        obtain ⟨hgone', hfine'⟩ := rounds env hv₁ hrest
        refine ⟨fun h => by rw [hgone' h, Option.map_none], fun h => ?_⟩
        obtain ⟨v₂, out₂, hthread, hv₂⟩ := hfine' h
        refine ⟨v₂, out₁ ++ out₂, by rw [hthread, Option.map_some], ?_⟩
        rwa [filterMap_append, ← append_assoc]

end ReqView.Dual

/-! ## Whole runs -/

/-- What the place of a request reads of it and of its track. -/
theorem ReqView.Stands.congr {v v' : ReqView} {dinfo : KVTDInfo} {t t' : DualTrack}
    {sent : List Sent} (h : v.Stands dinfo limit m t sent) (hkvt : v'.req.kvtState = v.req.kvtState)
    (hinfly : v'.infly = v.infly) (hdual : v'.dual = v.dual) (hends : t'.ends = t.ends)
    (hstopped : t'.stopped = t.stopped) (hsince : t'.since = t.since)
    (hfinished : t'.finished = t.finished) (hnew : t.isNew = false → t'.isNew = false) :
    v'.Stands dinfo limit m t' sent := by
  have hcomputed : t'.computed limit = t.computed limit := by
    rw [DualTrack.computed, DualTrack.computed, hends, hstopped]
  unfold ReqView.Stands at h ⊢
  rw [hsince, hfinished]
  generalize t.since = since at h ⊢
  cases since with
  | none =>
    exact {
      kvtState := hkvt.trans h.kvtState, infly := hinfly.trans h.infly, sent := h.sent
      isNew := hnew h.isNew
      recorded := by rw [hcomputed, hdual, hfinished]; exact h.recorded
      unrecorded := by rw [hcomputed, hdual]; exact h.unrecorded }
  | some since =>
    dsimp only at h ⊢
    split at h
    · next hfin =>
      rw [if_pos hfin]
      exact {
        bound := (congrArg Option.isSome hkvt).trans h.bound, infly := hinfly.trans h.infly
        dual := hdual.trans h.dual, complete := h.complete }
    · next hfin =>
      rw [if_neg hfin]
      exact {
        sending := { bound := by rw [hkvt]; exact h.sending.bound
                     infly := by rw [hinfly]; exact h.sending.infly
                     idle := by rw [hinfly]; exact h.sending.idle }
        untouched := by rw [hkvt]; exact h.untouched
        sent := h.sent, sorted := h.sorted
        scheduled := by rw [hends]; exact h.scheduled
        underway := by rw [hends]; exact h.underway
        dual := by rw [hdual]; exact h.dual
        computed := by rw [hcomputed, hdual]; exact h.computed }

/-- What is known of a transfer that has ended so far. -/
theorem ReqView.Dual.counts {t : DualTrack} {sent : List Sent} (hv : v.Dual rdinfo limit m t sent)
    (hcm : rdinfo.dinfo.cachedTokens < m) :
    sent.countP (·.hasLastToken) ≤ 1 ∧
    (t.since.isSome = true → t.finished = true → Complete rdinfo.dinfo.cachedTokens m sent) := by
  rcases hsince : t.since with _ | since
  · rw [(hv.unbound hsince).sent]
    exact ⟨Nat.zero_le 1, nofun⟩
  · rcases Bool.eq_false_or_eq_true t.finished with hfinished | hfinished
    · have hcomplete := (hv.closed hsince hfinished).complete
      exact ⟨hcomplete.last.le, fun _ _ => hcomplete⟩
    · have hopen := hv.opened hsince hfinished
      refine ⟨?_, fun _ h => (by cases hfinished.symm.trans h)⟩
      rw [hopen.sent, countP_hasLastToken_chunkMetas hcm hopen.sorted]
      split
      · exact le_rfl
      · exact Nat.zero_le 1

namespace PBackend

/-- What holds of the backend along the track of a request, apart from the queue… -/
structure OnTrack (reqid : String) (rdinfo : RKVTDInfo) (limit m : ℤ) (s : PBackend)
    (t : DualTrack) : Prop where
  dual : ({ s.view reqid with isNew := t.isNew } : ReqView).Dual rdinfo limit m t (s.sent reqid)
  sending : t.arrived = false → s.sending.get? reqid = none
  asked : t.since.isSome = true → t.arrived = true

/-- …and with it. -/
structure DualAlong (reqid : String) (rdinfo : RKVTDInfo) (limit m : ℤ) (s : PBackend)
    (t : DualTrack) : Prop extends s.OnTrack reqid rdinfo limit m t where
  queue : s.queueOf reqid = t.queue rdinfo

variable {naming : Bool} {tpSize : ℕ} {reqid : String} {rdinfo : RKVTDInfo} {limit m : ℤ}
  {s : PBackend} {t t' : DualTrack}

/-- Only what is queued for a request gives it rounds. -/
theorem roundsOf_queueOf (s : PBackend) (env : BuildEnv) (sout : SchedOut) (reqid : String) :
    s.roundsOf env sout reqid =
      (sout.allRounds env (s.queueOf reqid)).filter (·.reqid = reqid) := by
  refine (roundsOf_eq s env sout reqid).trans ?_
  refine .trans ?_ (roundsOf_eq { s with dinfoq := s.queueOf reqid } env sout reqid).symm
  simp only [queueOf, filter_filter, Bool.and_self]

section Step

variable (hs : s.OnTrack reqid rdinfo limit m t)
include hs

/-- The request as a turn finds it. -/
theorem OnTrack.start (haborted : reqid ∉ sout.hcAbortedSave) :
    (s.turnView sout reqid).Dual rdinfo limit m { t with isNew := false } (s.sent reqid) := by
  have hview : s.turnView sout reqid = { s.view reqid with isNew := false } := by
    rw [turnView, if_neg haborted]
    rfl
  rw [hview]
  exact { hs.dual with
    isNew := rfl, stands := hs.dual.stands.congr rfl rfl rfl rfl rfl rfl rfl fun _ => rfl }

/-- A turn of the core thread whose rounds keep the request on its track. -/
theorem OnTrack.turn (honward : t.Onward t')
    (h : ReqView.Keeps (Keyed.thread (handle env) (s.roundsOf env sout reqid) (s.turnView sout reqid))
      rdinfo limit m t' (s.sent reqid)) :
    (¬t'.stale = true → s.turn env sout ≠ .error reqid) ∧
    ∀ s', s.turn env sout = .ok s' → s'.OnTrack reqid rdinfo limit m t' ∧ s'.queueOf reqid = [] := by
  obtain ⟨hgone, hfine⟩ := h
  rcases Bool.eq_false_or_eq_true t'.stale with hstale | hstale
  · refine ⟨fun h => absurd hstale h, fun s' hok => ?_⟩
    obtain ⟨delta, ht⟩ := turned_of_turn hok
    obtain ⟨out, n, hthread, -⟩ := ht.thread reqid
    cases hthread.symm.trans (hgone hstale)
  · obtain ⟨v, out, hthread, hv⟩ := hfine hstale
    obtain ⟨hno, hok⟩ := turn_of_thread hthread
    refine ⟨fun _ => hno, fun s' hs' => ?_⟩
    obtain ⟨rfl, hsent, hqueue, hsending⟩ := hok s' hs'
    refine ⟨⟨?_, fun h => ?_, fun h => ?_⟩, hqueue⟩
    · rw [hsent, ← hv.isNew]
      exact hv
    · rw [hsending]
      exact hs.sending (honward.arrived.symm.trans h)
    · rw [honward.arrived]
      exact (honward.asked h).elim hs.asked id

/-- The engine changes the request itself. -/
theorem OnTrack.updateReq {f : Req → Req} {left : Bool}
    (hkvt : (f (s.reqs reqid)).kvtState = (s.reqs reqid).kvtState)
    (hserves : (f (s.reqs reqid)).Serves rdinfo limit m) (hlive : (f (s.reqs reqid)).live = !left)
    (hleft : left = true → t.computed limit = true) (hkeep : t.left = true → left = true) :
    (s.updateReq reqid f).OnTrack reqid rdinfo limit m { t with left := left } where
  dual := by
    rw [view_updateReq_self]
    exact {
      serves := hserves, live := hlive, isNew := rfl, fresh := hs.dual.fresh
      sorted := hs.dual.sorted, left := hleft, stopped := hs.dual.stopped
      finished := fun h => (hs.dual.finished h).imp_left hkeep
      stands := hs.dual.stands.congr hkvt rfl rfl rfl rfl rfl rfl id }
  sending := hs.sending
  asked := hs.asked

theorem OnTrack.since_eq_none (harrived : t.arrived = false) : t.since = none := by
  cases hsince : t.since with
  | none => rfl
  | some since => cases harrived.symm.trans (hs.asked (by rw [hsince]; rfl))

/-- The transfer arrives. -/
theorem OnTrack.transfer (tpSize : ℕ) (dTp : Option ℕ) (hreqid : rdinfo.reqid = reqid)
    (hcheck : checkKvtdinfo naming rdinfo.dinfo = true) (harrived : t.arrived = false) :
    (s.submitTransferKv naming tpSize rdinfo dTp).OnTrack reqid rdinfo limit m
      { t with arrived := true } ∧
    (s.queueOf reqid = t.queue rdinfo →
      (s.submitTransferKv naming tpSize rdinfo dTp).queueOf reqid =
        ({ t with arrived := true } : DualTrack).queue rdinfo) := by
  have hnone : (s.sending.get? rdinfo.reqid).isNone = true := by
    rw [hreqid, hs.sending harrived]
    rfl
  rw [submitTransferKv, if_pos ⟨hcheck, hnone⟩]
  refine ⟨⟨?_, nofun, fun _ => rfl⟩, fun hold => ?_⟩
  · exact { hs.dual with stands := hs.dual.stands.congr rfl rfl rfl rfl rfl rfl rfl id }
  · have hqueue : t.queue rdinfo = [] :=
      if_neg fun h => Bool.false_ne_true (harrived.symm.trans h.1)
    have hnow : ({ t with arrived := true } : DualTrack).queue rdinfo = [rdinfo] :=
      if_pos ⟨rfl, hs.since_eq_none harrived⟩
    rw [queueOf] at hold
    rw [queueOf, filter_append, hold, hqueue, hnow]
    simp [hreqid]

/-- **Every event of the track but the turns keeps the request on it.** -/
theorem OnTrack.event (tpSize : ℕ) {e : PEvent} (hturn : ∀ env sout, e ≠ .turn env sout)
    (hreqid : rdinfo.reqid = reqid) (hcheck : checkKvtdinfo naming rdinfo.dinfo = true)
    (hnext : t.next reqid rdinfo limit m e = some t') :
    ∃ s', s.step naming tpSize e = .ok s' ∧ s'.OnTrack reqid rdinfo limit m t' ∧
      (s.queueOf reqid = t.queue rdinfo → s'.queueOf reqid = t'.queue rdinfo) := by
  have helsewhere (he : e.Elsewhere reqid) :
      ∃ s', s.step naming tpSize e = .ok s' ∧ s'.OnTrack reqid rdinfo limit m t ∧
        (s.queueOf reqid = t.queue rdinfo → s'.queueOf reqid = t.queue rdinfo) := by
    obtain ⟨s₁, hstep, hsame⟩ := step_elsewhere naming tpSize s he
    refine ⟨s₁, hstep, ⟨?_, fun h => hsame.sending (hs.sending h), hs.asked⟩, hsame.queue.trans⟩
    rw [hsame.view, hsame.sent]
    exact hs.dual
  cases e with
  | turn env sout => exact absurd rfl (hturn env sout)
  | transfer rd dTp =>
    rw [DualTrack.next] at hnext
    split at hnext
    · next hne =>
      cases hnext
      exact helsewhere hne
    · obtain ⟨⟨rfl, harrived⟩, ⟨⟩⟩ := Option.ite_none_right_eq_some.mp hnext
      exact ⟨_, rfl, hs.transfer tpSize dTp hreqid hcheck harrived⟩
  | enter r req =>
    obtain ⟨hne, ⟨⟩⟩ := Option.ite_none_left_eq_some.mp hnext
    exact helsewhere hne
  | leave r =>
    rw [DualTrack.next] at hnext
    split at hnext
    · next hne =>
      cases hnext
      exact helsewhere hne
    · next heq =>
      obtain rfl := not_not.mp heq
      obtain ⟨hcomputed, ⟨⟩⟩ := Option.ite_none_right_eq_some.mp hnext
      have hserves := hs.dual.serves
      refine ⟨_, rfl, hs.updateReq rfl ?_ rfl (fun _ => hcomputed) fun _ => rfl, id⟩
      exact ⟨hserves.remoteDecode, hserves.limit, hserves.prompt, hserves.tokens, hserves.ends,
        hserves.blkids⟩
  | engine r numTokens blkids =>
    rw [DualTrack.next] at hnext
    split at hnext
    · next hne =>
      cases hnext
      exact helsewhere hne
    · next heq =>
      obtain rfl := not_not.mp heq
      obtain ⟨⟨htokens, hblkids⟩, ⟨⟩⟩ := Option.ite_none_right_eq_some.mp hnext
      have hserves := hs.dual.serves
      refine ⟨_, rfl, hs.updateReq rfl ?_ hs.dual.live hs.dual.left id, id⟩
      refine ⟨hserves.remoteDecode, hserves.limit, hserves.prompt, htokens, ?_, hblkids⟩
      -- D asks for no more than there is, before and after
      have hends := hserves.ends
      rw [Req.transferEnd, min_eq_right hserves.tokens] at hends
      rw [Req.transferEnd, min_eq_right htokens]
      exact hends
  | markSendDone | sendDone _ _ | answer _ =>
    cases hnext
    exact helsewhere trivial

omit hs

/-- A turn of the core thread. -/
theorem DualAlong.turn (hs : s.DualAlong reqid rdinfo limit m t) (env : BuildEnv)
    (hreqid : rdinfo.reqid = reqid) (hasks : rdinfo.Asks limit m)
    (hnext : t.next reqid rdinfo limit m (.turn env sout) = some t') :
    (¬t'.stale = true → s.turn env sout ≠ .error reqid) ∧
    ∀ s', s.turn env sout = .ok s' → s'.DualAlong reqid rdinfo limit m t' := by
  rw [DualTrack.next] at hnext
  have honward : t.Onward t' := { DualTrack.Onward.follow hnext with }
  have hqueue := DualTrack.queue_eq_nil hreqid hnext
  have hstart := hs.start (DualTrack.not_aborted hnext)
  rw [← hs.queue, ← roundsOf_queueOf] at hnext
  obtain ⟨hno, hok⟩ := hs.toOnTrack.turn honward (hstart.rounds hasks env hnext)
  refine ⟨hno, fun s' hs' => ?_⟩
  obtain ⟨hs₁, hnil⟩ := hok s' hs'
  exact ⟨hs₁, hnil.trans hqueue.symm⟩

/-- **Every event of the track keeps the request along it**, until the track is stale. -/
theorem DualAlong.step {e : PEvent} (hs : s.DualAlong reqid rdinfo limit m t)
    (hreqid : rdinfo.reqid = reqid) (hcheck : checkKvtdinfo naming rdinfo.dinfo = true)
    (hasks : rdinfo.Asks limit m) (hnext : t.next reqid rdinfo limit m e = some t') :
    (¬t'.stale = true → s.step naming tpSize e ≠ .error reqid) ∧
    ∀ s', s.step naming tpSize e = .ok s' → s'.DualAlong reqid rdinfo limit m t' := by
  by_cases hturn : ∃ env sout, e = .turn env sout
  · obtain ⟨env, sout, rfl⟩ := hturn
    exact hs.turn env hreqid hasks hnext
  · obtain ⟨s₁, hstep, hs₁, hqueue⟩ := hs.toOnTrack.event tpSize
      (fun env sout he => hturn ⟨env, sout, he⟩) hreqid hcheck hnext
    rw [hstep]
    refine ⟨fun _ => nofun, fun s' h => ?_⟩
    cases h
    exact ⟨hs₁, hqueue hs.queue⟩

end Step

/-- A track that has gone stale stays so. -/
theorem next_stale {e : PEvent} (hnext : t.next reqid rdinfo limit m e = some t')
    (hstale : t.stale = true) : t'.stale = true := by
  cases e with
  | turn env sout => exact (DualTrack.Onward.follow hnext).stale hstale
  | transfer _ _ | leave _ | engine _ _ _ =>
    rw [DualTrack.next] at hnext
    split at hnext
    · exact Option.some.inj hnext ▸ hstale
    · obtain ⟨-, ⟨⟩⟩ := Option.ite_none_right_eq_some.mp hnext
      exact hstale
  | enter _ _ =>
    obtain ⟨-, ⟨⟩⟩ := Option.ite_none_left_eq_some.mp hnext
    exact hstale
  | markSendDone | sendDone _ _ | answer _ => exact Option.some.inj hnext ▸ hstale

/-- A request for a remote D that nothing has happened to. -/
structure Untold (s : PBackend) (reqid : String) : Prop extends s.Fresh reqid where
  remoteDecode : (s.reqs reqid).remoteDecode = true
  kvtState : (s.reqs reqid).kvtState = none
  blkids : (s.reqs reqid).blkids.headD [] ≠ []
  queue : s.queueOf reqid = []
  sending : s.sending.get? reqid = none

/-- Where a transfer of tokens of the prompt ends. -/
theorem transferEnd_bounds {req : Req} {dinfo : KVTDInfo} (hasked : dinfo.cachedTokens < dinfo.maxTokens)
    (hcached : dinfo.cachedTokens < req.limit) (hprompt : dinfo.maxTokens ≤ req.numPromptTokens)
    (htokens : req.numPromptTokens ≤ req.numTokens) :
    dinfo.cachedTokens < req.transferEnd dinfo ∧ req.transferEnd dinfo ≤ req.limit := by
  unfold Req.limit at *
  rw [Req.transferEnd, min_eq_right (hprompt.trans htokens)]
  cases hmax : req.maxComputedTokens with
  | none => exact ⟨hasked, hprompt⟩
  | some maxcomputed =>
    rw [hmax] at hcached
    exact ⟨lt_min hasked hcached, min_le_right _ _⟩

/-- …and what D may ask of it: tokens of its prompt, not all of which D has. -/
structure Asked (s : PBackend) (naming : Bool) (rdinfo : RKVTDInfo) : Prop
    extends s.Untold rdinfo.reqid where
  check : checkKvtdinfo naming rdinfo.dinfo = true
  migration : rdinfo.migration = false
  dBlkids : rdinfo.dinfo.blkids ≠ []
  cached_nonneg : 0 ≤ rdinfo.dinfo.cachedTokens
  cached_lt : rdinfo.dinfo.cachedTokens < (s.reqs rdinfo.reqid).limit
  prompt : rdinfo.dinfo.maxTokens ≤ (s.reqs rdinfo.reqid).numPromptTokens
  tokens : (s.reqs rdinfo.reqid).numPromptTokens ≤ (s.reqs rdinfo.reqid).numTokens

/-- **The request is at the start of its track.** -/
theorem Asked.dualAlong (h : s.Asked naming rdinfo) :
    rdinfo.Asks (s.reqs rdinfo.reqid).limit ((s.reqs rdinfo.reqid).transferEnd rdinfo.dinfo) ∧
    s.DualAlong rdinfo.reqid rdinfo (s.reqs rdinfo.reqid).limit
      ((s.reqs rdinfo.reqid).transferEnd rdinfo.dinfo) {} := by
  have hasked : rdinfo.dinfo.cachedTokens < rdinfo.dinfo.maxTokens := by
    have hcheck := h.check
    rw [checkKvtdinfo, Bool.and_eq_true] at hcheck
    exact of_decide_eq_true hcheck.1
  obtain ⟨hcm, hlimit⟩ := transferEnd_bounds hasked h.cached_lt h.prompt h.tokens
  exact ⟨⟨h.cached_nonneg, hcm, hlimit, h.dBlkids, h.migration⟩, {
    dual := {
      serves := ⟨h.remoteDecode, rfl, h.prompt, h.prompt.trans h.tokens, rfl, h.blkids⟩
      live := h.live, isNew := rfl, fresh := rfl, sorted := List.Pairwise.nil, left := nofun
      stopped := nofun, finished := nofun
      stands := { kvtState := h.kvtState, infly := h.infly, sent := h.sent, isNew := rfl
                  recorded := nofun, unrecorded := fun _ => h.dual } }
    queue := h.queue
    sending := fun _ => h.sending
    asked := nofun }⟩

end PBackend

/-- **The transfer of a request that is computed meanwhile is exactly once**, in every run of the track
but one kind.  A substep that takes the transfer from the queue after the request has left, while its
parent lists the request, fails; in every other run at most one meta is the last, and once the
transfer was taken and the request is finished the metas send each token of `[c, m)` once. -/
theorem dualRequest_exactlyOnce {naming : Bool} {tpSize : ℕ} {s₀ : PBackend} {rdinfo : RKVTDInfo}
    {events : List PEvent} {t : DualTrack} (h₀ : s₀.Untold rdinfo.reqid)
    (hcheck : PBackend.checkKvtdinfo naming rdinfo.dinfo = true)
    (hmigration : rdinfo.migration = false) (hblk : rdinfo.dinfo.blkids ≠ [])
    (hc : 0 ≤ rdinfo.dinfo.cachedTokens)
    (hcached : rdinfo.dinfo.cachedTokens < (s₀.reqs rdinfo.reqid).limit)
    (hprompt : rdinfo.dinfo.maxTokens ≤ (s₀.reqs rdinfo.reqid).numPromptTokens)
    (htokens : (s₀.reqs rdinfo.reqid).numPromptTokens ≤ (s₀.reqs rdinfo.reqid).numTokens)
    (htrack : follow (DualTrack.next rdinfo.reqid rdinfo (s₀.reqs rdinfo.reqid).limit
      ((s₀.reqs rdinfo.reqid).transferEnd rdinfo.dinfo)) {} events = some t) :
    (t.stale = true → ∀ s, PBackend.run naming tpSize s₀ events ≠ .ok s) ∧
    (t.stale = false →
      PBackend.run naming tpSize s₀ events ≠ .error rdinfo.reqid ∧
      ∀ s, PBackend.run naming tpSize s₀ events = .ok s →
        (s.sent rdinfo.reqid).countP (·.hasLastToken) ≤ 1 ∧
        (t.since.isSome = true → t.finished = true → Complete rdinfo.dinfo.cachedTokens
          ((s₀.reqs rdinfo.reqid).transferEnd rdinfo.dinfo) (s.sent rdinfo.reqid))) := by
  have hask : s₀.Asked naming rdinfo :=
    ⟨h₀, hcheck, hmigration, hblk, hc, hcached, hprompt, htokens⟩
  obtain ⟨hasks, hstart⟩ := hask.dualAlong
  obtain ⟨hno, hok⟩ := PBackend.run_of_follow naming tpSize
    (fun t _ _ hnext (hstale : t.stale = true) => PBackend.next_stale hnext hstale)
    (fun s t e t' hs hnext => hs.step rfl hcheck hasks hnext) hstart htrack
  refine ⟨fun hstale s hs => ?_, fun hstale => ⟨hno (by simp [hstale]), fun s hs => ?_⟩⟩
  · cases (hok s hs).dual.fresh.symm.trans hstale
  · exact (hok s hs).dual.counts hasks.lt

/-- D asks for the prompt… -/
def askForPrompt : RKVTDInfo where
  reqid := "r"
  dinfo := { instid := "d", blkids := [[5, 6]], cachedTokens := 0, maxTokens := 8
             dWorkersInfo := ["w"] }

/-- …and a substep of the step that has scheduled it takes the transfer. -/
def substepTakes : PEvent := .turn {} { hcParent := some { newReqs :=
  [{ reqid := "r", numScheduledTokens := 8, numComputedTokens := 0, blockIds := [[1, 2]] }] } }

/-- …before the request leaves. -/
def takenInTime : List PEvent :=
  [PBackend.wholePrompt, .transfer askForPrompt none, substepTakes, .leave "r",
    .turn {} { finishedReqIds := ["r"] }]

theorem dualRequest_exactlyOnce_takenInTime :
    (PBackend.run false 1 PBackend.oneRequest takenInTime).toOption.isSome = true ∧
    ∀ s, PBackend.run false 1 PBackend.oneRequest takenInTime = .ok s →
      Complete 0 8 (s.sent "r") := by
  refine ⟨by decide +kernel, fun s hs => ?_⟩
  have hstart : PBackend.oneRequest.Untold askForPrompt.reqid :=
    ⟨⟨rfl, rfl, rfl, rfl⟩, rfl, rfl, by decide, rfl, rfl⟩
  have htrack : follow (DualTrack.next "r" askForPrompt 8 8) {} takenInTime =
      some { ends := [8], arrived := true, since := some [8], left := true, finished := true } := by
    decide +kernel
  exact (((dualRequest_exactlyOnce hstart (by decide) rfl (by decide) (by decide) (by decide)
    (by decide) (by decide) htrack).2 rfl).2 s hs).2 rfl rfl

/-- **A substep that comes after the request has left ends the core thread.** -/
theorem substep_afterLeave_fails :
    PBackend.run false 1 PBackend.oneRequest [PBackend.wholePrompt, .leave "r",
      .transfer askForPrompt none, substepTakes] = .error "r" := rfl

end LlumnixKv
