import LlumnixKv.Scheduler.Prefill
import LlumnixKv.Scheduler.Rounds
import Mathlib.Algebra.GroupWithZero.Nat

/-!
# Scheduler/Outstanding — what P may still write for a request

The workers write to D's blocks from the meta that names them to their last report.  Whether such a
meta is still to come is seen in what P keeps of the request:

    not bound, nothing queued       nothing will be written
    not bound, queued               a turn may bind it, or find it gone
    bound, `CannotStart`            no meta that names D's blocks will follow
    bound, otherwise                a chunk or the finish will start the transfer

`Account` ties this to the entry of `_sending` under the request's id.  As long as something is to
come, or a worker has not reported, the entry is open; and a `_mark_send_done` is on its way only when
nothing is.  `Account.turn` is the step lemma of the core thread: the rounds of one request, in the
order of the loops.
-/

open List Machinery

namespace LlumnixKv

/-! ## What the scheduler does with a request -/

/-- How far the scheduler has come with a request. -/
structure Progress where
  /-- where its last chunk ends -/
  last : Option ℤ := none
  /-- no chunk of it will follow -/
  closed : Bool := false
  deriving DecidableEq, Repr

namespace Progress

/-- A chunk that starts where the last one ends, and ends within `max_computed_tokens`. -/
def chunk (maxComputed : Option ℤ) (t : Progress) (start : Option ℤ) (e : ℤ) : Option Progress :=
  if t.closed = false ∧ t.last = start ∧ start.all (· < e) = true ∧ maxComputed.all (e ≤ ·) = true then
    some { t with last := some e }
  else none

/-- A round of a turn: the scheduler goes through a request in order, and a substep looks at the chunk
of its step. -/
def round (maxComputed : Option ℤ) (t : Progress) : Work → Option Progress
  | .stop0 _ | .abortedSave _ | .finished _ => some { t with closed := true }
  | .dinfo _ => some t
  | .schedNew reqdata false =>
    t.chunk maxComputed none (reqdata.numScheduledTokens + reqdata.numComputedTokens)
  | .schedCached reqdata false =>
    t.chunk maxComputed (some reqdata.numComputedTokens)
      (reqdata.numComputedTokens + reqdata.numScheduledTokens)
  | .schedNew reqdata true =>
    if t.last = some (reqdata.numScheduledTokens + reqdata.numComputedTokens) then some t else none
  | .schedCached reqdata true =>
    if t.last = some (reqdata.numComputedTokens + reqdata.numScheduledTokens) then some t else none

end Progress

/-- The transfer has been started, and the scheduler is past the chunk that could start it. -/
def KVTState.Passed (kvtstate : KVTState) (t : Progress) : Prop :=
  kvtstate.untouched = false ∧
    (t.closed = true ∨ ∃ e, t.last = some e ∧ kvtstate.dinfo.cachedTokens < e)

/-- No meta that names D's blocks will follow: the transfer has started, the request is gone, or D
has all that is computed. -/
def ReqView.CannotStart (v : ReqView) (kvtstate : KVTState) (t : Progress) : Prop :=
  kvtstate.Passed t ∨ v.Gone ∨
    (kvtstate.untouched = false ∧
      ∃ maxcomputed, v.req.maxComputedTokens = some maxcomputed ∧
        maxcomputed ≤ kvtstate.dinfo.cachedTokens)

section Progress

variable {maxComputed : Option ℤ} {t t' : Progress} {kvtstate : KVTState} {v v' : ReqView} {w : Work}

theorem Progress.chunk_eq_some {start : Option ℤ} {e : ℤ}
    (h : t.chunk maxComputed start e = some t') :
    (t.closed = false ∧ t.last = start ∧ (∀ a, start = some a → a < e) ∧
      ∀ mc, maxComputed = some mc → e ≤ mc) ∧ t' = { t with last := some e } := by
  obtain ⟨⟨hover, hlast, hstart, hmax⟩, ⟨⟩⟩ := Option.ite_none_right_eq_some.mp h
  refine ⟨⟨hover, hlast, ?_, ?_⟩, rfl⟩
  · rintro a rfl
    exact of_decide_eq_true hstart
  · rintro mc rfl
    exact of_decide_eq_true hmax

/-- What has been passed stays so. -/
theorem KVTState.Passed.round (h : kvtstate.Passed t) (hround : t.round maxComputed w = some t') :
    kvtstate.Passed t' := by
  obtain ⟨huntouched, hpast⟩ := h
  refine ⟨huntouched, ?_⟩
  have hchunk {start : Option ℤ} {e : ℤ} (hchunk : t.chunk maxComputed start e = some t') :
      t'.closed = true ∨ ∃ e, t'.last = some e ∧ kvtstate.dinfo.cachedTokens < e := by
    obtain ⟨⟨hover, rfl, hstart, -⟩, rfl⟩ := Progress.chunk_eq_some hchunk
    rcases hpast with hpast | ⟨a, hlast, hlt⟩
    · cases hover.symm.trans hpast
    · exact .inr ⟨e, rfl, hlt.trans (hstart a hlast)⟩
  cases w with
  | stop0 _ | abortedSave _ | finished _ =>
    cases hround
    exact .inl rfl
  | dinfo _ => exact Option.some.inj hround ▸ hpast
  | schedNew _ substepMode | schedCached _ substepMode =>
    cases substepMode with
    | false => exact hchunk hround
    | true =>
      obtain ⟨-, ⟨⟩⟩ := Option.ite_none_right_eq_some.mp hround
      exact hpast

theorem Progress.closed_of_round (hround : t.round maxComputed w = some t') (h : t.closed = true) :
    t'.closed = true := by
  cases w with
  | stop0 _ | abortedSave _ | finished _ => exact Option.some.inj hround ▸ rfl
  | dinfo _ => exact Option.some.inj hround ▸ h
  | schedNew _ substepMode | schedCached _ substepMode =>
    cases substepMode with
    | false =>
      obtain ⟨⟨hover, -⟩, -⟩ := Progress.chunk_eq_some hround
      cases hover.symm.trans h
    | true =>
      obtain ⟨-, ⟨⟩⟩ := Option.ite_none_right_eq_some.mp hround
      exact h

/-- A transfer that cannot start does not start in a round either. -/
theorem ReqView.CannotStart.not_starts (h : v.CannotStart kvtstate t)
    (hround : t.round v.req.maxComputedTokens w = some t') (hlive : v.req.live = true) :
    ¬w.Starts kvtstate := by
  intro hstarts
  cases w with
  | stop0 _ | abortedSave _ | finished _ | dinfo _ => exact hstarts
  | schedNew reqdata substepMode =>
    obtain ⟨hend, hsubstep⟩ := hstarts
    rcases h with ⟨htouched, hpast⟩ | hgone | ⟨htouched, mc, hmax, hmc⟩
    · cases substepMode with
      | true => cases (hsubstep rfl).symm.trans htouched
      | false =>
        obtain ⟨⟨hover, hlast, -⟩, -⟩ := Progress.chunk_eq_some hround
        rcases hpast with hpast | ⟨a, ha, -⟩
        · cases hover.symm.trans hpast
        · cases hlast.symm.trans ha
    · cases hlive.symm.trans hgone.2
    · cases substepMode with
      | true => cases (hsubstep rfl).symm.trans htouched
      | false =>
        obtain ⟨⟨-, -, -, hle⟩, -⟩ := Progress.chunk_eq_some hround
        have := hle mc hmax
        omega
  | schedCached reqdata substepMode =>
    obtain ⟨hend, hsubstep, hagain⟩ := hstarts
    rcases h with ⟨htouched, hpast⟩ | hgone | ⟨htouched, mc, hmax, hmc⟩
    · cases substepMode with
      | true => cases (hsubstep rfl).symm.trans htouched
      | false =>
        obtain ⟨⟨hover, hlast, -⟩, -⟩ := Progress.chunk_eq_some hround
        rcases hpast with hpast | ⟨a, ha, hlt⟩
        · cases hover.symm.trans hpast
        · cases hlast.symm.trans ha
          exact absurd (hagain htouched) (not_le.mpr hlt)
    · cases hlive.symm.trans hgone.2
    · cases substepMode with
      | true => cases (hsubstep rfl).symm.trans htouched
      | false =>
        obtain ⟨⟨-, -, -, hle⟩, -⟩ := Progress.chunk_eq_some hround
        have := hle mc hmax
        omega

/-- The chunk that starts a transfer is passed. -/
theorem KVTState.passed_of_starts (hstarts : w.Starts kvtstate)
    (hround : t.round maxComputed w = some t') :
    ({ kvtstate with untouched := false } : KVTState).Passed t' := by
  refine ⟨rfl, .inr ?_⟩
  cases w with
  | stop0 _ | abortedSave _ | finished _ | dinfo _ => exact absurd hstarts id
  | schedNew _ substepMode | schedCached _ substepMode =>
    cases substepMode with
    | false =>
      obtain ⟨-, rfl⟩ := Progress.chunk_eq_some hround
      exact ⟨_, rfl, hstarts.1⟩
    | true =>
      obtain ⟨hlast, ⟨⟩⟩ := Option.ite_none_right_eq_some.mp hround
      exact ⟨_, hlast, hstarts.1⟩

/-- Nothing that a round leaves of the request brings the transfer back. -/
theorem ReqView.CannotStart.round (h : v.CannotStart kvtstate t)
    (hround : t.round maxComputed w = some t') (hgone : v.Gone → v'.Gone)
    (hmax : v'.req.maxComputedTokens = v.req.maxComputedTokens) : v'.CannotStart kvtstate t' := by
  rcases h with hpassed | h | ⟨huntouched, h⟩
  · exact .inl (hpassed.round hround)
  · exact .inr (.inl (hgone h))
  · exact .inr (.inr ⟨huntouched, hmax ▸ h⟩)

end Progress

/-! ## The account of a request -/

/-- The meta names D's blocks: the workers start to write. -/
def Sent.starts (s : Sent) : Bool := s.dBlockIds ≠ []

/-- The transfers that are started by what was emitted… -/
def startsOf (out : List Emit) : ℕ := (out.filterMap Emit.sent?).countP Sent.starts

/-- …and the calls of `_mark_send_done`. -/
def marksOf (out : List Emit) : ℕ := (out.filterMap Emit.mark?).length

theorem startsOf_append (out out' : List Emit) :
    startsOf (out ++ out') = startsOf out + startsOf out' := by
  rw [startsOf, filterMap_append, countP_append]
  rfl

theorem marksOf_append (out out' : List Emit) : marksOf (out ++ out') = marksOf out + marksOf out' := by
  rw [marksOf, filterMap_append, length_append]
  rfl

theorem startsOf_singleton_le (e : Emit) : startsOf [e] ≤ 1 :=
  countP_le_length.trans (length_filterMap_le _ _)

/-- A worker has not reported all its targets. -/
def Holding (tpSize spw : ℕ) (reports : List DoneReport) (starts : ℕ) : Prop :=
  ∃ rank < tpSize, (reports.countP fun r => r.rank = rank) < starts * spw

variable {reports : List DoneReport} {tpSize spw : ℕ} {w : Work}

theorem not_holding_zero : ¬Holding tpSize spw reports 0 := by
  rintro ⟨rank, -, hlt⟩
  rw [Nat.zero_mul] at hlt
  exact absurd hlt (Nat.not_lt_zero _)

/-- What is queued by a round that takes a `TRANSFER_KV_REQ`. -/
def Work.queued : Work → ℕ
  | .dinfo _ => 1
  | _ => 0

theorem Work.queued_eq_zero (h : ∀ rdinfo, w ≠ .dinfo rdinfo) : w.queued = 0 := by
  cases w with
  | dinfo rdinfo => exact absurd rfl (h rdinfo)
  | _ => rfl

/-- **The account of a request**: how many transfers were started, how many calls of
`_mark_send_done` and how many messages are on their way, and whether the entry of `_sending` is
open. -/
structure Account (tpSize spw : ℕ) (reports : List DoneReport) (isOpen : Prop) (v : ReqView)
    (t : Progress) (starts marks queued : ℕ) : Prop where
  dual : ∀ dualReq, v.dual = some dualReq → dualReq.finished = true → t.closed = true
  once : starts ≤ 1
  unbound : v.req.kvtState = none →
    starts = 0 ∧ (marks + queued = 0 ∨ (marks + queued = 1 ∧ isOpen))
  passed : ∀ kvtstate, v.req.kvtState = some kvtstate → starts = 1 → kvtstate.Passed t
  bound : ∀ kvtstate, v.req.kvtState = some kvtstate →
    (isOpen ∧ marks = 0 ∧ queued = 0) ∨
    (v.CannotStart kvtstate t ∧ ¬Holding tpSize spw reports starts)

namespace Account

variable {tpSize spw : ℕ} {reports : List DoneReport} {isOpen : Prop} {v v' : ReqView}
  {t t' : Progress} {starts marks queued : ℕ} {env : BuildEnv} {w : Work} {kvtstate : KVTState}
  {out : List Emit}

/-- An untouched `KVTState` has started nothing. -/
theorem starts_eq_zero (h : Account tpSize spw reports isOpen v t starts marks queued)
    (hkvt : v.req.kvtState = some kvtstate) (huntouched : kvtstate.untouched = true) :
    starts = 0 := by
  have hne : starts ≠ 1 := fun hone =>
    by cases (h.passed kvtstate hkvt hone).1.symm.trans huntouched
  have := h.once
  omega

variable (h : Account tpSize spw reports isOpen v t starts marks (queued + w.queued))
  (hround : t.round v.req.maxComputedTokens w = some t')
include h hround

/-- A round that touches neither the transfer nor the account. -/
theorem keep (hkvt : v.req.kvtState = some kvtstate) (hreq : v'.req = v.req)
    (hdual : v'.dual = v.dual ∨ v'.dual = none) :
    Account tpSize spw reports isOpen v' t' starts marks queued where
  dual := fun dualReq hsome hfinished => by
    rcases hdual with hdual | hdual
    · exact Progress.closed_of_round hround (h.dual dualReq (hdual ▸ hsome) hfinished)
    · cases hdual.symm.trans hsome
  once := h.once
  unbound := fun hnone => by
    rw [hreq, hkvt] at hnone
    cases hnone
  passed := fun k hk hone => by
    rw [hreq] at hk
    exact (h.passed k hk hone).round hround
  bound := fun k hk => by
    rw [hreq] at hk
    rcases h.bound k hk with ⟨hopen, hmarks, hqueued⟩ | ⟨hcannot, hheld⟩
    · exact .inl ⟨hopen, hmarks, (Nat.add_eq_zero_iff.mp hqueued).1⟩
    · refine .inr ⟨hcannot.round hround (fun hgone => ⟨?_, by rw [hreq]; exact hgone.2⟩) ?_, hheld⟩
      · exact hdual.elim (fun hdual => hdual.trans hgone.1) id
      · rw [hreq]

/-- **A round of a request that is bound.** -/
theorem boundRound (hkvt : v.req.kvtState = some kvtstate)
    (hlive : ∀ reqid, w = .abortedSave reqid → v.req.live = false)
    (hw : v.BoundRound kvtstate w v' out) :
    Account tpSize spw reports isOpen v' t' (starts + startsOf out) (marks + marksOf out) queued ∧
      (startsOf out = 0 ∨ isOpen) := by
  cases hw with
  | skip w => exact ⟨h.keep hround hkvt rfl (.inl rfl), .inl rfl⟩
  | close reqid huntouched => exact ⟨h.keep hround hkvt rfl (.inr rfl), .inl rfl⟩
  | cut reqid m hblkids =>
    have hzero : startsOf [.abort m] = 0 := by simp [startsOf, Emit.sent?, Sent.starts, PReqMeta.sent, hblkids]
    rw [hzero]
    exact ⟨h.keep hround hkvt rfl (.inl rfl), .inl rfl⟩
  | delta w m infly hblkids =>
    have hzero : startsOf [.nonfreeze m] = 0 := by
      simp [startsOf, Emit.sent?, Sent.starts, PReqMeta.sent, hblkids]
    rw [hzero]
    exact ⟨h.keep hround hkvt rfl (.inl rfl), .inl rfl⟩
  | refuse rdinfo ioret hgone hreqid =>
    cases hround
    -- a message that waits for a bound request is a copy
    have hquiet : ∀ k, v.req.kvtState = some k →
        v.CannotStart k t ∧ ¬Holding tpSize spw reports starts := fun k hk =>
      (h.bound k hk).resolve_left fun hleft => absurd hleft.2.2 (Nat.succ_ne_zero queued)
    refine ⟨⟨h.dual, h.once, fun hnone => ?_, h.passed, fun k hk => .inr (hquiet k hk)⟩,
      .inl rfl⟩
    cases hnone.symm.trans hkvt
  | abort reqid ioret huntouched hreqid =>
    have hzero := h.starts_eq_zero hkvt huntouched
    subst hzero
    refine ⟨⟨fun _ h => (by cases h), Nat.zero_le 1, fun hnone => ?_, fun _ _ h => (by cases h),
      fun k _ => .inr ⟨?_, not_holding_zero⟩⟩, .inl rfl⟩
    · cases hnone.symm.trans hkvt
    · exact .inr (.inl ⟨rfl, hlive reqid rfl⟩)
  | finish reqid m huntouched hdual =>
    have hzero := h.starts_eq_zero hkvt huntouched
    have hcannot : ¬v.CannotStart kvtstate t := by
      rintro (⟨htouched, -⟩ | hgone | ⟨htouched, -⟩)
      · cases htouched.symm.trans huntouched
      · rw [hgone.1] at hdual
        cases hdual
      · cases htouched.symm.trans huntouched
    obtain ⟨hopen, hmarks, hqueued⟩ := (h.bound kvtstate hkvt).resolve_right fun hq => hcannot hq.1
    cases hround
    have hpassed : ({ kvtstate with untouched := false } : KVTState).Passed { t with closed := true } :=
      ⟨rfl, .inl rfl⟩
    refine ⟨⟨fun _ h => (by cases h), ?_, fun h => (by cases h), fun k hk _ => ?_,
      fun k hk => .inl ⟨hopen, hmarks, hqueued⟩⟩, .inr hopen⟩
    · rw [hzero, Nat.zero_add]
      exact startsOf_singleton_le _
    · cases hk
      exact hpassed
  | first w m infly hstarts hrunning =>
    have hcannot : ¬v.CannotStart kvtstate t := fun hcannot =>
      hcannot.not_starts hround hrunning hstarts
    have hzero : starts = 0 := by
      have hne : starts ≠ 1 := fun hone => hcannot (.inl (h.passed kvtstate hkvt hone))
      have := h.once
      omega
    obtain ⟨hopen, hmarks, hqueued⟩ := (h.bound kvtstate hkvt).resolve_right fun hq => hcannot hq.1
    refine ⟨⟨fun dualReq hdual hfinished => ?_, ?_, fun h => (by cases h), fun k hk _ => ?_,
      fun k hk => .inl ⟨hopen, hmarks, (Nat.add_eq_zero_iff.mp hqueued).1⟩⟩, .inr hopen⟩
    · exact Progress.closed_of_round hround (h.dual dualReq hdual hfinished)
    · rw [hzero, Nat.zero_add]
      exact startsOf_singleton_le _
    · cases hk
      exact KVTState.passed_of_starts hstarts hround

/-- **A round of a request that is not bound.** -/
theorem unboundRound (hkvt : v.req.kvtState = none)
    (hmigration : ∀ rdinfo, w = .dinfo rdinfo → rdinfo.migration = false)
    (hw : v.UnboundRound w v' out) :
    Account tpSize spw reports isOpen v' t' (starts + startsOf out) (marks + marksOf out) queued ∧
      (startsOf out = 0 ∨ isOpen) := by
  obtain ⟨rfl, hcount⟩ := h.unbound hkvt
  -- a round that leaves the request unbound, and takes nothing from the queue
  have hkeep {u : ReqView} (hu : u.req = v.req) (hq : w.queued = 0)
      (hdual : ∀ dualReq, u.dual = some dualReq → dualReq.finished = true → t'.closed = true) :
      Account tpSize spw reports isOpen u t' 0 marks queued := by
    rw [hq, Nat.add_zero] at hcount
    refine ⟨hdual, Nat.zero_le 1, fun _ => ⟨rfl, hcount⟩, fun k hk => ?_, fun k hk => ?_⟩
    · rw [hu, hkvt] at hk
      cases hk
    · rw [hu, hkvt] at hk
      cases hk
  -- a round that takes the message that is queued
  have htaken (hq : w.queued = 1) : isOpen ∧ marks = 0 ∧ queued = 0 := by
    rw [hq] at hcount
    rcases hcount with hcount | ⟨hcount, hopen⟩
    · omega
    · exact ⟨hopen, by omega, by omega⟩
  cases hw with
  | skip w hw =>
    refine ⟨hkeep rfl (Work.queued_eq_zero hw) fun dualReq hdual hfinished => ?_, .inl rfl⟩
    exact Progress.closed_of_round hround (h.dual dualReq hdual hfinished)
  | record w dualReq hw hstop0 =>
    refine ⟨hkeep rfl (Work.queued_eq_zero hw) fun d hd hfinished => ?_, .inl rfl⟩
    cases hd
    obtain ⟨reqid, rfl⟩ := hstop0 hfinished
    exact Option.some.inj hround ▸ rfl
  | finish reqid dualReq =>
    exact ⟨hkeep rfl rfl fun _ _ _ => Option.some.inj hround ▸ rfl, .inl rfl⟩
  | forget reqid => exact ⟨hkeep rfl rfl fun _ h => (by cases h), .inl rfl⟩
  | cut reqid m hblkids =>
    have hzero : startsOf [.abort m] = 0 := by
      simp [startsOf, Emit.sent?, Sent.starts, PReqMeta.sent, hblkids]
    rw [hzero]
    refine ⟨hkeep rfl rfl fun dualReq hdual hfinished => ?_, .inl rfl⟩
    exact Progress.closed_of_round hround (h.dual dualReq hdual hfinished)
  | refuse rdinfo ioret hreqid =>
    obtain ⟨hopen, rfl, rfl⟩ := htaken rfl
    cases hround
    refine ⟨⟨h.dual, Nat.zero_le 1, fun _ => ⟨rfl, .inr ⟨rfl, hopen⟩⟩, fun k hk => ?_,
      fun k hk => ?_⟩, .inl rfl⟩
    · cases hk.symm.trans hkvt
    · cases hk.symm.trans hkvt
  | nothing rdinfo k ioret maxcomputed huntouched hmax hcached hreqid =>
    refine ⟨⟨fun _ h => (by cases h), Nat.zero_le 1, fun h => (by cases h), fun _ _ h => (by cases h),
      fun k' hk => .inr ⟨?_, not_holding_zero⟩⟩, .inl rfl⟩
    cases hk
    exact .inr (.inr ⟨huntouched, maxcomputed, hmax, hcached⟩)
  | bind rdinfo k =>
    cases hround
    exact ⟨⟨h.dual, Nat.zero_le 1, fun h => (by cases h), fun _ _ h => (by cases h),
      fun _ _ => .inl (htaken rfl)⟩, .inl rfl⟩
  | mismatch rdinfo k dualReq reason huntouched hdual hfinished =>
    cases hround
    refine ⟨⟨h.dual, Nat.zero_le 1, fun h => (by cases h), fun _ _ h => (by cases h),
      fun k' hk => .inr ⟨?_, not_holding_zero⟩⟩, .inl rfl⟩
    cases hk
    exact .inl ⟨huntouched, .inl (h.dual dualReq hdual hfinished)⟩
  | transfer rdinfo k dualReq m huntouched hdual hfinished =>
    cases hround
    refine ⟨⟨fun _ h => (by cases h), ?_, fun h => (by cases h), fun k' hk _ => ?_,
      fun _ _ => .inl (htaken rfl)⟩, .inr (htaken rfl).1⟩
    · rw [Nat.zero_add]
      exact startsOf_singleton_le _
    · cases hk
      exact ⟨huntouched, .inl (h.dual dualReq hdual hfinished)⟩
  | migrate rdinfo req m hmigrates =>
    cases (hmigration rdinfo rfl).symm.trans hmigrates

/-- **A round.** -/
theorem round (hlive : ∀ reqid, w = .abortedSave reqid → v.req.live = false)
    (hmigration : ∀ rdinfo, w = .dinfo rdinfo → rdinfo.migration = false)
    (hw : handle env w v = some (v', out)) :
    Account tpSize spw reports isOpen v' t' (starts + startsOf out) (marks + marksOf out) queued ∧
      (startsOf out = 0 ∨ isOpen) := by
  cases hkvt : v.req.kvtState with
  | none => exact h.unboundRound hround hkvt hmigration (ReqView.unboundRound_of_handle hkvt hw)
  | some k => exact h.boundRound hround hkvt hlive (ReqView.boundRound_of_handle hkvt hw)

end Account

/-- A round keeps what the engine knows of a request, if it does not migrate. -/
theorem handle_frame {env : BuildEnv} {v v' : ReqView} {out : List Emit}
    (hmigration : ∀ rdinfo, w = .dinfo rdinfo → rdinfo.migration = false)
    (h : handle env w v = some (v', out)) :
    v'.req.maxComputedTokens = v.req.maxComputedTokens ∧ v'.req.live = v.req.live := by
  cases hkvt : v.req.kvtState with
  | none =>
    cases ReqView.unboundRound_of_handle hkvt h with
    | migrate rdinfo req m hmigrates =>
      cases (hmigration rdinfo rfl).symm.trans hmigrates
    | _ => exact ⟨rfl, rfl⟩
  | some k => cases ReqView.boundRound_of_handle hkvt h <;> exact ⟨rfl, rfl⟩

/-- **The rounds of a turn**, by induction on those still to come. -/
theorem Account.rounds {isOpen : Prop}
    {env : BuildEnv} {maxComputed : Option ℤ} {t' : Progress} : ∀ {ws : List Work} {v v' : ReqView}
    {t : Progress} {starts marks : ℕ} {out : List Emit},
    Account tpSize spw reports isOpen v t starts marks (ws.map Work.queued).sum →
    v.req.maxComputedTokens = maxComputed → follow (Progress.round maxComputed) t ws = some t' →
    (∀ reqid, .abortedSave reqid ∈ ws → v.req.live = false) →
    (∀ rdinfo, .dinfo rdinfo ∈ ws → rdinfo.migration = false) →
    Keyed.thread (handle env) ws v = some (v', out) →
    Account tpSize spw reports isOpen v' t' (starts + startsOf out) (marks + marksOf out) 0 ∧
      (startsOf out = 0 ∨ isOpen)
  | [], v, v', t, starts, marks, out, h, _, hfollow, _, _, hthread => by
      cases hthread
      cases hfollow
      exact ⟨h, .inl rfl⟩
  | w :: ws, v, v', t, starts, marks, out, h, hmax, hfollow, hlive, hmigration, hthread => by
      obtain ⟨t₁, hnext, hrest⟩ := follow_cons hfollow
      obtain ⟨v₁, out₁, out₂, hw, hthread₂, rfl⟩ := Keyed.thread_cons hthread
      have hmigration₁ : ∀ rdinfo, w = .dinfo rdinfo → rdinfo.migration = false :=
        fun rdinfo hrd => hmigration rdinfo (hrd ▸ mem_cons_self)
      obtain ⟨hmax₁, hlive₁⟩ := handle_frame hmigration₁ hw
      rw [map_cons, sum_cons, Nat.add_comm] at h
      obtain ⟨h₁, hstarts₁⟩ := h.round (hmax ▸ hnext)
        (fun reqid hreqid => hlive reqid (hreqid ▸ mem_cons_self)) hmigration₁ hw
      obtain ⟨h₂, hstarts₂⟩ := h₁.rounds (hmax₁.trans hmax) hrest
        (fun reqid hmem => hlive₁.trans (hlive reqid (mem_cons_of_mem w hmem)))
        (fun rdinfo hmem => hmigration rdinfo (mem_cons_of_mem w hmem)) hthread₂
      rw [startsOf_append, marksOf_append, ← Nat.add_assoc, ← Nat.add_assoc]
      refine ⟨h₂, ?_⟩
      rcases hstarts₁ with hstarts₁ | hopen
      · exact hstarts₂.imp_left fun hzero => by rw [hstarts₁, hzero]
      · exact .inr hopen

/-! ## The entry of the request -/

section Entry

variable {tpSize spw : ℕ} {reports reports' : List DoneReport} {isOpen isOpen' : Prop} {v : ReqView}
  {t : Progress} {starts marks queued : ℕ}

/-- A call of `_mark_send_done` closes the entry: nothing was to come. -/
theorem Account.mark (h : Account tpSize spw reports isOpen v t starts (marks + 1) queued) :
    Account tpSize spw reports isOpen' v t starts marks queued where
  dual := h.dual
  once := h.once
  unbound := fun hkvt => by
    obtain ⟨hzero, hcount⟩ := h.unbound hkvt
    exact ⟨hzero, .inl (by omega)⟩
  passed := h.passed
  bound := fun k hk => .inr ((h.bound k hk).resolve_left fun h' => absurd h'.2.1 (Nat.succ_ne_zero _))

variable (h : Account tpSize spw reports isOpen v t starts marks queued)
include h

theorem Account.mono (hopen : isOpen → isOpen') :
    Account tpSize spw reports isOpen' v t starts marks queued where
  dual := h.dual
  once := h.once
  unbound := fun hkvt => ⟨(h.unbound hkvt).1, (h.unbound hkvt).2.imp_right fun h' => ⟨h'.1, hopen h'.2⟩⟩
  passed := h.passed
  bound := fun k hk => (h.bound k hk).imp_left fun h' => ⟨hopen h'.1, h'.2⟩

/-- **While a worker holds the transfer, the entry is open** and nothing else is on its way. -/
theorem Account.of_holding (hheld : Holding tpSize spw reports starts) :
    isOpen ∧ marks = 0 ∧ queued = 0 ∧ starts = 1 ∧ v.req.kvtState.isSome = true := by
  have hpos : starts ≠ 0 := by
    rintro rfl
    exact not_holding_zero hheld
  cases hkvt : v.req.kvtState with
  | none => exact absurd (h.unbound hkvt).1 hpos
  | some k =>
    obtain ⟨hopen, hmarks, hqueued⟩ := (h.bound k hkvt).resolve_right fun hq => hq.2 hheld
    have := h.once
    exact ⟨hopen, hmarks, hqueued, by omega, rfl⟩

/-- A message is let in while no entry is open. -/
theorem Account.letIn (hclosed : ¬isOpen) (hopen : isOpen') :
    Account tpSize spw reports isOpen' v t starts marks (queued + 1) where
  dual := h.dual
  once := h.once
  unbound := fun hkvt => by
    obtain ⟨hzero, hcount⟩ := h.unbound hkvt
    have := hcount.resolve_right fun h' => hclosed h'.2
    exact ⟨hzero, .inr ⟨by omega, hopen⟩⟩
  passed := h.passed
  bound := fun k hk => .inr ((h.bound k hk).resolve_left fun h' => hclosed h'.1)

/-- A worker reports: the entry stays open, or no worker holds the transfer any more. -/
theorem Account.report (hheld : Holding tpSize spw reports starts)
    (hopen : isOpen' ∨ ¬Holding tpSize spw reports' starts) :
    Account tpSize spw reports' isOpen' v t starts marks queued := by
  obtain ⟨-, rfl, rfl, rfl, hbound⟩ := h.of_holding hheld
  refine ⟨h.dual, h.once, fun hkvt => ?_, h.passed, fun k hk => ?_⟩
  · rw [hkvt] at hbound
    cases hbound
  · rcases hopen with hopen | hfree
    · exact .inl ⟨hopen, rfl, rfl⟩
    · exact .inr ⟨.inl (h.passed k hk rfl), hfree⟩

/-- What the account of a request reads of it. -/
theorem Account.congr {v' : ReqView} (hkvt : v'.req.kvtState = v.req.kvtState)
    (hdual : v'.dual = v.dual) (hmax : v'.req.maxComputedTokens = v.req.maxComputedTokens)
    (hlive : v.req.live = false → v'.req.live = false) :
    Account tpSize spw reports isOpen v' t starts marks queued where
  dual := hdual ▸ h.dual
  once := h.once
  unbound := hkvt ▸ h.unbound
  passed := hkvt ▸ h.passed
  bound := fun k hk => by
    refine (h.bound k (hkvt ▸ hk)).imp_right fun ⟨hcannot, hheld⟩ => ⟨?_, hheld⟩
    rcases hcannot with hpassed | hgone | ⟨huntouched, hmc⟩
    · exact .inl hpassed
    · exact .inr (.inl ⟨hdual.trans hgone.1, hlive hgone.2⟩)
    · exact .inr (.inr ⟨huntouched, hmax ▸ hmc⟩)

end Entry

/-! ## A turn -/

namespace PBackend

/-- How many transfers of a request were started… -/
def starts (s : PBackend) (reqid : String) : ℕ := (s.sent reqid).countP Sent.starts

/-- …and how many calls of `_mark_send_done` are on their way to it. -/
def marks (s : PBackend) (reqid : String) : ℕ :=
  s.scheduled.countP fun ioret => ioret.reqid = some reqid

variable {s s' : PBackend} {reqid : String} {env : BuildEnv} {sout : SchedOut} {rdinfo : RKVTDInfo}

/-- What the loops of `_step_sched_req` go through. -/
theorem sched_of_mem_schedRounds (hw : w ∈ sout.schedRounds env) :
    (∃ reqdata substepMode, w = .schedNew reqdata substepMode) ∨
    ∃ reqdata substepMode, w = .schedCached reqdata substepMode := by
  have hrounds {sched : Scheduled} {substepMode : Bool} (hw : w ∈ sched.rounds substepMode) :
      (∃ reqdata substepMode, w = .schedNew reqdata substepMode) ∨
      ∃ reqdata substepMode, w = .schedCached reqdata substepMode := by
    rcases mem_append.mp hw with hw | hw
    · obtain ⟨reqdata, -, rfl⟩ := mem_map.mp hw
      exact .inl ⟨reqdata, substepMode, rfl⟩
    · obtain ⟨reqdata, -, rfl⟩ := mem_map.mp hw
      exact .inr ⟨reqdata, substepMode, rfl⟩
  unfold SchedOut.schedRounds at hw
  split at hw
  · exact hrounds hw
  · split at hw
    · exact hrounds hw
    · cases hw

theorem sum_queued_eq_zero : ∀ {ws : List Work}, (∀ w ∈ ws, ∀ rdinfo, w ≠ .dinfo rdinfo) →
    (ws.map Work.queued).sum = 0
  | [], _ => rfl
  | w :: ws, h => by
      rw [map_cons, sum_cons, Work.queued_eq_zero (h w mem_cons_self),
        sum_queued_eq_zero fun w' hw' => h w' (mem_cons_of_mem w hw')]

theorem sum_queued_dinfo : ∀ rdinfos : List RKVTDInfo,
    ((rdinfos.map Work.dinfo).map Work.queued).sum = rdinfos.length
  | [] => rfl
  | _ :: rdinfos => by
      rw [map_cons, map_cons, sum_cons, sum_queued_dinfo rdinfos, Work.queued,
        length_cons, Nat.add_comm]

/-- The messages a turn takes are those that are queued. -/
theorem sum_queued_roundsOf (s : PBackend) (env : BuildEnv) (sout : SchedOut) (reqid : String) :
    ((s.roundsOf env sout reqid).map Work.queued).sum = (s.queueOf reqid).length := by
  have hreplicate (n : ℕ) (w : Work) (hw : ∀ rdinfo, w ≠ .dinfo rdinfo) :
      ((List.replicate n w).map Work.queued).sum = 0 :=
    sum_queued_eq_zero fun w' hw' => eq_of_mem_replicate hw' ▸ hw
  have hsched : (((sout.schedRounds env).filter (·.reqid = reqid)).map Work.queued).sum = 0 :=
    sum_queued_eq_zero fun w hw rdinfo => by
      rcases sched_of_mem_schedRounds (mem_of_mem_filter hw) with ⟨_, _, rfl⟩ | ⟨_, _, rfl⟩
      · nofun
      · nofun
  rw [roundsOf_eq]
  simp only [map_append, sum_append_nat]
  rw [hreplicate _ _ (by nofun), hreplicate _ _ (by nofun), hreplicate _ _ (by nofun), hsched,
    sum_queued_dinfo]
  simp [queueOf]

theorem mem_queueOf_of_mem_roundsOf (h : .dinfo rdinfo ∈ s.roundsOf env sout reqid) :
    rdinfo ∈ s.queueOf reqid := by
  obtain ⟨hmem, hreqid⟩ := mem_filter.mp h
  refine mem_filter.mpr ⟨?_, hreqid⟩
  rcases mem_append.mp hmem with hmem | hmem
  · simpa [SchedOut.rounds] using hmem
  · rcases sched_of_mem_schedRounds hmem with ⟨_, _, h⟩ | ⟨_, _, h⟩
    · cases h
    · cases h

/-- An aborted request is not live in the turn that aborts it. -/
theorem live_turnView_of_mem_roundsOf {r : String}
    (h : .abortedSave r ∈ s.roundsOf env sout reqid) : (s.turnView sout reqid).req.live = false := by
  have haborted : reqid ∈ sout.hcAbortedSave := by
    obtain ⟨hmem, hreqid⟩ := mem_filter.mp h
    obtain rfl : r = reqid := of_decide_eq_true hreqid
    rcases mem_append.mp hmem with hmem | hmem
    · simpa [SchedOut.rounds] using hmem
    · rcases sched_of_mem_schedRounds hmem with ⟨_, _, h⟩ | ⟨_, _, h⟩
      · cases h
      · cases h
  rw [turnView]
  dsimp only
  rw [if_pos haborted]

/-- The calls of `_mark_send_done` that a turn schedules for a request are those its rounds emit. -/
theorem countP_marks (reqid : String) : ∀ {delta : List (String × Emit)},
    (∀ x ∈ delta, ∀ ioret, x.2.mark? = some ioret → ioret.reqid = some x.1) →
    (delta.filterMap fun x => x.2.mark?).countP (fun ioret => ioret.reqid = some reqid) =
      marksOf (Keyed.emitted reqid delta)
  | [], _ => rfl
  | (r, e) :: delta, h => by
      have ih := countP_marks reqid fun x hx => h x (mem_cons_of_mem _ hx)
      have hhead := h (r, e) mem_cons_self
      rw [marksOf, Keyed.emitted] at ih ⊢
      cases he : e.mark? with
      | none =>
        by_cases hr : r = reqid
        · simp [hr, he, ih]
        · simp [hr, he, ih]
      | some ioret =>
        have hreqid : ioret.reqid = some r := hhead ioret he
        by_cases hr : r = reqid
        · simp [hr, he, ih, hreqid]
        · simp [hr, he, ih, hreqid]

theorem Turned.marks {delta : List (String × Emit)} (h : Turned s env sout s' delta) (reqid : String) :
    s'.marks reqid = s.marks reqid + marksOf (Keyed.emitted reqid delta) := by
  rw [PBackend.marks, PBackend.marks, h.scheduled, countP_append, countP_marks]
  intro x hx ioret hmark
  obtain ⟨out, n, hthread, hemitted⟩ := h.thread x.1
  have hmem : x.2 ∈ out ++ List.replicate n (.abortReq .dualReqDoneTimeout) := by
    rw [← hemitted]
    exact mem_filterMap.mpr ⟨x, hx, if_pos rfl⟩
  have hx₂ : x.2 = .markSendDone ioret := by
    cases hx₂ : x.2 <;> rw [hx₂] at hmark <;> simp_all [Emit.mark?]
  rw [hx₂] at hmem
  rcases mem_append.mp hmem with hmem | hmem
  · refine Keyed.thread_emits (Q := fun e => ∀ ioret, e = .markSendDone ioret →
      ioret.reqid = some x.1) (fun w hw v v' out hbody e he ioret heq => ?_) hthread _ hmem ioret rfl
    have hw' : w.reqid = x.1 := of_decide_eq_true (mem_filter.mp hw).2
    rw [← hw']
    exact (markSendDone_of_handle hbody (heq ▸ he)).1
  · cases eq_of_mem_replicate hmem

/-- The account of a request at this state of the backend. -/
def Accounts (tpSize spw : ℕ) (reports : List DoneReport) (isOpen : Prop) (reqid : String)
    (s : PBackend) (t : Progress) : Prop :=
  Account tpSize spw reports isOpen (s.view reqid) t (s.starts reqid) (s.marks reqid)
    (s.queueOf reqid).length

/-- **A turn keeps the account**, and starts a transfer only if the entry is open. -/
theorem Accounts.turn {tpSize spw : ℕ} {reports : List DoneReport} {isOpen : Prop}
    {t t' : Progress} (h : s.Accounts tpSize spw reports isOpen reqid t)
    (hround : follow (Progress.round (s.reqs reqid).maxComputedTokens) t
      (s.roundsOf env sout reqid) = some t')
    (hmigration : ∀ rdinfo ∈ s.queueOf reqid, rdinfo.migration = false)
    (hok : s.turn env sout = .ok s') :
    s'.Accounts tpSize spw reports isOpen reqid t' ∧ s.starts reqid ≤ s'.starts reqid ∧
      (s'.starts reqid = s.starts reqid ∨ isOpen) := by
  obtain ⟨delta, ht⟩ := turned_of_turn hok
  obtain ⟨out, n, hthread, hemitted⟩ := ht.thread reqid
  have hturnView : (s.turnView sout reqid).req.kvtState = (s.reqs reqid).kvtState ∧
      (s.turnView sout reqid).req.maxComputedTokens = (s.reqs reqid).maxComputedTokens ∧
      ((s.reqs reqid).live = false → (s.turnView sout reqid).req.live = false) := by
    dsimp only [turnView]
    split
    · exact ⟨rfl, rfl, fun _ => rfl⟩
    · exact ⟨rfl, rfl, id⟩
  obtain ⟨hkvt, hmax, hlive⟩ := hturnView
  have hstart := Account.congr h hkvt rfl hmax hlive
  rw [← sum_queued_roundsOf s env sout reqid] at hstart
  obtain ⟨hend, hstarts⟩ := hstart.rounds hmax hround
    (fun r hmem => live_turnView_of_mem_roundsOf hmem)
    (fun rdinfo hmem => hmigration rdinfo (mem_queueOf_of_mem_roundsOf hmem)) hthread
  obtain ⟨-, hsent, hqueue, -⟩ := (turn_of_thread hthread).2 s' hok
  have hstarts' : s'.starts reqid = s.starts reqid + startsOf out := by
    rw [starts, hsent, countP_append]
    rfl
  have hmarks' : s'.marks reqid = s.marks reqid + marksOf out := by
    rw [ht.marks, hemitted, marksOf_append, marksOf,
      marksOf, filterMap_replicate_of_none rfl, length_nil, Nat.add_zero]
  refine ⟨?_, hstarts' ▸ Nat.le_add_right _ _,
    hstarts.imp_left fun hzero => by rw [hstarts', hzero, Nat.add_zero]⟩
  rw [Accounts, hstarts', hmarks', hqueue]
  exact hend

/-! ## The entry of `_sending` -/

/-- The entry of `_sending` under the request's id is there, and its future is unresolved. -/
def isOpen (s : PBackend) (reqid : String) : Bool :=
  (s.sending.get? reqid).any (·.fut.isNone)

theorem isOpen_iff : s.isOpen reqid = true ↔
    ∃ st, s.sending.get? reqid = some st ∧ st.fut = none := by
  rw [isOpen]
  cases h : s.sending.get? reqid with
  | none => simp
  | some st => simp

/-- What an event leaves as it is of a request. -/
structure Keeps (reqid : String) (s s' : PBackend) : Prop where
  sending : s'.sending.get? reqid = s.sending.get? reqid
  sent : s'.sent reqid = s.sent reqid
  queue : s'.queueOf reqid = s.queueOf reqid
  marks : s'.marks reqid = s.marks reqid

theorem Keeps.refl (reqid : String) (s : PBackend) : Keeps reqid s s := ⟨rfl, rfl, rfl, rfl⟩

theorem Keeps.isOpen (h : Keeps reqid s s') : s'.isOpen reqid = s.isOpen reqid := by
  rw [PBackend.isOpen, PBackend.isOpen, h.sending]

theorem Keeps.starts (h : Keeps reqid s s') : s'.starts reqid = s.starts reqid := by
  rw [PBackend.starts, PBackend.starts, h.sent]

theorem keeps_updateSending {r : Option String} (hr : r ≠ some reqid)
    (f : SendingReq → SendingReq) : Keeps reqid s (s.updateSending r f) := by
  unfold updateSending
  split
  · exact .refl reqid s
  · next r =>
    split
    · exact .refl reqid s
    · refine ⟨Dict.get?_set_ne _ _ ?_, rfl, rfl, rfl⟩
      rintro rfl
      exact hr rfl

theorem keeps_submitTransferKv (hne : rdinfo.reqid ≠ reqid) (naming : Bool) (tpSize : ℕ)
    (dTp : Option ℕ) : Keeps reqid s (s.submitTransferKv naming tpSize rdinfo dTp) := by
  unfold submitTransferKv
  split
  · refine ⟨Dict.get?_set_ne _ _ (Ne.symm hne), rfl, ?_, rfl⟩
    rw [queueOf, filter_append]
    simp [queueOf, hne]
  · exact .refl reqid s

theorem get?_updateSending_self (s : PBackend) (reqid : String) (f : SendingReq → SendingReq) :
    (s.updateSending (some reqid) f).sending.get? reqid = (s.sending.get? reqid).map f := by
  unfold updateSending
  dsimp only
  split
  · next hnone => rw [hnone, Option.map_none]
  · next st hst => rw [hst, Option.map_some, Dict.get?_set_self]

end PBackend

end LlumnixKv
