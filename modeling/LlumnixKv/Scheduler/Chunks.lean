import LlumnixKv.Machinery.Cuts
import LlumnixKv.Scheduler.PBackend

/-!
# Scheduler/Chunks — a transfer along the chunks of a prefill

A request bound to a transfer is computed chunk by chunk, and after each chunk its new tokens go out:

    chunk ends      e₁ ≤ c < e₂ < e₃ < m ≤ e₄ < …
    metas                    [c, e₂)  [e₂, e₃)  [e₃, m)
                             D blocks           last

`chunkMetas` is this picture, the pieces of `[c, m)` between the chunk ends (`Machinery/Cuts`), and
`Sending` is what the backend keeps while it is drawn: `_infly_kvt` holds the last meta as long as
the transfer has started and is not complete.  A new and a cached request take different branches to
the same next piece (`Sending.new`, `Sending.cached`).
-/

open List Machinery

namespace LlumnixKv

/-! ## What the workers are told -/

/-- The lists of `KVTPMeta`. -/
inductive MetaKind
  | freeze | abort | nonfreeze
  deriving DecidableEq, Repr

/-- A meta, less the addresses on P. -/
structure Sent where
  kind : MetaKind
  seenTokens : ℤ
  newTokens : ℤ
  hasLastToken : Bool
  dBlockIds : List (List ℕ)
  deriving DecidableEq, Repr

/-- The tokens and the D blocks of a meta. -/
def PReqMeta.sent (m : PReqMeta) (kind : MetaKind) : Sent :=
  { kind, seenTokens := m.seenTokens, newTokens := m.newTokens, hasLastToken := m.hasLastToken
    dBlockIds := m.dBlockIds }

/-- The metas among what was emitted. -/
def Emit.sent? : Emit → Option Sent
  | .freeze m => some (m.sent .freeze)
  | .abort m => some (m.sent .abort)
  | .nonfreeze m => some (m.sent .nonfreeze)
  | _ => none

/-- All metas of a request, in the order they were emitted. -/
def PBackend.sent (s : PBackend) (reqid : String) : List Sent :=
  (Keyed.emitted reqid s.log).filterMap Emit.sent?

/-- The piece `[p₁, p₂)` of a transfer up to `m`: the first one carries the D blocks. -/
def chunkMeta (dinfo : KVTDInfo) (m : ℤ) (p : ℤ × ℤ) : Sent where
  kind := .nonfreeze
  seenTokens := p.1
  newTokens := p.2 - p.1
  hasLastToken := p.2 = m
  dBlockIds := if p.1 = dinfo.cachedTokens then dinfo.blkids else []

/-- The metas of a transfer up to `m`, after chunks with these ends. -/
def chunkMetas (dinfo : KVTDInfo) (m : ℤ) (ends : List ℤ) : List Sent :=
  (chain dinfo.cachedTokens (cuts dinfo.cachedTokens m ends)).map (chunkMeta dinfo m)

section Chunks

variable {dinfo : KVTDInfo} {m e : ℤ} {ends : List ℤ}

/-- **One chunk more is one meta more**, if it is inside the range. -/
theorem chunkMetas_concat (hcm : dinfo.cachedTokens < m)
    (hsorted : (ends ++ [e]).Pairwise (· < ·)) :
    chunkMetas dinfo m (ends ++ [e]) = chunkMetas dinfo m ends ++
      if dinfo.cachedTokens < e ∧ ends.getLastD dinfo.cachedTokens < m then
        [chunkMeta dinfo m (max dinfo.cachedTokens (ends.getLastD dinfo.cachedTokens), min e m)]
      else [] := by
  have hlast := getLastD_cuts hcm (pairwise_append.mp hsorted).1
  rw [chunkMetas, cuts_concat hcm hsorted]
  split
  · next h =>
    rw [chain_concat, map_append, hlast, min_eq_left h.2.le]
    rfl
  · rw [append_nil, append_nil]
    rfl

theorem chunkMetas_eq_nil_iff (hcm : dinfo.cachedTokens < m) (hsorted : ends.Pairwise (· < ·)) :
    chunkMetas dinfo m ends = [] ↔ ends.getLastD dinfo.cachedTokens ≤ dinfo.cachedTokens := by
  rw [← cuts_eq_nil_iff hcm hsorted, chunkMetas, map_eq_nil_iff]
  constructor
  · intro h
    rw [← map_snd_chain dinfo.cachedTokens (cuts dinfo.cachedTokens m ends), h, map_nil]
  · intro h
    rw [h, chain_nil]

/-- **One meta is flagged as the last**, when the range is reached. -/
theorem countP_hasLastToken_chunkMetas (hcm : dinfo.cachedTokens < m)
    (hsorted : ends.Pairwise (· < ·)) :
    (chunkMetas dinfo m ends).countP (·.hasLastToken) =
      if m ≤ ends.getLastD dinfo.cachedTokens then 1 else 0 := by
  rw [← count_cuts hcm hsorted]
  conv_rhs => rw [← map_snd_chain dinfo.cachedTokens (cuts dinfo.cachedTokens m ends)]
  rw [chunkMetas, countP_map, List.count, countP_map]
  rfl

end Chunks

/-! ## What is kept for the request meanwhile -/

/-- The transfer stands where chunks with these ends leave it. -/
structure ReqView.Sending (v : ReqView) (dinfo : KVTDInfo) (m : ℤ) (ends : List ℤ) : Prop where
  bound : ∃ kvtstate, v.req.kvtState = some kvtstate ∧ kvtstate.dinfo = dinfo ∧
    kvtstate.maxtokens = m ∧
    (dinfo.cachedTokens < ends.getLastD dinfo.cachedTokens → kvtstate.untouched = false)
  infly : dinfo.cachedTokens < ends.getLastD dinfo.cachedTokens →
    ends.getLastD dinfo.cachedTokens < m → ∃ prev, v.infly = some prev ∧ prev.hasLastToken = false ∧
      0 < prev.newTokens ∧ prev.seenTokens + prev.newTokens = ends.getLastD dinfo.cachedTokens
  idle : ends.getLastD dinfo.cachedTokens ≤ dinfo.cachedTokens ∨
    m ≤ ends.getLastD dinfo.cachedTokens → v.infly = none

/-- A round that only touches the transfer. -/
structure ReqView.Moved (v v' : ReqView) : Prop where
  dual : v'.dual = v.dual
  isNew : v'.isNew = v.isNew
  req : { v'.req with kvtState := none } = { v.req with kvtState := none }

theorem ReqView.Moved.refl (v : ReqView) : v.Moved v := ⟨rfl, rfl, rfl⟩

theorem ReqView.Moved.live {v v' : ReqView} (h : v.Moved v') : v'.req.live = v.req.live :=
  (congrArg Req.live h.req :)

theorem ReqView.Moved.limit {v v' : ReqView} (h : v.Moved v') : v'.req.limit = v.req.limit :=
  (congrArg Req.limit h.req :)

variable {kvtstate : KVTState} {substepMode : Bool}

/-- Before the first chunk. -/
theorem ReqView.Sending.start {v : ReqView} {dinfo : KVTDInfo} {m : ℤ}
    (hkvt : v.req.kvtState = some kvtstate) (hdinfo : kvtstate.dinfo = dinfo)
    (hm : kvtstate.maxtokens = m) (hinfly : v.infly = none) : v.Sending dinfo m [] :=
  ⟨⟨kvtstate, hkvt, hdinfo, hm, fun h => absurd h (lt_irrefl _)⟩, fun h => absurd h (lt_irrefl _),
    fun _ => hinfly⟩

/-! ## How a request is bound to a transfer -/

/-- Where a transfer ends: at the tokens D asks for, as far as the request has and computes them. -/
def Req.transferEnd (req : Req) (dinfo : KVTDInfo) : ℤ :=
  req.maxComputedTokens.elim (min req.numTokens dinfo.maxTokens)
    (min (min req.numTokens dinfo.maxTokens))

/-- A transfer that ends after its start has tokens to compute. -/
theorem Req.any_maxComputed_eq_false {req : Req} {dinfo : KVTDInfo}
    (h : dinfo.cachedTokens < req.transferEnd dinfo) :
    (req.maxComputedTokens.any fun maxcomputed => maxcomputed ≤ dinfo.cachedTokens) = false := by
  unfold transferEnd at h
  cases hmax : req.maxComputedTokens with
  | none => rfl
  | some maxcomputed =>
    rw [hmax] at h
    exact decide_eq_false (not_le.mpr (lt_of_lt_of_le h (min_le_right _ _)))

/-- **A request that is not finished is bound to its transfer**, untouched. -/
theorem ReqView.stepDinfo_bind {v : ReqView} {env : BuildEnv} {rdinfo : RKVTDInfo}
    (hfound : v.dual.isSome = true ∨ v.req.live = true) (hkvt : v.req.kvtState = none)
    (hcm : rdinfo.dinfo.cachedTokens < v.req.transferEnd rdinfo.dinfo)
    (hdual : v.dual.filter (·.finished) = none) (hmigration : rdinfo.migration = false) :
    v.stepDinfo env rdinfo = some ({ v.setKvt
      { dinfo := rdinfo.dinfo, maxtokens := v.req.transferEnd rdinfo.dinfo, untouched := true }
        with isNew := true }, []) := by
  have hnot : ¬(v.dual.isNone = true ∧ v.req.live = false) := by
    rintro ⟨hnone, hlive⟩
    rcases hfound with h | h
    · simp [Option.isNone_iff_eq_none.mp hnone] at h
    · cases hlive.symm.trans h
  rw [stepDinfo]
  dsimp only
  rw [if_neg hnot, hkvt, Option.isSome_none, if_neg Bool.false_ne_true,
    Req.any_maxComputed_eq_false hcm, if_neg Bool.false_ne_true, hdual]
  dsimp only
  rw [hmigration, if_neg Bool.false_ne_true]
  rfl

/-! ## What a scheduled chunk chooses -/

section Choose

variable {kvtstate : KVTState} {limit e : ℤ}

theorem KVTState.choose_skip (h : e ≤ kvtstate.dinfo.cachedTokens) :
    kvtstate.choose limit e substepMode = .skip := if_pos h

/-- A chunk of the main step is sent as far as the transfer goes. -/
theorem KVTState.choose_main (hlimit : kvtstate.maxtokens ≤ limit)
    (h : kvtstate.dinfo.cachedTokens < e) :
    kvtstate.choose limit e false =
      .send (min e kvtstate.maxtokens) (kvtstate.maxtokens ≤ e) := by
  have hfail : ¬(limit ≤ e ∧ e < kvtstate.maxtokens) := by omega
  rw [KVTState.choose, if_neg (not_le.mpr h), if_neg hfail, if_neg (by simp)]
  rcases le_or_gt kvtstate.maxtokens e with hm | hm
  · rw [if_pos hm, min_eq_right hm, decide_eq_true hm]
  · rw [if_neg (not_le.mpr hm), min_eq_left hm.le, decide_eq_false (not_le.mpr hm)]
    rfl

/-- A substep sends a transfer that is untouched, and only as a whole. -/
theorem KVTState.choose_substep (hlimit : kvtstate.maxtokens ≤ limit)
    (hcm : kvtstate.dinfo.cachedTokens < kvtstate.maxtokens)
    (huntouched : kvtstate.untouched = true) :
    kvtstate.choose limit e true =
      if kvtstate.maxtokens ≤ e then .send kvtstate.maxtokens true else .skip := by
  have hfail : ¬(limit ≤ e ∧ e < kvtstate.maxtokens) := by omega
  have htouched : ¬(true = true ∧ kvtstate.untouched = false) := by simp [huntouched]
  rw [KVTState.choose, if_neg hfail, if_neg htouched]
  rcases le_or_gt kvtstate.maxtokens e with hm | hm
  · rw [if_pos hm, if_pos hm, if_neg (not_le.mpr (hcm.trans_le hm))]
  · rw [if_neg (not_le.mpr hm), if_neg (not_le.mpr hm), if_pos rfl, ite_self]

end Choose

/-! ## One chunk -/

namespace ReqView

variable {v : ReqView} {dinfo : KVTDInfo} {m : ℤ} {ends : List ℤ} {e : ℤ} {kvtmeta : PReqMeta}

theorem updateInflyKvt_first (hinfly : v.infly = none) (hblk : kvtmeta.dBlockIds ≠ []) :
    v.updateInflyKvt kvtmeta =
      some { v with infly := if kvtmeta.hasLastToken then none else some kvtmeta } := by
  rw [updateInflyKvt, if_pos hblk, hinfly, Option.isSome_none, if_neg Bool.false_ne_true]
  split
  · rw [← hinfly]
  · rfl

theorem updateInflyKvt_delta {kvtmeta prev : PReqMeta} (hinfly : v.infly = some prev)
    (hblk : kvtmeta.dBlockIds = []) :
    v.updateInflyKvt kvtmeta =
      some { v with infly := if kvtmeta.hasLastToken then none else some kvtmeta } := by
  rw [updateInflyKvt, if_neg (not_not.mpr hblk), hinfly, Option.isNone_some,
    if_neg Bool.false_ne_true]
  split <;> rfl

/-- The view once a meta that ends at `e` went out. -/
theorem Sending.of_meta (hkvt : v.req.kvtState = some kvtstate) (hdinfo : kvtstate.dinfo = dinfo)
    (hm : kvtstate.maxtokens = m) (huntouched : kvtstate.untouched = false)
    (hce : dinfo.cachedTokens < e) (hlast : kvtmeta.hasLastToken = decide (m ≤ e))
    (hnew : e < m → 0 < kvtmeta.newTokens ∧ kvtmeta.seenTokens + kvtmeta.newTokens = e) :
    ReqView.Sending { v with infly := if kvtmeta.hasLastToken then none else some kvtmeta }
      dinfo m (ends ++ [e]) := by
  refine ⟨⟨kvtstate, hkvt, hdinfo, hm, fun _ => huntouched⟩, fun _ hlt => ?_, fun h => ?_⟩
  · rw [getLastD_concat] at hlt ⊢
    have hfalse : kvtmeta.hasLastToken = false := hlast.trans (decide_eq_false (not_le.mpr hlt))
    exact ⟨kvtmeta, by rw [hfalse]; rfl, hfalse, hnew hlt⟩
  · rw [getLastD_concat] at h
    exact if_pos (hlast.trans (decide_eq_true (h.resolve_left (not_le.mpr hce))))

/-- A chunk before the range, or after it, changes nothing. -/
theorem Sending.outside (hv : v.Sending dinfo m ends) (hcm : dinfo.cachedTokens < m)
    (hsorted : (ends ++ [e]).Pairwise (· < ·))
    (h : e ≤ dinfo.cachedTokens ∨ m ≤ ends.getLastD dinfo.cachedTokens) :
    v.Sending dinfo m (ends ++ [e]) ∧
      chunkMetas dinfo m ends = chunkMetas dinfo m (ends ++ [e]) := by
  have hcases := getLastD_cases hsorted dinfo.cachedTokens
  refine ⟨?_, ?_⟩
  · obtain ⟨kvtstate, hkvt, hdinfo, hm, huntouched⟩ := hv.bound
    refine ⟨⟨kvtstate, hkvt, hdinfo, hm, fun hce => huntouched ?_⟩, fun hce hlt => ?_, fun _ => ?_⟩
    · rw [getLastD_concat] at hce
      omega
    · rw [getLastD_concat] at hce hlt
      omega
    · exact hv.idle (by omega)
  · rw [chunkMetas_concat hcm hsorted, if_neg (by omega), append_nil]

/-- **The meta that starts a transfer.** -/
theorem Sending.first {reqid : String} {pBlockIds : List (List ℕ)} (hinfly : v.infly = none)
    (hblk : dinfo.blkids ≠ []) (hdinfo : kvtstate.dinfo = dinfo) (hm : kvtstate.maxtokens = m)
    (hcm : dinfo.cachedTokens < m) (hce : dinfo.cachedTokens < e)
    (hlast : ends.getLastD dinfo.cachedTokens ≤ dinfo.cachedTokens)
    (hsorted : (ends ++ [e]).Pairwise (· < ·)) :
    ∃ v' out, v.emitFirst reqid kvtstate pBlockIds (min e m) (m ≤ e) substepMode = some (v', out) ∧
      v'.Sending dinfo m (ends ++ [e]) ∧ v.Moved v' ∧
      chunkMetas dinfo m ends ++ out.filterMap Emit.sent? = chunkMetas dinfo m (ends ++ [e]) := by
  subst hdinfo hm
  let kvtmeta := firstMeta reqid kvtstate pBlockIds (min e kvtstate.maxtokens)
    (kvtstate.maxtokens ≤ e)
  let touched := v.setKvt { kvtstate with untouched := false }
  have hemit : v.emitFirst reqid kvtstate pBlockIds (min e kvtstate.maxtokens)
      (kvtstate.maxtokens ≤ e) substepMode =
      some ({ touched with infly := if kvtmeta.hasLastToken then none else some kvtmeta },
        [.nonfreeze kvtmeta]) := by
    rw [emitFirst, if_neg fun h => hblk h.2, emitMeta]
    exact congrArg (Option.map _) (updateInflyKvt_first (v := touched) hinfly hblk)
  refine ⟨_, _, hemit, .of_meta rfl rfl rfl rfl hce rfl fun hlt => ?_, ⟨rfl, rfl, rfl⟩, ?_⟩
  · simp only [kvtmeta, firstMeta, min_eq_left hlt.le]
    omega
  · rw [chunkMetas_concat hcm hsorted, if_pos ⟨hce, hlast.trans_lt hcm⟩, max_eq_left hlast]
    simp [kvtmeta, Emit.sent?, PReqMeta.sent, firstMeta, chunkMeta]

/-- **A chunk of a request that is new.** -/
theorem Sending.new (now : ℕ) {reqdata : NewReqData} (hv : v.Sending dinfo m [])
    (hcm : dinfo.cachedTokens < m) (hblk : dinfo.blkids ≠ []) (hlimit : m ≤ v.req.limit)
    (hlive : v.req.live = true) (he : reqdata.numScheduledTokens + reqdata.numComputedTokens = e) :
    ∃ v' out, v.stepSchedNew now reqdata false = some (v', out) ∧ v'.Sending dinfo m [e] ∧
      v.Moved v' ∧ (e ≤ dinfo.cachedTokens → v' = v) ∧
      out.filterMap Emit.sent? = chunkMetas dinfo m [e] := by
  obtain ⟨kvtstate, hkvt, rfl, rfl, -⟩ := id hv.bound
  have hgate : ¬(false = true ∧ v.isNew = false) := nofun
  have hfound : ¬v.req.live = false := by simp [hlive]
  rw [stepSchedNew, if_neg hgate, if_neg hfound, hkvt, he]
  dsimp only
  have hsorted : (([] : List ℤ) ++ [e]).Pairwise (· < ·) := pairwise_singleton _ e
  rcases le_or_gt e kvtstate.dinfo.cachedTokens with hec | hce
  · rw [KVTState.choose_skip hec]
    obtain ⟨hsending, hmetas⟩ := hv.outside hcm hsorted (.inl hec)
    exact ⟨v, [], rfl, hsending, .refl v, fun _ => rfl, hmetas⟩
  · rw [KVTState.choose_main hlimit hce]
    obtain ⟨v', out, hfirst, hsending, hmoved, hmetas⟩ :=
      Sending.first (hv.idle (.inl le_rfl)) hblk rfl rfl hcm hce le_rfl hsorted
    exact ⟨v', out, hfirst, hsending, hmoved, fun hec => absurd hec (not_le.mpr hce), hmetas⟩

/-- **A chunk of a cached request.**  The source starts over from `c` as long as the transfer is
untouched, and goes on from `num_computed_tokens` afterwards. -/
theorem Sending.cached (now : ℕ) {reqdata : CachedReqData} (hv : v.Sending dinfo m ends)
    (hcm : dinfo.cachedTokens < m) (hblk : dinfo.blkids ≠ []) (hlimit : m ≤ v.req.limit)
    (hlive : v.req.live = true)
    (he : reqdata.numComputedTokens + reqdata.numScheduledTokens = e)
    (hsorted : (ends ++ [e]).Pairwise (· < ·))
    (hstart : ends.getLastD dinfo.cachedTokens ≤ dinfo.cachedTokens →
      ∀ kvtstate, v.req.kvtState = some kvtstate →
        (if kvtstate.untouched then 0 else reqdata.numComputedTokens) ≤ dinfo.cachedTokens)
    (hnext : dinfo.cachedTokens < ends.getLastD dinfo.cachedTokens →
      ends.getLastD dinfo.cachedTokens < m →
      reqdata.numComputedTokens = ends.getLastD dinfo.cachedTokens)
    (hpast : m ≤ ends.getLastD dinfo.cachedTokens → m ≤ reqdata.numComputedTokens) :
    ∃ v' out, v.stepSchedCached now reqdata false = some (v', out) ∧
      v'.Sending dinfo m (ends ++ [e]) ∧ v.Moved v' ∧ (e ≤ dinfo.cachedTokens → v' = v) ∧
      chunkMetas dinfo m ends ++ out.filterMap Emit.sent? = chunkMetas dinfo m (ends ++ [e]) := by
  obtain ⟨kvtstate, hkvt, rfl, rfl, huntouched⟩ := id hv.bound
  have hgate : ¬(false = true ∧ v.isNew = false) := nofun
  have hfound : ¬v.req.live = false := by simp [hlive]
  rw [stepSchedCached, if_neg hgate, if_neg hfound, hkvt, he]
  dsimp only
  rcases le_or_gt e kvtstate.dinfo.cachedTokens with hec | hce
  · rw [KVTState.choose_skip hec]
    obtain ⟨hsending, hmetas⟩ := hv.outside hcm hsorted (.inl hec)
    exact ⟨v, [], rfl, hsending, .refl v, fun _ => rfl, (append_nil _).trans hmetas⟩
  · rw [KVTState.choose_main hlimit hce]
    dsimp only
    rcases le_or_gt (ends.getLastD kvtstate.dinfo.cachedTokens) kvtstate.dinfo.cachedTokens with
      hlast | hlast
    · -- no meta so far: the range starts at `c`
      rw [if_pos (hstart hlast kvtstate hkvt)]
      obtain ⟨v', out, hfirst, hsending, hmoved, hmetas⟩ :=
        Sending.first (hv.idle (.inl hlast)) hblk rfl rfl hcm hce hlast hsorted
      exact ⟨v', out, hfirst, hsending, hmoved, fun hec => absurd hec (not_le.mpr hce), hmetas⟩
    · -- the range goes on where the last meta ended
      rw [huntouched hlast, if_neg Bool.false_ne_true]
      rcases lt_or_ge (ends.getLastD kvtstate.dinfo.cachedTokens) kvtstate.maxtokens with hlt | hle
      · obtain ⟨prev, hinfly, -⟩ := hv.infly hlast hlt
        rw [hnext hlast hlt, if_neg (not_le.mpr hlast), if_pos hlt, if_neg (by simp), emitMeta,
          updateInflyKvt_delta hinfly rfl, Option.map_some]
        have hlte : ends.getLastD kvtstate.dinfo.cachedTokens < e :=
          ((getLastD_cases hsorted _).resolve_left fun h => absurd hlast (by omega)).2
        refine ⟨_, _, rfl, .of_meta hkvt rfl rfl (huntouched hlast) hce rfl fun hem => ?_,
          ⟨rfl, rfl, rfl⟩, fun hec => absurd hec (not_le.mpr hce), ?_⟩
        · simp only [deltaMeta, min_eq_left hem.le]
          omega
        · rw [chunkMetas_concat hcm hsorted, if_pos ⟨hce, hlt⟩, max_eq_right hlast.le]
          have hne : ends.getLastD kvtstate.dinfo.cachedTokens ≠ kvtstate.dinfo.cachedTokens :=
            hlast.ne'
          generalize ends.getLastD kvtstate.dinfo.cachedTokens = last at hne ⊢
          simp [Emit.sent?, PReqMeta.sent, deltaMeta, chunkMeta, hne]
      · rw [if_neg (not_le.mpr (hcm.trans_le (hpast hle))), if_neg (not_lt.mpr (hpast hle))]
        obtain ⟨hsending, hmetas⟩ := hv.outside hcm hsorted (.inr hle)
        exact ⟨v, [], rfl, hsending, .refl v, fun _ => rfl, (append_nil _).trans hmetas⟩

end ReqView

end LlumnixKv
