import LlumnixKv.Parse.Flash
import LlumnixKv.Parse.WholePages
import LlumnixKv.Ranks.Dispatch

/-!
# Stub/Context — what a send stub remembers of its destination

    refresh_dst_info     first answer:  store it ──▶ select ranks ──▶ dispatch
                         later answer:  same_dst ?  take its address  :  keep the old record
    try_create_channel   active channel ?  done  :  refresh ──▶ create

`TaskContext` outlives the batches, and an exception leaves it as it was when it was thrown.  Two
consequences are exact conditions here.  The record is stored before the dispatch can throw, so a
later attempt may return with no parse function (`alwaysEstablished_iff`).  And `same_dst` compares
fewer fields than the parse functions read, so a new address may go with an old layout
(`neverMixes_iff`).
-/

open Machinery

namespace LlumnixKv

/-! ## The context -/

/-- `KvSendStub::TaskContext`, the part that outlives a batch. -/
structure TaskContext where
  tpkind : TPKind := .unknown
  parseBlock : Option ParseFn := none
  dstinfo : Option WorkerInfo := none
  /-- there is a channel -/
  ch : Bool := false
  validRanks : BitVec maxTpSize := 0
  kvtTpSize : ℕ := 0
  kvtTpRank : ℕ := 0
  deriving DecidableEq

/-- The answer of `get_worker_info`: a record, nothing, or an exception with its text. -/
abbrev Answer := Except String (Option WorkerInfo)

/-- A call outside the stub that may throw a `std::exception`. -/
abbrev Call := Except String Unit

/-- `same_dst`. -/
def sameDst (l r : WorkerInfo) : Bool :=
  l.instId == r.instId && l.workerId == r.workerId && l.engineTpSize == r.engineTpSize &&
    l.workerTpRank == r.workerTpRank && l.blockSizes == r.blockSizes &&
    l.tokenSizes == r.tokenSizes && l.layerNumBlocks == r.layerNumBlocks &&
    l.numLayers == r.numLayers && l.transferProtocols == r.transferProtocols

variable (env : EnvCfg) {s : WorkerInfo} (src : WorkerInfo)

/-- The second half of `refresh_dst_info`, for a destination just stored. -/
def bindDst (dst : WorkerInfo) (ctx : TaskContext) :
    TaskContext × Except Fault Unit :=
  match computeValidRanksPd env.ndebug src.engineTpSize dst.engineTpSize src.numKvHeads with
  | .error f => (ctx, .error f)
  | .ok validRanks =>
    let ctx := { ctx with
      validRanks := validRanks
      kvtTpSize := Bitset.count validRanks
      kvtTpRank := LlumnixKv.kvtTpRank validRanks src.workerTpRank }
    match selectParseBlock env.cacheShape src dst ctx.kvtTpSize with
    | .error f => (ctx, .error f)
    | .ok (fn, kind) => ({ ctx with parseBlock := some fn, tpkind := kind }, .ok ())

/-- `refresh_dst_info`: the context it leaves, and how it ends. -/
def refreshDstInfo (answer : Answer) (ctx : TaskContext) :
    TaskContext × Except Fault Unit :=
  match answer, ctx.dstinfo with
  | .error msg, _ => (ctx, .error (.runtime msg))
  | .ok none, some _ => (ctx, .ok ())
  | .ok none, none => (ctx, .error (.runtime "can't find target worker"))
  | .ok (some w), some old =>
    if sameDst old w then ({ ctx with dstinfo := some { old with addr := w.addr } }, .ok ())
    else (ctx, .ok ())
  | .ok (some w), none => bindDst env src w { ctx with dstinfo := some w }

/-- `try_create_channel`. -/
def tryCreateChannel (active : Bool) (answer : Answer) (create : Call) (ctx : TaskContext) :
    TaskContext × Except Fault Unit :=
  if ctx.ch && active then (ctx, .ok ())
  else match refreshDstInfo env src answer ctx with
    | (ctx, .error f) => (ctx, .error f)
    | (ctx, .ok ()) => match create with
      | .error msg => (ctx, .error (.runtime msg))
      | .ok () => ({ ctx with ch := true }, .ok ())

/-! ## Layouts -/

/-- The fields of a destination record that some parse function reads. -/
structure Layout where
  engineTpSize : ℕ
  workerTpRank : ℕ
  blockSizes : List ℕ
  tokenSizes : List ℕ
  layerNumBlocks : ℕ
  attnKernelBlkNtpb : ℕ
  indexerBlkNtpb : ℕ
  attnPackSize : ℕ
  kdaPageStride : ℕ
  deriving DecidableEq

/-- The layout a record describes. -/
def WorkerInfo.layout (w : WorkerInfo) : Layout :=
  ⟨w.engineTpSize, w.workerTpRank, w.blockSizes, w.tokenSizes, w.layerNumBlocks,
    w.attnKernelBlkNtpb, w.indexerBlkNtpb, w.attnPackSize, w.kdaPageStride⟩

/-- The record an answer presents. -/
def Answer.record : Answer → Option WorkerInfo
  | .ok w => w
  | .error _ => none

theorem Answer.record_eq_some {a : Answer} {w : WorkerInfo} :
    a.record = some w ↔ a = .ok (some w) := by
  cases a with
  | ok r => exact ⟨congrArg Except.ok, Except.ok.inj⟩
  | error msg => exact ⟨nofun, nofun⟩

/-- An exception that `do_task` catches does not end the process. -/
def survives : Except Fault Unit → Bool
  | .ok () => true
  | .error f => f.caught

/-- The stored address is the latest record's only if the stored layout is. -/
def Unmixed (stored latest : Option WorkerInfo) : Prop :=
  ∀ s w, stored = some s → latest = some w → s.addr = w.addr → s.layout = w.layout

/-- **No new address with an old layout**, after each refresh of the run that returns. -/
def NeverMixes (env : EnvCfg) (src : WorkerInfo) :
    TaskContext → Option WorkerInfo → List Answer → Prop
  | _, _, [] => True
  | ctx, latest, a :: as =>
    let next := refreshDstInfo env src a ctx
    let latest := a.record.or latest
    (next.2 = .ok () → Unmixed next.1.dstinfo latest) ∧
      (survives next.2 = true → NeverMixes env src next.1 latest as)

/-! ### One refresh -/

section Refresh

variable {env : EnvCfg} {src : WorkerInfo} {ctx : TaskContext}

/-- Binding never touches the record it was given. -/
@[simp] theorem bindDst_dstinfo (dst : WorkerInfo) :
    (bindDst env src dst ctx).1.dstinfo = ctx.dstinfo := by
  unfold bindDst
  split
  · rfl
  · dsimp only
    split <;> rfl

variable {a : Answer}

/-- A context with no record: an answer without one changes nothing and throws. -/
theorem refreshDstInfo_none (hctx : ctx.dstinfo = none) (ha : a.record = none) :
    ∃ msg, refreshDstInfo env src a ctx = (ctx, .error (.runtime msg)) := by
  match a, ha with
  | .error msg, _ => exact ⟨msg, by simp only [refreshDstInfo]⟩
  | .ok none, _ => exact ⟨"can't find target worker", by simp only [refreshDstInfo, hctx]⟩

/-- …and the first record is stored and bound. -/
theorem refreshDstInfo_first {w : WorkerInfo} (hctx : ctx.dstinfo = none) (ha : a.record = some w) :
    refreshDstInfo env src a ctx = bindDst env src w { ctx with dstinfo := some w } := by
  rw [Answer.record_eq_some.mp ha]
  simp only [refreshDstInfo, hctx]

/-- **A stored record keeps everything but its address**, which follows the answers that pass
`same_dst`; only a throwing naming service makes a later refresh throw. -/
theorem refreshDstInfo_later (hctx : ctx.dstinfo = some s) :
    refreshDstInfo env src a ctx =
      ({ ctx with dstinfo := some { s with addr := match a.record with
          | some w => if sameDst s w then w.addr else s.addr
          | none => s.addr } },
        match a with
        | .ok _ => .ok ()
        | .error msg => .error (.runtime msg)) := by
  obtain ⟨kind, fn, dst, ch, vr, ks, kr⟩ := ctx
  obtain rfl : dst = some s := hctx
  match a with
  | .error msg => rfl
  | .ok none => rfl
  | .ok (some w) =>
    simp only [refreshDstInfo, Answer.record]
    split <;> rfl

theorem survives_later (hctx : ctx.dstinfo = some s) :
    survives (refreshDstInfo env src a ctx).2 = true := by
  rw [refreshDstInfo_later hctx]
  cases a with
  | error msg => rfl
  | ok r => rfl

end Refresh

/-! ### When the layout keeps up -/

/-- After the first record `w₀`, with `addr` stored: every answer that passes `same_dst`, or carries
the stored address, describes the layout of `w₀`. -/
def Keeps (w₀ : WorkerInfo) : String → List Answer → Prop
  | _, [] => True
  | addr, a :: as => match a.record with
    | none => Keeps w₀ addr as
    | some w => (sameDst w₀ w = true ∨ addr = w.addr → w₀.layout = w.layout) ∧
        Keeps w₀ (if sameDst w₀ w then w.addr else addr) as

/-- The same from the start: nothing is asked before the first record, or if binding it ends the
process. -/
def LayoutKept (env : EnvCfg) (src : WorkerInfo) : List Answer → Prop
  | [] => True
  | a :: as => match a.record with
    | none => LayoutKept env src as
    | some w => survives (bindDst env src w { dstinfo := some w }).2 = true → Keeps w w.addr as

section Layout

variable {env : EnvCfg} {src : WorkerInfo}

/-- The stored record after a refresh that saw `w`. -/
theorem unmixed_some_iff (w₀ w : WorkerInfo) (addr : String) :
    Unmixed (some { w₀ with addr := if sameDst w₀ w then w.addr else addr }) (some w) ↔
      (sameDst w₀ w = true ∨ addr = w.addr → w₀.layout = w.layout) := by
  constructor
  · intro h hor
    refine h { w₀ with addr := if sameDst w₀ w then w.addr else addr } w rfl rfl ?_
    dsimp only
    split_ifs with hsame
    · rfl
    · exact hor.resolve_left hsame
  · rintro h s w' hs hw haddr
    cases hs
    cases hw
    refine h ?_
    dsimp only at haddr
    split_ifs at haddr with hsame
    · exact .inl hsame
    · exact .inr haddr

/-- From a stored record on. -/
theorem neverMixes_stored {w₀ : WorkerInfo} : ∀ {as : List Answer} {addr : String}
    {ctx : TaskContext} {latest : Option WorkerInfo},
    ctx.dstinfo = some { w₀ with addr := addr } → Unmixed ctx.dstinfo latest →
      (NeverMixes env src ctx latest as ↔ Keeps w₀ addr as)
  | [], _, _, _, _, _ => Iff.rfl
  | a :: as, addr, ctx, latest, hctx, hun => by
      rw [NeverMixes, Keeps, survives_later hctx, refreshDstInfo_later hctx]
      cases ha : a.record with
      | none =>
        -- nothing changed, and the latest record is the old one
        have hun' : Unmixed (some { w₀ with addr := addr }) latest := hctx ▸ hun
        refine Iff.trans ⟨fun h => h.2 rfl, fun h => ⟨fun _ => hun', fun _ => h⟩⟩ ?_
        exact neverMixes_stored rfl hun'
      | some w =>
        obtain rfl := Answer.record_eq_some.mp ha
        have hmix := unmixed_some_iff w₀ w addr
        constructor
        · rintro ⟨h1, h2⟩
          exact ⟨hmix.mp (h1 rfl), (neverMixes_stored rfl (h1 rfl)).mp (h2 rfl)⟩
        · rintro ⟨h1, h2⟩
          exact ⟨fun _ => hmix.mpr h1, fun _ => (neverMixes_stored rfl (hmix.mpr h1)).mpr h2⟩

/-- **The layout keeps up with the address exactly when the answers allow it**: every later answer
that passes `same_dst`, or carries the stored address, has the layout of the first. -/
theorem neverMixes_iff (env : EnvCfg) (src : WorkerInfo) : ∀ as : List Answer,
    NeverMixes env src {} none as ↔ LayoutKept env src as
  | [] => Iff.rfl
  | a :: as => by
      rw [NeverMixes, LayoutKept]
      cases ha : a.record with
      | none =>
        obtain ⟨msg, hstep⟩ : ∃ msg, refreshDstInfo env src a {} = ({}, .error (.runtime msg)) :=
          refreshDstInfo_none rfl ha
        rw [hstep]
        exact Iff.trans ⟨fun h => h.2 rfl, fun h => ⟨nofun, fun _ => h⟩⟩ (neverMixes_iff env src as)
      | some w =>
        rw [refreshDstInfo_first rfl ha]
        have hdst : (bindDst env src w { dstinfo := some w }).1.dstinfo = some w :=
          bindDst_dstinfo w
        have hun : Unmixed (bindDst env src w { dstinfo := some w }).1.dstinfo (some w) := by
          rintro s v hs hv -
          rw [← Option.some.inj (hs.symm.trans hdst).symm, ← Option.some.inj hv]
        constructor
        · intro h hs
          exact (neverMixes_stored hdst hun).mp (h.2 hs)
        · intro h
          exact ⟨fun _ => hun, fun hs => (neverMixes_stored hdst hun).mpr (h hs)⟩

end Layout

/-- A worker that restarts with another kernel block size: `same_dst` does not look at it, and the
new address goes with the old layout. -/
theorem restarted_not_neverMixes :
    ¬NeverMixes {} { engineTpSize := 1 } {} none
      [.ok (some { engineTpSize := 1, attnKernelBlkNtpb := 16, addr := "old" }),
        .ok (some { engineTpSize := 1, attnKernelBlkNtpb := 32, addr := "new" })] := by
  intro h
  obtain ⟨-, hsecond⟩ := h
  have hmix := (hsecond (by decide +kernel)).1 rfl
  exact absurd (hmix _ _ rfl rfl rfl) (by decide)

/-! ## Attempts -/

/-- The send path of one batch: what the naming service and the channel factory do in it, and how
the batch ends after `try_create_channel` returned. -/
structure Attempt where
  active : Bool := false
  answer : Answer
  create : Call := .ok ()
  rest : Call := .ok ()

/-- The naming service answers and the channel is made. -/
def Attempt.Completes (a : Attempt) : Prop :=
  (∃ r, a.answer = .ok r) ∧ a.create = .ok ()

/-- The context an attempt leaves to the next one: an exception drops the channel and nothing else.
`none` where the process ends — an uncaught fault, or a call of a null `parse_block`. -/
def attempt (ctx : TaskContext) (a : Attempt) : Option TaskContext :=
  match tryCreateChannel env src a.active a.answer a.create ctx with
  | (ctx, .error f) => if f.caught then some { ctx with ch := false } else none
  | (ctx, .ok ()) => match ctx.parseBlock, a.rest with
    | none, _ => none
    | some _, .ok () => some ctx
    | some _, .error _ => some { ctx with ch := false }

/-- A parse function and a known `TPKind`. -/
def TaskContext.Established (ctx : TaskContext) : Prop :=
  ctx.parseBlock ≠ none ∧ ctx.tpkind ≠ .unknown

/-- **Every `try_create_channel` of the run that returns has established the dispatch.** -/
def AlwaysEstablished (env : EnvCfg) (src : WorkerInfo) : TaskContext → List Attempt → Prop
  | _, [] => True
  | ctx, a :: as =>
    let next := tryCreateChannel env src a.active a.answer a.create ctx
    (next.2 = .ok () → next.1.Established) ∧
      ∀ ctx', attempt env src ctx a = some ctx' → AlwaysEstablished env src ctx' as

/-- A destination that is stored and cannot be bound, by the shape, the TP sizes and the head count: no
assertion fails, but a rank to be set is beyond the set, or the shape has no function for the sizes. -/
def Unbound (src dst : WorkerInfo) : Prop :=
  let ranks := rankStride src.engineTpSize dst.engineTpSize src.numKvHeads
  (env.ndebug = true ∨ RanksAsserted src.engineTpSize dst.engineTpSize src.numKvHeads) ∧
    ¬((∀ i < ranks.1, i * ranks.2 < maxTpSize) ∧
      Supported env.cacheShape src.engineTpSize dst.engineTpSize)

/-- No attempt completes after a destination was left unbound. -/
def DispatchHolds (env : EnvCfg) (src : WorkerInfo) : List Attempt → Prop
  | [] => True
  | a :: as => match a.answer.record with
    | none => DispatchHolds env src as
    | some w => Unbound env src w → ∀ b ∈ as, ¬b.Completes

section Attempts

variable {env : EnvCfg} {src : WorkerInfo} {ctx ctx' : TaskContext}

variable {dst : WorkerInfo} {f : Fault} {a : Attempt}

/-- Binding that throws leaves no parse function behind. -/
theorem bindDst_parseBlock_of_error (h : (bindDst env src dst ctx).2 = .error f) :
    (bindDst env src dst ctx).1.parseBlock = ctx.parseBlock := by
  unfold bindDst at h ⊢
  split at h
  · rfl
  · dsimp only at h ⊢
    split at h
    · rfl
    · cases h

/-- **Binding that returns establishes the dispatch.** -/
theorem bindDst_established (h : (bindDst env src dst ctx).2 = .ok ()) :
    (bindDst env src dst ctx).1.Established := by
  unfold bindDst at h ⊢
  split at h
  · cases h
  · dsimp only at h ⊢
    rcases selectParseBlock_cases env.cacheShape src dst (Bitset.count ‹_›) with
      ⟨-, fn, kind, hsel, hkind⟩ | ⟨-, hsel⟩
    · rw [hsel]
      exact ⟨nofun, hkind⟩
    · rw [hsel] at h
      cases h

/-- The shapes that look at the number of senders find it as the engine's TP size: below that of the
destination, or not. -/
theorem supported_iff {V : BitVec maxTpSize} (shape : CacheShape) (hV : computeValidRanksPd env.ndebug
      src.engineTpSize dst.engineTpSize src.numKvHeads = .ok V) :
    Supported shape (selectionPTp shape src (Bitset.count V)) dst.engineTpSize ↔
      Supported shape src.engineTpSize dst.engineTpSize := by
  rw [count_of_computeValidRanksPd hV]
  cases shape with
  | flash | flashinfer | turboquant =>
    simp only [Supported, selectionPTp, rankStride]
    split_ifs <;> dsimp only <;> omega
  | _ => rfl

/-- **Those are the destinations whose binding throws an exception that the batch catches.** -/
theorem unbound_iff : Unbound env src dst ↔
    ∃ f, (bindDst env src dst { dstinfo := some dst }).2 = .error f ∧ f.caught = true := by
  rw [Unbound, bindDst]
  rcases computeValidRanksPd_cases env.ndebug src.engineTpSize dst.engineTpSize src.numKvHeads with
    ⟨hassert, hV⟩ | ⟨hassert, hV⟩
  · by_cases hfit : ∀ i < (rankStride src.engineTpSize dst.engineTpSize src.numKvHeads).1,
        i * (rankStride src.engineTpSize dst.engineTpSize src.numKvHeads).2 < maxTpSize
    · obtain ⟨V, hset, -⟩ := setRanks_ok hfit
      have hsup := supported_iff env.cacheShape (hV.trans hset)
      rw [hV.trans hset]
      dsimp only
      rcases selectParseBlock_cases env.cacheShape src dst (Bitset.count V) with
        ⟨hyes, fn, kind, hsel, -⟩ | ⟨hno, hsel⟩
      · rw [hsel]
        exact ⟨fun h => absurd ⟨hfit, hsup.mp hyes⟩ h.2, fun ⟨_, hf, _⟩ => absurd hf nofun⟩
      · rw [hsel]
        exact ⟨fun _ => ⟨_, rfl, rfl⟩, fun _ => ⟨hassert, fun h => hno (hsup.mpr h.2)⟩⟩
    · rw [hV, (setRanks_cases _ _).resolve_left hfit]
      exact ⟨fun _ => ⟨_, rfl, rfl⟩, fun _ => ⟨hassert, fun h => hfit h.1⟩⟩
  · rw [hV]
    refine ⟨fun h => absurd h.1 hassert, fun ⟨f, hf, hc⟩ => ?_⟩
    cases hf
    cases hc

/-- Without a channel, what the refresh throws is thrown. -/
theorem tryCreateChannel_of_error (hch : ctx.ch = false)
    (h : refreshDstInfo env src a.answer ctx = (ctx', .error f)) :
    tryCreateChannel env src a.active a.answer a.create ctx = (ctx', .error f) := by
  simp only [tryCreateChannel, hch, h, Bool.false_and, Bool.false_eq_true, if_false]

/-- …and what it leaves is kept, up to the channel. -/
theorem tryCreateChannel_of_ok (hch : ctx.ch = false)
    (h : refreshDstInfo env src a.answer ctx = (ctx', .ok ())) :
    ∃ ch, (tryCreateChannel env src a.active a.answer a.create ctx).1 = { ctx' with ch := ch } := by
  simp only [tryCreateChannel, hch, h, Bool.false_and, Bool.false_eq_true, if_false]
  split
  · exact ⟨ctx'.ch, rfl⟩
  · exact ⟨true, rfl⟩

/-- With a record stored, an attempt to get a channel changes the address and the channel only. -/
theorem tryCreateChannel_later (env : EnvCfg) (src : WorkerInfo) (a : Attempt)
    (hctx : ctx.dstinfo = some s) :
    ∃ addr ch, (tryCreateChannel env src a.active a.answer a.create ctx).1 =
      { ctx with dstinfo := some { s with addr := addr }, ch := ch } := by
  unfold tryCreateChannel
  split
  · refine ⟨s.addr, ctx.ch, ?_⟩
    rw [← hctx]
  · rw [refreshDstInfo_later hctx]
    obtain ⟨active, answer, create, rest⟩ := a
    match answer, create with
    | .error msg, _ => exact ⟨s.addr, ctx.ch, rfl⟩
    | .ok r, .error msg => exact ⟨_, ctx.ch, rfl⟩
    | .ok r, .ok () => exact ⟨_, true, rfl⟩

/-- …and without a channel it returns exactly when the attempt completes. -/
theorem tryCreateChannel_completes (env : EnvCfg) (src : WorkerInfo) (a : Attempt)
    (hctx : ctx.dstinfo = some s) (hch : ctx.ch = false) :
    (a.Completes ∧ (tryCreateChannel env src a.active a.answer a.create ctx).2 = .ok ()) ∨
    (¬a.Completes ∧ ∃ msg,
      (tryCreateChannel env src a.active a.answer a.create ctx).2 = .error (.runtime msg)) := by
  rw [tryCreateChannel, hch, refreshDstInfo_later hctx]
  obtain ⟨active, answer, create, rest⟩ := a
  match answer, create with
  | .error msg, _ => exact .inr ⟨fun ⟨⟨_, h⟩, _⟩ => absurd h nofun, msg, rfl⟩
  | .ok r, .error msg => exact .inr ⟨fun ⟨_, h⟩ => absurd h nofun, msg, rfl⟩
  | .ok r, .ok () => exact .inl ⟨⟨⟨r, rfl⟩, rfl⟩, rfl⟩

/-- What an attempt leaves is what `try_create_channel` left, up to the channel. -/
theorem attempt_eq_some (h : attempt env src ctx a = some ctx') :
    ∃ ch, ctx' = { (tryCreateChannel env src a.active a.answer a.create ctx).1 with ch := ch } := by
  unfold attempt at h
  split at h
  next c f heq =>
    split at h
    · exact ⟨false, by rw [heq]; exact (Option.some.inj h).symm⟩
    · cases h
  next c heq =>
    rw [heq]
    split at h
    · cases h
    · exact ⟨c.ch, (Option.some.inj h).symm⟩
    · exact ⟨false, (Option.some.inj h).symm⟩

theorem attempt_of_error
    (h : (tryCreateChannel env src a.active a.answer a.create ctx).2 = .error f)
    (hf : f.caught = true) : attempt env src ctx a =
      some { (tryCreateChannel env src a.active a.answer a.create ctx).1 with ch := false } := by
  unfold attempt
  split
  next c g heq =>
    rw [heq] at h ⊢
    rw [if_pos (Except.error.inj h ▸ hf)]
  next c heq =>
    rw [heq] at h
    cases h

/-- After an exception that is caught, the run goes on without a channel. -/
theorem alwaysEstablished_of_caught {c : TaskContext} {as : List Attempt}
    (h : tryCreateChannel env src a.active a.answer a.create ctx = (c, .error f))
    (hf : f.caught = true) :
    AlwaysEstablished env src ctx (a :: as) ↔ AlwaysEstablished env src { c with ch := false } as := by
  rw [AlwaysEstablished, attempt_of_error (congrArg Prod.snd h) hf, h]
  exact ⟨fun h => h.2 _ rfl, fun h => ⟨nofun, fun _ hsome => Option.some.inj hsome ▸ h⟩⟩

/-- **Once established, always established.** -/
theorem alwaysEstablished_of_established : ∀ {as : List Attempt} {ctx : TaskContext}
    {s : WorkerInfo}, ctx.dstinfo = some s → ctx.Established → AlwaysEstablished env src ctx as
  | [], _, _, _, _ => trivial
  | a :: as, ctx, s, hctx, hest => by
      obtain ⟨addr, ch, hnext⟩ := tryCreateChannel_later env src a hctx
      refine ⟨fun _ => ?_, fun ctx' hsome => ?_⟩
      · rw [hnext]
        exact hest
      · obtain ⟨ch', rfl⟩ := attempt_eq_some hsome
        rw [hnext]
        exact alwaysEstablished_of_established rfl hest

/-- **Unbound, the context waits for the first attempt that completes.** -/
theorem alwaysEstablished_of_unbound : ∀ {as : List Attempt} {ctx : TaskContext} {s : WorkerInfo},
    ctx.dstinfo = some s → ctx.ch = false → ctx.parseBlock = none →
      (AlwaysEstablished env src ctx as ↔ ∀ b ∈ as, ¬b.Completes)
  | [], _, _, _, _, _ => ⟨fun _ => nofun, fun _ => trivial⟩
  | a :: as, ctx, s, hctx, hch, hfn => by
      obtain ⟨addr, ch, hnext⟩ := tryCreateChannel_later env src a hctx
      rw [List.forall_mem_cons]
      rcases tryCreateChannel_completes env src a hctx hch with ⟨hc, hok⟩ | ⟨hc, msg, herr⟩
      · -- the channel is there, and no parse function with it
        refine ⟨fun h => absurd hfn ?_, fun h => absurd hc h.1⟩
        have hest := (h.1 hok).1
        rwa [hnext] at hest
      · rw [alwaysEstablished_of_caught (Prod.ext hnext herr) rfl, and_iff_right hc]
        exact alwaysEstablished_of_unbound rfl rfl hfn

section First

variable {a : Attempt} {as : List Attempt} {w : WorkerInfo} {c : TaskContext}

/-- A first record that is bound establishes the dispatch for good. -/
theorem alwaysEstablished_of_bound (ha : a.answer.record = some w)
    (hbind : bindDst env src w { dstinfo := some w } = (c, .ok ())) :
    AlwaysEstablished env src {} (a :: as) := by
  have hdst : c.dstinfo = some w := (congrArg (·.1.dstinfo) hbind).symm.trans (bindDst_dstinfo w)
  have hest : c.Established := by
    have h := bindDst_established (congrArg Prod.snd hbind)
    rwa [hbind] at h
  have hrefresh : refreshDstInfo env src a.answer {} = (c, .ok ()) :=
    (refreshDstInfo_first rfl ha).trans hbind
  obtain ⟨ch, hnext⟩ := tryCreateChannel_of_ok rfl hrefresh
  refine ⟨fun _ => ?_, fun ctx' hsome => ?_⟩
  · rw [hnext]
    exact hest
  · obtain ⟨ch', rfl⟩ := attempt_eq_some hsome
    rw [hnext]
    exact alwaysEstablished_of_established hdst hest

/-- A first record that is not leaves the context to the attempts after it. -/
theorem alwaysEstablished_of_thrown {f : Fault} (ha : a.answer.record = some w)
    (hbind : bindDst env src w { dstinfo := some w } = (c, .error f)) :
    AlwaysEstablished env src {} (a :: as) ↔ (f.caught = true → ∀ b ∈ as, ¬b.Completes) := by
  have hdst : c.dstinfo = some w := (congrArg (·.1.dstinfo) hbind).symm.trans (bindDst_dstinfo w)
  have hfn : c.parseBlock = none := by
    have h := bindDst_parseBlock_of_error (congrArg Prod.snd hbind)
    rwa [hbind] at h
  have hrefresh : refreshDstInfo env src a.answer {} = (c, .error f) :=
    (refreshDstInfo_first rfl ha).trans hbind
  have hnext := tryCreateChannel_of_error rfl hrefresh
  by_cases hf : f.caught = true
  · rw [alwaysEstablished_of_caught hnext hf, forall_prop_of_true hf]
    exact alwaysEstablished_of_unbound hdst rfl hfn
  · -- the process ended
    rw [AlwaysEstablished, attempt, hnext]
    dsimp only
    rw [if_neg hf]
    refine ⟨fun _ h => absurd h hf, fun _ => ⟨nofun, fun _ h => ?_⟩⟩
    exact absurd h.symm (Option.some_ne_none _)

end First

/-- **The dispatch is established whenever a channel is returned, exactly when** no attempt
completes after the first record was stored and could not be bound. -/
theorem alwaysEstablished_iff (env : EnvCfg) (src : WorkerInfo) : ∀ as : List Attempt,
    AlwaysEstablished env src {} as ↔ DispatchHolds env src as
  | [] => Iff.rfl
  | a :: as => by
      rw [DispatchHolds]
      cases ha : a.answer.record with
      | none =>
        obtain ⟨msg, hstep⟩ :
            ∃ msg, refreshDstInfo env src a.answer {} = ({}, .error (.runtime msg)) :=
          refreshDstInfo_none rfl ha
        rw [alwaysEstablished_of_caught (tryCreateChannel_of_error rfl hstep) rfl]
        exact alwaysEstablished_iff env src as
      | some w =>
        dsimp only
        rw [unbound_iff]
        rcases hbind : bindDst env src w { dstinfo := some w } with ⟨c, r⟩
        cases r with
        | ok u =>
          exact ⟨fun _ ⟨_, hf, _⟩ => absurd hf nofun, fun _ => alwaysEstablished_of_bound ha hbind⟩
        | error f =>
          refine (alwaysEstablished_of_thrown ha hbind).trans (imp_congr_left ?_)
          exact ⟨fun hc => ⟨f, rfl, hc⟩, fun ⟨g, hg, hc⟩ => Except.error.inj hg ▸ hc⟩

end Attempts

/-- `FLASH_CACHE_SHAPE` from one rank to two: the second attempt finds the record stored, gets its
channel and calls a null pointer. -/
theorem flash_fanout_not_alwaysEstablished :
    ¬AlwaysEstablished { cacheShape := .flash } { engineTpSize := 1 } {}
      [{ answer := .ok (some { engineTpSize := 2 }) },
        { answer := .ok (some { engineTpSize := 2 }) }] := by
  intro h
  obtain ⟨-, hsecond⟩ := h
  have hfirst : attempt { cacheShape := .flash } { engineTpSize := 1 } {}
      { answer := .ok (some { engineTpSize := 2 }) } =
      some { dstinfo := some { engineTpSize := 2 }, validRanks := 1, kvtTpSize := 1 } := by
    decide +kernel
  exact absurd ((hsecond _ hfirst).1 (by decide +kernel)).1 (by decide +kernel)

/-! ## The parse function a destination is bound to -/

/-- The functions themselves. -/
def ParseFn.func : ParseFn → EnvCfg → ParseBlockFunc
  | parseBlockSendPEqD => LlumnixKv.parseBlockSendPEqD
  | parseBlockSendPGtDDpsk => LlumnixKv.parseBlockSendPGtDDpsk
  | parseBlockSendPGtD => LlumnixKv.parseBlockSendPGtD
  | parseBlockSendPLtD => LlumnixKv.parseBlockSendPLtD
  | vllmParseBlockSendPEqD => LlumnixKv.vllmParseBlockSendPEqD
  | vllmParseBlockSendPGtD => LlumnixKv.vllmParseBlockSendPGtD
  | vllmParseHybridBlockSendPEqDBlockAligned =>
    LlumnixKv.vllmParseHybridBlockSendPEqDBlockAligned
  | vllmParseHybridBlockSendPGtD => LlumnixKv.vllmParseHybridBlockSendPGtD
  | vllmParseHybridBlockSendPLtD => LlumnixKv.vllmParseHybridBlockSendPLtD
  | vllmParseBlockSendMultiTensorPEqD => LlumnixKv.vllmParseBlockSendMultiTensorPEqD
  | vllmParseBlockSendMultiTensorPGtD => LlumnixKv.vllmParseBlockSendMultiTensorPGtD
  | vllmParseBlockSendMultiTensorPLtD => LlumnixKv.vllmParseBlockSendMultiTensorPLtD
  | vllmParseFlashinferBlockSendPEqD => LlumnixKv.vllmParseFlashinferBlockSendPEqD
  | vllmParseFlashinferBlockSendPGtD => LlumnixKv.vllmParseFlashinferBlockSendPGtD
  | vllmParseQwen3NextFlashinferBlockSendPEqD =>
    LlumnixKv.vllmParseQwen3NextFlashinferBlockSendPEqD
  | vllmParseQwen3NextFlashinferBlockSendPGtD =>
    LlumnixKv.vllmParseQwen3NextFlashinferBlockSendPGtD
  | vllmParseQwen3NextFlashinferBlockSendPLtD =>
    LlumnixKv.vllmParseQwen3NextFlashinferBlockSendPLtD
  | parseKimiK3MlaBlockSendPEqD => LlumnixKv.parseKimiK3MlaBlockSendPEqD
  | parseKimiK3MlaBlockSendPGtD => LlumnixKv.parseKimiK3MlaBlockSendPGtD
  | parseKimiK3MlaBlockSendPLtD => LlumnixKv.parseKimiK3MlaBlockSendPLtD
  | turboquantParseBlockSendPEqD => LlumnixKv.turboquantParseBlockSendPEqD
  | turboquantParseBlockSendPGtD => LlumnixKv.turboquantParseBlockSendPGtD

/-- A task parsed for a destination just bound. -/
def boundParse (src dst : WorkerInfo) (task : ReqSendTask) : Except Fault (List (List IpcBlock)) :=
  match bindDst env src dst { dstinfo := some dst } with
  | (_, .error f) => .error f
  | (ctx, .ok ()) => match ctx.parseBlock with
    | none => .error .undefined
    | some fn => fn.func env src dst ctx.validRanks ctx.kvtTpSize ctx.kvtTpRank task

/-- **The selection and the dispatch say which function runs, and with what.** -/
theorem boundParse_eq {env : EnvCfg} {src dst : WorkerInfo} {V : BitVec maxTpSize} {fn : ParseFn}
    {kind : TPKind} (task : ReqSendTask)
    (hV : computeValidRanksPd env.ndebug src.engineTpSize dst.engineTpSize src.numKvHeads = .ok V)
    (hfn : selectParseBlock env.cacheShape src dst (Bitset.count V) = .ok (fn, kind)) :
    boundParse env src dst task =
      fn.func env src dst V (Bitset.count V) (kvtTpRank V src.workerTpRank) task := by
  simp only [boundParse, bindDst, hV, hfn]

end LlumnixKv
