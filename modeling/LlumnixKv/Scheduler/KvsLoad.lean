import LlumnixKv.Scheduler.FiresOnce

/-!
# Scheduler/KvsLoad — what a load from the store adds to a request

    0 ───────────── c ──────┬──────┬──────┬── … ── prompt
      computed here    block   block   block
                       rank 0  ✓      ✓      ✗        2 blocks
                       rank 1  ✓      ✓      ✓        3 blocks        2 of them count

The scheduler asks the store for the blocks after the local prefix and has every worker load those
that all ranks have (`mooncake_kvsbackend.py`).  A worker reports the blocks it got up to the first
failure, less one token if they would fill the prompt; the least report counts (`merge`).
-/

open List Machinery

namespace LlumnixKv

/-! ## The backend -/

/-- What the backend reads of its configuration. -/
structure KvsConfig where
  blockSize : ℕ
  tpSize : ℕ
  /-- `load_bytes_on_success` -/
  loadBytesOnSuccess : ℤ
  disableLoad : Bool := false
  /-- `VLLM_KVS_ON_MIN_LENGTH` -/
  onMinLength : ℤ := 0
  one_lt : 1 < blockSize
  tp_pos : 0 < tpSize

/-- A request as it is added: it has no output yet, so its tokens are those of the prompt, and it
has a hash for each block they fill. -/
structure KvsReq (cfg : KvsConfig) where
  requestId : String
  numPromptTokens : ℕ
  /-- in hex -/
  blockHashes : List String
  numComputedTokens : ℕ
  hashed : blockHashes.length = numPromptTokens / cfg.blockSize
  aligned : cfg.blockSize ∣ numComputedTokens
  below : numComputedTokens < numPromptTokens

/-- `ReqMeta` of a load; of the prompt only its length is read. -/
structure KvsLoadMeta where
  requestId : String
  numTokens : ℕ
  blockIds : List ℕ
  blockHashes : List String
  numCachedTokensLocal : ℕ

namespace KvsReq

variable {cfg : KvsConfig} (req : KvsReq cfg)

/-- `should_load`. -/
def shouldLoad : Bool :=
  !cfg.disableLoad && !decide (req.numPromptTokens ≤ cfg.onMinLength + 1)

/-- `num_computed_blocks`. -/
def numComputedBlocks : ℕ := req.numComputedTokens / cfg.blockSize

/-- `async_get_num_new_matched_tokens`; `isExist` is what the store answers for a key.  The
assertion on `num_computed_tokens` is `aligned`. -/
def getNumNewMatchedTokens (isExist : String → ℤ) : ℕ :=
  if !req.shouldLoad || decide (req.numPromptTokens - req.numComputedTokens < cfg.blockSize) then 0
  else
    let numUncomputedBlocks := (req.numPromptTokens - req.numComputedTokens) / cfg.blockSize
    let hashes := (req.blockHashes.drop req.numComputedBlocks).take numUncomputedBlocks
    let keys := hashes.flatMap fun hash =>
      (List.range cfg.tpSize).map fun i => hash ++ "_" ++ toString i
    let ret := keys.map isExist
    -- `break` at the first block that some rank does not have
    let matched := (List.range' 0 ((ret.length + cfg.tpSize - 1) / cfg.tpSize) cfg.tpSize).takeWhile
      fun i => ((ret.drop i).take cfg.tpSize).all (· == 1)
    matched.length * cfg.blockSize

/-- `block_num` of `async_update_state_after_alloc`. -/
def blockNum : ℕ :=
  (req.numPromptTokens - 1 + cfg.blockSize - 1) / cfg.blockSize

/-- `async_update_state_after_alloc`: what it appends to `metas_to_recv`, or `none` at the assertion
that the request has its blocks. -/
def updateStateAfterAlloc (blockIds : List ℕ) (numExternalTokens : ℕ) : Option (List KvsLoadMeta) :=
  if numExternalTokens = 0 then some []
  else if (blockIds.take req.blockNum).length ≠ req.blockNum then none
  else
    let numMatchedBlocks := numExternalTokens / cfg.blockSize
    some [{
      requestId := req.requestId
      numTokens := req.numPromptTokens
      blockIds := ((blockIds.take req.blockNum).drop req.numComputedBlocks).take numMatchedBlocks
      blockHashes :=
        ((req.blockHashes.take req.blockNum).drop req.numComputedBlocks).take numMatchedBlocks
      numCachedTokensLocal := req.numComputedTokens }]

end KvsReq

variable (cfg : KvsConfig) {blockIds : List ℕ}

/-- `num_loaded_token`, of the bytes got for each block. -/
def numLoadedToken (m : KvsLoadMeta) (results : List ℤ) : ℤ :=
  let numLoadedBlock := (results.takeWhile (· == cfg.loadBytesOnSuccess)).length
  let loaded : ℤ := min (numLoadedBlock * cfg.blockSize) m.numTokens
  if loaded + m.numCachedTokensLocal = m.numTokens then loaded - 1 else loaded

/-- `async_load_kv` on a worker; `got k (id, hash)` is the number of bytes the store put into block
`id` for the `k`th load. -/
def asyncLoadKv (m : KvsLoadMeta) (got : ℕ → ℕ × String → ℤ) : Option IoRet :=
  if m.blockHashes.length ≠ m.blockIds.length then none
  else if m.blockIds.length = 0 then some { reqid := some m.requestId, n := some 0 }
  else some {
    reqid := some m.requestId
    n := some (numLoadedToken cfg m ((m.blockIds.zip m.blockHashes).mapIdx got)) }

/-- `_do_load_done`, for the workers' results in the order they come: what `mark_loaded` is given.
-/
def doLoadDone (tpSize : ℕ) : IoState → List (ℕ × IoRet) → Option IoRet
  | _, [] => none
  | st, x :: hist =>
    match (st.tryAdvance x.2 x.1 tpSize).2 with
    | .done => (st.tryAdvance x.2 x.1 tpSize).1.merge
    | _ => doLoadDone tpSize (st.tryAdvance x.2 x.1 tpSize).1 hist

/-- The load of a request, from `_on_add_req` to `_step_loaded`: its computed tokens after it. -/
def KvsReq.load {cfg : KvsConfig} (req : KvsReq cfg) (blockIds : List ℕ) (isExist : String → ℤ)
    (got : ℕ → ℕ → ℕ × String → ℤ) (order : List ℕ) : Option ℤ := do
  let metas ← req.updateStateAfterAlloc blockIds (req.getNumNewMatchedTokens isExist)
  match metas with
  | [] => return req.numComputedTokens
  | m :: _ =>
    let hist ← order.mapM fun rank => (asyncLoadKv cfg m (got rank)).map (Prod.mk rank)
    let ioret ← doLoadDone cfg.tpSize {} hist
    return req.numComputedTokens + ioret.n.getD 0

/-! ## The least report -/

namespace IoState

variable {tpSize : ℕ} {st : IoState} {done : List (ℕ × IoRet)}

/-- One signal of a rank that has not signalled yet is kept. -/
theorem Tallies.flatten_step (h : Tallies {} tpSize done st)
    (hflat : st.workerSignals.values.flatten.Perm (done.map Prod.snd)) {x : ℕ × IoRet}
    (hx : x.1 ∉ done.map Prod.fst) :
    (st.tryAdvance x.2 x.1 tpSize).1.workerSignals.values.flatten.Perm
      ((done ++ [x]).map Prod.snd) := by
  have hlen : (st.signals x.1).length = 0 := by
    rw [h.length rfl, countP_eq_zero.mpr (by grind)]
    rfl
  have hdrops : st.drops (st.signals x.1) x.2 = false := by
    rw [drops_of_count h.sources, h.perWorker, hlen]
    rfl
  rw [tryAdvance_of_not_drops hdrops, map_append]
  exact (flatten_file_perm st x.1 x.2).trans
    ((hflat.cons _).trans (perm_append_singleton _ _).symm)

theorem awaited_iff {hist : List (ℕ × IoRet)} :
    Awaited {} tpSize hist ↔ ∀ rank < tpSize, rank ∈ hist.map Prod.fst := by
  refine forall₂_congr fun rank _ => ?_
  rw [if_pos rfl, Nat.one_le_iff_ne_zero, ← Nat.pos_iff_ne_zero, countP_pos_iff, mem_map]
  simp only [decide_eq_true_eq]

/-- **The last rank to signal brings the merge of all of them.** -/
theorem Tallies.doLoadDone : ∀ {hist : List (ℕ × IoRet)} {done : List (ℕ × IoRet)} {st : IoState},
    Tallies {} tpSize done st →
    st.workerSignals.values.flatten.Perm (done.map Prod.snd) →
    ((done ++ hist).map Prod.fst).Perm (List.range tpSize) → hist ≠ [] →
    ∃ merged, doLoadDone tpSize st hist = some merged ∧
      merged.Merges ((done ++ hist).map Prod.snd)
  | [], _, _, _, _, _, hne => absurd rfl hne
  | x :: hist, done, st, h, hflat, hperm, _ => by
      have hnodup := hperm.nodup_iff.mpr nodup_range
      have hmem : ∀ rank, rank < tpSize ↔ rank ∈ (done ++ x :: hist).map Prod.fst := fun rank =>
        mem_range.symm.trans hperm.mem_iff.symm
      have hrank : x.1 < tpSize := (hmem x.1).mpr (by simp)
      have hfresh : x.1 ∉ done.map Prod.fst := by grind
      have hstep := h.step x.2 hrank
      have hflat' := h.flatten_step hflat hfresh
      have hdone := h.done_iff x.2 hrank
      rw [awaited_iff, awaited_iff] at hdone
      rw [LlumnixKv.doLoadDone]
      cases hist with
      | nil =>
        have hall : (st.tryAdvance x.2 x.1 tpSize).2 = .done :=
          hdone.mpr ⟨fun rank hlt => (hmem rank).mp hlt, fun hnot => hfresh (hnot x.1 hrank)⟩
        have hready := hstep.allReady_iff.mpr (awaited_iff.mpr fun rank hlt => (hmem rank).mp hlt)
        obtain ⟨ret, rest, hmerge, hflatten⟩ := exists_merge
          (hready.le_length hstep.sources hstep.below) fun hnil => by simp [hnil] at hflat'
        rw [hall]
        exact ⟨_, hmerge, (merges_mergeLoop ret rest).perm (hflatten ▸ hflat')⟩
      | cons y hist =>
        -- `y` is awaited still
        have hpending : (st.tryAdvance x.2 x.1 tpSize).2 ≠ .done := fun heq => by
          have hy := (hdone.mp heq).1 y.1 ((hmem y.1).mpr (by simp))
          grind
        rw [append_cons] at hperm ⊢
        split
        · next heq => exact absurd heq hpending
        · exact Tallies.doLoadDone hstep hflat' hperm (cons_ne_nil y hist)

end IoState

/-- **The least report counts**, in whatever order the ranks report. -/
theorem exists_least {tpSize : ℕ} (htp : 0 < tpSize) {order : List ℕ}
    (horder : order.Perm (List.range tpSize)) {ioret : ℕ → IoRet}
    (hplain : ∀ rank, (ioret rank).ex = none ∧ ∃ b, (ioret rank).n = some b) :
    ∃ merged n, doLoadDone tpSize {} (order.map fun rank => (rank, ioret rank)) = some merged ∧
      merged.n = some n ∧
      ∀ b, b ≤ n ↔ ∀ rank < tpSize, ∀ c, (ioret rank).n = some c → b ≤ c := by
  have hne : order ≠ [] := by
    rintro rfl
    exact absurd horder.length_eq (by simp [htp.ne])
  have hranks : ((order.map fun rank => (rank, ioret rank)).map Prod.fst).Perm
      (List.range tpSize) := by
    rw [map_map]
    simpa [Function.comp_def] using horder
  obtain ⟨merged, hdone, hmerges⟩ :=
    (IoState.Tallies.refl rfl tpSize).doLoadDone .nil hranks (by simpa using hne)
  have hmem : ∀ wio, wio ∈ ([] ++ order.map fun rank => (rank, ioret rank)).map Prod.snd ↔
      ∃ rank < tpSize, ioret rank = wio := fun wio => by simp [horder.mem_iff]
  obtain ⟨n, hn, hle⟩ := hmerges.exists_n
    (hmerges.ex.mpr fun wio hwio => by
      obtain ⟨rank, -, rfl⟩ := (hmem wio).mp hwio
      exact (hplain rank).1)
    fun wio hwio hnone => by
      obtain ⟨rank, -, rfl⟩ := (hmem wio).mp hwio
      obtain ⟨b, hb⟩ := (hplain rank).2
      cases hb.symm.trans hnone
  refine ⟨merged, n, hdone, hn, fun b => (hle b).trans ?_⟩
  simp [horder.mem_iff]

/-! ## What a worker reports -/

namespace KvsReq

variable {cfg : KvsConfig} (req : KvsReq cfg)

/-- Whole blocks match, and no more than the prompt has after the prefix. -/
theorem exists_matched (isExist : String → ℤ) : ∃ m,
    req.getNumNewMatchedTokens isExist = m * cfg.blockSize ∧
    m ≤ (req.numPromptTokens - req.numComputedTokens) / cfg.blockSize := by
  unfold getNumNewMatchedTokens
  split
  · exact ⟨0, (Nat.zero_mul _).symm, Nat.zero_le _⟩
  · refine ⟨_, rfl, (takeWhile_sublist _).length_le.trans ?_⟩
    have hgroups : ∀ n, (n * cfg.tpSize + cfg.tpSize - 1) / cfg.tpSize ≤ n := fun n =>
      Nat.le_of_lt_succ ((Nat.div_lt_iff_lt_mul cfg.tp_pos).mpr (by
        have := cfg.tp_pos
        rw [Nat.succ_mul]
        omega))
    simp only [length_range', length_map, length_flatMap, length_range,
      map_const', sum_replicate_nat]
    exact (hgroups _).trans (length_take_le _ _)

/-- The prompt's full blocks are among `block_num`. -/
theorem div_le_blockNum : req.numPromptTokens / cfg.blockSize ≤ req.blockNum :=
  Nat.div_le_div_right (by have := cfg.one_lt; have := req.below; omega)

omit req in
/-- A slice of the first `n` entries that ends among them has its length and its entries. -/
theorem getElem?_slice {α : Type*} {l : List α} {n c m : ℕ} (hl : c + m ≤ l.length)
    (hn : c + m ≤ n) :
    (((l.take n).drop c).take m).length = m ∧
      ∀ k < m, (((l.take n).drop c).take m)[k]? = l[c + k]? := by
  refine ⟨?_, fun k hk => ?_⟩
  · rw [length_take, length_drop, length_take]
    omega
  · rw [getElem?_take_of_lt hk, getElem?_drop, getElem?_take_of_lt (by omega)]

/-- The blocks of a load are those after the prefix, each with its hash, and there are as many as
match. -/
theorem updateStateAfterAlloc_eq {m : ℕ} {metas : List KvsLoadMeta}
    (hm : m ≤ (req.numPromptTokens - req.numComputedTokens) / cfg.blockSize)
    (h : req.updateStateAfterAlloc blockIds (m * cfg.blockSize) = some metas) :
    metas = [] ∨ ∃ load, metas = [load] ∧ load.numTokens = req.numPromptTokens ∧
      load.numCachedTokensLocal = req.numComputedTokens ∧ load.blockIds.length = m ∧
      load.blockHashes.length = m ∧ ∀ k < m,
        load.blockIds[k]? = blockIds[req.numComputedBlocks + k]? ∧
        load.blockHashes[k]? = req.blockHashes[req.numComputedBlocks + k]? := by
  have hbs : 0 < cfg.blockSize := Nat.zero_lt_of_lt cfg.one_lt
  have hq : req.numComputedBlocks + m ≤ req.numPromptTokens / cfg.blockSize := by
    obtain ⟨q, hq⟩ := req.aligned
    have hbelow := req.below
    rw [Nat.le_div_iff_mul_le hbs] at hm
    rw [numComputedBlocks, hq, Nat.mul_div_cancel_left q hbs, Nat.le_div_iff_mul_le hbs,
      add_mul, mul_comm q, ← hq]
    omega
  have hnum := req.div_le_blockNum
  have hhashed := req.hashed
  unfold updateStateAfterAlloc at h
  rw [Nat.mul_div_cancel m hbs] at h
  split at h
  · exact .inl (Option.some.inj h).symm
  · split at h
    · cases h
    · next hlen =>
      have hfits : req.numComputedBlocks + m ≤ req.blockNum := hq.trans hnum
      have hids : req.numComputedBlocks + m ≤ blockIds.length := by
        rw [not_not, length_take] at hlen
        omega
      obtain ⟨hidsLen, hidsAt⟩ := getElem?_slice hids hfits
      obtain ⟨hhashesLen, hhashesAt⟩ := getElem?_slice (hhashed ▸ hq) hfits
      exact .inr ⟨_, (Option.some.inj h).symm, rfl, rfl, hidsLen, hhashesLen,
        fun k hk => ⟨hidsAt k hk, hhashesAt k hk⟩⟩

end KvsReq

/-- A report is within the prompt, less one token, and within the blocks got before a failure. -/
theorem numLoadedToken_bounds (m : KvsLoadMeta) (results : List ℤ)
    (hlt : m.numCachedTokensLocal < m.numTokens)
    (hfit : m.numCachedTokensLocal + results.length * cfg.blockSize ≤ m.numTokens) :
    0 ≤ numLoadedToken cfg m results ∧
    m.numCachedTokensLocal + numLoadedToken cfg m results ≤ m.numTokens - 1 ∧
    numLoadedToken cfg m results ≤
      (results.takeWhile (· == cfg.loadBytesOnSuccess)).length * cfg.blockSize := by
  have hlen : (results.takeWhile (· == cfg.loadBytesOnSuccess)).length * cfg.blockSize ≤
      results.length * cfg.blockSize :=
    Nat.mul_le_mul_right _ (takeWhile_sublist _).length_le
  rw [numLoadedToken]
  rw [← Nat.cast_mul]
  split <;> omega

/-- What counts was got. -/
theorem eq_of_lt_takeWhile {success : ℤ} : ∀ {results : List ℤ} {k : ℕ},
    k < (results.takeWhile (· == success)).length → results[k]? = some success
  | [], k, h => by simp at h
  | a :: results, k, h => by
      rw [takeWhile_cons] at h
      split at h
      · next ha =>
        cases k with
        | zero => rw [getElem?_cons_zero, eq_of_beq ha]
        | succ k =>
          rw [getElem?_cons_succ]
          exact eq_of_lt_takeWhile (Nat.lt_of_succ_lt_succ h)
      · simp at h

/-! ## The whole load -/

namespace KvsReq

variable {cfg : KvsConfig} (req : KvsReq cfg)

/-- Every rank got the block with number `j` of the request. -/
def LoadedBy (blockIds : List ℕ) (got : ℕ → ℕ → ℕ × String → ℤ) (j : ℕ) : Prop :=
  ∀ rank < cfg.tpSize, ∃ id hash, blockIds[j]? = some id ∧ req.blockHashes[j]? = some hash ∧
    got rank (j - req.numComputedBlocks) (id, hash) = cfg.loadBytesOnSuccess

/-- A result within the prompt, less one token, all of whose tokens are in blocks that were got. -/
def Reported (blockIds : List ℕ) (got : ℕ → ℕ × String → ℤ) (ioret : IoRet) : Prop :=
  ioret.ex = none ∧ ∃ n, ioret.n = some n ∧ 0 ≤ n ∧
    req.numComputedTokens + n ≤ req.numPromptTokens - 1 ∧ ∀ k : ℕ, k * cfg.blockSize < n →
      ∃ id hash, blockIds[req.numComputedBlocks + k]? = some id ∧
        req.blockHashes[req.numComputedBlocks + k]? = some hash ∧
        got k (id, hash) = cfg.loadBytesOnSuccess

/-- **Every worker reports what it got.** -/
theorem exists_reported {m : ℕ} {load : KvsLoadMeta}
    (hm : m ≤ (req.numPromptTokens - req.numComputedTokens) / cfg.blockSize)
    (h : req.updateStateAfterAlloc blockIds (m * cfg.blockSize) = some [load])
    (got : ℕ → ℕ × String → ℤ) :
    ∃ ioret, asyncLoadKv cfg load got = some ioret ∧ req.Reported blockIds got ioret := by
  have hbs : 0 < cfg.blockSize := Nat.zero_lt_of_lt cfg.one_lt
  have hbelow := req.below
  obtain hnil | ⟨_, heq, hnum, hcached, hids, hhashes, hsame⟩ := req.updateStateAfterAlloc_eq hm h
  · exact absurd hnil (cons_ne_nil _ _)
  obtain rfl := singleton_injective heq
  rw [asyncLoadKv, if_neg (by rw [hids, hhashes]; exact fun hne => hne rfl)]
  split
  · exact ⟨_, rfl, rfl, 0, rfl, le_rfl, by omega, fun k hk => by grind⟩
  · rw [Nat.le_div_iff_mul_le hbs] at hm
    have hlen : ((load.blockIds.zip load.blockHashes).mapIdx got).length = m := by
      rw [length_mapIdx, length_zip, hids, hhashes, min_self]
    obtain ⟨hnonneg, hle, hgot⟩ := numLoadedToken_bounds cfg load
      ((load.blockIds.zip load.blockHashes).mapIdx got) (by omega) (by rw [hlen]; omega)
    rw [hnum, hcached] at hle
    refine ⟨_, rfl, rfl, _, rfl, hnonneg, hle, fun k hk => ?_⟩
    have hk : k < _ := Nat.lt_of_mul_lt_mul_right (by exact_mod_cast hk.trans_le hgot)
    have hres := eq_of_lt_takeWhile hk
    rw [getElem?_mapIdx, Option.map_eq_some_iff] at hres
    obtain ⟨⟨id, hash⟩, hzip, hsuccess⟩ := hres
    grind

/-- **What a load counts was loaded.**  However the ranks' loads end and in whatever order they
report, the computed tokens after the load leave one token of the prompt, and each of them was in
the local prefix or is in a block that every rank has loaded, as it has all blocks from the prefix
on; and where the request was given its blocks, the load does end. -/
theorem load_accounts (blockIds : List ℕ) (isExist : String → ℤ)
    (got : ℕ → ℕ → ℕ × String → ℤ) {order : List ℕ} (horder : order.Perm (List.range cfg.tpSize)) :
    (∀ computed, req.load blockIds isExist got order = some computed →
      req.numComputedTokens ≤ computed ∧ computed ≤ req.numPromptTokens - 1 ∧
      ∀ t : ℕ, t < computed → t < req.numComputedTokens ∨
        ∀ j, req.numComputedBlocks ≤ j → j ≤ t / cfg.blockSize → req.LoadedBy blockIds got j) ∧
    (req.blockNum ≤ blockIds.length → (req.load blockIds isExist got order).isSome = true) := by
  have hbs : 0 < cfg.blockSize := Nat.zero_lt_of_lt cfg.one_lt
  have hbelow := req.below
  obtain ⟨m, hmatched, hm⟩ := req.exists_matched isExist
  rw [load, hmatched]
  cases hmetas : req.updateStateAfterAlloc blockIds (m * cfg.blockSize) with
  | none =>
    refine ⟨fun _ h => absurd h nofun, fun hblocks => ?_⟩
    grind [updateStateAfterAlloc]
  | some metas =>
    rcases req.updateStateAfterAlloc_eq hm hmetas with rfl | ⟨load, rfl, -⟩
    · refine ⟨fun computed h => ?_, fun _ => rfl⟩
      cases h
      exact ⟨le_rfl, by omega, fun t ht => .inl (Int.ofNat_lt.mp ht)⟩
    choose ioret hioret hreported using fun rank => req.exists_reported hm hmetas (got rank)
    have hhist : (order.mapM fun rank => (asyncLoadKv cfg load (got rank)).map (Prod.mk rank)) =
        some (order.map fun rank => (rank, ioret rank)) := by
      simp only [hioret, Option.map_some]
      exact mapM_pure
    obtain ⟨merged, n, hdone, hn, hleast⟩ := exists_least cfg.tp_pos horder fun rank =>
      ⟨(hreported rank).1, (hreported rank).2.imp fun _ h => h.1⟩
    have hle := (hleast n).mp le_rfl
    have hnonneg : 0 ≤ n := (hleast 0).mpr fun rank _ b hb => by grind [Reported]
    simp only [Option.bind_eq_bind, Option.bind_some, hhist, hdone, hn, Option.getD_some]
    refine ⟨fun computed h => ?_, fun _ => rfl⟩
    cases h
    refine ⟨by omega, ?_, fun t ht => or_iff_not_imp_left.mpr fun hge j hj hjt rank hrank => ?_⟩
    · obtain ⟨-, b, hb, -, hbound, -⟩ := hreported 0
      have := hle 0 cfg.tp_pos b hb
      omega
    · obtain ⟨-, b, hb, -, -, hgot⟩ := hreported rank
      have := hle rank hrank b hb
      have hblock : ((j - req.numComputedBlocks : ℕ) : ℤ) * cfg.blockSize < b := by
        obtain ⟨q, hq⟩ := req.aligned
        rw [numComputedBlocks, hq, Nat.mul_div_cancel_left q hbs] at hj ⊢
        rw [Nat.le_div_iff_mul_le hbs] at hjt
        rw [← Nat.cast_mul, Nat.sub_mul, mul_comm q, ← hq]
        omega
      have hloaded := hgot _ hblock
      rwa [Nat.add_sub_cancel' hj] at hloaded

/-- Two blocks of two tokens, all of them stored; rank 1 gets the first only. -/
theorem load_accounts_short : let req : KvsReq ⟨2, 2, 8, false, 0, by decide, by decide⟩ :=
      ⟨"a", 4, ["h", "k"], 0, rfl, by decide, by decide⟩
    let got : ℕ → ℕ → ℕ × String → ℤ := fun rank k _ => if rank = 1 ∧ k = 1 then 0 else 8
    req.load [5, 6] (fun _ => 1) got [1, 0] = some 2 ∧ req.LoadedBy [5, 6] got 0 := by
  intro req got
  have horder : [1, 0].Perm (List.range 2) := by decide
  have hload : req.load [5, 6] (fun _ => 1) got [1, 0] = some 2 := by decide +kernel
  have h := (req.load_accounts [5, 6] (fun _ => 1) got horder).1 2 hload
  exact ⟨hload, (h.2.2 1 (by decide)).resolve_left (by decide) 0 (by decide) (by decide)⟩

end KvsReq

end LlumnixKv
