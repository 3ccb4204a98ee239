import LlumnixKv.Parse.InBounds
import LlumnixKv.Parse.MergeSplit
import LlumnixKv.Parse.Reassembly
import Mathlib.Data.List.GetD

/-!
# Parse/HeadRoundTrip — P < D is P > D read backwards

    wide row    [ k₀ … kₙ₋₁ | v₀ … vₙ₋₁ ]
                   ↓ P < D        ↑ P > D
    narrow g    [    k_g    |    v_g    ]

The RAGGED_FLASH and DPSK_V32 functions run one body in both directions and only swap the offsets of
its records (`swap_offsets`).  So a P < D list is the P > D list of the exchanged workers, turned
around; and a wide row that is split over its narrow ranks and merged again is the row it was.
-/

open List Machinery

namespace LlumnixKv

/-! ## Turning around -/

/-- Every record of every list, turned around. -/
def turnedLists (lists : List (List IpcBlock)) : List (List IpcBlock) :=
  lists.map (List.map (IpcBlock.turned true))

@[simp] theorem turnedLists_turnedLists (lists : List (List IpcBlock)) :
    turnedLists (turnedLists lists) = lists := by
  have hinv : (List.map (IpcBlock.turned true)) ∘ (List.map (IpcBlock.turned true)) = id :=
    funext fun recs => (map_map ..).trans (map_id recs)
  rw [turnedLists, turnedLists, map_map, hinv, map_id]

/-- The bounds with source and destination exchanged. -/
def IpcBlockBounds.turned (b : IpcBlockBounds) : IpcBlockBounds :=
  ⟨b.dstCapacity, b.srcCapacity, b.srcLengthScale, b.cacheIdx⟩

/-- Bytes are copied as they are, and a `size_t` holds both capacities. -/
structure IpcBlockBounds.Plain (b : IpcBlockBounds) : Prop where
  scale_eq : b.srcLengthScale = 1
  src_le : b.srcCapacity ≤ sizeMax
  dst_le : b.dstCapacity ≤ sizeMax

variable {b : IpcBlockBounds} {src dst len n : ℕ}

theorem IpcBlockBounds.Plain.fits_turned (hb : b.Plain) :
    b.turned.Fits dst src len ↔ b.Fits src dst len := by
  obtain ⟨hscale, hsrc, hdst⟩ := hb
  constructor
  · rintro ⟨hlen, hpos, hle, h1, h2⟩
    simp only [turned, hscale, mul_one] at hle h1 h2
    exact ⟨hlen, hpos, by rw [hscale]; omega, by rw [hscale]; omega, by omega⟩
  · rintro ⟨hlen, hpos, hle, h1, h2⟩
    simp only [hscale, mul_one] at hle h1
    refine ⟨hlen, hpos, ?_, ?_, h1⟩
    · simp only [turned, hscale]
      omega
    · simp only [turned, hscale]
      omega

/-- `checked_layer_capacity` returns what a `size_t` holds. -/
theorem checkedLayerCapacity_le {info : WorkerInfo} {i capacity : ℕ}
    (h : checkedLayerCapacity info i = .ok capacity) : capacity ≤ sizeMax := by
  unfold checkedLayerCapacity at h
  split at h
  · cases h
  · split at h
    · cases h
    case isFalse hblocks =>
      split at h
      · cases h
      case isFalse hover =>
        rw [← Except.ok.inj h]
        rw [Nat.div_lt_iff_lt_mul (Nat.pos_of_ne_zero hblocks)] at hover
        exact not_lt.mp hover

/-- **The bounds of the exchanged workers are the bounds, exchanged**; neither exists without the
other, though a different capacity may be the one that throws. -/
theorem makeIpcBlockBounds_exchanged {env : EnvCfg} (hfp8 : env.bf162fp8Conversion = false)
    (src dst : WorkerInfo) (i : ℕ) :
    (∃ b, b.Plain ∧ makeIpcBlockBounds env src dst i = .ok b ∧
      makeIpcBlockBounds env dst src i = .ok b.turned) ∨
    (∃ e e', makeIpcBlockBounds env src dst i = .error e ∧
      makeIpcBlockBounds env dst src i = .error e') := by
  simp only [makeIpcBlockBounds, hfp8, Bool.false_eq_true, if_false]
  cases hsrc : checkedLayerCapacity src i with
  | error e =>
    cases hdst : checkedLayerCapacity dst i with
    | error e' => exact .inr ⟨e, e', rfl, rfl⟩
    | ok dstCapacity => exact .inr ⟨e, e, rfl, rfl⟩
  | ok srcCapacity =>
    cases hdst : checkedLayerCapacity dst i with
    | error e => exact .inr ⟨e, e, rfl, rfl⟩
    | ok dstCapacity =>
      exact .inl ⟨⟨srcCapacity, dstCapacity, 1, i⟩,
        ⟨rfl, checkedLayerCapacity_le hsrc, checkedLayerCapacity_le hdst⟩, rfl, rfl⟩

/-! ## The body, both ways -/

section Body

variable {env : EnvCfg} {b : IpcBlockBounds}

theorem appendIpcBlockChecked_of_not_fits (h : ¬b.Fits src dst len) :
    appendIpcBlockChecked b src dst len = .error .outOfRange := by
  rw [appendIpcBlockChecked]
  split
  case isTrue => rfl
  case isFalse hvalid => exact absurd (appendIpcBlockChecked_eq_ok.mp (if_neg hvalid)).1 h

/-- The check sees no direction. -/
theorem IpcBlockBounds.Plain.append_turned (hb : b.Plain) (src dst len : ℕ) :
    appendIpcBlockChecked b src dst len =
      List.map (IpcBlock.turned true) <$> appendIpcBlockChecked b.turned dst src len := by
  by_cases h : b.Fits src dst len
  · rw [appendIpcBlockChecked_eq_ok.mpr ⟨h, rfl⟩,
      appendIpcBlockChecked_eq_ok.mpr ⟨hb.fits_turned.mpr h, rfl⟩]
    rfl
  · rw [appendIpcBlockChecked_of_not_fits h,
      appendIpcBlockChecked_of_not_fits (mt hb.fits_turned.mp h)]
    rfl

theorem parseBlockSendGtRound_turned (hb : b.Plain) (pTok pK dTok ntpb off : ℕ)
    (pBlocks dBlocks : List ℕ) (wrote tokens : ℕ) :
    parseBlockSendGtRound env pTok pK dTok ntpb off pBlocks dBlocks b true wrote tokens =
      List.map (IpcBlock.turned true) <$> parseBlockSendGtRound env pTok pK dTok ntpb off pBlocks
        dBlocks b.turned false wrote tokens := by
  simp only [parseBlockSendGtRound, map_bind, ← emitAll_map, hb.append_turned, if_true,
    Bool.false_eq_true, if_false]

theorem parseBlockSendGt_turned (hb : b.Plain) (pTok pK dTok ntpb off : ℕ)
    (pBlocks dBlocks : List ℕ) (wrote left : ℕ) :
    parseBlockSendGt env pTok pK dTok ntpb off pBlocks dBlocks wrote left b true =
      List.map (IpcBlock.turned true) <$> parseBlockSendGt env pTok pK dTok ntpb off pBlocks dBlocks
        wrote left b.turned false := by
  simp only [parseBlockSendGt, map_bind, ← walk_map, ← parseBlockSendGtRound_turned hb]

/-- The V records of turned K records are the turned V records. -/
theorem sendVRecords_turned (hb : b.Plain) (pK dK : ℕ) (ks : List IpcBlock) :
    sendVRecords env pK dK b true (ks.map (IpcBlock.turned true)) =
      List.map (IpcBlock.turned true) <$> sendVRecords env pK dK b.turned false ks := by
  simp only [sendVRecords, ← emitAll_map, map_bind, ← hb.append_turned, emitAll_of_map]
  rfl

/-- **The body with its offsets swapped is the body, turned around.** -/
theorem sendTensor_turned (hb : b.Plain) (pTp dTp pRank dRank pBlock dBlock pTok dTok : ℕ)
    (pBlocks dBlocks : List ℕ) (wrote left : ℕ) :
    sendTensor env pTp dTp pRank dRank pBlock dBlock pTok dTok pBlocks dBlocks wrote left b true =
      List.map (IpcBlock.turned true) <$> sendTensor env pTp dTp pRank dRank pBlock dBlock pTok dTok
        pBlocks dBlocks wrote left b.turned false := by
  simp only [sendTensor, map_bind, parseBlockSendGt_turned hb, bind_map_left,
    sendVRecords_turned hb, map_pure, map_append]

end Body

/-! ## The functions, both ways -/

/-- The task of the way back: the two sides' block tables exchanged. -/
def ReqSendTask.exchanged (task : ReqSendTask) : ReqSendTask :=
  { task with
    req := { task.req with
      srcBlocks := task.req.dstBlocks
      dstBlocks := task.req.srcBlocks } }

/-- The P < D function of the shape. -/
def HeadParse.parsePLtD : HeadParse → EnvCfg → ParseBlockFunc
  | .ragged => parseBlockSendPLtD
  | .dpsk => vllmParseBlockSendMultiTensorPLtD

/-- A narrow worker holds one share in `n` of each row of a wide one. -/
structure Shares (n : ℕ) (narrow wide : WorkerInfo) : Prop where
  one_lt : 1 < n
  engineTpSize : narrow.engineTpSize = wide.engineTpSize * n
  tokenSizes : wide.tokenSizes = narrow.tokenSizes.map (· * n)
  tokenSize_pos : ∃ size ∈ narrow.tokenSizes, 0 < size

/-- The rows differ. -/
theorem Shares.tokenSizes_ne {narrow wide : WorkerInfo} (h : Shares n narrow wide) :
    narrow.tokenSizes ≠ wide.tokenSizes := by
  intro heq
  obtain ⟨size, hsize, hpos⟩ := h.tokenSize_pos
  obtain ⟨i, hi⟩ := getElem?_of_mem hsize
  have hwide : wide.tokenSizes[i]? = some (size * n) := by
    rw [h.tokenSizes, getElem?_map, hi, Option.map_some]
  rw [← heq, hi] at hwide
  have hlt : size < size * n := (Nat.lt_mul_iff_one_lt_right hpos).mpr h.one_lt
  exact hlt.ne (Option.some.inj hwide)

/-- Turned lists are the lists they were turned from. -/
theorem map_turnedLists_eq_ok {e : Except Fault (List (List IpcBlock))}
    {lists : List (List IpcBlock)} :
    turnedLists <$> e = .ok lists ↔ e = .ok (turnedLists lists) := by
  cases e with
  | error f => exact ⟨fun h => (nomatch h), fun h => (nomatch h)⟩
  | ok out =>
    constructor
    · intro h
      rw [← Except.ok.inj h, turnedLists_turnedLists]
    · intro h
      rw [Except.ok.inj h]
      exact congrArg Except.ok (turnedLists_turnedLists lists)

section Functions

variable {env : EnvCfg} (hfp8 : env.bf162fp8Conversion = false) {wide narrow : WorkerInfo}

theorem doParseBlockSendInternal_turned (hb : b.Plain) (narrow wide : WorkerInfo) (pTp dTp : ℕ)
    (pBlocks dBlocks : List ℕ) (wrote left : ℕ) :
    doParseBlockSendInternal env narrow pTp pBlocks wide dTp dBlocks wrote left b true =
      turnedLists <$> doParseBlockSendInternal env narrow pTp pBlocks wide dTp dBlocks wrote left
        b.turned false := by
  have hfirst : ∀ n out, turnedLists (firstOf n out) = firstOf n (out.map (IpcBlock.turned true)) :=
    fun n out => by
      simp only [turnedLists, firstOf, map_cons, map_replicate, map_nil]
  simp only [doParseBlockSendInternal, map_bind, sendTensor_turned hb, bind_map_left, map_pure,
    hfirst]

include hfp8

/-- **RAGGED_FLASH.** -/
theorem parseBlockSendPLtD_exchanged (wide narrow : WorkerInfo)
    (validRanks validRanks' : BitVec maxTpSize) (rank rank' : ℕ) (task : ReqSendTask)
    (lists : List (List IpcBlock)) :
    parseBlockSendPLtD env wide narrow validRanks wide.engineTpSize rank task = .ok lists ↔
      parseBlockSendPGtD env narrow wide validRanks' narrow.engineTpSize rank' task.exchanged =
        .ok (turnedLists lists) := by
  rw [parseBlockSendPLtD, parseBlockSendPGtD, ← map_turnedLists_eq_ok]
  obtain ⟨b, hb, hlt, hgt⟩ | ⟨e, e', hlt, hgt⟩ := makeIpcBlockBounds_exchanged hfp8 wide narrow 0
  · rw [hlt, hgt, ok_bind, ok_bind]
    simp only [map_bind, doParseBlockSendInternal_turned hb]
    rfl
  · rw [hlt, hgt]
    exact ⟨fun h => (by cases h), fun h => (by cases h)⟩

/-- The tensors of both functions, one after the other. -/
theorem doMultiTensorParseBlockSend_exchanged (wide narrow : WorkerInfo) (pTp dTp : ℕ)
    (pBlocks dBlocks : List ℕ) (wrote left : ℕ) (lists : List (List IpcBlock)) :
    doMultiTensorParseBlockSend env narrow pTp pBlocks wide dTp dBlocks wrote left wide narrow true
        = .ok lists ↔
      doMultiTensorParseBlockSend env narrow pTp pBlocks wide dTp dBlocks wrote left narrow wide
        false = .ok (turnedLists lists) := by
  have hbody : ∀ i out, (do
      let pBlockSize ← vecAt narrow.blockSizes i
      let dBlockSize ← vecAt wide.blockSizes i
      let pTokenSize ← vecAt narrow.tokenSizes i
      let dTokenSize ← vecAt wide.tokenSizes i
      let bounds ← makeIpcBlockBounds env wide narrow i
      let out ← sendTensor env pTp dTp narrow.workerTpRank wide.workerTpRank pBlockSize dBlockSize
        pTokenSize dTokenSize pBlocks dBlocks wrote left bounds true
      return [out]) = .ok out ↔ (do
      let pBlockSize ← vecAt narrow.blockSizes i
      let dBlockSize ← vecAt wide.blockSizes i
      let pTokenSize ← vecAt narrow.tokenSizes i
      let dTokenSize ← vecAt wide.tokenSizes i
      let bounds ← makeIpcBlockBounds env narrow wide i
      let out ← sendTensor env pTp dTp narrow.workerTpRank wide.workerTpRank pBlockSize dBlockSize
        pTokenSize dTokenSize pBlocks dBlocks wrote left bounds false
      return [out]) = .ok (turnedLists out) := by
    intro i out
    obtain ⟨b, hb, hlt, hgt⟩ | ⟨e, e', hlt, hgt⟩ := makeIpcBlockBounds_exchanged hfp8 wide narrow i
    · rw [← map_turnedLists_eq_ok, hlt, hgt]
      simp only [map_bind, ok_bind, sendTensor_turned hb, bind_map_left, map_pure]
      rfl
    · simp only [bind_eq_ok, hlt, hgt, reduceCtorEq, false_and, exists_false, and_false]
  have hpad : ∀ k out, turnedLists (out ++ List.replicate (k - out.length) []) =
      turnedLists out ++ List.replicate (k - (turnedLists out).length) [] := fun k out => by
    simp only [turnedLists, length_map, map_append, map_replicate, map_nil]
  simp only [doMultiTensorParseBlockSend, bind_eq_ok]
  refine exists_congr fun _ => and_congr_right fun _ => exists_congr fun _ =>
    and_congr_right fun _ => exists_congr fun _ => and_congr_right fun _ => ?_
  constructor
  · rintro ⟨out, hout, hlists⟩
    refine ⟨turnedLists out, (emitAll_eq_ok_iff fun i _ => hbody i).mp hout, ?_⟩
    rw [← Except.ok.inj hlists, hpad]
    rfl
  · rintro ⟨out, hout, hlists⟩
    rw [← turnedLists_turnedLists out] at hout
    refine ⟨turnedLists out, (emitAll_eq_ok_iff fun i _ => hbody i).mpr hout, ?_⟩
    rw [← turnedLists_turnedLists lists, ← Except.ok.inj hlists, hpad]
    rfl

/-- **DPSK_V32.** -/
theorem vllmParseBlockSendMultiTensorPLtD_exchanged (htokens : narrow.tokenSizes ≠ wide.tokenSizes)
    (validRanks validRanks' : BitVec maxTpSize) (rank rank' : ℕ) (task : ReqSendTask)
    (lists : List (List IpcBlock)) :
    vllmParseBlockSendMultiTensorPLtD env wide narrow validRanks wide.engineTpSize rank task
        = .ok lists ↔
      vllmParseBlockSendMultiTensorPGtD env narrow wide validRanks' narrow.engineTpSize rank'
        task.exchanged = .ok (turnedLists lists) := by
  rw [vllmParseBlockSendMultiTensorPLtD, vllmParseBlockSendMultiTensorPGtD, if_neg htokens]
  simp only [bind_eq_ok, doMultiTensorParseBlockSend_exchanged hfp8]
  rfl

/-- **A P < D list is the P > D list of the exchanged workers, turned around.** -/
theorem HeadParse.parsePLtD_exchanged (kind : HeadParse) (h : Shares n narrow wide)
    (validRanks validRanks' : BitVec maxTpSize) (rank rank' : ℕ) (task : ReqSendTask)
    (lists : List (List IpcBlock)) :
    kind.parsePLtD env wide narrow validRanks wide.engineTpSize rank task = .ok lists ↔
      kind.parse env narrow wide validRanks' narrow.engineTpSize rank' task.exchanged =
        .ok (turnedLists lists) := by
  cases kind with
  | ragged =>
    exact parseBlockSendPLtD_exchanged hfp8 wide narrow validRanks validRanks' rank rank' task lists
  | dpsk =>
    exact vllmParseBlockSendMultiTensorPLtD_exchanged hfp8 h.tokenSizes_ne validRanks validRanks'
      rank rank' task lists

end Functions

/-! ## There and back -/

/-- A wide worker, the `n` narrow workers that share its rows, and a range of tokens sent between
them: `task g` takes it to narrow worker `g`.  On the narrow side the range's blocks are distinct. -/
structure HeadPeers (kind : HeadParse) where
  n : ℕ
  one_lt : 1 < n
  tensors : List SlicedTensor
  wide : WorkerInfo
  narrow : ℕ → WorkerInfo
  wideTable : List ℕ
  narrowTable : ℕ → List ℕ
  seenTokens : ℕ
  newTokens : ℕ
  task : ℕ → ReqSendTask
  tensors_ne : tensors ≠ []
  ragged_one : kind = .ragged → tensors.length = 1
  wideTp_pos : 0 < wide.engineTpSize
  engineTpSize : ∀ g < n, (narrow g).engineTpSize = wide.engineTpSize * n
  workerTpRank : ∀ g < n, (narrow g).workerTpRank = n * wide.workerTpRank + g
  task_seen : ∀ g < n, (task g).seenTokens = seenTokens
  task_new : ∀ g < n, (task g).newTokens = newTokens
  srcBlocks : ∀ g < n, (task g).req.srcBlocks[0]? = some wideTable
  dstBlocks : ∀ g < n, (task g).req.dstBlocks[0]? = some (narrowTable g)
  pair : ∀ g < n, SplitPair (narrow g) wide tensors n one_lt (narrowTable g) wideTable (task g)
  distinct : ∀ g < n, ∀ T ∈ tensors, ∀ t t', seenTokens ≤ t → t < seenTokens + newTokens →
    seenTokens ≤ t' → t' < seenTokens + newTokens →
    (narrowTable g).getD (t / T.ntpb) 0 = (narrowTable g).getD (t' / T.ntpb) 0 →
    t / T.ntpb = t' / T.ntpb

namespace HeadPeers

variable {kind : HeadParse} {env : EnvCfg} {β : Type} {T : SlicedTensor} {g i : ℕ}

variable (X : HeadPeers kind)

/-- The start of a token's row in the wide cache… -/
def wideRow (T : SlicedTensor) (t : ℕ) : ℕ :=
  tokenOffset X.wideTable T.ntpb (2 * T.kSize * X.n) t

/-- …and in narrow cache `g`. -/
def narrowRow (T : SlicedTensor) (g t : ℕ) : ℕ :=
  tokenOffset (X.narrowTable g) T.ntpb (2 * T.kSize) t

/-- A byte of the wide rows of the range: `n · kSize` bytes of K, and as many of V. -/
def InRows (T : SlicedTensor) (a : ℕ) : Prop :=
  ∃ t, X.seenTokens ≤ t ∧ t < X.seenTokens + X.newTokens ∧
    ∃ o < 2 * T.kSize * X.n, a = X.wideRow T t + o

/-- The share of narrow worker `g`, half `kv` of token `t`. -/
def share (T : SlicedTensor) (g kv t : ℕ) : IpcBlock :=
  ⟨X.wideRow T t + (kv * X.n + g) * T.kSize, X.narrowRow T g t + kv * T.kSize, T.kSize⟩

/-- The list holds the shares of the range, and nothing else. -/
def Splits (T : SlicedTensor) (g : ℕ) (recs : List IpcBlock) : Prop :=
  ∀ rec, rec ∈ recs ↔ ∃ t, X.seenTokens ≤ t ∧ t < X.seenTokens + X.newTokens ∧
    ∃ kv < 2, X.share T g kv t = rec

theorem shares (hg : g < X.n) : Shares X.n (X.narrow g) X.wide := by
  have hpair := X.pair g hg
  refine ⟨X.one_lt, X.engineTpSize g hg, ?_, ?_⟩
  · rw [hpair.wide_holds.tokenSizes, hpair.narrow_holds.tokenSizes, map_map, map_map,
      map_map]
    rfl
  · obtain ⟨T, hT⟩ := exists_mem_of_ne_nil _ X.tensors_ne
    rw [hpair.narrow_holds.tokenSizes, map_map]
    exact ⟨_, mem_map_of_mem hT, T.narrow.tokenSize_pos⟩

variable {X : HeadPeers kind} {recs : ℕ → List IpcBlock}

/-- The share of a narrow worker is the slice of its rank. -/
theorem splits_of_sent (hg : g < X.n) {recs : List IpcBlock}
    (h : SlicesSent X.n ((X.narrow g).workerTpRank % X.n) (X.narrowTable g) X.wideTable (X.task g)
      true T recs) : X.Splits T g recs := by
  intro rec
  rw [h rec, ReqSendTask.endTokens, X.task_seen g hg, X.task_new g hg, X.workerTpRank g hg,
    Nat.mul_add_mod, Nat.mod_eq_of_lt hg]
  rfl

/-- **The split succeeds**, and sends each narrow worker its shares. -/
theorem split_ok (X : HeadPeers kind) (hfp8 : env.bf162fp8Conversion = false) (hg : g < X.n) :
    ∃ lists, (∀ validRanks rank, kind.parsePLtD env X.wide (X.narrow g) validRanks
        X.wide.engineTpSize rank (X.task g) = .ok lists) ∧
      List.Forall₂ (fun T recs => X.Splits T g recs) X.tensors lists := by
  have hrank : env.ndebug = true ∨ (X.narrow g).workerTpRank / X.n = X.wide.workerTpRank := by
    rw [X.workerTpRank g hg, Nat.mul_add_div (Nat.zero_lt_of_lt X.one_lt), Nat.div_eq_of_lt hg]
    exact .inr rfl
  have hpair := X.pair g hg
  cases kind with
  | ragged =>
    obtain ⟨T, hT⟩ := length_eq_one_iff.mp (X.ragged_one rfl)
    rw [hT] at hpair
    obtain ⟨lists, hlists, hsent⟩ := hpair.parseBlockSendPLtD hfp8 (X.srcBlocks g hg)
      (X.dstBlocks g hg) 0 0 X.wideTp_pos (X.engineTpSize g hg) hrank
    rw [hT]
    exact ⟨lists, fun _ _ => hlists, hsent.imp fun _ _ h => splits_of_sent hg h⟩
  | dpsk =>
    obtain ⟨lists, hlists, hsent⟩ := hpair.vllmParseBlockSendMultiTensorPLtD hfp8 (X.srcBlocks g hg)
      (X.dstBlocks g hg) 0 0 X.wideTp_pos (X.engineTpSize g hg) hrank
    exact ⟨lists, fun _ _ => hlists, hsent.imp fun _ _ h => splits_of_sent hg h⟩

/-! ### The narrow side -/

/-- **A byte of a narrow cache is the byte of one share.** -/
theorem narrowRow_inj (hg : g < X.n) (hT : T ∈ X.tensors)
    {t t' kv kv' o o' : ℕ} (h1 : X.seenTokens ≤ t) (h2 : t < X.seenTokens + X.newTokens) (h1' : X.seenTokens ≤ t')
    (h2' : t' < X.seenTokens + X.newTokens) (hkv : kv < 2) (hkv' : kv' < 2) (ho : o < T.kSize)
    (ho' : o' < T.kSize)
    (h : X.narrowRow T g t + kv * T.kSize + o = X.narrowRow T g t' + kv' * T.kSize + o') :
    t = t' ∧ kv = kv' ∧ o = o' := by
  rw [add_assoc, add_assoc] at h
  obtain ⟨hrow, hin⟩ := Radix.digit_inj (Radix.digit_lt hkv ho) (Radix.digit_lt hkv' ho') h
  obtain ⟨hhalf, hbyte⟩ := Radix.digit_inj ho ho' hin
  obtain ⟨hblock, hpos⟩ := Radix.digit_inj (Nat.mod_lt t T.ntpb_pos) (Nat.mod_lt t' T.ntpb_pos) hrow
  have hdiv := X.distinct g hg T hT t t' h1 h2 h1' h2' hblock
  refine ⟨?_, hhalf, hbyte⟩
  rw [← Nat.div_add_mod t T.ntpb, hdiv, hpos, Nat.div_add_mod]

/-- **The split puts each share in its place.** -/
theorem splitInto_share (hg : g < X.n) (hT : T ∈ X.tensors) {recs : List IpcBlock}
    (hrecs : X.Splits T g recs) (wide narrow : ℕ → β) {t kv o : ℕ} (h1 : X.seenTokens ≤ t)
    (h2 : t < X.seenTokens + X.newTokens) (hkv : kv < 2) (ho : o < T.kSize) :
    splitInto recs wide narrow (X.narrowRow T g t + kv * T.kSize + o) =
      wide (X.wideRow T t + (kv * X.n + g) * T.kSize + o) := by
  refine copyAll_of_agree (fun r hr s hs => ?_) ?_
  · obtain ⟨rec, hrec, rfl⟩ := mem_map.mp hr
    obtain ⟨t', h1', h2', kv', hkv', rfl⟩ := (hrecs rec).mp hrec
    obtain ⟨o', ho', rfl, heq⟩ := hs
    obtain ⟨rfl, rfl, rfl⟩ := narrowRow_inj hg hT h1 h2 h1' h2' hkv hkv' ho ho' heq
    rfl
  · exact ⟨((), X.share T g kv t), mem_map_of_mem ((hrecs _).mpr ⟨t, h1, h2, kv, hkv, rfl⟩),
      _, o, ho, rfl, rfl⟩

/-! ### The wide side -/

/-- The bytes a share reads are bytes of the range… -/
theorem share_inRows (hg : g < X.n) {t kv o : ℕ} (h1 : X.seenTokens ≤ t)
    (h2 : t < X.seenTokens + X.newTokens) (hkv : kv < 2) (ho : o < T.kSize) :
    X.InRows T (X.wideRow T t + (kv * X.n + g) * T.kSize + o) := by
  refine ⟨t, h1, h2, (kv * X.n + g) * T.kSize + o, ?_, add_assoc ..⟩
  rw [mul_right_comm]
  exact Radix.digit_lt (Radix.digit_lt hkv hg) ho

/-- …and each of those is read by a share. -/
theorem exists_share {a : ℕ} (h : X.InRows T a) :
    ∃ g < X.n, ∃ t, X.seenTokens ≤ t ∧ t < X.seenTokens + X.newTokens ∧ ∃ kv < 2, ∃ o < T.kSize,
      a = X.wideRow T t + (kv * X.n + g) * T.kSize + o := by
  obtain ⟨t, h1, h2, o, ho, rfl⟩ := h
  rw [mul_right_comm] at ho
  obtain ⟨slot, hslot, b, hb, rfl⟩ := Radix.exists_digit ho
  obtain ⟨kv, hkv, g, hg, rfl⟩ := Radix.exists_digit hslot
  exact ⟨g, hg, t, h1, h2, kv, hkv, b, hb, (add_assoc ..).symm⟩

/-- The records of the way back. -/
theorem mem_back {r : ℕ × IpcBlock} :
    (r ∈ (List.range n).flatMap fun g =>
      recordsFrom g ((recs g).map (IpcBlock.turned true))) ↔
    ∃ g < n, ∃ rec ∈ recs g, r = (g, IpcBlock.turned true rec) := by
  simp only [mem_flatMap, mem_range, recordsFrom, map_map, mem_map,
    Function.comp_apply, eq_comm]

/-- **There and back**: the rows of the range are what they were, the rest is as it was found. -/
theorem back_eq (hT : T ∈ X.tensors) (hrecs : ∀ g < X.n, X.Splits T g (recs g)) (wide wide' : ℕ → β)
    (narrow : ℕ → ℕ → β) (a : ℕ) :
    (X.InRows T a → mergeInto X.n (fun g => (recs g).map (IpcBlock.turned true))
      (fun g => splitInto (recs g) wide (narrow g)) wide' a = wide a) ∧
    (¬X.InRows T a → mergeInto X.n (fun g => (recs g).map (IpcBlock.turned true))
      (fun g => splitInto (recs g) wide (narrow g)) wide' a = wide' a) := by
  -- whatever is copied to a byte on the way back was taken from it
  have hcopied : ∀ r ∈ (List.range X.n).flatMap fun g =>
      recordsFrom g ((recs g).map (IpcBlock.turned true)), ∀ s, r.2.Copies s a →
        X.InRows T a ∧ splitInto (recs r.1) wide (narrow r.1) s = wide a := by
    intro r hr s hs
    obtain ⟨g, hg, rec, hrec, rfl⟩ := mem_back.mp hr
    obtain ⟨t, h1, h2, kv, hkv, rfl⟩ := (hrecs g hg rec).mp hrec
    obtain ⟨o, ho, rfl, rfl⟩ := hs
    exact ⟨share_inRows hg h1 h2 hkv ho,
      splitInto_share hg hT (hrecs g hg) wide (narrow g) h1 h2 hkv ho⟩
  constructor
  · intro ha
    refine copyAll_of_agree (fun r hr s hs => (hcopied r hr s hs).2) ?_
    obtain ⟨g, hg, t, h1, h2, kv, hkv, o, ho, rfl⟩ := exists_share ha
    exact ⟨_, mem_back.mpr ⟨g, hg, X.share T g kv t,
      (hrecs g hg _).mpr ⟨t, h1, h2, kv, hkv, rfl⟩, rfl⟩, _, o, ho, rfl, rfl⟩
  · intro ha
    exact copyAll_of_not_copied fun r hr s hs => ha (hcopied r hr s hs).1

end HeadPeers

/-- **Splitting and merging rows of heads are inverse.**  The P < D list is the P > D list of the
exchanged workers, turned around, for every pair of workers of which one holds shares of the rows of
the other, every task and every table; and a range of rows split over the narrow workers and merged
again is the range it was, in a wide cache that is otherwise untouched. -/
theorem headSplit_roundTrip (kind : HeadParse) (env : EnvCfg)
    (hfp8 : env.bf162fp8Conversion = false) :
    (∀ (n : ℕ) (wide narrow : WorkerInfo), Shares n narrow wide →
      ∀ (validRanks validRanks' : BitVec maxTpSize) (rank rank' : ℕ) (task : ReqSendTask)
        (lists : List (List IpcBlock)),
      kind.parsePLtD env wide narrow validRanks wide.engineTpSize rank task = .ok lists ↔
        kind.parse env narrow wide validRanks' narrow.engineTpSize rank' task.exchanged =
          .ok (turnedLists lists)) ∧
    ∀ X : HeadPeers kind, ∃ lists : ℕ → List (List IpcBlock),
      (∀ g < X.n, ∀ validRanks rank, kind.parsePLtD env X.wide (X.narrow g) validRanks
        X.wide.engineTpSize rank (X.task g) = .ok (lists g)) ∧
      (∀ g < X.n, ∀ validRanks rank, kind.parse env (X.narrow g) X.wide validRanks
        (X.narrow g).engineTpSize rank (X.task g).exchanged = .ok (turnedLists (lists g))) ∧
      ∀ (i : ℕ) (T : SlicedTensor), X.tensors[i]? = some T →
        ∀ (β : Type) (wide wide' : ℕ → β) (narrow : ℕ → ℕ → β) (a : ℕ),
        let back := mergeInto X.n (fun g => (turnedLists (lists g)).getD i [])
          (fun g => splitInto ((lists g).getD i []) wide (narrow g)) wide'
        (X.InRows T a → back a = wide a) ∧ (¬X.InRows T a → back a = wide' a) := by
  refine ⟨fun n wide narrow h validRanks validRanks' rank rank' task lists =>
    kind.parsePLtD_exchanged hfp8 h validRanks validRanks' rank rank' task lists, fun X => ?_⟩
  have hex : ∀ g, ∃ lists, g < X.n → (∀ validRanks rank, kind.parsePLtD env X.wide (X.narrow g)
      validRanks X.wide.engineTpSize rank (X.task g) = .ok lists) ∧
      List.Forall₂ (fun T recs => X.Splits T g recs) X.tensors lists := fun g => by
    by_cases hg : g < X.n
    · exact (X.split_ok hfp8 hg).imp fun _ h _ => h
    · exact ⟨[], fun h => absurd h hg⟩
  choose lists hlists using hex
  refine ⟨lists, fun g hg => (hlists g hg).1, fun g hg validRanks rank => ?_, ?_⟩
  · exact (kind.parsePLtD_exchanged hfp8 (X.shares hg) validRanks validRanks rank rank (X.task g)
      (lists g)).mp ((hlists g hg).1 validRanks rank)
  · intro i T hi β wide wide' narrow a
    have hturned : ∀ g, (turnedLists (lists g)).getD i [] =
        ((lists g).getD i []).map (IpcBlock.turned true) := fun g =>
      getD_map (lists g) [] (List.map (IpcBlock.turned true))
    simp only [hturned]
    refine HeadPeers.back_eq (mem_of_getElem? hi) (fun g hg => ?_) wide wide' narrow a
    obtain ⟨hlt, rfl⟩ := List.getElem?_eq_some_iff.mp hi
    have hall := (hlists g hg).2
    have hlt' : i < (lists g).length := hall.length_eq ▸ hlt
    rw [getD_eq_getElem _ _ hlt']
    exact hall.get hlt hlt'

/-- Narrow worker `g` of two, with rows of one byte of K and one of V, … -/
def narrowShare (g : ℕ) : WorkerInfo where
  engineTpSize := 2
  workerTpRank := g
  tokenSizes := [2]
  blockSizes := [4]
  layerNumBlocks := 3

/-- …and the worker whose rows they share. -/
def wideShare : WorkerInfo where
  engineTpSize := 1
  tokenSizes := [4]
  blockSizes := [8]
  layerNumBlocks := 3

/-- A table of two blocks covers tokens 1 and 2. -/
theorem twoBlocks_covered {id id' t : ℕ} (hid : id < 3) (hid' : id' < 3) (h1 : 1 ≤ t) (h2 : t < 3) :
    ∃ block, [id, id'][t / 2]? = some block ∧ block < 3 := by
  obtain rfl | rfl : t = 1 ∨ t = 2 := by omega
  · exact ⟨id, rfl, hid⟩
  · exact ⟨id', rfl, hid'⟩

/-- Tokens 1 and 2, in the last place of one block and the first of the next. -/
def twoShares : HeadPeers .ragged where
  n := 2
  one_lt := by decide
  tensors := [⟨2, 1, Nat.two_pos, by decide, Nat.one_pos⟩]
  wide := wideShare
  narrow := narrowShare
  wideTable := [2, 0]
  narrowTable g := [g, 2]
  seenTokens := 1
  newTokens := 2
  task g := ⟨⟨0, "req", [[2, 0]], [[g, 2]]⟩, 1, 2, true, by decide⟩
  tensors_ne := by decide
  ragged_one _ := rfl
  wideTp_pos := by decide
  engineTpSize _ _ := rfl
  workerTpRank g _ := (zero_add g).symm
  task_seen _ _ := rfl
  task_new _ _ := rfl
  srcBlocks _ _ := rfl
  dstBlocks _ _ := rfl
  pair g hg := by
    refine ⟨⟨rfl, rfl, Nat.succ_pos 2, ?_, ?_⟩, ⟨rfl, rfl, Nat.succ_pos 2, ?_, ?_⟩⟩
    · exact forall_mem_singleton.mpr (show 4 * 3 ≤ sizeMax by decide)
    · exact forall_mem_singleton.mpr fun t h1 h2 =>
        twoBlocks_covered (Nat.lt_succ_of_lt hg) (by decide) h1 h2
    · exact forall_mem_singleton.mpr (show 8 * 3 ≤ sizeMax by decide)
    · exact forall_mem_singleton.mpr fun t h1 h2 =>
        twoBlocks_covered (by decide) (by decide) h1 h2
  distinct g hg := forall_mem_singleton.mpr fun t t' h1 h2 h1' h2' h => by
    have hg : g < 2 := hg
    obtain rfl | rfl : t = 1 ∨ t = 2 := by omega
    · obtain rfl | rfl : t' = 1 ∨ t' = 2 := by omega
      · rfl
      · exact absurd (show g = 2 from h) (by omega)
    · obtain rfl | rfl : t' = 1 ∨ t' = 2 := by omega
      · exact absurd (show 2 = g from h) (by omega)
      · rfl

theorem headSplit_roundTrip_twoShares :
    parseBlockSendPGtD {} (narrowShare 1) wideShare 3 2 1 (twoShares.task 1).exchanged =
      .ok [[⟨6, 21, 1⟩, ⟨8, 1, 1⟩, ⟨7, 23, 1⟩, ⟨9, 3, 1⟩]] ∧
    ∃ lists : ℕ → List (List IpcBlock), ∀ g < 2,
      parseBlockSendPLtD {} wideShare (narrowShare g) 1 1 0 (twoShares.task g) = .ok (lists g) ∧
      parseBlockSendPGtD {} (narrowShare g) wideShare 3 2 g (twoShares.task g).exchanged =
        .ok (turnedLists (lists g)) := by
  obtain ⟨hturned, hround⟩ := headSplit_roundTrip .ragged {} rfl
  have hshares : Shares 2 (narrowShare 1) wideShare :=
    ⟨by decide, rfl, rfl, 2, mem_singleton_self 2, by decide⟩
  refine ⟨(hturned 2 wideShare (narrowShare 1) hshares 1 3 0 1 (twoShares.task 1)
    [[⟨21, 6, 1⟩, ⟨1, 8, 1⟩, ⟨23, 7, 1⟩, ⟨3, 9, 1⟩]]).mp (by decide), ?_⟩
  obtain ⟨lists, hsplit, hmerge, -⟩ := hround twoShares
  exact ⟨lists, fun g hg => ⟨hsplit g hg 1 0, hmerge g hg 3 g⟩⟩

end LlumnixKv
