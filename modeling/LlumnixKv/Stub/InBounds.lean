import LlumnixKv.Parse.HybridEntry
import LlumnixKv.Stub.Context

/-!
# Stub/InBounds — the bounds check of the copy records never fires

    shape               P = D             P > D                          P < D
    RAGGED_FLASH        EqualPair         EqualPair | SplitPair          SplitPair
    DPSK_V32            EqualPair         EqualPair | SplitPair          SplitPair
    FLASH               OwnsPlanes        OwnsPlanes                     —
    QWEN3_NEXT_FLASH    WholeBlocks       MergedBlocks                   WholeBlocks | SlicedBlocks

Entered with what its assertions check and a request whose blocks are there, every function of these
shapes returns, and what it emits lies inside both layers (`parse_inBounds`).  One thing is not checked
and has to hold: with one layer to a page nothing says that the attention kernel blocks tile it.  Where
they do not, a V row lies behind its page, and the check throws (`untiledKernels_outOfRange`).
-/

open Machinery

namespace LlumnixKv

open PageGeometry

/-! ## Shapes and functions -/

/-- The shape a function belongs to. -/
def ParseFn.cacheShape : ParseFn → CacheShape
  | parseBlockSendPEqD | parseBlockSendPGtDDpsk | parseBlockSendPGtD | parseBlockSendPLtD =>
    .raggedFlash
  | vllmParseBlockSendPEqD | vllmParseBlockSendPGtD => .flash
  | vllmParseHybridBlockSendPEqDBlockAligned | vllmParseHybridBlockSendPGtD
  | vllmParseHybridBlockSendPLtD => .qwen3NextFlash
  | vllmParseBlockSendMultiTensorPEqD | vllmParseBlockSendMultiTensorPGtD
  | vllmParseBlockSendMultiTensorPLtD => .dpskV32SparseMla
  | vllmParseFlashinferBlockSendPEqD | vllmParseFlashinferBlockSendPGtD => .flashinfer
  | vllmParseQwen3NextFlashinferBlockSendPEqD | vllmParseQwen3NextFlashinferBlockSendPGtD
  | vllmParseQwen3NextFlashinferBlockSendPLtD => .qwen3NextFlashinfer
  | parseKimiK3MlaBlockSendPEqD | parseKimiK3MlaBlockSendPGtD | parseKimiK3MlaBlockSendPLtD =>
    .kimiK3Mla
  | turboquantParseBlockSendPEqD | turboquantParseBlockSendPGtD => .turboquant

/-- **The dispatch picks a function of the shape.** -/
theorem selectParseBlock_cacheShape {shape : CacheShape} {src dst : WorkerInfo} {kvtTpSize : ℕ}
    {fn : ParseFn} {kind : TPKind}
    (h : selectParseBlock shape src dst kvtTpSize = .ok (fn, kind)) : fn.cacheShape = shape := by
  have hpick : ∀ {r : Except Fault (ParseFn × TPKind)} {fn' : ParseFn} {kind' : TPKind},
      r = .ok (fn, kind) → r = .ok (fn', kind') → fn = fn' := fun h1 h2 =>
    (Prod.mk.inj (Except.ok.inj (h1.symm.trans h2))).1
  cases shape with
  | other code => cases h
  | raggedFlash =>
    simp only [selectParseBlock, byTp] at h
    split_ifs at h <;> exact hpick h rfl ▸ rfl
  | _ =>
    simp only [selectParseBlock, byTp, unsupported] at h
    split_ifs at h <;> exact hpick h rfl ▸ rfl

/-- The shapes whose records are followed into the layers. -/
def CacheShape.Bounded (shape : CacheShape) : Prop :=
  shape = .raggedFlash ∨ shape = .flash ∨ shape = .dpskV32SparseMla ∨ shape = .qwen3NextFlash

/-! ## What a function is entered with -/

section Entry

variable (env : EnvCfg) (src dst : WorkerInfo) (validRanks : BitVec maxTpSize)
  (kvtTpSize kvtTpRank : ℕ) (task : ReqSendTask)

/-- Both sides hold these rows, and the tables of the request are its first group. -/
def EntersEqual (tensors : List RowTensor) : Prop :=
  ∃ srcTable dstTable, EqualPair src dst tensors srcTable dstTable task

/-- The narrow side holds one slice in `n` of the wide side's rows. -/
def EntersSplit (narrow wide : WorkerInfo) (tensors : List SlicedTensor) (n : ℕ)
    (narrowTables wideTables : List (List ℕ)) : Prop :=
  ∃ (hn : 1 < n) (narrowTable wideTable : List ℕ), narrowTables[0]? = some narrowTable ∧
    wideTables[0]? = some wideTable ∧
    SplitPair narrow wide tensors n hn narrowTable wideTable task ∧
    (env.ndebug = true ∨ narrow.workerTpRank / n = wide.workerTpRank)

/-- P > D in slices: the valid ranks are `n` to a D rank. -/
def EntersSplitPGtD (tensors : List SlicedTensor) : Prop :=
  ∃ n, 0 < dst.engineTpSize ∧ kvtTpSize = dst.engineTpSize * n ∧
    EntersSplit env task src dst tensors n task.req.srcBlocks task.req.dstBlocks

/-- P < D in slices. -/
def EntersSplitPLtD (tensors : List SlicedTensor) : Prop :=
  ∃ n, 0 < kvtTpSize ∧ dst.engineTpSize = kvtTpSize * n ∧
    EntersSplit env task dst src tensors n task.req.dstBlocks task.req.srcBlocks

/-- Two planes, D's rows `n` times P's. -/
def EntersPlanes (n : ℕ) : Prop :=
  ∃ ntpb kRow srcTable dstTable, 0 < ntpb ∧ ntpb < 2 ^ 32 ∧ 0 < kRow ∧
    task.req.srcBlocks[0]? = some srcTable ∧ task.req.dstBlocks[0]? = some dstTable ∧
    OwnsPlanes src ntpb kRow srcTable task ∧ OwnsPlanes dst ntpb (kRow * n) dstTable task

/-- **What the functions of the four shapes are entered with.**  A rank that is not to send is entered
with anything. -/
def Entered : ParseFn → Prop
  | .parseBlockSendPEqD => (∃ T, EntersEqual src dst task [T]) ∧ (env.ndebug = true ∨
      (kvtTpSize = dst.engineTpSize ∧ src.workerTpRank = dst.workerTpRank))
  | .parseBlockSendPGtDDpsk => (env.ndebug = true ∨ src.tokenSizes = dst.tokenSizes) ∧
      (src.workerTpRank ≠ 0 ∨
        ((∃ T, EntersEqual src dst task [T]) ∧ (env.ndebug = true ∨ dst.workerTpRank = 0)))
  | .parseBlockSendPGtD => ∃ T, EntersSplitPGtD env src dst kvtTpSize task [T]
  | .parseBlockSendPLtD => ∃ T, EntersSplitPLtD env src dst kvtTpSize task [T]
  | .vllmParseBlockSendPEqD => EntersPlanes src dst task 1 ∧ (env.ndebug = true ∨
      (kvtTpSize = dst.engineTpSize ∧ src.workerTpRank = dst.workerTpRank))
  | .vllmParseBlockSendPGtD => validRanks.getLsbD src.workerTpRank = false ∨
      (0 < dst.engineTpSize ∧ ∃ n, 0 < n ∧ Bitset.count validRanks / dst.engineTpSize = n ∧
        EntersPlanes src dst task n ∧ (env.ndebug = true ∨
          (dst.engineTpSize < kvtTpSize ∧ kvtTpRank / n = dst.workerTpRank)))
  | .vllmParseBlockSendMultiTensorPEqD => validRanks.getLsbD src.workerTpRank = false ∨
      ((∃ tensors, EntersEqual src dst task tensors) ∧ (env.ndebug = true ∨
        (kvtTpSize = dst.engineTpSize ∧ kvtTpRank = dst.workerTpRank)))
  | .vllmParseBlockSendMultiTensorPGtD =>
      (src.tokenSizes = dst.tokenSizes ∧ (src.workerTpRank ≠ 0 ∨
        ((∃ tensors, EntersEqual src dst task tensors) ∧
          (env.ndebug = true ∨ dst.workerTpRank = 0)))) ∨
      (src.tokenSizes ≠ dst.tokenSizes ∧
        ∃ tensors, EntersSplitPGtD env src dst kvtTpSize task tensors)
  | .vllmParseBlockSendMultiTensorPLtD => ∃ tensors, EntersSplitPLtD env src dst kvtTpSize task tensors
  | .vllmParseHybridBlockSendPEqDBlockAligned =>
      (∃ tokenSize blockSize, WholeBlocks src dst task tokenSize blockSize) ∧
      (task.reachLastToken = true → HoldsStateGroups src dst task.req) ∧
      (env.ndebug = true ∨ (src.engineTpSize = dst.engineTpSize ∧ kvtTpSize = dst.engineTpSize ∧
        src.workerTpRank = dst.workerTpRank))
  | .vllmParseHybridBlockSendPGtD => ∃ p d n srcAttn dstAttn,
      MergedBlocks env src dst validRanks task p d n srcAttn dstAttn
  | .vllmParseHybridBlockSendPLtD =>
      (∃ tokenSize blockSize n, WholeBlocks src dst task tokenSize blockSize ∧
        FansOut env src dst n ∧ (task.reachLastToken = true →
          SplitsState src dst task.req n blockSize blockSize)) ∨
      ∃ p d m replicas srcAttn dstAttn, SlicedBlocks env src dst task p d m replicas srcAttn dstAttn
  -- the functions of the other shapes
  | _ => True

end Entry

/-! ## The functions -/

/-- **Every function of the four shapes returns, and its records lie inside both layers.** -/
theorem parse_inBounds {env : EnvCfg} {src dst : WorkerInfo} {validRanks : BitVec maxTpSize}
    {kvtTpSize kvtTpRank : ℕ} {task : ReqSendTask} {fn : ParseFn} {kind : TPKind}
    (hshape : env.cacheShape.Bounded) (hfp8 : env.bf162fp8Conversion = false)
    (hfn : selectParseBlock env.cacheShape src dst kvtTpSize = .ok (fn, kind))
    (h : Entered env src dst validRanks kvtTpSize kvtTpRank task fn) :
    ∃ out, fn.func env src dst validRanks kvtTpSize kvtTpRank task = .ok out ∧
      InCapacities src dst out := by
  have hof := selectParseBlock_cacheShape hfn
  rw [← hof] at hshape
  cases fn with
  | parseBlockSendPEqD =>
    obtain ⟨⟨T, srcTable, dstTable, hpair⟩, hentry⟩ := h
    obtain ⟨recs, hrecs, hsent⟩ := hpair.parseBlockSendPEqD hfp8 validRanks kvtTpRank hentry
    exact ⟨[recs], hrecs, hpair.inCapacities (.cons hsent .nil)⟩
  | parseBlockSendPGtDDpsk =>
    obtain ⟨htokens, hidle | ⟨⟨T, srcTable, dstTable, hpair⟩, hentry⟩⟩ := h
    · have hassert : cassert env.ndebug (src.tokenSizes = dst.tokenSizes) = .ok () :=
        cassert_eq_ok.mpr htokens
      refine ⟨[], ?_, inCapacities_nil⟩
      rw [ParseFn.func, parseBlockSendPGtDDpsk, hassert, ok_bind, if_pos hidle]
      rfl
    · by_cases hidle : src.workerTpRank = 0
      · obtain ⟨recs, hrecs, hsent⟩ := hpair.parseBlockSendPGtDDpsk hfp8 validRanks kvtTpSize kvtTpRank
          hidle hentry
        exact ⟨[recs], hrecs, hpair.inCapacities (.cons hsent .nil)⟩
      · refine ⟨[], ?_, inCapacities_nil⟩
        rw [ParseFn.func, parseBlockSendPGtDDpsk, cassert_of hpair.sizes.1, ok_bind, if_pos hidle]
        rfl
  | parseBlockSendPGtD =>
    obtain ⟨T, n, hpos, rfl, hn, srcTable, dstTable, hsrcT, hdstT, hpair, hrank⟩ := h
    obtain ⟨out, hout, hsent⟩ :=
      hpair.parseBlockSendPGtD hfp8 hsrcT hdstT validRanks kvtTpRank hpos hrank
    exact ⟨out, hout, hpair.inCapacities false hsent⟩
  | parseBlockSendPLtD =>
    obtain ⟨T, n, hpos, htp, hn, dstTable, srcTable, hdstT, hsrcT, hpair, hrank⟩ := h
    obtain ⟨out, hout, hsent⟩ :=
      hpair.parseBlockSendPLtD hfp8 hsrcT hdstT validRanks kvtTpRank hpos htp hrank
    exact ⟨out, hout, hpair.inCapacities true hsent⟩
  | vllmParseBlockSendPEqD =>
    obtain ⟨⟨ntpb, kRow, srcTable, dstTable, hntpb, hlt, hrow, hsrcT, hdstT, hsrc, hdst⟩, hentry⟩ := h
    rw [mul_one] at hdst
    exact OwnsPlanes.vllmParseBlockSendPEqD hfp8 hsrc hntpb hlt hrow hsrcT hdstT hdst validRanks
      kvtTpRank hentry
  | vllmParseBlockSendPGtD =>
    obtain hidle | ⟨hpos, n, hn, hgroups, ⟨ntpb, kRow, srcTable, dstTable, hntpb, hlt, hrow, hsrcT,
      hdstT, hsrc, hdst⟩, hentry⟩ := h
    · exact ⟨[], by rw [ParseFn.func, vllmParseBlockSendPGtD, if_pos hidle]; rfl, inCapacities_nil⟩
    · by_cases hvalid : validRanks.getLsbD src.workerTpRank = true
      · exact OwnsPlanes.vllmParseBlockSendPGtD hfp8 hsrc hntpb hlt hrow hsrcT hdstT hdst hvalid hpos
          hn hgroups hentry
      · have hidle := Bool.eq_false_iff.mpr hvalid
        exact ⟨[], by rw [ParseFn.func, vllmParseBlockSendPGtD, if_pos hidle]; rfl, inCapacities_nil⟩
  | vllmParseBlockSendMultiTensorPEqD =>
    by_cases hvalid : validRanks.getLsbD src.workerTpRank = true
    · obtain hidle | ⟨⟨tensors, srcTable, dstTable, hpair⟩, hentry⟩ := h
      · exact absurd hvalid (by rw [hidle]; decide)
      · obtain ⟨out, hout, hsent⟩ := hpair.vllmParseBlockSendMultiTensorPEqD hfp8 hvalid hentry
        exact ⟨out, hout, hpair.inCapacities hsent⟩
    · have hidle := Bool.eq_false_iff.mpr hvalid
      exact ⟨[], by rw [ParseFn.func, vllmParseBlockSendMultiTensorPEqD, if_pos hidle]; rfl,
        inCapacities_nil⟩
  | vllmParseBlockSendMultiTensorPGtD =>
    obtain ⟨htokens, hequal⟩ | ⟨htokens, tensors, n, hpos, rfl, hn, srcTable, dstTable, hsrcT, hdstT,
      hpair, hrank⟩ := h
    · by_cases hfirst : src.workerTpRank = 0
      · obtain hidle | ⟨⟨tensors, srcTable, dstTable, hpair⟩, hentry⟩ := hequal
        · exact absurd hfirst hidle
        · obtain ⟨out, hout, hsent⟩ := hpair.vllmParseBlockSendMultiTensorPGtD hfp8 validRanks
            kvtTpSize kvtTpRank hfirst hentry
          exact ⟨out, hout, hpair.inCapacities hsent⟩
      · refine ⟨[], ?_, inCapacities_nil⟩
        rw [ParseFn.func, vllmParseBlockSendMultiTensorPGtD, if_pos htokens, if_pos hfirst]
        rfl
    · obtain ⟨out, hout, hsent⟩ := hpair.vllmParseBlockSendMultiTensorPGtD hfp8 hsrcT hdstT
        validRanks kvtTpRank htokens hpos hrank
      exact ⟨out, hout, hpair.inCapacities false hsent⟩
  | vllmParseBlockSendMultiTensorPLtD =>
    obtain ⟨tensors, n, hpos, htp, hn, dstTable, srcTable, hdstT, hsrcT, hpair, hrank⟩ := h
    obtain ⟨out, hout, hsent⟩ := hpair.vllmParseBlockSendMultiTensorPLtD hfp8 hsrcT hdstT validRanks
      kvtTpRank hpos htp hrank
    exact ⟨out, hout, hpair.inCapacities true hsent⟩
  | vllmParseHybridBlockSendPEqDBlockAligned =>
    obtain ⟨⟨tokenSize, blockSize, hblocks⟩, hstate, hentry⟩ := h
    exact hblocks.vllmParseHybridBlockSendPEqDBlockAligned hfp8 hstate validRanks kvtTpRank hentry
  | vllmParseHybridBlockSendPGtD =>
    obtain ⟨p, d, n, srcAttn, dstAttn, hblocks⟩ := h
    exact hblocks.vllmParseHybridBlockSendPGtD hfp8 kvtTpSize kvtTpRank
  | vllmParseHybridBlockSendPLtD =>
    obtain ⟨tokenSize, blockSize, n, hblocks, htp, hstate⟩ | ⟨p, d, m, replicas, srcAttn, dstAttn,
      hblocks⟩ := h
    · exact hblocks.vllmParseHybridBlockSendPLtD hfp8 htp hstate validRanks kvtTpSize kvtTpRank
    · exact hblocks.vllmParseHybridBlockSendPLtD hfp8 validRanks kvtTpSize kvtTpRank
  | _ => simp [CacheShape.Bounded, ParseFn.cacheShape] at hshape

/-! ### Two P ranks, one D rank -/

/-- Pages of one layer, two tokens to the one kernel block, rows of `step` bytes. -/
def smallPages (step : ℕ) (h : 0 < step) : PageGeometry :=
  ⟨1, 1, 2, step, Nat.one_pos, Nat.one_pos, Nat.two_pos, h⟩

/-- A rank of a QWEN3_NEXT_FLASH engine with one GDN layer. -/
def smallWorker (tp step : ℕ) : WorkerInfo where
  engineTpSize := tp
  blockSizes := [4 * step]
  tokenSizes := [2 * step]
  layerNumBlocks := 2
  attnKernelBlkNtpb := 2
  numGdnLayers := 1
  convStateShape := [2, 1, 1]
  ssmStateShape := [2, 1, 1, 1]
  gdnConvChannelDims := [1]

/-- A release build for the shape. -/
def smallEnv : EnvCfg := { cacheShape := .qwen3NextFlash }

/-- A complete request of three tokens. -/
def smallTask : ReqSendTask :=
  .first ⟨0, "r", [[1], [0, 1]], [[0], [1, 0]]⟩ 3 true

theorem small_holds (tp step : ℕ) (h : 0 < step) (hle : 4 * step * 2 ≤ sizeMax) :
    HoldsAttnPages (smallWorker tp step) (smallPages step h) where
  tokenSizes := rfl
  blockSizes := by
    simp only [smallWorker, blockSize, tokenSize, ntpb,
      perLayer, smallPages]
    congr 1
    omega
  layerNumBlocks_pos := two_pos
  capacity := by
    simp only [smallWorker, blockSize, tokenSize, ntpb,
      perLayer, smallPages]
    omega
  kernel := rfl
  pack := rfl
  ntpb_lt := by
    simp only [ntpb, perLayer, smallPages]
    omega

theorem small_mergesState :
    MergesState (smallWorker 2 1) (smallWorker 1 2) smallTask.req 2 4 8 where
  groups := by
    refine ⟨fun i hi => ⟨[1], [0], ?_⟩, fun i hi => absurd hi (Nat.not_lt_zero i)⟩
    obtain rfl : i = 0 := Nat.lt_one_iff.mp hi
    exact ⟨rfl, rfl, rfl, by decide, by decide⟩
  gdn := by
    refine ⟨1, 1, 1, ?_, by decide, by decide⟩
    exact ⟨⟨rfl, 1, rfl, rfl⟩, ⟨1, 1, 1, rfl, rfl, rfl, rfl⟩, rfl, by decide, by decide, by decide⟩
  conv := ⟨0, fun h => absurd h (Nat.lt_irrefl 0)⟩

theorem small_entered : Entered smallEnv (smallWorker 2 1) (smallWorker 1 2) 3#16 2 0 smallTask
    .vllmParseHybridBlockSendPGtD := by
  refine ⟨smallPages 1 one_pos, smallPages 2 two_pos, 2, [0, 1], [1, 0],
    ⟨small_holds 2 1 _ (by decide), small_holds 1 2 _ (by decide), rfl, .inl ⟨rfl, rfl⟩, ?_⟩,
    by decide, by decide, rfl, .inl rfl, by decide, by decide, fun _ => small_mergesState,
    .inl rfl⟩
  exact ⟨rfl, rfl, ⟨by decide, by decide⟩, ⟨by decide, by decide⟩⟩

theorem parse_inBounds_small : ∃ out, vllmParseHybridBlockSendPGtD smallEnv (smallWorker 2 1)
      (smallWorker 1 2) 3#16 2 0 smallTask = .ok out ∧
    InCapacities (smallWorker 2 1) (smallWorker 1 2) out := by
  have hfn : selectParseBlock smallEnv.cacheShape (smallWorker 2 1) (smallWorker 1 2) 2 =
      .ok (.vllmParseHybridBlockSendPGtD, .pgtd) := by decide
  exact parse_inBounds (.inr (.inr (.inr rfl))) rfl hfn small_entered

/-! ## Kernel blocks that do not tile the page -/

/-- Three tokens to a page, in kernel blocks of two. -/
def untiledWorker (tp tokenSize : ℕ) : WorkerInfo where
  engineTpSize := tp
  blockSizes := [3 * tokenSize]
  tokenSizes := [tokenSize]
  attnKernelBlkNtpb := 2
  numGdnLayers := 0

/-- The three tokens of the only block. -/
def untiledTask : ReqSendTask := .first ⟨0, "r", [[0]], [[0]]⟩ 3 false

/-- **No assertion fails, the block is there, and a record leaves the layer**: the V row of the third
token is in the second kernel block, half of which is behind the page. -/
theorem untiledKernels_outOfRange :
    (∀ t < untiledTask.endTokens, t / 3 < [0].length) ∧
    (∀ id ∈ [0], id < (untiledWorker 2 2).layerNumBlocks ∧ id < (untiledWorker 1 4).layerNumBlocks) ∧
    ∀ ndebug, computeValidRanksPd ndebug 2 1 (untiledWorker 2 2).numKvHeads = .ok 3#16 ∧
      vllmParseHybridBlockSendPGtD { ndebug, cacheShape := .qwen3NextFlash } (untiledWorker 2 2)
        (untiledWorker 1 4) 3#16 2 0 untiledTask = .error .outOfRange := by
  decide +kernel

end LlumnixKv
