import LlumnixKv.Parse.HybridInBounds

/-!
# Parse/HybridEntry — what the QWEN3_NEXT_FLASH functions are entered with

    P = D                      WholeBlocks + whole state pages
    P > D                      MergedBlocks + merged state
    P < D, equal rows          WholeBlocks + split state
    P < D, rows in slices      SlicedBlocks + split state

One structure for each regime: the equations its entry assertions check, the tables of the request,
and the room for the state and the indexer rows in the pages.  What the assertions do not check and
the offsets need is in `PageGeometry`: the kernel blocks tile the page.  An assertion that decides
nothing about offsets — which rank talks to which — is asked for only where the build checks it.
-/

open Machinery

namespace LlumnixKv

open PageGeometry

variable {src dst : WorkerInfo}

/-- The end of the functions: two runs that stay inside the one tensor. -/
theorem exists_inCapacities {pBS dBS : ℕ} {x y : Except Fault (List IpcBlock)}
    (hsrc : src.blockSizes = [pBS]) (hdst : dst.blockSizes = [dBS])
    (hx : Yields (InPages src dst pBS dBS) x) (hy : Yields (InPages src dst pBS dBS) y) :
    ∃ out, (do
      let a ← x
      let b ← y
      return firstOf 1 (a ++ b)) = .ok out ∧ InCapacities src dst out := by
  obtain ⟨a, rfl, ha⟩ := hx
  obtain ⟨b, rfl, hb⟩ := hy
  exact ⟨[a ++ b], rfl, inCapacities_singleton hsrc hdst fun rec hrec =>
    (List.mem_append.mp hrec).elim (ha rec) (hb rec)⟩

/-! ## Tables -/

/-- Group `i` of the request on both sides, a block holding `srcNtpb` and `dstNtpb` tokens. -/
structure HoldsTables (src dst : WorkerInfo) (task : ReqSendTask) (i srcNtpb dstNtpb : ℕ)
    (srcTable dstTable : List ℕ) : Prop where
  src_eq : task.req.srcBlocks[i]? = some srcTable
  dst_eq : task.req.dstBlocks[i]? = some dstTable
  src_covers : CoversTokens src srcNtpb task srcTable
  dst_covers : CoversTokens dst dstNtpb task dstTable

theorem HoldsTables.lt_length {task : ReqSendTask} {i srcNtpb dstNtpb : ℕ}
    {srcTable dstTable : List ℕ} (h : HoldsTables src dst task i srcNtpb dstNtpb srcTable dstTable) :
    i < task.req.srcBlocks.length ∧ i < task.req.dstBlocks.length :=
  ⟨(List.getElem?_eq_some_iff.mp h.src_eq).1, (List.getElem?_eq_some_iff.mp h.dst_eq).1⟩

/-- The two sides have the same blocks, which are sent whole; of a complete request those past its
tokens too. -/
def HoldsWholeBlocks (src dst : WorkerInfo) (task : ReqSendTask) (i ntpb : ℕ) : Prop :=
  ∃ srcTable dstTable, HoldsTables src dst task i ntpb ntpb srcTable dstTable ∧
    (task.reachLastToken = true → srcTable.length = dstTable.length)

/-- The indexer rows of the two sides: in a group of their own, at the start of its pages. -/
structure HoldsIndexer (src dst : WorkerInfo) (task : ReqSendTask) (pBlockSize dBlockSize : ℕ) :
    Prop where
  src_pos : 0 < src.indexerBlkNtpb
  dst_pos : 0 < dst.indexerBlkNtpb
  row_pos : 0 < src.hybridIndexerTokenSize
  src_fits : src.indexerBlkNtpb * src.hybridIndexerTokenSize ≤ pBlockSize
  dst_fits : dst.indexerBlkNtpb * src.hybridIndexerTokenSize ≤ dBlockSize
  -- the products are computed in `uint32_t`
  src_lt : src.indexerBlkNtpb * src.hybridIndexerTokenSize < 2 ^ 32
  dst_lt : dst.indexerBlkNtpb * src.hybridIndexerTokenSize < 2 ^ 32
  tables : ∃ srcTable dstTable, HoldsTables src dst task src.numGdnLayers src.indexerBlkNtpb
    dst.indexerBlkNtpb srcTable dstTable

/-! ## State -/

/-- The short convolution fits in the pages. -/
def ShortConvFits (src : WorkerInfo) (pBlockSize dBlockSize : ℕ) : Prop :=
  ∃ size, 0 < src.numPleLayers → HoldsShortConv src size ∧ size ≤ pBlockSize ∧ size ≤ dBlockSize

/-- The state of `n` senders fits in a page of D. -/
structure MergesState (src dst : WorkerInfo) (req : RequestInfo) (n pBlockSize dBlockSize : ℕ) :
    Prop where
  groups : HoldsStateGroups src dst req
  gdn : ∃ convRows rowSize ssmSize, HoldsGdn src convRows rowSize ssmSize ∧
    convRows * rowSize + ssmSize ≤ pBlockSize ∧ n * (convRows * rowSize + ssmSize) ≤ dBlockSize
  conv : ShortConvFits src pBlockSize dBlockSize

/-- The state of the sender is cut into `n` parts, one for each of its targets. -/
structure SplitsState (src dst : WorkerInfo) (req : RequestInfo) (n pBlockSize dBlockSize : ℕ) :
    Prop where
  groups : HoldsStateGroups src dst req
  gdn : ∃ convRows rowSize ssmSize, HoldsGdn src convRows (n * rowSize) (n * ssmSize) ∧
    n * (convRows * rowSize + ssmSize) ≤ pBlockSize ∧ convRows * rowSize + ssmSize ≤ dBlockSize
  channels : ∀ dim ∈ src.gdnConvChannelDims, n ∣ dim * src.gdnConvElemSize
  conv : ShortConvFits src pBlockSize dBlockSize

section StateParts

variable {env : EnvCfg} {src dst : WorkerInfo} {task : ReqSendTask} {b : IpcBlockBounds}
  {pBS dBS n off : ℕ}

theorem MergesState.yields (hb : b.AdmitsPages src dst pBS dBS)
    (h : task.reachLastToken = true → MergesState src dst task.req n pBS dBS) (hoff : off < n) :
    Yields (InPages src dst pBS dBS)
      (hybridStatePart env pBS dBS n off src task b) := by
  rw [hybridStatePart]
  split
  case isTrue hlast =>
    obtain ⟨convRows, rowSize, ssmSize, hgdn, hp, hd⟩ := (h hlast).gdn
    obtain ⟨size, hconv⟩ := (h hlast).conv
    exact (yields_parseHybridGdnBlockSendPGtD hb hgdn (h hlast).groups hoff hp hd).append
      (yields_parseHybridShortConvBlockSendPGtD hb (h hlast).groups hconv hoff)
  case isFalse => exact yields_nil

theorem SplitsState.yields (hb : b.AdmitsPages src dst pBS dBS)
    (h : task.reachLastToken = true → SplitsState src dst task.req n pBS dBS) (hoff : off < n) :
    Yields (InPages src dst pBS dBS)
      (hybridStatePartPLtD env pBS dBS n off src task b) := by
  rw [hybridStatePartPLtD]
  split
  case isTrue hlast =>
    obtain ⟨convRows, rowSize, ssmSize, hgdn, hp, hd⟩ := (h hlast).gdn
    obtain ⟨size, hconv⟩ := (h hlast).conv
    exact (yields_parseHybridGdnBlockSendPLtD hb hgdn (h hlast).groups hoff (h hlast).channels hp
      hd).append (yields_parseHybridShortConvBlockSendPLtD hb (h hlast).groups hconv hoff)
  case isFalse => exact yields_nil

/-- State pages sent whole. -/
theorem yields_wholeStatePart (hb : b.AdmitsPages src dst pBS pBS)
    (hsize : 0 < pBS) (h : task.reachLastToken = true → HoldsStateGroups src dst task.req) :
    Yields (InPages src dst pBS pBS) (wholeStatePart env pBS src task b) := by
  rw [wholeStatePart]
  split
  case isTrue hlast =>
    have hgdn : ∀ i < src.numGdnLayers, ∃ srcGrp dstGrp,
        HoldsGroup src dst task.req (0 + i) srcGrp dstGrp := fun i hi => by
      rw [zero_add]
      exact (h hlast).gdn i hi
    exact (yields_wholePages hb rfl hsize hgdn).append
      (yields_wholePages hb rfl hsize (h hlast).ple)
  case isFalse => exact yields_nil

end StateParts

/-! ## Equal pages -/

/-- Both sides have the same pages. -/
structure WholeBlocks (src dst : WorkerInfo) (task : ReqSendTask) (tokenSize blockSize : ℕ) :
    Prop where
  src_holds : HoldsTensor src tokenSize blockSize
  dst_holds : HoldsTensor dst tokenSize blockSize
  tokenSize_pos : 0 < tokenSize
  ntpb_mod : blockSize / tokenSize % packOf src.attnPackSize = 0
  ntpb_pos : 0 < blockSize / tokenSize / packOf src.attnPackSize
  ntpb_lt : blockSize / tokenSize / packOf src.attnPackSize < 2 ^ 32
  kernel_eq : src.attnKernelBlkNtpb = dst.attnKernelBlkNtpb
  indexer_eq : src.indexerBlkNtpb = dst.indexerBlkNtpb
  pack_eq : src.attnPackSize = dst.attnPackSize
  indexer : 0 < src.indexerBlkNtpb →
    HoldsWholeBlocks src dst task src.numGdnLayers src.indexerBlkNtpb
  attn : HoldsWholeBlocks src dst task (attnGroupOffsetPLtD src)
    (blockSize / tokenSize / packOf src.attnPackSize)

variable {n : ℕ}

section Whole

variable {env : EnvCfg} {src dst : WorkerInfo} {task : ReqSendTask} {tokenSize blockSize : ℕ}

variable (h : WholeBlocks src dst task tokenSize blockSize)
include h

theorem WholeBlocks.blockSize_pos : 0 < blockSize := by
  rcases Nat.eq_zero_or_pos blockSize with rfl | hpos
  · have := h.ntpb_pos
    simp at this
  · exact hpos

/-- **Indexer and attention blocks, whole.** -/
theorem WholeBlocks.yields_fanOutReplicated {b : IpcBlockBounds}
    (hb : b.AdmitsPages src dst blockSize blockSize) :
    Yields (InPages src dst blockSize blockSize) (fanOutReplicated env false blockSize
        (u32 (blockSize / tokenSize / packOf src.attnPackSize)) src task b) := by
  obtain ⟨srcAttn, dstAttn, hattn, hlen⟩ := h.attn
  have hindexer : Yields (InPages src dst blockSize blockSize)
        (fanOutIndexer src task fun srcBlks dstBlks =>
        doParseBlockAlignedSend env blockSize task srcBlks dstBlks src.indexerBlkNtpb b) := by
    rw [fanOutIndexer]
    split
    case isTrue hpos =>
      obtain ⟨srcIndexer, dstIndexer, htables, hlen⟩ := h.indexer hpos
      rw [vecAt_eq_ok.mpr htables.src_eq, ok_bind, vecAt_eq_ok.mpr htables.dst_eq, ok_bind]
      exact yields_doParseBlockAlignedSend hb h.blockSize_pos hpos htables.src_covers
        htables.dst_covers hlen
    case isFalse => exact yields_nil
  rw [fanOutReplicated, u32_of_lt h.ntpb_lt, vecAt_eq_ok.mpr hattn.src_eq,
    vecAt_eq_ok.mpr hattn.dst_eq]
  exact hindexer.append (yields_doParseBlockAlignedSend hb h.blockSize_pos h.ntpb_pos
    hattn.src_covers hattn.dst_covers hlen)

/-- **QWEN3_NEXT_FLASH, P = D.** -/
theorem WholeBlocks.vllmParseHybridBlockSendPEqDBlockAligned (hfp8 : env.bf162fp8Conversion = false)
    (hstate : task.reachLastToken = true → HoldsStateGroups src dst task.req)
    (validRanks : BitVec maxTpSize) {kvtTpSize : ℕ} (kvtTpRank : ℕ) (hentry : env.ndebug = true ∨
      (src.engineTpSize = dst.engineTpSize ∧ kvtTpSize = dst.engineTpSize ∧ src.workerTpRank =
      dst.workerTpRank)) :
    ∃ out, vllmParseHybridBlockSendPEqDBlockAligned env src dst validRanks kvtTpSize kvtTpRank task
        = .ok out ∧ InCapacities src dst out := by
  obtain ⟨bounds, hbounds, hb⟩ := h.src_holds.exists_bounds h.dst_holds hfp8
  have htp : cassert env.ndebug (src.engineTpSize = dst.engineTpSize) = .ok () :=
    cassert_eq_ok.mpr (hentry.imp_right And.left)
  have hkvt : cassert env.ndebug (kvtTpSize = dst.engineTpSize) = .ok () :=
    cassert_eq_ok.mpr (hentry.imp_right fun h => h.2.1)
  have hrank : cassert env.ndebug (src.workerTpRank = dst.workerTpRank) = .ok () :=
    cassert_eq_ok.mpr (hentry.imp_right fun h => h.2.2)
  simp only [LlumnixKv.vllmParseHybridBlockSendPEqDBlockAligned, htp, hkvt, hrank,
    h.src_holds.tokenSizes, h.dst_holds.tokenSizes, h.src_holds.blockSizes, h.dst_holds.blockSizes,
    List.length_singleton, cassert_of trivial, hbounds, vecAt_singleton,
      checkedDiv_of_pos h.tokenSize_pos,
    cassert_of h.ntpb_mod, cassert_of h.kernel_eq, cassert_of h.indexer_eq, cassert_of h.pack_eq,
    ok_bind]
  exact exists_inCapacities h.src_holds.blockSizes h.dst_holds.blockSizes
    (h.yields_fanOutReplicated hb) (yields_wholeStatePart hb h.blockSize_pos hstate)

/-- The TP sizes and ranks of P < D: `n` D ranks to a P rank. -/
structure FansOut (env : EnvCfg) (src dst : WorkerInfo) (n : ℕ) : Prop where
  pTp_pos : 0 < src.engineTpSize
  one_lt : 1 < n
  dTp_eq : dst.engineTpSize = src.engineTpSize * n
  rank : env.ndebug = true ∨ dst.workerTpRank / n = src.workerTpRank

/-- **QWEN3_NEXT_FLASH, P < D, equal rows.** -/
theorem WholeBlocks.vllmParseHybridBlockSendPLtD (hfp8 : env.bf162fp8Conversion = false)
    (htp : FansOut env src dst n)
    (hstate : task.reachLastToken = true → SplitsState src dst task.req n blockSize blockSize)
    (validRanks : BitVec maxTpSize) (kvtTpSize kvtTpRank : ℕ) :
    ∃ out, vllmParseHybridBlockSendPLtD env src dst validRanks kvtTpSize kvtTpRank task = .ok out ∧
      InCapacities src dst out := by
  obtain ⟨bounds, hbounds, hb⟩ := h.src_holds.exists_bounds h.dst_holds hfp8
  have hn : 0 < n := Nat.zero_lt_of_lt htp.one_lt
  have hlt : src.engineTpSize < src.engineTpSize * n :=
    (Nat.lt_mul_iff_one_lt_right htp.pTp_pos).mpr htp.one_lt
  have hrank : cassert env.ndebug (dst.workerTpRank / n = src.workerTpRank) = .ok () :=
    cassert_eq_ok.mpr htp.rank
  have hindexer : (src.indexerBlkNtpb = 0 ∧ dst.indexerBlkNtpb = 0) ∨
      (0 < src.indexerBlkNtpb ∧ 0 < dst.indexerBlkNtpb) := by
    have := h.indexer_eq
    omega
  simp only [LlumnixKv.vllmParseHybridBlockSendPLtD, htp.dTp_eq, cassert_of hlt,
    checkedDiv_of_pos htp.pTp_pos, Nat.mul_div_cancel_left n htp.pTp_pos,
    cassert_of (Nat.mul_mod_right _ n), checkedDiv_of_pos hn, hrank,
    h.src_holds.tokenSizes, h.dst_holds.tokenSizes, h.src_holds.blockSizes, h.dst_holds.blockSizes,
    List.length_singleton, cassert_of trivial, hbounds, vecAt_singleton, cassert_of hindexer,
    cassert_of h.pack_eq, if_true, checkedDiv_of_pos h.tokenSize_pos, cassert_of h.ntpb_mod,
    cassert_of h.kernel_eq, cassert_of h.indexer_eq, ok_bind]
  exact exists_inCapacities h.src_holds.blockSizes h.dst_holds.blockSizes
    (h.yields_fanOutReplicated hb) (SplitsState.yields hb hstate (Nat.mod_lt _ hn))

end Whole

/-! ## Pages of two geometries -/

/-- A worker registered one tensor of attention pages of this geometry. -/
structure HoldsAttnPages (w : WorkerInfo) (g : PageGeometry) : Prop extends
    HoldsTensor w g.tokenSize g.blockSize where
  kernel : w.attnKernelBlkNtpb = g.kernelNtpb
  pack : packOf w.attnPackSize = g.pack
  ntpb_lt : g.ntpb < 2 ^ 32

/-- The pages of P and D: as many layers in a page, and both with indexer rows or neither. -/
structure HoldsHybrid (src dst : WorkerInfo) (p d : PageGeometry) (task : ReqSendTask)
    (attnGroup : ℕ)
    (srcAttn dstAttn : List ℕ) : Prop where
  src_holds : HoldsAttnPages src p
  dst_holds : HoldsAttnPages dst d
  pack_eq : p.pack = d.pack
  indexer : (src.indexerBlkNtpb = 0 ∧ dst.indexerBlkNtpb = 0) ∨
    HoldsIndexer src dst task p.blockSize d.blockSize
  attn : HoldsTables src dst task attnGroup p.perLayer d.perLayer srcAttn dstAttn

section TwoGeometries

variable {env : EnvCfg} {src dst : WorkerInfo} {p d : PageGeometry} {task : ReqSendTask}
  {attnGroup : ℕ} {srcAttn dstAttn : List ℕ} {b : IpcBlockBounds}

theorem HoldsHybrid.indexers (h : HoldsHybrid src dst p d task attnGroup srcAttn dstAttn) :
    (src.indexerBlkNtpb = 0 ∧ dst.indexerBlkNtpb = 0) ∨
      (0 < src.indexerBlkNtpb ∧ 0 < dst.indexerBlkNtpb) :=
  h.indexer.imp_right fun hi => ⟨hi.src_pos, hi.dst_pos⟩

theorem HoldsIndexer.yields (hb : b.AdmitsPages src dst p.blockSize d.blockSize)
    (h : HoldsIndexer src dst task p.blockSize d.blockSize) :
    Yields (InPages src dst p.blockSize d.blockSize) (do
      let srcIndexer ← vecAt task.req.srcBlocks src.numGdnLayers
      let dstIndexer ← vecAt task.req.dstBlocks src.numGdnLayers
      parseHybridIndexerBlock env p.blockSize d.blockSize task.seenTokens task.newTokens srcIndexer
        dstIndexer src.indexerBlkNtpb dst.indexerBlkNtpb src.hybridIndexerTokenSize b) := by
  obtain ⟨srcIndexer, dstIndexer, htables⟩ := h.tables
  rw [vecAt_eq_ok.mpr htables.src_eq, ok_bind, vecAt_eq_ok.mpr htables.dst_eq, ok_bind]
  exact yields_parseHybridIndexerBlock hb h.src_pos h.dst_pos h.row_pos h.src_fits h.dst_fits
    h.src_lt h.dst_lt htables.src_covers htables.dst_covers

/-! ### P > D -/

/-- What P > D is entered with: `n` P ranks to a D rank, of which the valid ones hold the slices of
its rows. -/
structure MergedBlocks (env : EnvCfg) (src dst : WorkerInfo) (validRanks : BitVec maxTpSize)
    (task : ReqSendTask) (p d : PageGeometry) (n : ℕ) (srcAttn dstAttn : List ℕ) : Prop extends
    HoldsHybrid src dst p d task (attnGroupOffset src dst) srcAttn dstAttn where
  dTp_pos : 0 < dst.engineTpSize
  one_lt : 1 < n
  pTp_eq : src.engineTpSize = dst.engineTpSize * n
  rank : env.ndebug = true ∨ src.workerTpRank / n = dst.workerTpRank
  slices_pos : 0 < Bitset.count validRanks / dst.engineTpSize
  width : d.step = p.step * (Bitset.count validRanks / dst.engineTpSize)
  state : task.reachLastToken = true → MergesState src dst task.req n p.blockSize d.blockSize
  pages : env.ndebug = true ∨ d.perLayer ≤ p.perLayer

theorem HoldsHybrid.yields_hybridIndexerPart
    (h : HoldsHybrid src dst p d task attnGroup srcAttn dstAttn) (hn : 0 < n)
    (hb : b.AdmitsPages src dst p.blockSize d.blockSize) :
    Yields (InPages src dst p.blockSize d.blockSize)
      (hybridIndexerPart env p.blockSize d.blockSize n src dst task b) := by
  rw [hybridIndexerPart]
  rcases h.indexer with ⟨hsrc, hdst⟩ | hindexer
  · have hnone : hasIndexer src dst = false := by rw [hasIndexer, hsrc]; rfl
    rw [if_pos hnone]
    exact yields_nil
  · have hsome : hasIndexer src dst = true := by
      rw [hasIndexer, decide_eq_true hindexer.src_pos, decide_eq_true hindexer.dst_pos]
      rfl
    rw [if_neg (by rw [hsome]; decide), checkedDiv_of_pos hn]
    split
    · exact hindexer.yields hb
    · exact yields_nil

theorem MergedBlocks.attnPair {validRanks : BitVec maxTpSize} (kvtTpRank : ℕ)
    (h : MergedBlocks env src dst validRanks task p d n srcAttn dstAttn) :
    AttnPair src dst p d (kvtTpRank % (Bitset.count validRanks / dst.engineTpSize)) task srcAttn
      dstAttn where
  pack_eq := h.pack_eq
  slice := by
    rw [h.width, ← Nat.succ_mul, mul_comm p.step]
    exact Nat.mul_le_mul_right _ (Nat.mod_lt _ h.slices_pos)
  narrow_covers := h.attn.src_covers
  wide_covers := h.attn.dst_covers

/-- The attention records of a valid rank, and the tail. -/
theorem AttnPair.yields_hybridAttnPart {off : ℕ} (h : AttnPair src dst p d off task srcAttn dstAttn)
    (hb : b.AdmitsPages src dst p.blockSize d.blockSize)
    (hpages : task.reachLastToken = true → env.ndebug = true ∨ FillFits p d task.endTokens) :
    Yields (InPages src dst p.blockSize d.blockSize)
      (hybridAttnPart env (p.side srcAttn) (d.side dstAttn) off p.pack task b) := by
  rw [hybridAttnPart]
  refine (h.yields_parseHybridAttnBlock false rfl rfl hb).append ?_
  split
  case isTrue hlast =>
    exact h.yields_fillLastHybridAttnBlock hb (hpages (Bool.and_eq_true_iff.mp hlast).2)
  case isFalse => exact yields_nil

/-- **QWEN3_NEXT_FLASH, P > D.** -/
theorem MergedBlocks.vllmParseHybridBlockSendPGtD {validRanks : BitVec maxTpSize}
    (h : MergedBlocks env src dst validRanks task p d n srcAttn dstAttn)
    (hfp8 : env.bf162fp8Conversion = false) (kvtTpSize kvtTpRank : ℕ) :
    ∃ out, vllmParseHybridBlockSendPGtD env src dst validRanks kvtTpSize kvtTpRank task = .ok out ∧
      InCapacities src dst out := by
  obtain ⟨bounds, hbounds, hb⟩ := h.src_holds.exists_bounds h.dst_holds.toHoldsTensor hfp8
  have hn : 0 < n := Nat.zero_lt_of_lt h.one_lt
  have hlt : dst.engineTpSize < dst.engineTpSize * n :=
    (Nat.lt_mul_iff_one_lt_right h.dTp_pos).mpr h.one_lt
  have hrank : cassert env.ndebug (src.workerTpRank / n = dst.workerTpRank) = .ok () :=
    cassert_eq_ok.mpr h.rank
  have hwidth : d.tokenSize = p.tokenSize * (Bitset.count validRanks / dst.engineTpSize) := by
    rw [tokenSize, h.width, tokenSize, mul_assoc]
  have hpacks : packOf src.attnPackSize = packOf dst.attnPackSize := by
    rw [h.src_holds.pack, h.dst_holds.pack, h.pack_eq]
  obtain ⟨hlook, hlook'⟩ := h.attn.lt_length
  have hgdn : src.numGdnLayers ≤ attnGroupOffset src dst := Nat.le_add_right _ _
  have hattn := (h.attnPair kvtTpRank).yields_hybridAttnPart hb fun _ =>
    h.pages.imp_right fun hle => .inr (hle.trans (Nat.le_add_right _ _))
  obtain ⟨out, hout, hin⟩ : Yields (InPages src dst p.blockSize d.blockSize)
        (doParseHybridBlockSendPGtD env p.tokenSize d.tokenSize
        p.ntpb d.ntpb (kvtTpRank % (Bitset.count validRanks / dst.engineTpSize)) n
        (src.workerTpRank % n) validRanks src dst task bounds) := by
    obtain ⟨state, hstate, hstateIn⟩ : Yields (InPages src dst p.blockSize d.blockSize)
          (hybridStatePart env p.blockSize d.blockSize n (src.workerTpRank % n) src task bounds) :=
      MergesState.yields hb h.state (Nat.mod_lt _ hn)
    obtain ⟨indexer, hindexer, hindexerIn⟩ : Yields (InPages src dst p.blockSize d.blockSize)
        (hybridIndexerPart env p.blockSize d.blockSize n src dst task bounds) :=
      h.yields_hybridIndexerPart hn hb
    obtain ⟨attn, hattn, hattnIn⟩ := hattn
    have hpsize : p.tokenSize * p.ntpb = p.blockSize := rfl
    have hdsize : d.tokenSize * d.ntpb = d.blockSize := rfl
    simp only [doParseHybridBlockSendPGtD, hpsize, hdsize, cassert_of hpacks,
      cassert_of (show src.numGdnLayers < task.req.srcBlocks.length by omega),
      cassert_of (show src.numGdnLayers < task.req.dstBlocks.length by omega), hstate,
      cassert_of h.indexers, hindexer, cassert_of hlook, cassert_of hlook',
      vecAt_eq_ok.mpr h.attn.src_eq, vecAt_eq_ok.mpr h.attn.dst_eq, ok_bind]
    have hhead : ∀ rec ∈ state ++ indexer, InPages src dst p.blockSize d.blockSize rec := fun rec
      hrec =>
      (List.mem_append.mp hrec).elim (hstateIn rec) (hindexerIn rec)
    split
    · rw [h.src_holds.kernel, h.dst_holds.kernel, h.src_holds.pack]
      refine ⟨state ++ indexer ++ attn, ?_, fun rec hrec =>
        (List.mem_append.mp hrec).elim (hhead rec) (hattnIn rec)⟩
      exact bind_eq_ok.mpr ⟨attn, hattn, rfl⟩
    · exact ⟨state ++ indexer, rfl, hhead⟩
  refine ⟨[out], ?_, inCapacities_singleton h.src_holds.blockSizes h.dst_holds.blockSizes hin⟩
  simp only [LlumnixKv.vllmParseHybridBlockSendPGtD, h.pTp_eq, cassert_of hlt,
    checkedDiv_of_pos h.dTp_pos, Nat.mul_div_cancel_left n h.dTp_pos,
    cassert_of (Nat.mul_mod_right _ n), checkedDiv_of_pos hn, hrank,
    checkedDiv_of_pos h.slices_pos, h.src_holds.tokenSizes, h.dst_holds.tokenSizes,
    h.src_holds.blockSizes, h.dst_holds.blockSizes, List.length_singleton, cassert_of trivial,
      vecAt_singleton,
    cassert_of hwidth, checkedDiv_of_pos p.tokenSize_pos, checkedDiv_of_pos d.tokenSize_pos,
    ntpb_of_blockSize h.src_holds.ntpb_lt,
    ntpb_of_blockSize h.dst_holds.ntpb_lt, cassert_of p.ntpb_mul_tokenSize,
    cassert_of d.ntpb_mul_tokenSize,
    hbounds, hout, ok_bind]
  rfl

/-! ### P < D -/

/-- What P < D is entered with where the rows differ: a P row holds `m` D rows, and `m · replicas` D
ranks are served by a P rank. -/
structure SlicedBlocks (env : EnvCfg) (src dst : WorkerInfo) (task : ReqSendTask)
    (p d : PageGeometry)
    (m replicas : ℕ) (srcAttn dstAttn : List ℕ) : Prop extends
    HoldsHybrid src dst p d task (attnGroupOffsetPLtD src) srcAttn dstAttn,
    FansOut env src dst (m * replicas) where
  one_lt_m : 1 < m
  width : p.step = d.step * m
  dTp_lt : dst.engineTpSize < 2 ^ 32
  packSize_eq : env.ndebug = true ∨ src.attnPackSize = dst.attnPackSize
  heads : env.ndebug = true ∨ src.numKvHeads ≤ 0 ∨ src.numKvHeads % src.engineTpSize = 0
  state : task.reachLastToken = true →
    SplitsState src dst task.req (m * replicas) p.blockSize d.blockSize
  tokens_pos : 0 < task.endTokens

section Sliced

variable {m replicas : ℕ} (h : SlicedBlocks env src dst task p d m replicas srcAttn dstAttn)

include h

/-- The slice of a D rank. -/
theorem SlicedBlocks.attnSlice_eq :
    attnSlice env p.tokenSize d.tokenSize src.engineTpSize dst.engineTpSize dst.workerTpRank =
      .ok (m, dst.workerTpRank / replicas % m) := by
  have hm : 0 < m := Nat.zero_lt_of_lt h.one_lt_m
  have hreplicas : 0 < replicas := Nat.pos_of_mul_pos_left (Nat.zero_lt_of_lt h.one_lt)
  have hpTok : p.tokenSize = d.tokenSize * m := by
    rw [tokenSize, h.width, tokenSize, mul_assoc]
  have hdTok := d.tokenSize_pos
  have hlt : d.tokenSize < p.tokenSize := by
    rw [hpTok]
    exact (Nat.lt_mul_iff_one_lt_right hdTok).mpr h.one_lt_m
  have hdTp : dst.engineTpSize = src.engineTpSize * m * replicas := by
    rw [h.dTp_eq, mul_assoc]
  have hgroups : 0 < src.engineTpSize * m := mul_pos h.pTp_pos hm
  have hgroupsLe : src.engineTpSize * m ≤ dst.engineTpSize := by
    rw [hdTp]
    exact Nat.le_mul_of_pos_right _ hreplicas
  have hmLe : m ≤ src.engineTpSize * m := Nat.le_mul_of_pos_left _ h.pTp_pos
  have hdTpLt := h.dTp_lt
  have hquot : u32 (p.tokenSize / d.tokenSize) = m := by
    rw [hpTok, Nat.mul_div_cancel_left _ hdTok, u32_of_lt (by omega)]
  have hwrap : u32 (src.engineTpSize * m) = src.engineTpSize * m := u32_of_lt (by omega)
  have hmod : p.tokenSize % d.tokenSize = 0 := by rw [hpTok, Nat.mul_mod_right]
  have hmod' : dst.engineTpSize % (src.engineTpSize * m) = 0 := by rw [hdTp, Nat.mul_mod_right]
  have hdiv : dst.engineTpSize / (src.engineTpSize * m) = replicas := by
    rw [hdTp, Nat.mul_div_cancel_left _ hgroups]
  simp only [attnSlice, cassert_of hlt, checkedDiv_of_pos hdTok, cassert_of hmod, hquot, hwrap,
    checkedDiv_of_pos hgroups, cassert_of hmod', hdiv, checkedDiv_of_pos hreplicas,
    checkedDiv_of_pos hm, ok_bind]
  rfl

/-- D's rows are the narrow ones. -/
theorem SlicedBlocks.attnPair :
    AttnPair dst src d p (dst.workerTpRank / replicas % m) task dstAttn srcAttn where
  pack_eq := h.pack_eq.symm
  slice := by
    rw [h.width, ← Nat.succ_mul, mul_comm d.step]
    exact Nat.mul_le_mul_right _ (Nat.mod_lt _ (Nat.zero_lt_of_lt h.one_lt_m))
  narrow_covers := h.attn.dst_covers
  wide_covers := h.attn.src_covers

omit h in
/-- The attention records of a D rank whose rows are slices, and the tail. -/
theorem AttnPair.yields_slicedAttnPart {off : ℕ}
    (hpair : AttnPair dst src d p off task dstAttn srcAttn)
    (hb : b.AdmitsPages src dst p.blockSize d.blockSize) (htokens : 0 < task.endTokens) :
    Yields (InPages src dst p.blockSize d.blockSize)
      (slicedAttnPart env (p.side srcAttn) (d.side dstAttn) off p.pack task b) := by
  rw [slicedAttnPart, ← hpair.pack_eq]
  refine (hpair.yields_parseHybridAttnBlock true rfl rfl hb).append ?_
  split
  · exact yields_fillTailHybridAttnBlockPLtD hb (blockSize_pos p)
      (Nat.zero_lt_of_lt (hpair.wide_covers.covered 0 htokens)) hpair.wide_covers.ids
      hpair.narrow_covers.ids
  · exact yields_nil

/-- The indexer and the attention records. -/
theorem SlicedBlocks.yields_fanOutSliced (hb : b.AdmitsPages src dst p.blockSize d.blockSize) :
    Yields (InPages src dst p.blockSize d.blockSize)
      (fanOutSliced env p.blockSize d.blockSize src dst task b fun srcBlks dstBlks =>
        slicedAttnPart env (p.side srcBlks) (d.side dstBlks) (dst.workerTpRank / replicas % m)
          p.pack
          task b) := by
  have hindexer : Yields (InPages src dst p.blockSize d.blockSize)
        (fanOutIndexer src task fun srcBlks dstBlks =>
        parseHybridIndexerBlock env p.blockSize d.blockSize task.seenTokens task.newTokens srcBlks
          dstBlks src.indexerBlkNtpb dst.indexerBlkNtpb src.hybridIndexerTokenSize b) := by
    rw [fanOutIndexer]
    rcases h.indexer with ⟨hsrc, -⟩ | hindexer
    · rw [if_neg (by omega)]
      exact yields_nil
    · rw [if_pos hindexer.src_pos]
      exact hindexer.yields hb
  obtain ⟨hlook, hlook'⟩ := h.attn.lt_length
  rw [fanOutSliced, cassert_of hlook, cassert_of hlook', vecAt_eq_ok.mpr h.attn.src_eq,
    vecAt_eq_ok.mpr h.attn.dst_eq]
  exact hindexer.append (h.attnPair.yields_slicedAttnPart hb h.tokens_pos)

/-- **QWEN3_NEXT_FLASH, P < D, rows in slices.** -/
theorem SlicedBlocks.vllmParseHybridBlockSendPLtD (hfp8 : env.bf162fp8Conversion = false)
    (validRanks : BitVec maxTpSize) (kvtTpSize kvtTpRank : ℕ) :
    ∃ out, vllmParseHybridBlockSendPLtD env src dst validRanks kvtTpSize kvtTpRank task = .ok out ∧
      InCapacities src dst out := by
  obtain ⟨bounds, hbounds, hb⟩ := h.src_holds.exists_bounds h.dst_holds.toHoldsTensor hfp8
  have hn : 0 < m * replicas := Nat.zero_lt_of_lt h.one_lt
  have hlt : src.engineTpSize < dst.engineTpSize := by
    rw [h.dTp_eq]
    exact (Nat.lt_mul_iff_one_lt_right h.pTp_pos).mpr h.one_lt
  have hgroup : dst.engineTpSize / src.engineTpSize = m * replicas := by
    rw [h.dTp_eq, Nat.mul_div_cancel_left _ h.pTp_pos]
  have hmod : dst.engineTpSize % src.engineTpSize = 0 := by rw [h.dTp_eq, Nat.mul_mod_right]
  have hrank : cassert env.ndebug (dst.workerTpRank / (m * replicas) = src.workerTpRank) = .ok () :=
    cassert_eq_ok.mpr h.rank
  have hpacks : cassert env.ndebug (src.attnPackSize = dst.attnPackSize) = .ok () :=
    cassert_eq_ok.mpr h.packSize_eq
  have hheads : cassert env.ndebug
      (src.numKvHeads ≤ 0 ∨ src.numKvHeads % src.engineTpSize = 0) = .ok () :=
    cassert_eq_ok.mpr h.heads
  have hne : ¬p.tokenSize = d.tokenSize := by
    have hwidth : d.step < d.step * m := (Nat.lt_mul_iff_one_lt_right d.step_pos).mpr h.one_lt_m
    have := h.width
    rw [tokenSize, tokenSize]
    omega
  simp only [LlumnixKv.vllmParseHybridBlockSendPLtD, cassert_of hlt, checkedDiv_of_pos h.pTp_pos,
    hgroup, cassert_of hmod, checkedDiv_of_pos hn, hrank, h.src_holds.tokenSizes,
    h.dst_holds.tokenSizes, h.src_holds.blockSizes, h.dst_holds.blockSizes, List.length_singleton,
    cassert_of trivial, hbounds, vecAt_singleton, cassert_of h.indexers, hpacks, if_neg hne,
      h.attnSlice_eq,
    hheads, checkedDiv_of_pos p.tokenSize_pos, checkedDiv_of_pos d.tokenSize_pos,
    ntpb_of_blockSize h.src_holds.ntpb_lt,
    ntpb_of_blockSize h.dst_holds.ntpb_lt, cassert_of p.ntpb_mul_tokenSize,
    cassert_of d.ntpb_mul_tokenSize,
    h.src_holds.kernel, h.dst_holds.kernel, h.src_holds.pack, ok_bind]
  exact exists_inCapacities h.src_holds.blockSizes h.dst_holds.blockSizes (h.yields_fanOutSliced hb)
    (SplitsState.yields hb h.state (Nat.mod_lt _ hn))

end Sliced

end TwoGeometries

end LlumnixKv
