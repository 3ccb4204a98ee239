import LlumnixKv.Parse.InBounds
import LlumnixKv.Parse.Padding
import LlumnixKv.Parse.StateShards
import LlumnixKv.Parse.WholePages

/-!
# Parse/HybridInBounds — pages that stay inside their cache

The QWEN3_NEXT_FLASH functions put together five kinds of records:

    whole pages          equal pages on both sides
    indexer rows         `indexer_ntpb` rows at the start of a page
    attention rows       kernel blocks of `pack` layers, interleaved
    zero fill            segments of at most a page, to the rows after the last token
    recurrent state      convolution rows and the recurrent part, merged or split

Each is shown to stay inside the page it starts in — for the attention rows as far as the kernel
blocks tile the page, which the functions take from the registration.
-/

open List Machinery Machinery.Shards

namespace LlumnixKv

/-! ## Tables and pages -/

/-- The table has a block for each token of the request, `ntpb` tokens to a block, and its blocks
are those of the worker. -/
structure CoversTokens (w : WorkerInfo) (ntpb : ℕ) (task : ReqSendTask) (table : List ℕ) : Prop
    where
  covered : ∀ t < task.endTokens, t / ntpb < table.length
  ids : ∀ id ∈ table, id < w.layerNumBlocks

/-- A worker registered one tensor, of a size a `size_t` holds. -/
structure HoldsTensor (w : WorkerInfo) (tokenSize blockSize : ℕ) : Prop where
  tokenSizes : w.tokenSizes = [tokenSize]
  blockSizes : w.blockSizes = [blockSize]
  layerNumBlocks_pos : 0 < w.layerNumBlocks
  capacity : blockSize * w.layerNumBlocks ≤ sizeMax

/-- Group `i` of the tables: as many blocks on both sides, all of them blocks of the workers. -/
structure HoldsGroup (src dst : WorkerInfo) (req : RequestInfo) (i : ℕ) (srcGrp dstGrp : List ℕ) :
    Prop where
  src_eq : req.srcBlocks[i]? = some srcGrp
  dst_eq : req.dstBlocks[i]? = some dstGrp
  length_eq : srcGrp.length = dstGrp.length
  src_ids : ∀ id ∈ srcGrp, id < src.layerNumBlocks
  dst_ids : ∀ id ∈ dstGrp, id < dst.layerNumBlocks

theorem getD_mem {table : List ℕ} {i : ℕ} (hi : i < table.length) : table.getD i 0 ∈ table := by
  rw [getD_eq_getElem?_getD, getElem?_eq_getElem hi, Option.getD_some]
  exact getElem_mem hi

theorem page_add_le {id blocks size len : ℕ} (hid : id < blocks) (hlen : len ≤ size) :
    id * size + len ≤ size * blocks :=
  calc id * size + len ≤ (id + 1) * size := by rw [Nat.succ_mul]; omega
    _ ≤ blocks * size := Nat.mul_le_mul_right _ hid
    _ = size * blocks := mul_comm _ _

variable {src dst : WorkerInfo} {srcTable dstTable : List ℕ} {srcEnd dstEnd : ℕ}
  {task : ReqSendTask}

theorem HoldsTensor.exists_bounds {env : EnvCfg} {pTok dTok pBS dBS : ℕ}
    (hsrc : HoldsTensor src pTok pBS) (hdst : HoldsTensor dst dTok dBS)
    (hfp8 : env.bf162fp8Conversion = false) :
    ∃ bounds, makeIpcBlockBounds env src dst 0 = .ok bounds ∧
      bounds.AdmitsPages src dst pBS dBS :=
  exists_makeIpcBlockBounds hfp8 (by rw [hsrc.blockSizes]; rfl) (by rw [hdst.blockSizes]; rfl)
    hsrc.layerNumBlocks_pos hdst.layerNumBlocks_pos hsrc.capacity hdst.capacity

section Records

variable {env : EnvCfg} {src dst : WorkerInfo} {pBS dBS : ℕ} {task : ReqSendTask}
  {srcTable dstTable : List ℕ} {b : IpcBlockBounds}
  (hb : b.AdmitsPages src dst pBS dBS)

include hb

/-! ## Whole pages -/

/-- The start of a page, where `len` bytes fit in the pages of both sides. -/
theorem yields_sendPage {len i : ℕ} (hlen : 0 < len) (hp : len ≤ pBS) (hd : len ≤ dBS)
    (hsrc : i < srcTable.length) (hdst : i < dstTable.length)
    (hsids : ∀ id ∈ srcTable, id < src.layerNumBlocks)
    (hdids : ∀ id ∈ dstTable, id < dst.layerNumBlocks) :
    Yields (InPages src dst pBS dBS) (sendPage pBS dBS len srcTable dstTable b i) := by
  rw [sendPage, vecAt_of_lt hsrc, ok_bind, vecAt_of_lt hdst, ok_bind]
  exact hb.yields ⟨hlen, page_add_le (hsids _ (getD_mem hsrc)) hp,
    page_add_le (hdids _ (getD_mem hdst)) hd⟩

/-- The pages of a group. -/
theorem yields_groupPages {len i : ℕ} {srcGrp dstGrp : List ℕ} (hlen : 0 < len) (hp : len ≤ pBS)
    (hd : len ≤ dBS) (h : HoldsGroup src dst task.req i srcGrp dstGrp) :
    Yields (InPages src dst pBS dBS)
      (emitAll (sendPage pBS dBS len srcGrp dstGrp b) (List.range srcGrp.length)) :=
  yields_emitAll fun blk hblk => by
    have hlt := mem_range.mp hblk
    exact yields_sendPage hb hlen hp hd hlt (h.length_eq ▸ hlt) h.src_ids h.dst_ids

/-! ## Indexer rows -/

/-- **Rows of one size at the start of the pages, the pages of the sides holding different numbers
of them.** -/
theorem yields_parseHybridIndexerBlock {pNtpb dNtpb rowSize : ℕ} (hp : 0 < pNtpb) (hd : 0 < dNtpb)
    (hrow : 0 < rowSize) (hpfit : pNtpb * rowSize ≤ pBS) (hdfit : dNtpb * rowSize ≤ dBS)
    (hplt : pNtpb * rowSize < 2 ^ 32) (hdlt : dNtpb * rowSize < 2 ^ 32)
    (hsrc : CoversTokens src pNtpb task srcTable) (hdst : CoversTokens dst dNtpb task dstTable) :
    Yields (InPages src dst pBS dBS)
      (parseHybridIndexerBlock env pBS dBS task.seenTokens task.newTokens srcTable dstTable pNtpb
        dNtpb rowSize b) := by
  rw [parseHybridIndexerBlock, cassert_of hrow, ok_bind]
  have hadv := advances_toBoundaries hp hd
  refine yields_walk hadv fun t l ht hl he => ?_
  have hend : t < task.endTokens := by
    rw [ReqSendTask.endTokens]
    omega
  have hlook := hsrc.covered t hend
  have hlook' := hdst.covered t hend
  obtain ⟨hple, hdle⟩ := toBoundaries_le pNtpb dNtpb t l
  -- the rows of the round end with their page's, so no product wraps
  have hspan : ∀ ntpb, 0 < ntpb → toBoundaries pNtpb dNtpb t l ≤ ntpb - t % ntpb →
      t % ntpb * rowSize + toBoundaries pNtpb dNtpb t l * rowSize ≤ ntpb * rowSize :=
    fun ntpb h0 hle => by
      have hmod := Nat.mod_lt t h0
      rw [← add_mul]
      exact Nat.mul_le_mul_right _ (by omega)
  have hpspan := hspan pNtpb hp hple
  have hdspan := hspan dNtpb hd hdle
  rw [checkedDiv_of_pos hp, ok_bind, checkedDiv_of_pos hd, ok_bind, cassert_of hlook, ok_bind,
    cassert_of hlook', ok_bind, vecAt_of_lt hlook, ok_bind, vecAt_of_lt hlook', ok_bind,
    u32_of_lt (by omega), u32_of_lt (by omega), u32_of_lt (by omega)]
  refine hb.yields ⟨mul_pos (hadv t l hl).1 hrow, ?_, ?_⟩
  · rw [add_assoc]
    exact page_add_le (hsrc.ids _ (getD_mem hlook)) (hpspan.trans hpfit)
  · rw [add_assoc]
    exact page_add_le (hdst.ids _ (getD_mem hlook')) (hdspan.trans hdfit)

end Records

/-- **Blocks sent whole.** -/
theorem yields_doParseBlockAlignedSend {env : EnvCfg} {blockSize ntpb : ℕ} {b : IpcBlockBounds}
    (hb : b.AdmitsPages src dst blockSize blockSize) (hsize : 0 < blockSize) (hntpb : 0 < ntpb)
    (hsrc : CoversTokens src ntpb task srcTable) (hdst : CoversTokens dst ntpb task dstTable)
    (hlen : task.reachLastToken = true → srcTable.length = dstTable.length) :
    Yields (InPages src dst blockSize blockSize)
      (doParseBlockAlignedSend env blockSize task srcTable dstTable ntpb b) := by
  have hpage : ∀ i, i < srcTable.length → i < dstTable.length → Yields
    (InPages src dst blockSize blockSize)
      (sendPage blockSize blockSize blockSize srcTable dstTable b i) := fun i h1 h2 =>
    yields_sendPage hb hsize le_rfl le_rfl h1 h2 hsrc.ids hdst.ids
  have hwalk : Yields (InPages src dst blockSize blockSize)
        (walk (toBoundary ntpb) (alignedRound env blockSize ntpb
        task.reachLastToken srcTable dstTable b) task.newTokens task.seenTokens task.newTokens) :=
          by
    refine yields_walk (advances_toBoundary hntpb) fun t l ht hl he => ?_
    have hend : t < task.endTokens := by
      rw [ReqSendTask.endTokens]
      omega
    have hlook := hsrc.covered t hend
    have hlook' := hdst.covered t hend
    have hsend := hpage _ hlook hlook'
    rw [sendPage, vecAt_of_lt hlook, ok_bind, vecAt_of_lt hlook', ok_bind] at hsend
    rw [alignedRound, checkedDiv_of_pos hntpb, ok_bind, cassert_of ⟨hlook, hlook'⟩, ok_bind,
      vecAt_of_lt hlook, ok_bind, vecAt_of_lt hlook', ok_bind, alignedLength_eq _ hntpb, ok_bind]
    split
    · exact hsend
    · exact yields_nil
  rw [doParseBlockAlignedSend]
  cases hlast : task.reachLastToken with
  | false =>
    rw [hlast] at hwalk
    obtain ⟨out, hout, hin⟩ := hwalk
    exact ⟨out, by rw [hout]; rfl, hin⟩
  | true =>
    rw [hlast] at hwalk
    have hlen := hlen hlast
    simp only [if_true, checkedDiv_of_pos hntpb, cassert_of hlen, ok_bind]
    refine hwalk.append (yields_emitAll fun i hi => ?_)
    have hi := mem_range'_1.mp hi
    exact hpage i (by omega) (by omega)

/-! ## Attention rows -/

theorem IpcBlock.Within.turned {rec : IpcBlock} (h : IpcBlock.Within srcEnd dstEnd rec)
    (swap : Bool) :
    IpcBlock.Within (turnTo swap srcEnd dstEnd) (turnTo swap dstEnd srcEnd) (rec.turned swap) := by
  cases swap with
  | false => exact h
  | true => exact ⟨h.len_pos, h.dst_le, h.src_le⟩

/-- The attention tables of the two sides, P's page geometry being `p` and D's `d`; the narrow rows
are slices of the wide ones, and this is slice `off`. -/
structure AttnPair (narrow wide : WorkerInfo) (p d : PageGeometry) (off : ℕ) (task : ReqSendTask)
    (narrowTable wideTable : List ℕ) : Prop where
  pack_eq : p.pack = d.pack
  slice : off * p.step + p.step ≤ d.step
  narrow_covers : CoversTokens narrow p.perLayer task narrowTable
  wide_covers : CoversTokens wide d.perLayer task wideTable

section Attention

variable {env : EnvCfg} {narrow wide : WorkerInfo} {p d : PageGeometry} {off : ℕ}
  {task : ReqSendTask}
  {narrowTable wideTable : List ℕ} {b : IpcBlockBounds}

theorem AttnPair.record_within (h : AttnPair narrow wide p d off task narrowTable wideTable)
    {t l kv : ℕ} (ht : t < task.endTokens) (hl : l < p.pack) (hkv : kv < 2) :
    InPages narrow wide p.blockSize d.blockSize
      (attnRecord p d narrowTable wideTable off t l kv) := by
  have hslice := h.slice
  have hwide := PageGeometry.rowAddr_add_le
    (h.wide_covers.ids _ (getD_mem (h.wide_covers.covered t ht))) (h.pack_eq ▸ hl) hkv hslice
  refine ⟨p.step_pos, PageGeometry.rowAddr_add_le
    (h.narrow_covers.ids _ (getD_mem (h.narrow_covers.covered t ht))) hl hkv le_rfl, ?_⟩
  simp only [attnRecord]
  omega

/-- **The attention records stay inside both caches.** -/
theorem AttnPair.yields_parseHybridAttnBlock
    (h : AttnPair narrow wide p d off task narrowTable wideTable) (swap : Bool)
    (hsrc : turnTo swap (p.blockSize * narrow.layerNumBlocks) (d.blockSize * wide.layerNumBlocks)
      = srcEnd)
    (hdst : turnTo swap (d.blockSize * wide.layerNumBlocks) (p.blockSize * narrow.layerNumBlocks)
      = dstEnd) (hb : b.Admits srcEnd dstEnd) :
    Yields (IpcBlock.Within srcEnd dstEnd)
      (parseHybridAttnBlock env (p.side narrowTable) (d.side wideTable) task.seenTokens
        task.newTokens off p.pack b swap) := by
  have hrecord : ∀ t < task.endTokens, ∀ l < p.pack, ∀ kv < 2, IpcBlock.Within srcEnd dstEnd
      ((attnRecord p d narrowTable wideTable off t l kv).turned swap) := fun t ht l hl kv hkv => by
    rw [← hsrc, ← hdst]
    exact (h.record_within ht hl hkv).turned swap
  obtain ⟨out, hout⟩ : ∃ out, parseHybridAttnBlock env (p.side narrowTable) (d.side wideTable)
      task.seenTokens task.newTokens off p.pack b swap = .ok out :=
    exists_parseHybridAttnBlock_ok h.pack_eq fun t _ h2 =>
      ⟨⟨h.narrow_covers.covered t h2, h.wide_covers.covered t h2⟩,
        fun l hl kv hkv => hb.fits (hrecord t h2 l hl kv hkv)⟩
  refine ⟨out, hout, fun rec hrec => ?_⟩
  obtain ⟨⟨t, l, kv⟩, hrow, rfl⟩ :=
    mem_map.mp ((parseHybridAttnBlock_perm h.pack_eq hout).mem_iff.mp hrec)
  obtain ⟨⟨-, h2⟩, hl, hkv⟩ := mem_attnRows.mp hrow
  exact hrecord t h2 l hl kv hkv

/-! ## Zero fill -/

/-- The segments read the first bytes of a page and fill a span of the destination. -/
theorem yields_emitZeroFillSegments {zeroSrcOff dstOff len maxSeg srcEnd dstEnd : ℕ}
    (hb : b.Admits srcEnd dstEnd) (hseg : 0 < maxSeg) (hsrc : zeroSrcOff + maxSeg ≤ srcEnd)
    (hdst : dstOff + len ≤ dstEnd) :
    Yields (IpcBlock.Within srcEnd dstEnd)
      (emitZeroFillSegments env zeroSrcOff dstOff len maxSeg b) := by
  rw [emitZeroFillSegments, cassert_of hseg, ok_bind]
  refine yields_walk (fun _ l hl => ⟨lt_min hseg hl, min_le_right _ _⟩) fun done l _ hl he => ?_
  have hle : min maxSeg l ≤ maxSeg ∧ min maxSeg l ≤ l := ⟨min_le_left _ _, min_le_right _ _⟩
  exact hb.yields ⟨lt_min hseg hl, by simp only; omega, by simp only; omega⟩

/-- A K and a V segment. -/
theorem yields_zeroFillHalves {zeroSrcOff dk dv len maxSeg srcEnd dstEnd : ℕ}
    (hb : b.Admits srcEnd dstEnd) (hseg : 0 < maxSeg) (hsrc : zeroSrcOff + maxSeg ≤ srcEnd)
    (hk : dk + len ≤ dstEnd) (hv : dv + len ≤ dstEnd) :
    Yields (IpcBlock.Within srcEnd dstEnd) (do
      let k ← emitZeroFillSegments env zeroSrcOff dk len maxSeg b
      let v ← emitZeroFillSegments env zeroSrcOff dv len maxSeg b
      return k ++ v) :=
  (yields_emitZeroFillSegments hb hseg hsrc hk).append (yields_emitZeroFillSegments hb hseg hsrc hv)

/-- Positions of a page that is not complete share the page of its last token. -/
theorem div_of_not_full {n total i : ℕ} (hfull : total % n ≠ 0) (hi : i < n - total % n) :
    (total + i) / n = (total - 1) / n := by
  have hdiv := Nat.div_add_mod' total n
  have hlast : total - 1 = total / n * n + (total % n - 1) := by omega
  have hpos : 0 < n := by omega
  have hmod := Nat.mod_lt total hpos
  rw [hlast, Radix.div_digit (by omega)]
  exact (divMod_add_of_lt hi).1

/-- The zeros of a token of layer `sub`, read from a page of P. -/
theorem AttnPair.yields_zeroFillToken (h : AttnPair narrow wide p d off task narrowTable wideTable)
    (hb : b.AdmitsPages narrow wide p.blockSize d.blockSize)
    {zeroBlock t sub idx : ℕ} (hzero : zeroBlock < narrow.layerNumBlocks) (hsub : sub < d.pack)
    (hlook : t / d.perLayer < wideTable.length) (hidx : idx < d.kernelNtpb - t % d.kernelNtpb) :
    Yields (InPages narrow wide p.blockSize d.blockSize)
      (zeroFillToken env (p.side narrowTable) (d.side wideTable) off b (zeroBlock * p.blockSize)
        (wideTable.getD (t / d.perLayer) 0) ⟨t / d.perLayer, t % d.kernelNtpb,
          t % d.perLayer / d.kernelNtpb * d.pack * d.kernelBlkSize⟩ sub idx) := by
  have hslice := h.slice
  have hid := h.wide_covers.ids _ (getD_mem hlook)
  rw [← (d.add_of_lt hidx).1] at hid
  have hk := d.rowAddr_add_le hid hsub two_pos hslice
  have hv := d.rowAddr_add_le hid hsub one_lt_two hslice
  rw [← rowAddr_half] at hv
  have hoff := kernelBlkOff_add wideTable sub hidx
  rw [zeroFillToken]
  dsimp only
  rw [side_tokenStepLength, side_tokenStepLength, side_kernelBlkSize, hoff]
  exact yields_zeroFillHalves hb (blockSize_pos p) (page_add_le hzero le_rfl) (by omega) (by omega)

/-- What is left of D's last page is no longer than a page of P. -/
def FillFits (p d : PageGeometry) (total : ℕ) : Prop :=
  total % d.perLayer = 0 ∨ d.perLayer ≤ p.perLayer + total % d.perLayer

/-- **The tail of the last destination block.** -/
theorem AttnPair.yields_fillLastHybridAttnBlock
    (h : AttnPair narrow wide p d off task narrowTable wideTable)
    (hb : b.AdmitsPages narrow wide p.blockSize d.blockSize)
    (hpages : env.ndebug = true ∨ FillFits p d task.endTokens) :
    Yields (InPages narrow wide p.blockSize d.blockSize)
      (fillLastHybridAttnBlock env (p.side narrowTable) (d.side wideTable) task.endTokens off p.pack
        b) := by
  by_cases htotal : task.endTokens = 0
  · rw [fillLastHybridAttnBlock, if_pos htotal]
    exact yields_nil
  have hdpack : packOf p.pack = d.pack := by rw [packOf_pack, h.pack_eq]
  have hsrcLayer : (if packOf p.pack = 1 then (p.side narrowTable).ntpb
      else (p.side narrowTable).ntpb / packOf p.pack) = p.perLayer := perLayer_eq p narrowTable
  have hdstLayer : (if packOf p.pack = 1 then (d.side wideTable).ntpb
      else (d.side wideTable).ntpb / packOf p.pack) = d.perLayer := by
    rw [h.pack_eq]
    exact perLayer_eq d wideTable
  have hsrcNtpb : p.perLayer * packOf p.pack = (p.side narrowTable).ntpb := by
    rw [packOf_pack]
    rfl
  have hdstNtpb : d.perLayer * packOf p.pack = (d.side wideTable).ntpb := by
    rw [hdpack]
    rfl
  have hstep : ∀ (g : PageGeometry) (table : List ℕ),
      (g.side table).tokenStepLength * 2 = (g.side table).tokenSize := fun g table => by
    rw [side_tokenStepLength, mul_comm]
    rfl
  simp only [fillLastHybridAttnBlock, if_neg htotal, hsrcLayer, hdstLayer, cassert_of hsrcNtpb,
    cassert_of hdstNtpb, checkedDiv_of_pos d.perLayer_pos, cassert_of (hstep p narrowTable),
    cassert_of (hstep d wideTable), ok_bind]
  split_ifs with hfull
  · exact yields_nil
  have hfirst : 0 < narrowTable.length := Nat.zero_lt_of_lt (h.narrow_covers.covered 0 (by omega))
  have hzero : narrowTable.getD 0 0 < narrow.layerNumBlocks := h.narrow_covers.ids _
    (getD_mem hfirst)
  have hblocks : ∀ {g : PageGeometry} {table : List ℕ}, (g.side table).blocks = table ∧
      (g.side table).blockSize = g.blockSize ∧ (g.side table).kernelBlkNtpb = g.kernelNtpb :=
    ⟨rfl, rfl, rfl⟩
  have hmod := Nat.mod_lt task.endTokens d.perLayer_pos
  simp only [hblocks]
  rw [vecAt_of_lt hfirst, ok_bind]
  have hadv : Advances fun srcPos left => min (p.kernelNtpb - srcPos % p.kernelNtpb)
      (min (d.kernelNtpb - (task.endTokens + srcPos) % d.kernelNtpb) left) :=
    fun srcPos left hl => by
      have := Nat.mod_lt srcPos p.kernelNtpb_pos
      have := Nat.mod_lt (task.endTokens + srcPos) d.kernelNtpb_pos
      simp only
      omega
  refine yields_walk hadv fun srcPos left _ hl he => ?_
  have hpos : ∀ (g : PageGeometry) (table : List ℕ) (t : ℕ), g.pack = p.pack →
      hybridPos (packOf p.pack) (g.side table).ntpb g.kernelNtpb (g.side table).kernelBlkSize t =
        .ok ⟨t / g.perLayer, t % g.kernelNtpb,
          t % g.perLayer / g.kernelNtpb * g.pack * g.kernelBlkSize⟩ := fun g table t hpack => by
    rw [packOf_pack, ← hpack]
    exact g.hybridPos_eq t
  have hlook : (task.endTokens + srcPos) / d.perLayer < wideTable.length := by
    rw [div_of_not_full hfull (by omega)]
    exact h.wide_covers.covered _ (by omega)
  have hpage : cassert env.ndebug (srcPos / p.perLayer = 0) = .ok () :=
    cassert_eq_ok.mpr (hpages.imp_right fun hfits => Nat.div_eq_of_lt (by
      have hle := hfits.resolve_left hfull
      omega))
  rw [hpos p _ _ rfl, ok_bind, hpos d _ _ h.pack_eq.symm, ok_bind]
  dsimp only
  rw [hpage, ok_bind, cassert_of hlook, ok_bind, vecAt_of_lt hlook, ok_bind]
  refine yields_emitAll fun sub hsub => yields_emitAll fun idx hidx => ?_
  have hidx := mem_range.mp hidx
  exact h.yields_zeroFillToken hb hzero (hdpack ▸ mem_range.mp hsub) hlook (by omega)

theorem tailEnd_le (blocks ntpb : ℕ) : tailEnd blocks ntpb ≤ blocks * ntpb :=
  (Nat.mod_le _ _).trans (Nat.mul_le_mul_right _ (Nat.mod_le _ _))

/-- **The rest of the destination blocks.** -/
theorem yields_fillTailHybridAttnBlockPLtD {pBS total : ℕ}
    (hb : b.AdmitsPages src dst pBS d.blockSize) (hsize : 0 < pBS) (hfirst : 0 < srcTable.length)
    (hsids : ∀ id ∈ srcTable, id < src.layerNumBlocks)
    (hdids : ∀ id ∈ dstTable, id < dst.layerNumBlocks) :
    Yields (InPages src dst pBS d.blockSize)
      (fillTailHybridAttnBlockPLtD env pBS (d.side dstTable) d.pack srcTable total b) := by
  have hblocks : (d.side dstTable).blocks = dstTable ∧
      (d.side dstTable).kernelBlkNtpb = d.kernelNtpb := ⟨rfl, rfl⟩
  have hntpb : d.perLayer * packOf d.pack = (d.side dstTable).ntpb := by
    rw [packOf_pack]
    rfl
  have hkernels : d.perLayer % d.kernelNtpb = 0 := Nat.mul_mod_right _ _
  have hstep : (d.side dstTable).tokenStepLength * 2 = (d.side dstTable).tokenSize := by
    rw [side_tokenStepLength, mul_comm]
    rfl
  simp only [fillTailHybridAttnBlockPLtD, perLayer_eq d dstTable, hblocks, cassert_of hntpb,
    cassert_of hkernels, cassert_of hstep, ok_bind]
  split_ifs with hfull
  · exact yields_nil
  rw [vecAt_of_lt hfirst, ok_bind]
  have hzero : srcTable.getD 0 0 < src.layerNumBlocks := hsids _ (getD_mem hfirst)
  have hadv := advances_toBoundary d.kernelNtpb_pos
  refine yields_walk hadv fun t left _ hl he => ?_
  -- the positions are those of the table
  have hend := tailEnd_le dstTable.length d.perLayer
  have hlook : t / d.perLayer < dstTable.length := by
    rw [Nat.div_lt_iff_lt_mul d.perLayer_pos]
    omega
  rw [checkedDiv_of_pos d.perLayer_pos, ok_bind, checkedDiv_of_pos d.kernelNtpb_pos, ok_bind,
    cassert_of hlook, ok_bind, vecAt_of_lt hlook, ok_bind, packOf_pack]
  refine yields_emitAll fun sub hsub => ?_
  have hsub := mem_range.mp hsub
  -- the rows of the round end with the row of its last token
  have hpos := (hadv t left hl).1
  have hle : toBoundary d.kernelNtpb t left ≤ d.kernelNtpb - t % d.kernelNtpb := min_le_left _ _
  have hrow : toBoundary d.kernelNtpb t left - 1 < d.kernelNtpb - t % d.kernelNtpb := by omega
  have hid := hdids _ (getD_mem hlook)
  rw [← (d.add_of_lt hrow).1] at hid
  have hk := d.rowAddr_add_le hid hsub two_pos le_rfl
  have hv := d.rowAddr_add_le hid hsub one_lt_two le_rfl
  rw [← rowAddr_half] at hv
  have hoff := kernelBlkOff_add dstTable sub hrow
  have hlen : toBoundary d.kernelNtpb t left * d.step
      = (toBoundary d.kernelNtpb t left - 1) * d.step + d.step := by
    rw [← Nat.succ_mul, Nat.succ_eq_add_one, Nat.sub_add_cancel hpos]
  rw [add_mul] at hoff
  rw [side_tokenStepLength, side_kernelBlkSize]
  exact yields_zeroFillHalves hb hsize (page_add_le hzero le_rfl) (by omega) (by omega)

end Attention

/-! ## Recurrent state -/

/-- The replicated short-convolution state: `size` bytes. -/
structure HoldsShortConv (w : WorkerInfo) (size : ℕ) : Prop where
  shape : ∃ blocks rows cols, w.pleConvStateShape = [blocks, rows, cols] ∧
    rows * cols * w.pleConvElemSize = size
  size_pos : 0 < size

section State

variable {env : EnvCfg} {src dst : WorkerInfo} {b : IpcBlockBounds} {srcEnd dstEnd : ℕ}
  {n off pRow dRow elem : ℕ} {convRows rowSize ssmSize pOff dOff : ℕ}

/-- **A page of P > D.** -/
theorem yields_gdnPagePGtD {dims : List ℕ} (hb : b.Admits srcEnd dstEnd) (hoff : off < n)
    (hsrc : pOff + (convRows * rowSize + ssmSize) ≤ srcEnd)
    (hdst : dOff + n * (convRows * rowSize + ssmSize) ≤ dstEnd) (hssm : 0 < ssmSize)
    (hsum : (dims.map (· * elem)).sum = rowSize) (hpos : ∀ dim ∈ dims, 0 < dim * elem) :
    Yields (IpcBlock.Within srcEnd dstEnd)
      (gdnPagePGtD env convRows rowSize ssmSize elem n off dims b pOff dOff) := by
  have hwithin : ∀ c ∈ parts 0 (rowComponents convRows (dims.map (· * elem)) ssmSize),
      IpcBlock.Within srcEnd dstEnd (mergeRecord n off pOff dOff c) := fun c hc => by
    obtain ⟨hlen, hle⟩ := bounds_of_mem_rowComponents (forall_mem_map.mpr hpos) hssm hc
    rw [hsum] at hle
    have hplace := place_le hoff hle
    exact ⟨hlen, by simp only [mergeRecord]; omega, by simp only [mergeRecord]; omega⟩
  exact ⟨_, gdnPagePGtD_eq hsum fun c hc => hb.fits (hwithin c hc), forall_mem_map.mpr hwithin⟩

/-- **…and of P < D.** -/
theorem yields_gdnPagePLtD {dims : List ℕ} (hb : b.Admits srcEnd dstEnd) (hoff : off < n)
    (hsrc : pOff + n * (convRows * rowSize + ssmSize) ≤ srcEnd)
    (hdst : dOff + (convRows * rowSize + ssmSize) ≤ dstEnd) (hssm : 0 < ssmSize)
    (hsum : (dims.map (· * elem)).sum = n * rowSize)
    (hdims : ∀ dim ∈ dims, 0 < dim * elem ∧ n ∣ dim * elem) :
    Yields (IpcBlock.Within srcEnd dstEnd)
      (gdnPagePLtD env convRows (n * rowSize) (n * ssmSize) elem n off dims b pOff dOff) := by
  have hn : 0 < n := Nat.zero_lt_of_lt hoff
  -- the segments of a target
  have hrow : dims.map (· * elem) = (dims.map (· * elem / n)).map (n * ·) := by
    rw [map_map]
    exact map_congr_left fun dim hdim => (Nat.mul_div_cancel' (hdims dim hdim).2).symm
  rw [hrow, sum_map_mul_left, map_id'] at hsum
  obtain rfl := Nat.eq_of_mul_eq_mul_left hn hsum
  have hpos : ∀ s ∈ dims.map (· * elem / n), 0 < s := forall_mem_map.mpr fun dim hdim =>
    Nat.div_pos (Nat.le_of_dvd (hdims dim hdim).1 (hdims dim hdim).2) hn
  have hwithin : ∀ c ∈ parts 0 (rowComponents convRows (dims.map (· * elem / n)) ssmSize),
      IpcBlock.Within srcEnd dstEnd (splitRecord n off pOff dOff c) := fun c hc => by
    obtain ⟨hlen, hle⟩ := bounds_of_mem_rowComponents hpos hssm hc
    have hplace := place_le hoff hle
    exact ⟨hlen, by simp only [splitRecord]; omega, by simp only [splitRecord]; omega⟩
  exact ⟨_, gdnPagePLtD_eq hn hrow fun c hc => hb.fits (hwithin c hc), forall_mem_map.mpr hwithin⟩

/-- **The state groups, page by page.** -/
theorem yields_statePages {P : IpcBlock → Prop} {numLayers pBS dBS : ℕ}
    {page : ℕ → ℕ → Except Fault (List IpcBlock)}
    (hgroups : ∀ i < numLayers, ∃ srcGrp dstGrp, HoldsGroup src dst task.req i srcGrp dstGrp)
    (hpage : ∀ s < src.layerNumBlocks, ∀ d < dst.layerNumBlocks,
      Yields P (page (s * pBS) (d * dBS))) :
    Yields P (statePages numLayers pBS dBS task.req.srcBlocks task.req.dstBlocks page) := by
  refine yields_emitAll fun i hi => ?_
  obtain ⟨srcGrp, dstGrp, h⟩ := hgroups i (mem_range.mp hi)
  rw [vecAt_eq_ok.mpr h.src_eq, ok_bind, vecAt_eq_ok.mpr h.dst_eq, ok_bind]
  refine yields_emitAll fun blk hblk => ?_
  have hlt := mem_range.mp hblk
  have hlt' : blk < dstGrp.length := h.length_eq ▸ hlt
  rw [vecAt_of_lt hlt, ok_bind, vecAt_of_lt hlt', ok_bind]
  exact hpage _ (h.src_ids _ (getD_mem hlt)) _ (h.dst_ids _ (getD_mem hlt'))

end State

section StateParts

variable {env : EnvCfg} {src dst : WorkerInfo} {task : ReqSendTask} {b : IpcBlockBounds}
  {pBS dBS n off : ℕ} (hb : b.AdmitsPages src dst pBS dBS) {convRows rowSize ssmSize : ℕ}

/-- The groups of the recurrent state. -/
structure HoldsStateGroups (src dst : WorkerInfo) (req : RequestInfo) : Prop where
  gdn : ∀ i < src.numGdnLayers, ∃ srcGrp dstGrp, HoldsGroup src dst req i srcGrp dstGrp
  ple : ∀ i < src.numPleLayers, ∃ srcGrp dstGrp,
    HoldsGroup src dst req (src.pleBlockGroup + i) srcGrp dstGrp

theorem HoldsStateGroups.gdn_le (h : HoldsStateGroups src dst task.req) :
    src.numGdnLayers ≤ task.req.srcBlocks.length ∧ src.numGdnLayers ≤ task.req.dstBlocks.length :=
      by
  rcases Nat.eq_zero_or_pos src.numGdnLayers with h0 | hpos
  · omega
  · obtain ⟨srcGrp, dstGrp, hlast⟩ := h.gdn (src.numGdnLayers - 1) (by omega)
    have := (List.getElem?_eq_some_iff.mp hlast.src_eq).1
    have := (List.getElem?_eq_some_iff.mp hlast.dst_eq).1
    omega

include hb

/-- **GDN, P > D.** -/
theorem yields_parseHybridGdnBlockSendPGtD (hstate : HoldsGdn src convRows rowSize ssmSize)
    (hgroups : HoldsStateGroups src dst task.req) (hoff : off < n)
    (hp : convRows * rowSize + ssmSize ≤ pBS) (hd : n * (convRows * rowSize + ssmSize) ≤ dBS) :
    Yields (InPages src dst pBS dBS)
      (parseHybridGdnBlockSendPGtD env pBS dBS src.numGdnLayers n off src task.req.srcBlocks
        task.req.dstBlocks b) := by
  rw [hstate.parsePGtD hgroups.gdn_le.1 hgroups.gdn_le.2]
  refine yields_statePages hgroups.gdn fun s hs d hd' => ?_
  exact yields_gdnPagePGtD hb hoff (page_add_le hs hp) (page_add_le hd' hd) hstate.ssmSize_pos
    hstate.channels hstate.channels_pos

/-- **GDN, P < D**: P's rows and recurrent state are `n` times those of a D rank. -/
theorem yields_parseHybridGdnBlockSendPLtD
    (hstate : HoldsGdn src convRows (n * rowSize) (n * ssmSize))
    (hgroups : HoldsStateGroups src dst task.req) (hoff : off < n)
    (hdims : ∀ dim ∈ src.gdnConvChannelDims, n ∣ dim * src.gdnConvElemSize)
    (hp : n * (convRows * rowSize + ssmSize) ≤ pBS) (hd : convRows * rowSize + ssmSize ≤ dBS) :
    Yields (InPages src dst pBS dBS)
      (parseHybridGdnBlockSendPLtD env pBS dBS src.numGdnLayers n off src task.req.srcBlocks
        task.req.dstBlocks b) := by
  rw [hstate.parsePLtD hgroups.gdn_le.1 hgroups.gdn_le.2 (Nat.zero_lt_of_lt hoff)
    (Nat.dvd_mul_right _ _) (Nat.dvd_mul_right _ _)]
  refine yields_statePages hgroups.gdn fun s hs d hd' => ?_
  exact yields_gdnPagePLtD hb hoff (page_add_le hs hp) (page_add_le hd' hd)
    (Nat.pos_of_mul_pos_left hstate.ssmSize_pos) hstate.channels
    fun dim hdim => ⟨hstate.channels_pos dim hdim, hdims dim hdim⟩

/-- **The short convolution**, sent by the first rank of each group. -/
theorem yields_parseHybridShortConvBlockSendPGtD {size : ℕ}
    (hgroups : HoldsStateGroups src dst task.req)
    (hconv : 0 < src.numPleLayers → HoldsShortConv src size ∧ size ≤ pBS ∧ size ≤ dBS)
    (hoff : off < n) :
    Yields (InPages src dst pBS dBS)
      (parseHybridShortConvBlockSendPGtD env pBS dBS src.numPleLayers src.pleBlockGroup n off src
        task.req.srcBlocks task.req.dstBlocks b) := by
  rw [parseHybridShortConvBlockSendPGtD]
  split_ifs with hnone hfirst
  · exact yields_nil
  · obtain ⟨⟨⟨blocks, rows, cols, hshape, hsize⟩, -⟩, -⟩ := hconv (by omega)
    have hne : src.pleConvStateShape ≠ [] := by simp [hshape]
    rw [cassert_of hne, ok_bind, cassert_of (Nat.zero_lt_of_lt hoff), ok_bind, cassert_of hoff,
      ok_bind]
    exact yields_nil
  · obtain ⟨⟨⟨blocks, rows, cols, hshape, hsize⟩, hpos⟩, hp, hd⟩ := hconv (by omega)
    have hne : src.pleConvStateShape ≠ [] := by simp [hshape]
    have hlen : src.pleConvStateShape.length = 3 := by rw [hshape]; rfl
    have hrows : vecAt src.pleConvStateShape 1 = .ok rows := by rw [hshape]; rfl
    have hcols : vecAt src.pleConvStateShape 2 = .ok cols := by rw [hshape]; rfl
    rw [cassert_of hne, ok_bind, cassert_of (Nat.zero_lt_of_lt hoff), ok_bind, cassert_of hoff,
      ok_bind, cassert_of hlen, ok_bind, hrows, ok_bind, hcols, ok_bind]
    dsimp only
    rw [hsize, cassert_of hp, ok_bind, cassert_of hd, ok_bind]
    refine yields_emitAll fun i hi => ?_
    obtain ⟨srcGrp, dstGrp, h⟩ := hgroups.ple i (mem_range.mp hi)
    rw [cassert_of ⟨(List.getElem?_eq_some_iff.mp h.src_eq).1,
      (List.getElem?_eq_some_iff.mp h.dst_eq).1⟩, ok_bind, vecAt_eq_ok.mpr h.src_eq, ok_bind,
      vecAt_eq_ok.mpr h.dst_eq, ok_bind, cassert_of h.length_eq, ok_bind]
    exact yields_groupPages hb hpos hp hd h

/-- …and P < D runs the same loop for every D rank. -/
theorem yields_parseHybridShortConvBlockSendPLtD {size : ℕ}
    (hgroups : HoldsStateGroups src dst task.req)
    (hconv : 0 < src.numPleLayers → HoldsShortConv src size ∧ size ≤ pBS ∧ size ≤ dBS)
    (hoff : off < n) :
    Yields (InPages src dst pBS dBS)
      (parseHybridShortConvBlockSendPLtD env pBS dBS src.numPleLayers src.pleBlockGroup n off src
        task.req.srcBlocks task.req.dstBlocks b) := by
  have hn : 0 < n := Nat.zero_lt_of_lt hoff
  rw [parseHybridShortConvBlockSendPLtD]
  split_ifs with hnone
  · exact yields_nil
  · obtain ⟨⟨⟨blocks, rows, cols, hshape, hsize⟩, -⟩, -⟩ := hconv (by omega)
    have hne : src.pleConvStateShape ≠ [] := by simp [hshape]
    rw [cassert_of hne, ok_bind, cassert_of hn, ok_bind, cassert_of hoff, ok_bind]
    exact yields_parseHybridShortConvBlockSendPGtD hb hgroups hconv hn

/-- **Pages sent whole.** -/
theorem yields_wholePages {firstGroup numGroups : ℕ} (heq : dBS = pBS) (hsize : 0 < pBS)
    (hgroups : ∀ i < numGroups, ∃ srcGrp dstGrp,
      HoldsGroup src dst task.req (firstGroup + i) srcGrp dstGrp) :
    Yields (InPages src dst pBS dBS)
      (wholePages env pBS firstGroup numGroups task.req.srcBlocks task.req.dstBlocks b) := by
  subst heq
  refine yields_emitAll fun i hi => ?_
  obtain ⟨hfirst, hlast⟩ := mem_range'_1.mp hi
  obtain ⟨srcGrp, dstGrp, h⟩ := hgroups (i - firstGroup) (by omega)
  rw [Nat.add_sub_cancel' hfirst] at h
  rw [cassert_of ⟨(List.getElem?_eq_some_iff.mp h.src_eq).1,
    (List.getElem?_eq_some_iff.mp h.dst_eq).1⟩, ok_bind, vecAt_eq_ok.mpr h.src_eq, ok_bind,
    vecAt_eq_ok.mpr h.dst_eq, ok_bind, cassert_of h.length_eq, ok_bind]
  exact yields_groupPages hb hsize le_rfl le_rfl h

end StateParts

end LlumnixKv
