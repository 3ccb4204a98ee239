import LlumnixKv.Parse.Memory
import LlumnixKv.Parse.StateShards

/-!
# Parse/MergeSplit — merging and splitting state are inverse

The parse functions run `merge` or `split` for each page of their tables.  What `n` senders write
tiles the wide page, and what a target is sent tiles its own, so the two directions undo each other.
-/

open List Machinery Machinery.Shards

namespace LlumnixKv

open StateShape

open HybridTransfer (DisjointDst)

/-! ## The parse functions -/

/-- P > D of the state groups: the call of the hybrid functions for GDN, the function of KDA. -/
def StateKind.sendPGtD (kind : StateKind) (env : EnvCfg) (pBlockSize dBlockSize n g : ℕ)
    (src dst : WorkerInfo) (task : ReqSendTask) : Except Fault (List IpcBlock) :=
  match kind with
  | .gdn => if task.reachLastToken then (do
      let bounds ← makeIpcBlockBounds env src dst 0
      parseHybridGdnBlockSendPGtD env pBlockSize dBlockSize src.numGdnLayers n g src
        task.req.srcBlocks task.req.dstBlocks bounds) else .ok []
  | .kdaRowMajor | .kdaDimFirst => parseKdaBlockSendPGtD env src dst task

/-- …and P < D. -/
def StateKind.sendPLtD (kind : StateKind) (env : EnvCfg) (pBlockSize dBlockSize n g : ℕ)
    (src dst : WorkerInfo) (task : ReqSendTask) : Except Fault (List IpcBlock) :=
  match kind with
  | .gdn => if task.reachLastToken then (do
      let bounds ← makeIpcBlockBounds env src dst 0
      parseHybridGdnBlockSendPLtD env pBlockSize dBlockSize src.numGdnLayers n g src
        task.req.srcBlocks task.req.dstBlocks bounds) else .ok []
  | .kdaRowMajor | .kdaDimFirst => parseKdaBlockSendPLtD env src dst task

/-- The page for each entry of the tables, once the request is complete. -/
abbrev sendPages (env : EnvCfg) (src dst : WorkerInfo) (task : ReqSendTask)
    (pBlockSize dBlockSize : ℕ) (page : IpcBlockBounds → ℕ → ℕ → Except Fault (List IpcBlock)) :
    Except Fault (List IpcBlock) :=
  if task.reachLastToken then (do
    let bounds ← makeIpcBlockBounds env src dst 0
    statePages src.numGdnLayers pBlockSize dBlockSize task.req.srcBlocks task.req.dstBlocks
      (page bounds)) else .ok []

/-- A task between two workers of one KDA cache each, whose pages are the blocks. -/
structure KdaTask (src dst : WorkerInfo) (task : ReqSendTask) (pBlockSize dBlockSize : ℕ) :
    Prop where
  src_block : src.blockSizes = [pBlockSize]
  dst_block : dst.blockSizes = [dBlockSize]
  src_stride : src.kdaPageStride = 0 ∨ src.kdaPageStride = pBlockSize
  dst_stride : dst.kdaPageStride = 0 ∨ dst.kdaPageStride = dBlockSize
  layers_pos : 0 < src.numGdnLayers
  layers_le_src : src.numGdnLayers ≤ task.req.srcBlocks.length
  layers_le_dst : src.numGdnLayers ≤ task.req.dstBlocks.length
  groups : ∀ i < src.numGdnLayers,
    (task.req.srcBlocks.getD i []).length = (task.req.dstBlocks.getD i []).length

section Functions

variable {env : EnvCfg} {kind : StateKind} {S : StateShape} {src dst : WorkerInfo}
  {task : ReqSendTask} {pBlockSize dBlockSize : ℕ}

theorem getKdaPageStride_eq {w : WorkerInfo} {block : ℕ} (hblock : w.blockSizes = [block])
    (hstride : w.kdaPageStride = 0 ∨ w.kdaPageStride = block) :
    getKdaPageStride env w = .ok block := by
  rw [getKdaPageStride, cassert_of (by rw [hblock]; rfl), ok_bind]
  split
  case isTrue hne => exact congrArg Except.ok (hstride.resolve_left hne)
  case isFalse => rw [hblock]; rfl

/-- A registered state has the layout of its shape. -/
theorem getKdaStateLayout_eq {w : WorkerInfo} (hkind : kind ≠ .gdn) (hw : HoldsState w kind S)
    (hdims : S.dims.length = 3) : getKdaStateLayout env w = .ok S.layout := by
  obtain ⟨blocks, hconv⟩ := hw.conv
  obtain ⟨blocks', heads, values, keys, hssm, hsize⟩ := hw.ssm
  have helem : 0 < w.gdnSsmElemSize :=
    Nat.pos_of_mul_pos_left (hsize.symm ▸ S.recurrent_pos)
  have hsum : 0 < S.dims.sum := by
    obtain ⟨dim, hdim⟩ := exists_mem_of_length_pos (by omega : 0 < S.dims.length)
    exact List.sum_pos_iff_exists_pos_nat.mpr ⟨dim, hdim, S.dims_pos dim hdim⟩
  have hlayout : (⟨S.rows, S.dims.sum, S.rows * S.dims.sum * S.convElem, S.recurrent⟩ :
      KdaStateLayout) = S.layout := by
    rw [layout, convSize, rowSize, mul_assoc]
  cases kind with
  | gdn => exact absurd rfl hkind
  | kdaRowMajor =>
    have hconv : w.convStateShape = [blocks, S.rows, S.dims.sum] := hconv
    have hfirst : w.kdaConvDimFirst = false := hw.dimFirst hkind
    simp [getKdaStateLayout, vecAt, hconv, hssm, hw.channelDims, hw.convElem, hfirst, hdims, helem,
      hsum, S.rows_pos, S.convElem_pos, hsize, hlayout]
  | kdaDimFirst =>
    have hconv : w.convStateShape = [blocks, S.dims.sum, S.rows] := hconv
    have hfirst : w.kdaConvDimFirst = true := hw.dimFirst hkind
    simp [getKdaStateLayout, vecAt, hconv, hssm, hw.channelDims, hw.convElem, hfirst, hdims, helem,
      hsum, S.rows_pos, S.convElem_pos, hsize, hlayout]

theorem KdaTask.prepareKdaParse (h : KdaTask src dst task pBlockSize dBlockSize) :
    prepareKdaParse env src dst task = .ok () := by
  rw [LlumnixKv.prepareKdaParse, cassert_of (by rw [h.src_block]; rfl), ok_bind,
    cassert_of (by rw [h.dst_block]; rfl), ok_bind, checkKdaBlockGroups, cassert_of h.layers_pos,
    ok_bind, cassert_of h.layers_le_src, ok_bind, cassert_of h.layers_le_dst, ok_bind,
    cassert_of h.groups]

/-- A rank of the narrow side in the group of a rank of the wide side. -/
theorem tpGroup {n g tp wideTp rank wideRank : ℕ} (hn : 1 < n) (hg : g < n) (hpos : 0 < wideTp)
    (htp : tp = n * wideTp) (hrank : rank = n * wideRank + g) :
    wideTp < tp ∧ tp / wideTp = n ∧ tp % wideTp = 0 ∧ rank / n = wideRank ∧ rank % n = g := by
  subst htp hrank
  refine ⟨(Nat.lt_mul_iff_one_lt_left hpos).mpr hn, Nat.mul_div_cancel _ hpos, Nat.mul_mod_left _ _,
    ?_, ?_⟩
  · rw [Nat.mul_add_div (by omega), Nat.div_eq_of_lt hg, add_zero]
  · rw [Nat.mul_add_mod, Nat.mod_eq_of_lt hg]

end Functions

/-! ## Merge and split -/

/-- The wide buffer after the records of the `n` senders, `recs g` those of sender `g`. -/
def mergeInto {β : Type} (n : ℕ) (recs : ℕ → List IpcBlock) (narrow : ℕ → ℕ → β) (wide : ℕ → β) :
    ℕ → β :=
  copyAll narrow ((List.range n).flatMap fun g => recordsFrom g (recs g)) wide

/-- A narrow buffer after the records of the wide sender. -/
def splitInto {β : Type} (recs : List IpcBlock) (wide narrow : ℕ → β) : ℕ → β :=
  copyAll (fun _ : Unit => wide) (recordsFrom () recs) narrow

section RoundTrip

variable {β : Type} (kind : StateKind) (S : StateShape) (n : ℕ) {narrowOff : ℕ → ℕ}
  {wideOff g o : ℕ}

/-- The records of all senders. -/
def StateKind.mergeRecords (narrowOff : ℕ → ℕ) (wideOff g : ℕ) : List IpcBlock :=
  (kind.pageParts S).map (mergeRecord n g (narrowOff g) wideOff)

/-- The records for one target. -/
def StateKind.splitRecords (wideOff : ℕ) (narrowOff : ℕ → ℕ) (g : ℕ) : List IpcBlock :=
  (kind.pageParts S).map (splitRecord n g wideOff (narrowOff g))

/-- What the senders write: the slices of the wide page. -/
theorem StateKind.mergeRecords_spans (narrowOff : ℕ → ℕ) (wideOff : ℕ) :
    ((List.range n).flatMap (kind.mergeRecords S n narrowOff wideOff)).map
        (fun r => (r.dstOffset, r.length)) =
      ((List.range n).flatMap fun g => (kind.pageParts S).map (place n g)).map
        fun c => (wideOff + c.1, c.2) := by
  simp only [map_flatMap, mergeRecords, map_map]
  rfl

/-- No two senders, and no two records of one, write the same byte. -/
theorem StateKind.mergeRecords_disjoint (narrowOff : ℕ → ℕ) (wideOff : ℕ) :
    ((List.range n).flatMap (kind.mergeRecords S n narrowOff wideOff)).Pairwise DisjointDst := by
  have hplaces : (((List.range n).flatMap fun g => (kind.pageParts S).map (place n g)).map
      fun c => (wideOff + c.1, c.2)).Pairwise fun a b => a.1 + a.2 ≤ b.1 ∨ b.1 + b.2 ≤ a.1 :=
    pairwise_map.mpr ((pairwise_places n 0 _).imp fun {a b} hab => by dsimp only; omega)
  rw [← kind.mergeRecords_spans S n narrowOff, pairwise_map] at hplaces
  exact hplaces

theorem StateKind.sum_page : (kind.convParts S ++ [S.recurrent]).sum = S.size := by
  rw [sum_append, kind.sum_convParts, sum_singleton, size]

/-- **Every byte of the wide page is written once, and no other.** -/
theorem StateKind.mergeRecords_tile (narrowOff : ℕ → ℕ) (wideOff i : ℕ) :
    ((List.range n).flatMap (kind.mergeRecords S n narrowOff wideOff)).countP
        (fun r => decide (r.dstOffset ≤ i ∧ i < r.dstOffset + r.length)) =
      if wideOff ≤ i ∧ i < wideOff + n * S.size then 1 else 0 := by
  have hspans := congrArg (List.countP fun c => decide (c.1 ≤ i ∧ i < c.1 + c.2))
    (kind.mergeRecords_spans S n narrowOff wideOff)
  rw [countP_map, countP_map] at hspans
  refine hspans.trans ?_
  by_cases hi : wideOff ≤ i
  · obtain ⟨j, rfl⟩ := Nat.exists_eq_add_of_le hi
    have hcount := countP_places n j 0 (kind.convParts S ++ [S.recurrent])
    rw [kind.sum_page, mul_zero, zero_add] at hcount
    simp only [hi, true_and, Nat.add_lt_add_iff_left]
    simp only [zero_le, true_and] at hcount
    rw [← hcount]
    refine countP_congr fun c _ => ?_
    simp only [Function.comp_apply, decide_eq_true_eq]
    omega
  · rw [if_neg (by omega), countP_eq_zero]
    intro c _
    simp only [Function.comp_apply, decide_eq_true_eq]
    omega

/-- No two records for one target write the same byte. -/
theorem StateKind.splitRecords_disjoint (wideOff : ℕ) (narrowOff : ℕ → ℕ) (g : ℕ) :
    (kind.splitRecords S n wideOff narrowOff g).Pairwise DisjointDst := by
  refine pairwise_map.mpr ((pairwise_parts 0 _).imp fun {a b} hab => .inl ?_)
  change narrowOff g + a.1 + a.2 ≤ narrowOff g + b.1
  omega

theorem map_snd_recordsFrom {ι : Type} (g : ι) (recs : List IpcBlock) :
    (recordsFrom g recs).map Prod.snd = recs := by
  rw [recordsFrom, map_map]
  exact map_id recs

/-- A byte of component `c`, merged. -/
theorem StateKind.mergeInto_mergeRecords {c : ℕ × ℕ} (hg : g < n) (hc : c ∈ kind.pageParts S)
    (ho : o < c.2) (narrow : ℕ → ℕ → β) (wide : ℕ → β) :
    mergeInto n (kind.mergeRecords S n narrowOff wideOff) narrow wide
        (wideOff + ((place n g c).1 + o)) = narrow g (narrowOff g + (c.1 + o)) := by
  have hmem : (g, mergeRecord n g (narrowOff g) wideOff c) ∈ (List.range n).flatMap fun g =>
      recordsFrom g (kind.mergeRecords S n narrowOff wideOff g) :=
    mem_flatMap.mpr ⟨g, mem_range.mpr hg, mem_map_of_mem (mem_map_of_mem hc)⟩
  rw [← add_assoc, ← add_assoc]
  refine copyAll_of_mem ho ?_ hmem
  simp only [map_flatMap, map_snd_recordsFrom]
  exact kind.mergeRecords_disjoint S n narrowOff wideOff

/-- …and split. -/
theorem StateKind.splitInto_splitRecords {c : ℕ × ℕ} (hc : c ∈ kind.pageParts S) (ho : o < c.2)
    (wide narrow : ℕ → β) :
    splitInto (kind.splitRecords S n wideOff narrowOff g) wide narrow (narrowOff g + (c.1 + o)) =
      wide (wideOff + ((place n g c).1 + o)) := by
  have hmem : ((), splitRecord n g wideOff (narrowOff g) c) ∈
      recordsFrom () (kind.splitRecords S n wideOff narrowOff g) :=
    mem_map_of_mem (mem_map_of_mem hc)
  rw [← add_assoc, ← add_assoc]
  refine copyAll_of_mem ho ?_ hmem
  rw [map_snd_recordsFrom]
  exact kind.splitRecords_disjoint S n wideOff narrowOff g

/-- The wide page, component by component. -/
theorem StateKind.pageParts_wide (hn : 0 < n) :
    kind.pageParts (S.wide n hn) = (kind.pageParts S).map fun c => (n * c.1, n * c.2) := by
  have hconv : kind.convParts (S.wide n hn) = (kind.convParts S).map (n * ·) := by
    cases kind <;> simp [convParts, wide, Function.comp_def, mul_assoc]
  rw [pageParts, hconv, S.wide_recurrent, ← map_singleton, ← map_append, pageParts,
    ← parts_mul, mul_zero]

end RoundTrip

/-! ## The group of a wide rank -/

/-- `n` narrow ranks and the wide rank that holds the state of all of them. -/
structure StatePeers (kind : StateKind) where
  shape : StateShape
  n : ℕ
  narrow : ℕ → WorkerInfo
  wide : WorkerInfo
  n_pos : 0 < n
  narrow_holds : ∀ g < n, HoldsState (narrow g) kind shape
  wide_holds : HoldsState wide kind (shape.wide n n_pos)

namespace StatePeers

variable {kind : StateKind} (X : StatePeers kind)

/-- P > D: the page of sender `g`, from `narrowOff` to `wideOff`. -/
def merge (env : EnvCfg) (g : ℕ) (bounds : IpcBlockBounds) (narrowOff wideOff : ℕ) :
    Except Fault (List IpcBlock) :=
  kind.pagePGtD env (X.narrow g) X.shape X.n g bounds narrowOff wideOff

/-- P < D: the page for target `g`. -/
def split (env : EnvCfg) (g : ℕ) (bounds : IpcBlockBounds) (wideOff narrowOff : ℕ) :
    Except Fault (List IpcBlock) :=
  kind.pagePLtD env X.wide (X.shape.wide X.n X.n_pos) X.n g bounds wideOff narrowOff

/-- The pages lie inside the buffers. -/
def MergeFits (bounds : ℕ → IpcBlockBounds) (narrowOff : ℕ → ℕ) (wideOff : ℕ) : Prop :=
  ∀ g < X.n, (bounds g).Spans (narrowOff g) X.shape.size wideOff (X.n * X.shape.size)

@[inherit_doc MergeFits]
def SplitFits (bounds : ℕ → IpcBlockBounds) (wideOff : ℕ) (narrowOff : ℕ → ℕ) : Prop :=
  ∀ g < X.n, (bounds g).Spans wideOff (X.n * X.shape.size) (narrowOff g) X.shape.size

/-- Component `c` of sender `g` is the `g`-th part of component `c` of the wide state. -/
def placed (g narrowOff wideOff : ℕ) : List IpcBlock :=
  List.zipWith
    (fun narrow wide => ⟨narrowOff + narrow.1, wideOff + (wide.1 + g * narrow.2), narrow.2⟩)
    (kind.pageParts X.shape) (kind.pageParts (X.shape.wide X.n X.n_pos))

variable {X} {env : EnvCfg} {bounds : ℕ → IpcBlockBounds} {narrowOff : ℕ → ℕ} {wideOff g : ℕ}

theorem merge_eq (hfits : X.MergeFits bounds narrowOff wideOff) (hg : g < X.n) :
    X.merge env g (bounds g) (narrowOff g) wideOff =
      .ok (kind.mergeRecords X.shape X.n narrowOff wideOff g) :=
  kind.pagePGtD_eq hg (hfits g hg) (X.narrow_holds g hg)

theorem split_eq (hfits : X.SplitFits bounds wideOff narrowOff) (hg : g < X.n) :
    X.split env g (bounds g) wideOff (narrowOff g) =
      .ok (kind.splitRecords X.shape X.n wideOff narrowOff g) :=
  kind.pagePLtD_eq X.n_pos X.wide_holds hg (hfits g hg)

theorem mergeRecords_eq_placed (X : StatePeers kind) (narrowOff : ℕ → ℕ) (wideOff g : ℕ) :
    kind.mergeRecords X.shape X.n narrowOff wideOff g = X.placed g (narrowOff g) wideOff := by
  rw [placed, kind.pageParts_wide, zipWith_map_right, zipWith_self]
  rfl

/-- Splitting a wide page and merging the pieces gives the page back. -/
theorem merge_split {β : Type} (X : StatePeers kind) (wideOff' : ℕ) (wide wide' : ℕ → β)
    (narrow : ℕ → ℕ → β) {i : ℕ} (hi : i < X.n * X.shape.size) :
    mergeInto X.n (kind.mergeRecords X.shape X.n narrowOff wideOff') (fun g => splitInto
        (kind.splitRecords X.shape X.n wideOff narrowOff g) wide (narrow g)) wide' (wideOff' + i) =
      wide (wideOff + i) := by
  rw [← kind.sum_page, ← Nat.zero_add (List.sum _)] at hi
  obtain ⟨g, hg, c, hc, o, ho, rfl⟩ := exists_place (Nat.zero_le _) hi
  rw [kind.mergeInto_mergeRecords _ _ hg hc ho, kind.splitInto_splitRecords _ _ hc ho]

/-- Merging the narrow pages and splitting the result gives each back. -/
theorem split_merge {β : Type} (X : StatePeers kind) (narrowOff' : ℕ → ℕ) (wide : ℕ → β)
    (narrow narrow' : ℕ → ℕ → β) {i : ℕ} (hg : g < X.n) (hi : i < X.shape.size) :
    splitInto (kind.splitRecords X.shape X.n wideOff narrowOff' g) (mergeInto X.n
        (kind.mergeRecords X.shape X.n narrowOff wideOff) narrow wide) (narrow' g)
        (narrowOff' g + i) = narrow g (narrowOff g + i) := by
  rw [← kind.sum_page, ← Nat.zero_add (List.sum _)] at hi
  obtain ⟨c, hc, o, ho, rfl⟩ := exists_part (Nat.zero_le _) hi
  rw [kind.splitInto_splitRecords _ _ hc ho, kind.mergeInto_mergeRecords _ _ hg hc ho]

end StatePeers

/-! ## The result -/

namespace StatePeers

variable {kind : StateKind} (X : StatePeers kind)

/-- A task of narrow rank `g` for a wide rank. -/
structure MergeTask (g : ℕ) (dst : WorkerInfo) (task : ReqSendTask) (pBlockSize dBlockSize : ℕ) :
    Prop extends KdaTask (X.narrow g) dst task pBlockSize dBlockSize where
  one_lt : 1 < X.n
  tp_pos : 0 < dst.engineTpSize
  tp_size : (X.narrow g).engineTpSize = X.n * dst.engineTpSize
  tp_rank : (X.narrow g).workerTpRank = X.n * dst.workerTpRank + g
  narrow_le : X.shape.size ≤ pBlockSize
  wide_le : X.n * X.shape.size ≤ dBlockSize

/-- A task of the wide rank for the narrow rank `g`. -/
structure SplitTask (g : ℕ) (dst : WorkerInfo) (task : ReqSendTask) (pBlockSize dBlockSize : ℕ) :
    Prop extends KdaTask X.wide dst task pBlockSize dBlockSize where
  one_lt : 1 < X.n
  tp_pos : 0 < X.wide.engineTpSize
  tp_size : dst.engineTpSize = X.n * X.wide.engineTpSize
  tp_rank : dst.workerTpRank = X.n * X.wide.workerTpRank + g
  wide_le : X.n * X.shape.size ≤ pBlockSize
  narrow_le : X.shape.size ≤ dBlockSize

variable {X} {env : EnvCfg} {g pBlockSize dBlockSize : ℕ} {dst : WorkerInfo} {task : ReqSendTask}

section Merge

variable (hg : g < X.n) (h : X.MergeTask g dst task pBlockSize dBlockSize)

include hg h

theorem MergeTask.parseKda_eq (hkind : kind ≠ .gdn) (hdims : X.shape.dims.length = 3) :
    parseKdaBlockSendPGtD env (X.narrow g) dst task =
      sendPages env (X.narrow g) dst task pBlockSize dBlockSize (X.merge env g) := by
  obtain ⟨hlt, hgroup, hmod, hdiv, hoff⟩ := tpGroup h.one_lt hg h.tp_pos h.tp_size h.tp_rank
  have hd : X.n * (X.shape.layout.convSize + X.shape.layout.recurrentSize) ≤ dBlockSize := h.wide_le
  have hp : X.shape.layout.convSize + X.shape.layout.recurrentSize ≤ pBlockSize := h.narrow_le
  rw [parseKdaBlockSendPGtD, h.prepareKdaParse, ok_bind, cassert_of hlt, ok_bind,
    checkedDiv_of_pos h.tp_pos, ok_bind, hgroup, cassert_of hmod, ok_bind,
    checkedDiv_of_pos X.n_pos, ok_bind, hdiv, cassert_of rfl, ok_bind, hoff, sendPages]
  dsimp only
  cases task.reachLastToken with
  | false => rfl
  | true =>
    rw [if_neg (by decide), if_pos rfl, getKdaPageStride_eq h.src_block h.src_stride, ok_bind,
      getKdaPageStride_eq h.dst_block h.dst_stride, ok_bind,
      getKdaStateLayout_eq hkind (X.narrow_holds g hg) hdims, ok_bind, cassert_of hd, ok_bind,
      cassert_of hp, ok_bind]
    cases kind with
    | gdn => exact absurd rfl hkind
    | kdaRowMajor | kdaDimFirst => rfl

theorem MergeTask.gdnSend_eq (hkind : kind ≠ .kdaDimFirst) (hne : X.shape.dims ≠ []) :
    StateKind.gdn.sendPGtD env pBlockSize dBlockSize X.n g (X.narrow g) dst task =
      sendPages env (X.narrow g) dst task pBlockSize dBlockSize
        (StateKind.gdn.pagePGtD env (X.narrow g) X.shape X.n g) := by
  have hgdn := (X.narrow_holds g hg).holdsGdn hkind hne
  simp only [StateKind.sendPGtD, hgdn.parsePGtD h.layers_le_src h.layers_le_dst]
  rfl

/-- **P > D runs the sender's page for each entry of the tables.** -/
theorem MergeTask.send_eq (hne : X.shape.dims ≠ [])
    (hdims : kind ≠ .gdn → X.shape.dims.length = 3) :
    kind.sendPGtD env pBlockSize dBlockSize X.n g (X.narrow g) dst task =
      sendPages env (X.narrow g) dst task pBlockSize dBlockSize (X.merge env g) := by
  cases kind with
  | gdn => exact h.gdnSend_eq hg nofun hne
  | kdaRowMajor | kdaDimFirst => exact h.parseKda_eq hg nofun (hdims nofun)

end Merge

section Split

variable (hg : g < X.n) (h : X.SplitTask g dst task pBlockSize dBlockSize)

include h

theorem SplitTask.gdnSend_eq (hkind : kind ≠ .kdaDimFirst) (hne : X.shape.dims ≠ []) :
    StateKind.gdn.sendPLtD env pBlockSize dBlockSize X.n g X.wide dst task =
      sendPages env X.wide dst task pBlockSize dBlockSize
        (StateKind.gdn.pagePLtD env X.wide (X.shape.wide X.n X.n_pos) X.n g) := by
  have hgdn := X.wide_holds.holdsGdn hkind (map_eq_nil_iff.not.mpr hne)
  simp only [StateKind.sendPLtD, hgdn.parsePLtD h.layers_le_src h.layers_le_dst X.n_pos
    ⟨_, X.shape.wide_rowSize X.n_pos⟩ ⟨_, rfl⟩]
  rfl

include hg

theorem SplitTask.parseKda_eq (hkind : kind ≠ .gdn) (hdims : X.shape.dims.length = 3) :
    parseKdaBlockSendPLtD env X.wide dst task =
      sendPages env X.wide dst task pBlockSize dBlockSize (X.split env g) := by
  obtain ⟨hlt, hgroup, hmod, hdiv, hoff⟩ := tpGroup h.one_lt hg h.tp_pos h.tp_size h.tp_rank
  set W := X.shape.wide X.n X.n_pos with hW
  have hsize : W.layout.convSize + W.layout.recurrentSize = X.n * X.shape.size :=
    X.shape.wide_size X.n_pos
  have hconv : W.layout.convSize % X.n = 0 := by
    rw [layout, hW, X.shape.wide_convSize, Nat.mul_mod_right]
  have hrec : W.layout.recurrentSize % X.n = 0 := Nat.mul_mod_right _ _
  have hdims : W.dims.length = 3 := by rw [hW, StateShape.wide, length_map, hdims]
  have hd : (W.layout.convSize + W.layout.recurrentSize) / X.n ≤ dBlockSize := by
    rw [hsize, Nat.mul_div_cancel_left _ X.n_pos]
    exact h.narrow_le
  rw [parseKdaBlockSendPLtD, h.prepareKdaParse, ok_bind, cassert_of hlt, ok_bind,
    checkedDiv_of_pos h.tp_pos, ok_bind, hgroup, cassert_of hmod, ok_bind,
    checkedDiv_of_pos X.n_pos, ok_bind, hdiv, cassert_of rfl, ok_bind, hoff, sendPages]
  dsimp only
  cases task.reachLastToken with
  | false => rfl
  | true =>
    rw [if_neg (by decide), if_pos rfl, getKdaPageStride_eq h.src_block h.src_stride, ok_bind,
      getKdaPageStride_eq h.dst_block h.dst_stride, ok_bind,
      getKdaStateLayout_eq hkind X.wide_holds hdims, ok_bind, cassert_of hconv, ok_bind,
      cassert_of hrec, ok_bind, cassert_of (hsize ▸ h.wide_le), ok_bind, cassert_of hd, ok_bind]
    cases kind with
    | gdn => exact absurd rfl hkind
    | kdaRowMajor | kdaDimFirst => rfl

/-- **P < D runs the target's page for each entry of the tables.** -/
theorem SplitTask.send_eq (hne : X.shape.dims ≠ [])
    (hdims : kind ≠ .gdn → X.shape.dims.length = 3) :
    kind.sendPLtD env pBlockSize dBlockSize X.n g X.wide dst task =
      sendPages env X.wide dst task pBlockSize dBlockSize (X.split env g) := by
  cases kind with
  | gdn => exact h.gdnSend_eq nofun hne
  | kdaRowMajor | kdaDimFirst => exact h.parseKda_eq hg nofun (hdims nofun)

end Split

end StatePeers

/-- **Merging and splitting recurrent state are inverse.**  For every group size, channel list and
recurrent size, and each of the three page layouts:

* a parse function runs `merge` or `split` for each page of its tables;
* the records of the `n` senders place component `c` of sender `g` as the `g`-th part of component
  `c` of the wide page, and write each byte of its state once, and nothing else;
* to split a page and merge the pieces, or the other way, changes nothing;
* with three channels the row-major pages of KDA are sent as those of GDN. -/
theorem recurrentState_merge_split {kind : StateKind} (X : StatePeers kind) (env : EnvCfg) :
    (X.shape.dims ≠ [] → (kind ≠ .gdn → X.shape.dims.length = 3) → ∀ g < X.n,
      ∀ (dst : WorkerInfo) (task : ReqSendTask) (pBlockSize dBlockSize : ℕ),
      (X.MergeTask g dst task pBlockSize dBlockSize →
        kind.sendPGtD env pBlockSize dBlockSize X.n g (X.narrow g) dst task =
          if task.reachLastToken then (do
            let bounds ← makeIpcBlockBounds env (X.narrow g) dst 0
            statePages (X.narrow g).numGdnLayers pBlockSize dBlockSize task.req.srcBlocks
              task.req.dstBlocks (X.merge env g bounds)) else .ok []) ∧
      (X.SplitTask g dst task pBlockSize dBlockSize →
        kind.sendPLtD env pBlockSize dBlockSize X.n g X.wide dst task =
          if task.reachLastToken then (do
            let bounds ← makeIpcBlockBounds env X.wide dst 0
            statePages X.wide.numGdnLayers pBlockSize dBlockSize task.req.srcBlocks
              task.req.dstBlocks (X.split env g bounds)) else .ok [])) ∧
    (∀ (bounds : ℕ → IpcBlockBounds) (narrowOff : ℕ → ℕ) (wideOff : ℕ),
      X.MergeFits bounds narrowOff wideOff →
      (∀ g < X.n, X.merge env g (bounds g) (narrowOff g) wideOff =
        .ok (X.placed g (narrowOff g) wideOff)) ∧
      ∀ i, ((List.range X.n).flatMap fun g => X.placed g (narrowOff g) wideOff).countP
          (fun r => decide (r.dstOffset ≤ i ∧ i < r.dstOffset + r.length)) =
        if wideOff ≤ i ∧ i < wideOff + X.n * X.shape.size then 1 else 0) ∧
    (∀ (bounds bounds' : ℕ → IpcBlockBounds) (wideOff wideOff' : ℕ) (narrowOff : ℕ → ℕ),
      X.SplitFits bounds wideOff narrowOff → X.MergeFits bounds' narrowOff wideOff' →
      ∃ splits merges : ℕ → List IpcBlock,
        (∀ g < X.n, X.split env g (bounds g) wideOff (narrowOff g) = .ok (splits g) ∧
          X.merge env g (bounds' g) (narrowOff g) wideOff' = .ok (merges g)) ∧
        ∀ (β : Type) (wide wide' : ℕ → β) (narrow : ℕ → ℕ → β), ∀ i < X.n * X.shape.size,
          mergeInto X.n merges (fun g => splitInto (splits g) wide (narrow g)) wide'
            (wideOff' + i) = wide (wideOff + i)) ∧
    (∀ (bounds bounds' : ℕ → IpcBlockBounds) (wideOff : ℕ) (narrowOff narrowOff' : ℕ → ℕ),
      X.MergeFits bounds narrowOff wideOff → X.SplitFits bounds' wideOff narrowOff' →
      ∃ splits merges : ℕ → List IpcBlock,
        (∀ g < X.n, X.merge env g (bounds g) (narrowOff g) wideOff = .ok (merges g) ∧
          X.split env g (bounds' g) wideOff (narrowOff' g) = .ok (splits g)) ∧
        ∀ (β : Type) (wide : ℕ → β) (narrow narrow' : ℕ → ℕ → β), ∀ g < X.n, ∀ i < X.shape.size,
          splitInto (splits g) (mergeInto X.n merges narrow wide) (narrow' g) (narrowOff' g + i) =
            narrow g (narrowOff g + i)) ∧
    (kind = .kdaRowMajor → X.shape.dims.length = 3 → ∀ g < X.n,
      ∀ (dst : WorkerInfo) (task : ReqSendTask) (pBlockSize dBlockSize : ℕ),
      (X.MergeTask g dst task pBlockSize dBlockSize →
        kind.sendPGtD env pBlockSize dBlockSize X.n g (X.narrow g) dst task =
          StateKind.gdn.sendPGtD env pBlockSize dBlockSize X.n g (X.narrow g) dst task) ∧
      (X.SplitTask g dst task pBlockSize dBlockSize →
        kind.sendPLtD env pBlockSize dBlockSize X.n g X.wide dst task =
          StateKind.gdn.sendPLtD env pBlockSize dBlockSize X.n g X.wide dst task)) := by
  refine ⟨fun hne hdims g hg dst task pBlockSize dBlockSize =>
    ⟨fun h => h.send_eq hg hne hdims, fun h => h.send_eq hg hne hdims⟩, ?_, ?_, ?_, ?_⟩
  · intro bounds narrowOff wideOff hfits
    simp only [← X.mergeRecords_eq_placed]
    exact ⟨fun g hg => X.merge_eq hfits hg, kind.mergeRecords_tile X.shape X.n narrowOff wideOff⟩
  · intro bounds bounds' wideOff wideOff' narrowOff hsplit hmerge
    exact ⟨_, _, fun g hg => ⟨X.split_eq hsplit hg, X.merge_eq hmerge hg⟩,
      fun β wide wide' narrow i hi => X.merge_split wideOff' wide wide' narrow hi⟩
  · intro bounds bounds' wideOff narrowOff narrowOff' hmerge hsplit
    exact ⟨_, _, fun g hg => ⟨X.merge_eq hmerge hg, X.split_eq hsplit hg⟩,
      fun β wide narrow narrow' g hg i hi => X.split_merge narrowOff' wide narrow narrow' hg hi⟩
  · rintro rfl hdims g hg dst task pBlockSize dBlockSize
    have hne : X.shape.dims ≠ [] := ne_nil_of_length_pos (by omega)
    refine ⟨fun h => ?_, fun h => ?_⟩
    · rw [h.send_eq hg hne fun _ => hdims, h.gdnSend_eq hg nofun hne]
      simp only [sendPages, ← pagePGtD_rowMajor (X.narrow_holds g hg)]
      rfl
    · rw [h.send_eq hg hne fun _ => hdims, h.gdnSend_eq nofun hne]
      simp only [sendPages, ← pagePLtD_rowMajor X.n_pos X.wide_holds]
      rfl

/-- Rank `g` of two, with two rows of one q, one k and one v channel… -/
def narrowRank (g : ℕ) : WorkerInfo where
  engineTpSize := 2
  workerTpRank := g
  blockSizes := [8]
  numGdnLayers := 1
  convStateShape := [1, 2, 3]
  ssmStateShape := [1, 1, 1, 2]
  gdnConvChannelDims := [1, 1, 1]

/-- …and the rank that holds both. -/
def wideRank : WorkerInfo where
  engineTpSize := 1
  blockSizes := [16]
  numGdnLayers := 1
  convStateShape := [1, 2, 6]
  ssmStateShape := [1, 1, 2, 2]
  gdnConvChannelDims := [2, 2, 2]

def twoRanks : StatePeers .kdaRowMajor where
  shape := ⟨2, [1, 1, 1], 1, 2, Nat.two_pos, by decide, Nat.one_pos, Nat.two_pos⟩
  n := 2
  narrow := narrowRank
  wide := wideRank
  n_pos := Nat.two_pos
  narrow_holds _ _ := ⟨rfl, rfl, fun _ => rfl, ⟨1, rfl⟩, 1, 1, 1, 2, rfl, rfl⟩
  wide_holds := ⟨rfl, rfl, fun _ => rfl, ⟨1, rfl⟩, 1, 1, 2, 2, rfl, rfl⟩

theorem recurrentState_merge_split_twoRanks :
    (∀ g < 2, ∀ reach : Bool,
      let task : ReqSendTask := ⟨⟨0, "req", [[0]], [[0]]⟩, 0, 1, reach, by decide⟩
      parseKdaBlockSendPGtD {} (narrowRank g) wideRank task =
        StateKind.gdn.sendPGtD {} 8 16 2 g (narrowRank g) wideRank task) ∧
    twoRanks.merge {} 1 ⟨8, 16, 1, 0⟩ 0 0 = .ok [⟨0, 1, 1⟩, ⟨1, 3, 1⟩, ⟨2, 5, 1⟩, ⟨3, 7, 1⟩,
      ⟨4, 9, 1⟩, ⟨5, 11, 1⟩, ⟨6, 14, 2⟩] := by
  obtain ⟨-, hmerge, -, -, hagree⟩ := recurrentState_merge_split twoRanks {}
  have hspans : IpcBlockBounds.Spans ⟨8, 16, 1, 0⟩ 0 twoRanks.shape.size 0
    (twoRanks.n * twoRanks.shape.size) := ⟨by decide, by decide, by decide, by decide⟩
  refine ⟨fun g hg reach => ?_, ?_⟩
  · refine (hagree rfl rfl g hg wideRank _ 8 16).1 ⟨⟨rfl, rfl, .inl rfl, .inl rfl, one_pos,
      Nat.le_refl 1, Nat.le_refl 1, fun i hi => ?_⟩, by decide, by decide, rfl, ?_, by decide,
      by decide⟩
    · obtain rfl : i = 0 := Nat.lt_one_iff.mp hi
      rfl
    · exact (zero_add g).symm
  · exact (hmerge (fun _ => ⟨8, 16, 1, 0⟩) (fun _ => 0) 0 fun _ _ => hspans).1 1 (by decide)

end LlumnixKv
