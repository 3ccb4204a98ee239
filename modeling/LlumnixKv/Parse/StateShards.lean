import LlumnixKv.Machinery.Shards
import LlumnixKv.Parse.Recurrent
import Mathlib.Algebra.BigOperators.Ring.List

/-!
# Parse/StateShards — a state page is a row of components

In every layout a page is a row of components laid end to end.  Both directions move component `c`
of shard `g` to or from the `g`-th slice of component `c` of the wide page:

    mergeRecord    narrow page g  →  wide page      P > D
    splitRecord    wide page      →  narrow page g  P < D

The loops over rows and channels accumulate these offsets (`StateKind.pagePGtD_eq`,
`StateKind.pagePLtD_eq`).
-/

open List Machinery Machinery.Shards

namespace LlumnixKv

/-! ## Components -/

/-- The layouts of a state page. -/
inductive StateKind
  | gdn
  | kdaRowMajor
  | kdaDimFirst
  deriving DecidableEq, Repr

/-- The state of one rank: `rows` steps of history, the channels `dims` of `convElem` bytes each,
and the bytes of the recurrent state. -/
structure StateShape where
  rows : ℕ
  dims : List ℕ
  convElem : ℕ
  recurrent : ℕ
  rows_pos : 0 < rows
  dims_pos : ∀ dim ∈ dims, 0 < dim
  convElem_pos : 0 < convElem
  recurrent_pos : 0 < recurrent

namespace StateShape

variable (S : StateShape)

/-- The bytes of a row. -/
def rowSize : ℕ := S.dims.sum * S.convElem

def convSize : ℕ := S.rows * S.rowSize

/-- The bytes of the state. -/
def size : ℕ := S.convSize + S.recurrent

/-- The state of `n` ranks in one. -/
def wide (n : ℕ) (hn : 0 < n) : StateShape where
  rows := S.rows
  dims := S.dims.map (n * ·)
  convElem := S.convElem
  recurrent := n * S.recurrent
  rows_pos := S.rows_pos
  dims_pos := by
    rintro _ h
    obtain ⟨dim, hdim, rfl⟩ := mem_map.mp h
    exact mul_pos hn (S.dims_pos dim hdim)
  convElem_pos := S.convElem_pos
  recurrent_pos := mul_pos hn S.recurrent_pos

/-- What `get_kda_state_layout` makes of it. -/
def layout : KdaStateLayout :=
  ⟨S.rows, S.dims.sum, S.convSize, S.recurrent⟩

end StateShape

variable (kind : StateKind)

/-- The components of the convolution, in the order of the page. -/
def StateKind.convParts (S : StateShape) : List ℕ :=
  match kind with
  | .gdn | .kdaRowMajor => (List.replicate S.rows (S.dims.map (· * S.convElem))).flatten
  | .kdaDimFirst => S.dims.map (· * (S.rows * S.convElem))

/-- **A page is a row of components laid end to end.** -/
def StateKind.pageParts (S : StateShape) : List (ℕ × ℕ) :=
  parts 0 (kind.convParts S ++ [S.recurrent])

/-- Component `c` of shard `g`, from its page to the wide one. -/
def mergeRecord (n g narrowOff wideOff : ℕ) (c : ℕ × ℕ) : IpcBlock :=
  ⟨narrowOff + c.1, wideOff + (place n g c).1, c.2⟩

/-- …and from the wide page to its own. -/
def splitRecord (n g wideOff narrowOff : ℕ) (c : ℕ × ℕ) : IpcBlock :=
  ⟨wideOff + (place n g c).1, narrowOff + c.1, c.2⟩

/-! ## What the loops emit -/

section Rows

variable {env : EnvCfg} {rowSize elemSize n g pRow dRow : ℕ} {bounds : IpcBlockBounds}

theorem mergeRecord_add (n g narrowOff wideOff k : ℕ) (c : ℕ × ℕ) :
    mergeRecord n g narrowOff wideOff (k + c.1, c.2) =
      mergeRecord n g (narrowOff + k) (wideOff + n * k) c := by
  simp only [mergeRecord, place, mul_add, add_assoc]

theorem splitRecord_add (n g wideOff narrowOff k : ℕ) (c : ℕ × ℕ) :
    splitRecord n g wideOff narrowOff (k + c.1, c.2) =
      splitRecord n g (wideOff + n * k) (narrowOff + k) c := by
  simp only [splitRecord, place, mul_add, add_assoc]

/-- A row of P > D. -/
theorem gdnConvRow_eq : ∀ (dims : List ℕ) (inner : ℕ),
    inner + (dims.map (· * elemSize)).sum = rowSize →
    (∀ c ∈ parts inner (dims.map (· * elemSize)), (mergeRecord n g pRow dRow c).FitsIn bounds) →
    gdnConvRow env rowSize elemSize n g pRow dRow bounds dims inner =
      .ok ((parts inner (dims.map (· * elemSize))).map (mergeRecord n g pRow dRow))
  | [], inner, hrow, _ => by
      rw [gdnConvRow, cassert_of (by simpa using hrow)]
      rfl
  | dim :: dims, inner, hrow, hfits => by
      rw [map_cons, sum_cons] at hrow
      rw [map_cons, parts] at hfits
      have hfirst : bounds.Fits (pRow + inner) (dRow + (n * inner + g * (dim * elemSize)))
        (dim * elemSize) := hfits _ mem_cons_self
      have hrest := gdnConvRow_eq dims (inner + dim * elemSize) (by omega) fun c hc =>
        hfits c (mem_cons_of_mem _ hc)
      rw [gdnConvRow, add_assoc dRow, appendIpcBlockChecked_eq_ok.mpr ⟨hfirst, rfl⟩, ok_bind,
        hrest]
      rfl

/-- A row of P < D, whose segments are `n` times those of `row`. -/
theorem gdnConvRowPLtD_eq (hn : 0 < n) : ∀ (row dims : List ℕ) (inner : ℕ),
    dims.map (· * elemSize) = row.map (n * ·) → inner + row.sum = rowSize →
    (∀ c ∈ parts inner row, (splitRecord n g pRow dRow c).FitsIn bounds) →
    gdnConvRowPLtD env (n * rowSize) rowSize elemSize n g pRow dRow bounds dims (n * inner) inner =
      .ok ((parts inner row).map (splitRecord n g pRow dRow))
  | [], dims, inner, hdims, hrow, _ => by
      obtain rfl : dims = [] := map_eq_nil_iff.mp hdims
      obtain rfl : inner = rowSize := hrow
      rw [gdnConvRowPLtD, cassert_of rfl, ok_bind, cassert_of rfl]
      rfl
  | s :: row, dims, inner, hdims, hrow, hfits => by
      obtain ⟨dim, dims, rfl, hdim, hdims⟩ := map_eq_cons_iff.mp hdims
      rw [sum_cons] at hrow
      rw [parts] at hfits
      have hfirst : bounds.Fits (pRow + (n * inner + g * s)) (dRow + inner) s :=
        hfits _ mem_cons_self
      have hrest := gdnConvRowPLtD_eq hn row dims (inner + s) hdims (by omega) fun c hc =>
        hfits c (mem_cons_of_mem _ hc)
      rw [mul_add] at hrest
      rw [gdnConvRowPLtD]
      dsimp only
      rw [hdim, cassert_of (Nat.mul_mod_right _ _), ok_bind, Nat.mul_div_cancel_left _ hn,
        add_assoc pRow, appendIpcBlockChecked_eq_ok.mpr ⟨hfirst, rfl⟩, ok_bind, hrest]
      rfl

/-- The channel loop of KDA is that of GDN. -/
theorem kdaConvRowPLtD_eq (hn : 0 < n) (pEnd : ℕ) {total : ℕ} {dEnd : Option ℕ}
    (hend : dEnd.all (· = total) = true) : ∀ (dims : List ℕ) (pInner dInner : ℕ),
    (∀ dim ∈ dims, n ∣ dim) → dInner + (dims.map fun dim => dim / n * elemSize).sum = total →
    kdaConvRowPLtD env pEnd dEnd elemSize n g pRow dRow bounds dims pInner dInner =
      gdnConvRowPLtD env pEnd total elemSize n g pRow dRow bounds dims pInner dInner
  | [], pInner, dInner, _, htotal => by
      obtain rfl : dInner = total := by simpa using htotal
      rw [kdaConvRowPLtD, gdnConvRowPLtD, cassert_of hend, cassert_of rfl]
  | dim :: dims, pInner, dInner, hdvd, htotal => by
      rw [map_cons, sum_cons] at htotal
      obtain ⟨k, rfl⟩ := hdvd dim mem_cons_self
      have hrest := kdaConvRowPLtD_eq hn pEnd hend dims (pInner + n * (k * elemSize))
        (dInner + k * elemSize) (fun dim hdim => hdvd dim (mem_cons_of_mem _ hdim))
        (by rw [Nat.mul_div_cancel_left _ hn] at htotal; omega)
      have hstep : n * k * elemSize = n * (k * elemSize) := mul_assoc _ _ _
      rw [kdaConvRowPLtD, gdnConvRowPLtD]
      dsimp only
      rw [hstep, cassert_of (Nat.mul_mod_right _ _), cassert_of (Nat.mul_mod_right _ _),
        Nat.mul_div_cancel_left _ hn, Nat.mul_div_cancel_left _ hn, hrest]

/-! ## Row after row, and the recurrent state -/

/-- The components of a page of rows. -/
abbrev rowComponents (rows : ℕ) (row : List ℕ) (recurrent : ℕ) : List ℕ :=
  (List.replicate rows row).flatten ++ [recurrent]

variable {rows recurrent : ℕ} {row dims : List ℕ} {record : ℕ × ℕ → IpcBlock}

theorem sum_rows (rows : ℕ) (row : List ℕ) :
    (List.replicate rows row).flatten.sum = rows * row.sum := by
  rw [sum_flatten, map_replicate, sum_replicate_nat]

/-- A component lies inside the page, and is not empty. -/
theorem bounds_of_mem_rowComponents {c : ℕ × ℕ} (hrow : ∀ s ∈ row, 0 < s)
    (hrecurrent : 0 < recurrent) (hc : c ∈ parts 0 (rowComponents rows row recurrent)) :
    0 < c.2 ∧ c.1 + c.2 ≤ rows * row.sum + recurrent := by
  obtain ⟨-, hle, hmem⟩ := bounds_of_mem_parts hc
  rw [sum_append, sum_rows, sum_singleton, zero_add] at hle
  refine ⟨?_, hle⟩
  rcases mem_append.mp hmem with hconv | hrec
  · obtain ⟨row', hrow', hmem⟩ := mem_flatten.mp hconv
    exact hrow _ (eq_of_mem_replicate hrow' ▸ hmem)
  · exact mem_singleton.mp hrec ▸ hrecurrent

/-- A loop over the rows. -/
theorem emitRows_eq {emit : ℕ → Except Fault (List IpcBlock)}
    (hrow : ∀ r, (∀ c ∈ parts 0 row, (record (r * row.sum + c.1, c.2)).FitsIn bounds) →
      emit r = .ok ((parts 0 row).map fun c => record (r * row.sum + c.1, c.2)))
    (hfits : ∀ c ∈ parts 0 (List.replicate rows row).flatten, (record c).FitsIn bounds) :
    emitAll emit (List.range rows) =
      .ok ((parts 0 (List.replicate rows row).flatten).map record) := by
  have hparts (r : ℕ) :
      parts (0 + r * row.sum) row = (parts 0 row).map fun c => (r * row.sum + c.1, c.2) := by
    rw [add_comm, parts_add]
  rw [parts_flatten_replicate] at hfits ⊢
  rw [map_flatMap]
  refine emitAll_ok fun r hr => ?_
  rw [hparts, map_map]
  refine hrow r fun c hc => hfits _ (mem_flatMap.mpr ⟨r, hr, ?_⟩)
  rw [hparts]
  exact mem_map_of_mem hc

/-- The recurrent state follows the convolution. -/
theorem page_eq {components : List ℕ} {src dst : ℕ} {conv : Except Fault (List IpcBlock)}
    (hlast : record (components.sum, recurrent) = ⟨src, dst, recurrent⟩)
    (hfits : ∀ c ∈ parts 0 (components ++ [recurrent]), (record c).FitsIn bounds)
    (hconv : (∀ c ∈ parts 0 components, (record c).FitsIn bounds) →
      conv = .ok ((parts 0 components).map record)) :
    (do let conv ← conv
        let recurrent ← appendIpcBlockChecked bounds src dst recurrent
        return conv ++ recurrent) =
      .ok ((parts 0 (components ++ [recurrent])).map record) := by
  have hparts : parts 0 (components ++ [recurrent]) =
      parts 0 components ++ [(components.sum, recurrent)] := by
    rw [parts_append, zero_add]
    rfl
  rw [hparts] at hfits ⊢
  have hrec := hfits _ (mem_append_right _ mem_cons_self)
  rw [hlast] at hrec
  rw [hconv fun c hc => hfits c (mem_append_left _ hc), ok_bind,
    appendIpcBlockChecked_eq_ok.mpr ⟨hrec, rfl⟩, map_append, map_singleton, hlast]
  rfl

/-- The GDN page of P > D. -/
theorem gdnPagePGtD_eq (hrow : (dims.map (· * elemSize)).sum = rowSize)
    (hfits : ∀ c ∈ parts 0 (rowComponents rows (dims.map (· * elemSize)) recurrent),
      (mergeRecord n g pRow dRow c).FitsIn bounds) :
    gdnPagePGtD env rows rowSize recurrent elemSize n g dims bounds pRow dRow =
      .ok ((parts 0 (rowComponents rows (dims.map (· * elemSize)) recurrent)).map
        (mergeRecord n g pRow dRow)) := by
  refine page_eq ?_ hfits (emitRows_eq fun r hfits => ?_)
  · rw [sum_rows, hrow, mergeRecord, place, add_assoc]
  · have hwide : r * (n * rowSize) = n * (r * rowSize) := mul_left_comm _ _ _
    simp only [mergeRecord_add, hrow, hwide] at hfits ⊢
    exact gdnConvRow_eq dims 0 (by rw [hrow, zero_add]) hfits

/-- …and of P < D. -/
theorem gdnPagePLtD_eq (hn : 0 < n) (hdims : dims.map (· * elemSize) = row.map (n * ·))
    (hfits : ∀ c ∈ parts 0 (rowComponents rows row recurrent),
      (splitRecord n g pRow dRow c).FitsIn bounds) :
    gdnPagePLtD env rows (n * row.sum) (n * recurrent) elemSize n g dims bounds pRow dRow =
      .ok ((parts 0 (rowComponents rows row recurrent)).map (splitRecord n g pRow dRow)) := by
  have hwide (r : ℕ) : r * (n * row.sum) = n * (r * row.sum) := mul_left_comm _ _ _
  rw [gdnPagePLtD, Nat.mul_div_cancel_left _ hn, Nat.mul_div_cancel_left _ hn]
  refine page_eq ?_ hfits (emitRows_eq fun r hfits => ?_)
  · rw [sum_rows, hwide, splitRecord, place, add_assoc]
  · simp only [splitRecord_add, hwide] at hfits ⊢
    exact gdnConvRowPLtD_eq hn row dims 0 hdims (zero_add _) hfits

end Rows

/-! ## One page -/

/-- A worker registered this state. -/
structure HoldsState (w : WorkerInfo) (kind : StateKind) (S : StateShape) : Prop where
  channelDims : w.gdnConvChannelDims = S.dims
  convElem : w.gdnConvElemSize = S.convElem
  dimFirst : kind ≠ .gdn → w.kdaConvDimFirst = decide (kind = .kdaDimFirst)
  conv : ∃ blocks, w.convStateShape =
    if kind = .kdaDimFirst then [blocks, S.dims.sum, S.rows] else [blocks, S.rows, S.dims.sum]
  ssm : ∃ blocks heads values keys, w.ssmStateShape = [blocks, heads, values, keys] ∧
    heads * values * keys * w.gdnSsmElemSize = S.recurrent

/-- The GDN state a worker registered: `convRows` convolution rows of `rowSize` bytes, made of its
channels, and `ssmSize` bytes of recurrent state. -/
structure HoldsGdn (w : WorkerInfo) (convRows rowSize ssmSize : ℕ) : Prop where
  conv : w.convStateShape[1]? = some convRows ∧
    ∃ cols, w.convStateShape[2]? = some cols ∧ cols * w.gdnConvElemSize = rowSize
  ssm : ∃ heads values keys, w.ssmStateShape[1]? = some heads ∧ w.ssmStateShape[2]? = some values ∧
    w.ssmStateShape[3]? = some keys ∧ heads * values * keys * w.gdnSsmElemSize = ssmSize
  channels : (w.gdnConvChannelDims.map (· * w.gdnConvElemSize)).sum = rowSize
  channels_ne : w.gdnConvChannelDims ≠ []
  channels_pos : ∀ dim ∈ w.gdnConvChannelDims, 0 < dim * w.gdnConvElemSize
  ssmSize_pos : 0 < ssmSize

section Parse

variable {env : EnvCfg} {w : WorkerInfo} {convRows rowSize ssmSize pBS dBS numGdnLayers n g : ℕ}
  {srcBlocks dstBlocks : List (List ℕ)} {bounds : IpcBlockBounds}
  (h : HoldsGdn w convRows rowSize ssmSize) (hsrcLen : numGdnLayers ≤ srcBlocks.length)
  (hdstLen : numGdnLayers ≤ dstBlocks.length)

include h

theorem HoldsGdn.shape_ne : w.convStateShape ≠ [] ∧ w.ssmStateShape ≠ [] := by
  obtain ⟨heads, values, keys, hheads, -⟩ := h.ssm
  have hrows := h.conv.1
  refine ⟨?_, ?_⟩ <;> rintro hnil
  · cases hnil ▸ hrows
  · cases hnil ▸ hheads

include hsrcLen hdstLen

/-- P > D of GDN runs its page for each entry of the tables. -/
theorem HoldsGdn.parsePGtD :
    parseHybridGdnBlockSendPGtD env pBS dBS numGdnLayers n g w srcBlocks dstBlocks bounds =
      statePages numGdnLayers pBS dBS srcBlocks dstBlocks
        (gdnPagePGtD env convRows rowSize ssmSize w.gdnConvElemSize n g w.gdnConvChannelDims
          bounds) := by
  obtain ⟨hrows, cols, hcols, rfl⟩ := h.conv
  obtain ⟨heads, values, keys, hheads, hvalues, hkeys, rfl⟩ := h.ssm
  rw [parseHybridGdnBlockSendPGtD, cassert_of hsrcLen, ok_bind, cassert_of hdstLen, ok_bind,
    cassert_of h.shape_ne.1, ok_bind, cassert_of h.shape_ne.2, ok_bind, cassert_of h.channels_ne,
    ok_bind, vecAt_eq_ok.mpr hrows, ok_bind, vecAt_eq_ok.mpr hcols, ok_bind,
    vecAt_eq_ok.mpr hheads, ok_bind, vecAt_eq_ok.mpr hvalues, ok_bind, vecAt_eq_ok.mpr hkeys,
    ok_bind]
  rfl

/-- …and so does P < D. -/
theorem HoldsGdn.parsePLtD (hn : 0 < n) (hrow : n ∣ rowSize) (hssm : n ∣ ssmSize) :
    parseHybridGdnBlockSendPLtD env pBS dBS numGdnLayers n g w srcBlocks dstBlocks bounds =
      statePages numGdnLayers pBS dBS srcBlocks dstBlocks
        (gdnPagePLtD env convRows rowSize ssmSize w.gdnConvElemSize n g w.gdnConvChannelDims
          bounds) := by
  obtain ⟨hrows, cols, hcols, rfl⟩ := h.conv
  obtain ⟨heads, values, keys, hheads, hvalues, hkeys, rfl⟩ := h.ssm
  rw [parseHybridGdnBlockSendPLtD, cassert_of hsrcLen, ok_bind, cassert_of hdstLen, ok_bind,
    cassert_of h.shape_ne.1, ok_bind, cassert_of h.shape_ne.2, ok_bind, cassert_of h.channels_ne,
    ok_bind, cassert_of hn, ok_bind, vecAt_eq_ok.mpr hrows, ok_bind, vecAt_eq_ok.mpr hcols,
    ok_bind, vecAt_eq_ok.mpr hheads, ok_bind, vecAt_eq_ok.mpr hvalues, ok_bind,
    vecAt_eq_ok.mpr hkeys, ok_bind]
  dsimp only
  rw [cassert_of (Nat.mod_eq_zero_of_dvd hrow), ok_bind, cassert_of (Nat.mod_eq_zero_of_dvd hssm),
    ok_bind, checkedDiv_of_pos hn, ok_bind]

end Parse

/-- The page of the P > D functions. -/
def StateKind.pagePGtD (env : EnvCfg) (w : WorkerInfo) (S : StateShape) (n g : ℕ)
    (bounds : IpcBlockBounds) : ℕ → ℕ → Except Fault (List IpcBlock) :=
  match kind with
  | .gdn => gdnPagePGtD env S.rows S.rowSize S.recurrent w.gdnConvElemSize n g
      w.gdnConvChannelDims bounds
  | .kdaRowMajor | .kdaDimFirst => emitKdaBlockPGtD env n g w S.layout bounds

/-- The page of the P < D functions. -/
def StateKind.pagePLtD (env : EnvCfg) (w : WorkerInfo) (S : StateShape) (n g : ℕ)
    (bounds : IpcBlockBounds) : ℕ → ℕ → Except Fault (List IpcBlock) :=
  match kind with
  | .gdn => gdnPagePLtD env S.rows S.rowSize S.recurrent w.gdnConvElemSize n g
      w.gdnConvChannelDims bounds
  | .kdaRowMajor | .kdaDimFirst => emitKdaBlockPLtD env n g w S.layout bounds

section Pages

variable {env : EnvCfg} {kind : StateKind} {S : StateShape} {n g : ℕ} {bounds : IpcBlockBounds}

theorem StateShape.sum_wide_dims (S : StateShape) (n : ℕ) (hn : 0 < n) :
    (S.wide n hn).dims.sum = n * S.dims.sum := by
  rw [wide, sum_map_mul_left, map_id']

theorem StateShape.wide_convElem (hn : 0 < n) : (S.wide n hn).convElem = S.convElem := rfl

theorem StateShape.wide_recurrent (hn : 0 < n) : (S.wide n hn).recurrent = n * S.recurrent := rfl

theorem StateShape.wide_rowSize (hn : 0 < n) : (S.wide n hn).rowSize = n * S.rowSize := by
  rw [rowSize, sum_wide_dims, rowSize, mul_assoc]
  rfl

theorem StateShape.wide_convSize (hn : 0 < n) : (S.wide n hn).convSize = n * S.convSize := by
  rw [convSize, wide_rowSize, convSize, mul_left_comm]
  rfl

theorem StateShape.wide_size (hn : 0 < n) : (S.wide n hn).size = n * S.size := by
  rw [size, wide_convSize, size, mul_add]
  rfl

theorem StateShape.dvd_wide (S : StateShape) (hn : 0 < n) :
    ∀ dim ∈ (S.wide n hn).dims, n ∣ dim := by
  intro dim hdim
  obtain ⟨narrow, -, rfl⟩ := mem_map.mp hdim
  exact Nat.dvd_mul_right n narrow

theorem StateShape.map_wide_div (S : StateShape) (hn : 0 < n) (unitSize : ℕ) :
    (S.wide n hn).dims.map (fun dim => dim / n * unitSize) = S.dims.map (· * unitSize) := by
  rw [wide, map_map]
  refine map_congr_left fun dim _ => ?_
  rw [Function.comp_apply, Nat.mul_div_cancel_left _ hn]

theorem StateShape.map_wide (S : StateShape) (hn : 0 < n) (unitSize : ℕ) :
    (S.wide n hn).dims.map (· * unitSize) = (S.dims.map (· * unitSize)).map (n * ·) := by
  rw [wide, map_map, map_map]
  exact map_congr_left fun dim _ => mul_assoc n dim unitSize

theorem StateShape.sum_row (S : StateShape) : (S.dims.map (· * S.convElem)).sum = S.rowSize := by
  rw [sum_map_mul_right, map_id', rowSize]

theorem StateKind.sum_convParts (kind : StateKind) (S : StateShape) :
    (kind.convParts S).sum = S.convSize := by
  cases kind with
  | gdn | kdaRowMajor =>
    rw [convParts, sum_flatten, map_replicate, S.sum_row, sum_replicate_nat,
      StateShape.convSize]
  | kdaDimFirst =>
    rw [convParts, sum_map_mul_right, map_id', StateShape.convSize, StateShape.rowSize,
      mul_left_comm]

variable {c : ℕ × ℕ} {w : WorkerInfo}

/-- A row-major state is one of GDN. -/
theorem HoldsState.holdsGdn (h : HoldsState w kind S) (hkind : kind ≠ .kdaDimFirst)
    (hdims : S.dims ≠ []) : HoldsGdn w S.rows S.rowSize S.recurrent where
  conv := by
    obtain ⟨blocks, hconv⟩ := h.conv
    rw [if_neg hkind] at hconv
    rw [hconv, h.convElem]
    exact ⟨rfl, _, rfl, rfl⟩
  ssm := by
    obtain ⟨blocks, heads, values, keys, hssm, hsize⟩ := h.ssm
    rw [hssm]
    exact ⟨heads, values, keys, rfl, rfl, rfl, hsize⟩
  channels := by rw [h.channelDims, h.convElem, S.sum_row]
  channels_ne := h.channelDims ▸ hdims
  channels_pos := by
    rw [h.channelDims, h.convElem]
    exact fun dim hdim => mul_pos (S.dims_pos dim hdim) S.convElem_pos
  ssmSize_pos := S.recurrent_pos

/-- A component lies inside the page, and is not empty. -/
theorem StateKind.bounds_of_mem (hc : c ∈ kind.pageParts S) : 0 < c.2 ∧ c.1 + c.2 ≤ S.size := by
  have hpos {u : ℕ} (hu : 0 < u) : ∀ s ∈ S.dims.map (· * u), 0 < s :=
    forall_mem_map.mpr fun dim hdim => mul_pos (S.dims_pos dim hdim) hu
  obtain ⟨-, hle, hmem⟩ := bounds_of_mem_parts hc
  rw [sum_append, kind.sum_convParts, sum_singleton, zero_add] at hle
  refine ⟨?_, hle⟩
  cases kind with
  | gdn | kdaRowMajor =>
    exact (bounds_of_mem_rowComponents (hpos S.convElem_pos) S.recurrent_pos hc).1
  | kdaDimFirst =>
    rcases mem_append.mp hmem with hconv | hrec
    · exact hpos (mul_pos S.rows_pos S.convElem_pos) _ hconv
    · exact mem_singleton.mp hrec ▸ S.recurrent_pos

/-- **On row-major pages KDA emits what GDN emits.** -/
theorem pagePGtD_rowMajor (hw : HoldsState w .kdaRowMajor S) :
    StateKind.kdaRowMajor.pagePGtD env w S n g bounds =
      StateKind.gdn.pagePGtD env w S n g bounds := by
  have hfirst : w.kdaConvDimFirst = false := hw.dimFirst nofun
  funext pOff dOff
  rw [StateKind.pagePGtD, StateKind.pagePGtD, emitKdaBlockPGtD, hfirst, hw.convElem]
  rfl

/-- **The page of P > D: every component of the sender, to its slice of the wide page.** -/
theorem StateKind.pagePGtD_eq {pOff dOff : ℕ} (hg : g < n)
    (hspans : bounds.Spans pOff S.size dOff (n * S.size)) (hw : HoldsState w kind S) :
    kind.pagePGtD env w S n g bounds pOff dOff =
      .ok ((kind.pageParts S).map (mergeRecord n g pOff dOff)) := by
  have hfits : ∀ c ∈ kind.pageParts S, (mergeRecord n g pOff dOff c).FitsIn bounds := fun c hc =>
    hspans.fits (bounds_of_mem hc).1 (bounds_of_mem hc).2 (place_le hg (bounds_of_mem hc).2)
  cases kind with
  | gdn =>
    rw [pagePGtD, hw.channelDims, hw.convElem]
    exact gdnPagePGtD_eq S.sum_row hfits
  | kdaRowMajor =>
    rw [pagePGtD_rowMajor hw, pagePGtD, hw.channelDims, hw.convElem]
    exact gdnPagePGtD_eq S.sum_row hfits
  | kdaDimFirst =>
    have hsum := sum_convParts .kdaDimFirst S
    rw [pagePGtD, emitKdaBlockPGtD, hw.channelDims, hw.convElem, hw.dimFirst nofun]
    refine page_eq ?_ hfits (gdnConvRow_eq S.dims 0 ((zero_add _).trans hsum))
    rw [hsum, mergeRecord, place, ← add_assoc]
    rfl

/-- The dim-first KDA page of P < D. -/
theorem emitKdaBlockPLtD_dimFirst (hn : 0 < n) {pOff dOff : ℕ}
    (hfits : ∀ c ∈ StateKind.kdaDimFirst.pageParts S, (splitRecord n g pOff dOff c).FitsIn bounds)
    (hw : HoldsState w .kdaDimFirst (S.wide n hn)) :
    emitKdaBlockPLtD env n g w (S.wide n hn).layout bounds pOff dOff =
      .ok ((StateKind.kdaDimFirst.pageParts S).map (splitRecord n g pOff dOff)) := by
  have hsum := StateKind.sum_convParts .kdaDimFirst S
  have hdiv := S.map_wide_div hn (S.rows * S.convElem)
  have hconv (hfits : ∀ c ∈ parts 0 (StateKind.kdaDimFirst.convParts S),
      (splitRecord n g pOff dOff c).FitsIn bounds) :
      kdaConvRowPLtD env (n * S.convSize) none (S.rows * S.convElem) n g pOff dOff bounds
        (S.wide n hn).dims 0 0 =
      .ok ((parts 0 (StateKind.kdaDimFirst.convParts S)).map (splitRecord n g pOff dOff)) := by
    have htotal : 0 + (S.dims.map (· * (S.rows * S.convElem))).sum = S.convSize :=
      (zero_add _).trans hsum
    rw [kdaConvRowPLtD_eq hn _ rfl _ _ _ (S.dvd_wide hn) (by rw [hdiv, htotal])]
    exact gdnConvRowPLtD_eq hn _ _ 0 (S.map_wide hn _) htotal hfits
  have hmod : (S.wide n hn).layout.recurrentSize % n = 0 := Nat.mul_mod_right _ _
  have hrecurrent : (S.wide n hn).layout.recurrentSize / n = S.recurrent :=
    Nat.mul_div_cancel_left _ hn
  have hwide : (S.wide n hn).layout.convSize = n * S.convSize := S.wide_convSize hn
  have hfirst : w.kdaConvDimFirst = true := hw.dimFirst nofun
  rw [emitKdaBlockPLtD, hw.channelDims, hw.convElem, hfirst]
  dsimp only
  rw [cassert_of hmod, ok_bind, checkedDiv_of_pos hn, ok_bind, if_pos rfl, hrecurrent, hwide]
  refine Eq.trans ?_ (page_eq (by rw [splitRecord, place, ← add_assoc]) hfits hconv)
  simp only [pure_bind]
  rw [← hsum, StateKind.convParts, ← hdiv]
  rfl

/-- …in both directions. -/
theorem pagePLtD_rowMajor (hn : 0 < n) (hw : HoldsState w .kdaRowMajor (S.wide n hn)) :
    StateKind.kdaRowMajor.pagePLtD env w (S.wide n hn) n g bounds =
      StateKind.gdn.pagePLtD env w (S.wide n hn) n g bounds := by
  have hmod : (S.wide n hn).layout.recurrentSize % n = 0 := Nat.mul_mod_right _ _
  have hrecurrent : (S.wide n hn).layout.recurrentSize / n = S.recurrent :=
    Nat.mul_div_cancel_left _ hn
  have hwide : (S.wide n hn).layout.convSize = n * S.convSize := S.wide_convSize hn
  have hrow : (S.wide n hn).layout.qkvChannels * (S.wide n hn).convElem = n * S.rowSize :=
    S.wide_rowSize hn
  have hfirst : w.kdaConvDimFirst = false := hw.dimFirst nofun
  funext pOff dOff
  rw [StateKind.pagePLtD, StateKind.pagePLtD, emitKdaBlockPLtD, hw.channelDims, hw.convElem, hfirst,
    S.wide_rowSize]
  dsimp only
  rw [cassert_of hmod, ok_bind, checkedDiv_of_pos hn, ok_bind, if_neg Bool.false_ne_true,
    hrecurrent, hwide]
  have hend : (some S.rowSize).all (· = S.rowSize) = true := decide_eq_true rfl
  have hconv (r : ℕ) : kdaConvRowPLtD env (n * S.rowSize) (some S.rowSize) (S.wide n hn).convElem n
      g (pOff + r * (n * S.rowSize)) (dOff + r * S.rowSize) bounds (S.wide n hn).dims 0 0 =
      gdnConvRowPLtD env (n * S.rowSize) S.rowSize S.convElem n g (pOff + r * (n * S.rowSize))
        (dOff + r * S.rowSize) bounds (S.dims.map (n * ·)) 0 0 :=
    kdaConvRowPLtD_eq hn _ hend _ _ _ (S.dvd_wide hn)
      (by rw [S.map_wide_div hn, S.wide_convElem, S.sum_row, zero_add])
  have hrows : (S.wide n hn).rows * (n * S.rowSize) = n * S.convSize := mul_left_comm _ _ _
  simp only [hrow, Nat.mul_div_cancel_left _ hn, hconv]
  rw [cassert_of (Nat.mul_mod_right _ _), gdnPagePLtD, S.wide_recurrent,
    Nat.mul_div_cancel_left _ hn, Nat.mul_div_cancel_left _ hn]
  simp only [hrows]
  rfl

/-- **The page of P < D: every component of the target, from its slice of the wide page.** -/
theorem StateKind.pagePLtD_eq (hn : 0 < n) (hw : HoldsState w kind (S.wide n hn))
    (hg : g < n) {pOff dOff : ℕ} (hspans : bounds.Spans pOff (n * S.size) dOff S.size) :
    kind.pagePLtD env w (S.wide n hn) n g bounds pOff dOff =
      .ok ((kind.pageParts S).map (splitRecord n g pOff dOff)) := by
  have hfits : ∀ c ∈ kind.pageParts S, (splitRecord n g pOff dOff c).FitsIn bounds := fun c hc =>
    hspans.fits (bounds_of_mem hc).1 (place_le hg (bounds_of_mem hc).2) (bounds_of_mem hc).2
  cases kind with
  | gdn =>
    rw [pagePLtD, hw.channelDims, hw.convElem, S.wide_rowSize, ← S.sum_row]
    exact gdnPagePLtD_eq hn (S.map_wide hn _) hfits
  | kdaRowMajor =>
    rw [pagePLtD_rowMajor hn hw, pagePLtD, hw.channelDims, hw.convElem, S.wide_rowSize, ← S.sum_row]
    exact gdnPagePLtD_eq hn (S.map_wide hn _) hfits
  | kdaDimFirst => exact emitKdaBlockPLtD_dimFirst hn hfits hw

end Pages

end LlumnixKv
