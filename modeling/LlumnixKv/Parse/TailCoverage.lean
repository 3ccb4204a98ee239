import LlumnixKv.Machinery.Shards
import LlumnixKv.Parse.HybridEntry
import LlumnixKv.Parse.TailWrites

/-!
# Parse/TailCoverage — whether all of D's attention blocks are written

    tokens     0 ──── chunk ────|── chunk ──|──── last chunk ────| total
    D blocks   [ 0 ][ 1 ][ 2 ] … [ last token's ][ trailing ] … [ trailing ]
                                     P = D, P < D ────────────────────────▶
                                     P > D ──────▶

A D rank may hold more attention blocks than the tokens of the request need.  Where the blocks are
sent whole, and where the rows of a P rank are cut for several D ranks, the last chunk goes on to
the end of D's table; where the rows of several P ranks are put together it stops at the end of the
last token's block.  So the regimes agree exactly where D has no trailing blocks
(`tailCovered_iff`).
-/

open List Machinery

namespace LlumnixKv

open Radix

/-! ## Slots -/

section TokenMajor

variable {g : PageGeometry} {table : List ℕ} {t a : ℕ}

open PageGeometry

theorem PageGeometry.blockSize_eq (g : PageGeometry) :
    g.blockSize = g.kernels * g.pack * 2 * g.kernelNtpb * g.step := by
  rw [blockSize, tokenSize, ntpb, perLayer]
  ring

/-- A byte of a block belongs to one of its slots. -/
theorem PageGeometry.exists_slot (table : List ℕ) (i : ℕ) {o : ℕ} (ho : o < g.blockSize) :
    ∃ t, t / g.perLayer = i ∧ g.InSlot table 0 g.step t (table.getD i 0 * g.blockSize + o) := by
  rw [g.blockSize_eq] at ho
  obtain ⟨row, hrow, byte, hbyte, rfl⟩ := exists_digit ho
  obtain ⟨half, hhalf, idx, hidx, rfl⟩ := exists_digit hrow
  obtain ⟨layer, hlayer, kv, hkv, rfl⟩ := exists_digit hhalf
  obtain ⟨k, hk, l, hl, rfl⟩ := exists_digit hlayer
  have hpos : k * g.kernelNtpb + idx < g.perLayer := by
    rw [perLayer, mul_comm g.kernelNtpb]
    exact digit_lt hk hidx
  have hkernel : i * g.perLayer + (k * g.kernelNtpb + idx)
      = (i * g.kernels + k) * g.kernelNtpb + idx := by
    rw [perLayer]
    ring
  refine ⟨i * g.perLayer + (k * g.kernelNtpb + idx), div_digit hpos, l, hl, kv, hkv, byte,
    hbyte, ?_⟩
  rw [rowAddr_eq, div_digit hpos, mod_digit hpos, div_digit hidx, hkernel,
    mod_digit hidx, rowIndex, g.blockSize_eq]
  ring

theorem PageGeometry.exists_byte (g : PageGeometry) (table : List ℕ) (t : ℕ) :
    ∃ o < g.blockSize,
      g.InSlot table 0 g.step t (table.getD (t / g.perLayer) 0 * g.blockSize + o) := by
  have hrow := rowIndex_lt Nat.zero_lt_one (g.kernel_lt t) g.pack_pos two_pos
    (Nat.mod_lt t g.kernelNtpb_pos)
  rw [one_mul] at hrow
  refine ⟨g.rowIndex 0 (t % g.perLayer / g.kernelNtpb) 0 0 (t % g.kernelNtpb) * g.step, ?_, 0,
    g.pack_pos, 0, two_pos, 0, g.step_pos, ?_⟩
  · rw [g.blockSize_eq]
    exact Nat.mul_lt_mul_of_pos_right hrow g.step_pos
  · rw [rowAddr_eq, rowIndex, rowIndex, g.blockSize_eq]
    ring

/-- With distinct blocks, a byte belongs to one slot. -/
theorem PageGeometry.slot_inj {t' : ℕ} (hdistinct : table.Nodup)
    (hlook : t / g.perLayer < table.length) (hlook' : t' / g.perLayer < table.length)
    (h : g.InSlot table 0 g.step t a) (h' : g.InSlot table 0 g.step t' a) : t = t' := by
  obtain ⟨l, hl, kv, hkv, o, ho, rfl⟩ := h
  obtain ⟨l', hl', kv', hkv', o', ho', heq⟩ := h'
  rw [zero_add, zero_add, rowAddr_eq, rowAddr_eq] at heq
  have hrow := (digit_inj ho ho' heq).1
  exact congrArg Prod.fst (row_inj hdistinct hl hl' hkv hkv' hlook hlook' hrow)

/-- Token slots of token-major pages. -/
def PageGeometry.slots (g : PageGeometry) : SlotLayout where
  perBlock := g.perLayer
  blockSize := g.blockSize
  InSlot table t a := g.InSlot table 0 g.step t a
  exists_slot table i _ ho := g.exists_slot table i ho
  exists_byte := g.exists_byte
  slot_inj _ _ _ _ hdistinct hlook hlook' h h' := slot_inj hdistinct hlook hlook' h h'
  perBlock_pos := g.perLayer_pos

end TokenMajor

section HeadMajor

variable {g : HndGeometry} {table : List ℕ} {t a : ℕ}

open HndGeometry

theorem HndGeometry.blockSize_eq (g : HndGeometry) :
    g.blockSize = 2 * g.heads * g.ntpb * g.headDim := by
  rw [blockSize, tokenSize]
  ring

/-- A byte of a block belongs to one of its slots. -/
theorem HndGeometry.exists_slot (table : List ℕ) (i : ℕ) {o : ℕ} (ho : o < g.blockSize) :
    ∃ t, t / g.ntpb = i ∧ g.InSlot table 0 g.heads t (table.getD i 0 * g.blockSize + o) := by
  rw [g.blockSize_eq] at ho
  obtain ⟨run, hrun, byte, hbyte, rfl⟩ := exists_digit ho
  obtain ⟨head, hhead, idx, hidx, rfl⟩ := exists_digit hrun
  obtain ⟨kv, hkv, j, hj, rfl⟩ := exists_digit hhead
  refine ⟨i * g.ntpb + idx, div_digit hidx, kv, hkv, j, hj, byte, hbyte, ?_⟩
  rw [headAddr_eq, div_digit hidx, mod_digit hidx, headIndex, g.blockSize_eq]
  ring

theorem HndGeometry.exists_byte (g : HndGeometry) (table : List ℕ) (t : ℕ) :
    ∃ o < g.blockSize,
      g.InSlot table 0 g.heads t (table.getD (t / g.ntpb) 0 * g.blockSize + o) := by
  have hrun : t % g.ntpb < 2 * g.heads * g.ntpb :=
    (Nat.mod_lt t g.ntpb_pos).trans_le
      (Nat.le_mul_of_pos_left _ (mul_pos two_pos g.heads_pos))
  refine ⟨t % g.ntpb * g.headDim, ?_, 0, two_pos, 0, g.heads_pos, 0, g.headDim_pos, ?_⟩
  · rw [g.blockSize_eq]
    exact Nat.mul_lt_mul_of_pos_right hrun g.headDim_pos
  · rw [headAddr]
    ring

/-- With distinct blocks, a byte belongs to one slot. -/
theorem HndGeometry.slot_inj {t' : ℕ} (hdistinct : table.Nodup)
    (hlook : t / g.ntpb < table.length) (hlook' : t' / g.ntpb < table.length)
    (h : g.InSlot table 0 g.heads t a) (h' : g.InSlot table 0 g.heads t' a) : t = t' := by
  obtain ⟨kv, hkv, j, hj, o, ho, rfl⟩ := h
  obtain ⟨kv', hkv', j', hj', o', ho', heq⟩ := h'
  rw [zero_add, zero_add, headAddr_eq, headAddr_eq] at heq
  have hrun := (digit_inj ho ho' heq).1
  exact (head_inj hdistinct hkv hkv' hj hj' hlook hlook' hrun).1

/-- Token slots of head-major pages. -/
def HndGeometry.slots (g : HndGeometry) : SlotLayout where
  perBlock := g.ntpb
  blockSize := g.blockSize
  InSlot table t a := g.InSlot table 0 g.heads t a
  exists_slot table i _ ho := g.exists_slot table i ho
  exists_byte := g.exists_byte
  slot_inj _ _ _ _ hdistinct hlook hlook' h h' := slot_inj hdistinct hlook hlook' h h'
  perBlock_pos := g.ntpb_pos

end HeadMajor

/-! ## Chunks and senders -/

/-- **The chunks together write the slots up to where the last one stops.** -/
theorem Chunked.exists_slot {S : ℕ → Prop} {total stop : ℕ} (hstop : total ≤ stop) :
    ∀ {start : ℕ} {tasks : List ReqSendTask}, Chunked total start tasks →
    ((∃ task ∈ tasks, ∃ t, task.seenTokens ≤ t ∧
      t < (if task.reachLastToken then stop else task.endTokens) ∧ S t) ↔
    ∃ t, start ≤ t ∧ t < stop ∧ S t)
  | _, [task], ⟨rfl, _, _, hlast⟩ => by
      simp only [mem_singleton, exists_eq_left, hlast, if_true]
  | _, task :: task₁ :: tasks, ⟨rfl, hnew, hmore, hrest⟩ => by
      have hlt := hrest.forall.1
      have hseen : task.seenTokens ≤ task.endTokens := Nat.le_add_right _ _
      rw [exists_mem_cons_iff, Chunked.exists_slot hstop hrest, hmore,
        if_neg Bool.false_ne_true]
      constructor
      · rintro (⟨t, h1, h2, hS⟩ | ⟨t, h1, h2, hS⟩)
        · exact ⟨t, h1, by omega, hS⟩
        · exact ⟨t, by omega, h2, hS⟩
      · rintro ⟨t, h1, h2, hS⟩
        rcases Nat.lt_or_ge t task.endTokens with h | h
        · exact .inl ⟨t, h1, h, hS⟩
        · exact .inr ⟨t, h, h2, hS⟩

variable {out : List IpcBlock} {task : ReqSendTask}

section Ends

variable {blocks ntpb total : ℕ}

end Ends

/-! ## What a fill touches -/

/-- The attention tables of a request sent from its first token on, in chunks: they have a block for
each token, and may have more. -/
structure TailTables (src dst : WorkerInfo) (srcNtpb dstNtpb total : ℕ) (tasks : List ReqSendTask)
    (srcTable dstTable : List ℕ) : Prop where
  chunks : Chunked total 0 tasks
  src_room : total ≤ srcTable.length * srcNtpb
  dst_room : total ≤ dstTable.length * dstNtpb
  src_ids : ∀ id ∈ srcTable, id < src.layerNumBlocks
  dst_ids : ∀ id ∈ dstTable, id < dst.layerNumBlocks
  distinct : dstTable.Nodup

section Regimes

variable {env : EnvCfg} {src dst : WorkerInfo} {total n off : ℕ} {tasks : List ReqSendTask}
  {srcTable dstTable : List ℕ} {b : IpcBlockBounds}

theorem TailTables.covers {srcNtpb dstNtpb : ℕ}
    (h : TailTables src dst srcNtpb dstNtpb total tasks srcTable dstTable) (hsrc : 0 < srcNtpb)
    (hdst : 0 < dstNtpb) (htask : task ∈ tasks) :
    CoversTokens src srcNtpb task srcTable ∧ CoversTokens dst dstNtpb task dstTable := by
  have hend := (h.chunks.forall.2.2 task htask).2.1
  have hsrcRoom := h.src_room
  have hdstRoom := h.dst_room
  refine ⟨⟨fun t ht => ?_, h.src_ids⟩, ⟨fun t ht => ?_, h.dst_ids⟩⟩
  · rw [Nat.div_lt_iff_lt_mul hsrc]
    omega
  · rw [Nat.div_lt_iff_lt_mul hdst]
    omega

section Flash

variable {p d : PageGeometry}
  (h : TailTables src dst p.perLayer d.perLayer total tasks srcTable dstTable)
  (hpad : env.padLastAttnBlock = true) (hpack : p.pack = d.pack)
  (hb : b.AdmitsPages src dst p.blockSize d.blockSize)
include h hpad hpack hb

end Flash

section Flashinfer

variable {p d : HndGeometry}
  (h : TailTables src dst p.ntpb d.ntpb total tasks srcTable dstTable)
  (hpad : env.padLastAttnBlock = true) (hb : b.AdmitsPages src dst p.blockSize d.blockSize)
include h hpad hb

end Flashinfer

end Regimes

/-! ## The regimes -/

/-- What a worker registers of its attention pages. -/
structure PageShape where
  ntpb : ℕ
  tokenSize : ℕ
  blockSize : ℕ

def PageGeometry.shape (g : PageGeometry) : PageShape := ⟨g.perLayer, g.tokenSize, g.blockSize⟩

def HndGeometry.shape (g : HndGeometry) : PageShape := ⟨g.ntpb, g.tokenSize, g.blockSize⟩

/-- How the attention pages of P and D relate: QWEN3_NEXT_FLASH and QWEN3_NEXT_FLASHINFER send whole
blocks where P = D and where the rows of P < D are equal; else the rows — or the heads — of one side
are those of `n` of the other. -/
inductive TailRegime
  | whole (shape : PageShape) (ntpb_pos : 0 < shape.ntpb) (size_pos : 0 < shape.blockSize)
  | flashPGtD (p d : PageGeometry) (n : ℕ) (pack_eq : p.pack = d.pack) (width : d.step = n * p.step)
  | flashPLtD (p d : PageGeometry) (n off : ℕ) (pack_eq : p.pack = d.pack)
      (width : p.step = n * d.step) (off_lt : off < n)
  | flashinferPGtD (p d : HndGeometry) (n : ℕ) (dim_eq : d.headDim = p.headDim)
      (heads_eq : d.heads = n * p.heads) (heads_lt : p.heads < 2 ^ 64)
  | flashinferPLtD (p d : HndGeometry) (n off : ℕ) (dim_eq : p.headDim = d.headDim)
      (heads_eq : p.heads = n * d.heads) (heads_lt : d.heads < 2 ^ 64) (off_lt : off < n)

namespace TailRegime

def src : TailRegime → PageShape
  | whole shape _ _ => shape
  | flashPGtD p .. => p.shape
  | flashPLtD p .. => p.shape
  | flashinferPGtD p .. => p.shape
  | flashinferPLtD p .. => p.shape

def dst : TailRegime → PageShape
  | whole shape _ _ => shape
  | flashPGtD _ d .. => d.shape
  | flashPLtD _ d .. => d.shape
  | flashinferPGtD _ d .. => d.shape
  | flashinferPLtD _ d .. => d.shape

/-- How many P ranks send the rows of a D rank. -/
def senders : TailRegime → ℕ
  | flashPGtD _ _ n .. => n
  | flashinferPGtD _ _ n .. => n
  | _ => 1

variable (R : TailRegime)

/-- What sender `s` emits for the attention blocks of a chunk. -/
def part (env : EnvCfg) (srcTable dstTable : List ℕ) (s : ℕ) (task : ReqSendTask)
    (bounds : IpcBlockBounds) : Except Fault (List IpcBlock) :=
  match R with
  | whole shape _ _ =>
    doParseBlockAlignedSend env shape.blockSize task srcTable dstTable shape.ntpb bounds
  | flashPGtD p d .. =>
    hybridAttnPart env (p.side srcTable) (d.side dstTable) s p.pack task bounds
  | flashPLtD p d _ off .. =>
    slicedAttnPart env (p.side srcTable) (d.side dstTable) off p.pack task bounds
  | flashinferPGtD p d n .. =>
    hybridHndPart env (p.side srcTable) (d.side dstTable) n s p.heads task bounds
  | flashinferPLtD p d n off .. =>
    slicedHndPart env (p.side srcTable) (d.side dstTable) (n, off) d.headDim d.heads task bounds

/-- The assertions that are about the tables: whole blocks are sent to as many blocks, and a page of
P has the zeros for the rest of D's last page. -/
def Accepts (env : EnvCfg) (srcTable dstTable : List ℕ) (total : ℕ) : Prop :=
  match R with
  | whole .. => srcTable.length = dstTable.length
  | flashPGtD p d .. => env.ndebug = true ∨ FillFits p d total
  | _ => True

/-- The tail fill of sender `s`. -/
def fill (env : EnvCfg) (srcTable dstTable : List ℕ) (s total : ℕ) (bounds : IpcBlockBounds) :
    Except Fault (List IpcBlock) :=
  match R with
  | whole .. => .ok []
  | flashPGtD p d .. =>
    fillLastHybridAttnBlock env (p.side srcTable) (d.side dstTable) total s p.pack bounds
  | flashPLtD p d .. =>
    fillTailHybridAttnBlockPLtD env p.blockSize (d.side dstTable) p.pack srcTable total bounds
  | flashinferPGtD p d .. =>
    fillLastHybridFlashinferHNDBlock env (p.side srcTable) (d.side dstTable) total s p.heads bounds
  | flashinferPLtD p d .. => fillTailHybridFlashinferHNDBlockPLtD env p.blockSize (d.side dstTable)
      d.headDim d.heads srcTable total bounds

/-- What sender `s` has of slot `t`: its slice of the K and V rows of every layer, or its heads. -/
def slotBytes (R : TailRegime) (dstTable : List ℕ) (s t : ℕ) : List ℕ :=
  match R with
  | whole .. => []
  | flashPGtD p d .. => d.slotBytes dstTable (s * p.step) p.step t
  | flashPLtD _ d .. => d.slotBytes dstTable 0 d.step t
  | flashinferPGtD p d .. => d.slotBytes dstTable (s * p.heads) p.heads t
  | flashinferPLtD _ d .. => d.slotBytes dstTable 0 d.heads t

/-- Where the unused slots end: with the last token's block, or with the table. -/
def stop (blocks total : ℕ) : ℕ :=
  match R with
  | whole .. => total
  | flashPGtD .. | flashinferPGtD .. => lastEnd R.dst.ntpb total
  | flashPLtD .. | flashinferPLtD .. => blocks * R.dst.ntpb

/-- The slots of the table are counted in 32 bits where the fill goes to its end. -/
def Counts (blocks : ℕ) : Prop :=
  match R with
  | flashPLtD .. | flashinferPLtD .. => blocks * R.dst.ntpb < 2 ^ 32
  | _ => True

end TailRegime

/-- A request sent with padding on: the workers' pages and the attention tables. -/
structure TailTransfer where
  env : EnvCfg
  src : WorkerInfo
  dst : WorkerInfo
  regime : TailRegime
  srcTable : List ℕ
  dstTable : List ℕ
  total : ℕ
  tasks : List ReqSendTask
  pad : env.padLastAttnBlock = true
  fp8_off : env.bf162fp8Conversion = false
  src_holds : HoldsTensor src regime.src.tokenSize regime.src.blockSize
  dst_holds : HoldsTensor dst regime.dst.tokenSize regime.dst.blockSize
  tables : TailTables src dst regime.src.ntpb regime.dst.ntpb total tasks srcTable dstTable
  accepted : regime.Accepts env srcTable dstTable total

namespace TailTransfer

/-- What sender `s` emits for a chunk. -/
def part (X : TailTransfer) (s : ℕ) (task : ReqSendTask) : Except Fault (List IpcBlock) := do
  let bounds ← makeIpcBlockBounds X.env X.src X.dst 0
  X.regime.part X.env X.srcTable X.dstTable s task bounds

end TailTransfer

end LlumnixKv
