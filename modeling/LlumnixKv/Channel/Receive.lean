import LlumnixKv.Channel.CopyKernels
import LlumnixKv.Machinery.Bytes
import LlumnixKv.Machinery.Traced

/-!
# Channel/Receive — reading a message in place

Both servers get a pointer into a buffer and a length, read the header and the block list where they
lie, and hand the payload to `copy_handle_data_with_kernel`.  What a handler does is its events: the
reads, the copies, the reply.  Pointers and sizes are 64 bits wide and wrap.

    read addr n           n bytes of the buffer's memory are read
    sized t blocks size   the payload size of tensor t is known, the block list was before
    copy …                the payload is copied
    reply / terminate     the sender is answered, the process ends
-/

open List hiding after
open Machinery Machinery.Traced

namespace LlumnixKv

/-! ## Sizes and pointers -/

/-- `RPC_HEADER`: the magic number and the request id. -/
def rpcHeader : ℕ := 4 + 8

/-- `KV_CACHE_DATA_MAGIC`. -/
def kvCacheDataMagic : ℕ := 0x4B564361

/-- `sizeof(IpcBlock)`. -/
def sizeofIpcBlock : ℕ := 24

/-- An `IpcBlock` as it lies in memory: three `size_t`. -/
def IpcBlock.raw (b : IpcBlock) : List UInt8 :=
  leBytes 8 b.srcOffset ++ leBytes 8 b.dstOffset ++ leBytes 8 b.length

@[simp] theorem IpcBlock.length_raw (b : IpcBlock) : b.raw.length = 24 := by
  simp only [raw, length_append, length_leBytes]

/-- `p + n`, for pointers and for sizes. -/
def ptrAdd (p n : ℕ) : ℕ := (p + n) % 2 ^ 64

theorem ptrAdd_of_lt {p n : ℕ} (h : p + n < 2 ^ 64) : ptrAdd p n = p + n := Nat.mod_eq_of_lt h

/-- `metadata_bytes`. -/
def metadataBytes (metadataSize : ℕ) : ℕ := metadataSize * sizeofIpcBlock % 2 ^ 64

/-- A message in the memory of the server.  Buffers are in the lower half of the address space, as
every address a process gets is. -/
structure InBuf where
  mem : ℕ → UInt8
  base : ℕ
  len : ℕ
  user : base + len < 2 ^ 63

variable (buf : InBuf) {reserve : Reserve} {n : ℕ}

/-- `buf_end`. -/
def InBuf.bufEnd : ℕ := buf.base + buf.len

/-- The number of `n` bytes at `addr`. -/
def InBuf.uint (n addr : ℕ) : ℕ := leVal (load buf.mem addr n)

/-- The `n` blocks that lie from `p` on. -/
def InBuf.blocksAt (buf : InBuf) : ℕ → ℕ → List IpcBlock
  | _, 0 => []
  | p, n + 1 => ⟨buf.uint 8 p, buf.uint 8 (p + 8), buf.uint 8 (p + 16)⟩ ::
      buf.blocksAt (p + sizeofIpcBlock) n

/-- Whether `std::vector<IpcBlock>::reserve` returns; beyond `max_size()` it throws. -/
structure Reserve where
  returns : ℕ → Bool
  le_maxSize : ∀ n, returns n = true → n ≤ (2 ^ 63 - 1) / sizeofIpcBlock

/-- A size that it takes does not wrap. -/
theorem Reserve.mul_sizeof_le (h : reserve.returns n = true) : n * sizeofIpcBlock + 8 ≤ 2 ^ 63 := by
  have hmax := reserve.le_maxSize n h
  unfold sizeofIpcBlock at *
  omega

theorem metadataBytes_eq (h : reserve.returns n = true) : metadataBytes n = n * sizeofIpcBlock :=
  Nat.mod_eq_of_lt (by have := Reserve.mul_sizeof_le h; omega)

/-- A process that has memory for a thousand blocks. -/
def smallReserve : Reserve := ⟨(· ≤ 1000), fun n h => (of_decide_eq_true h).trans (by decide)⟩

/-! ## `validate_ipc_block_bounds` -/

/-- `IpcBlockOffset`. -/
inductive IpcBlockOffset
  | source
  | destination
  deriving DecidableEq, Repr

/-- `length_overflow`. -/
def IpcBlock.lengthOverflow (lengthScale : ℕ) (b : IpcBlock) : Bool :=
  lengthScale = 0 ∨ sizeMax / lengthScale < b.length

/-- The test `validate_ipc_block_bounds` makes of a block. -/
def IpcBlock.invalid (capacity : ℕ) (offsetKind : IpcBlockOffset) (lengthScale : ℕ)
    (b : IpcBlock) : Bool :=
  let offset := if offsetKind = .source then b.srcOffset else b.dstOffset
  let effectiveLength := if b.lengthOverflow lengthScale then sizeMax else b.length * lengthScale
  b.length = 0 ∨ b.lengthOverflow lengthScale ∨ capacity < offset ∨
    capacity - offset < effectiveLength

/-- `validate_ipc_block_bounds`. -/
def validateIpcBlockBounds (blocks : List IpcBlock) (capacity : ℕ) (offsetKind : IpcBlockOffset)
    (lengthScale : ℕ) : Except Fault Unit :=
  if blocks.any (IpcBlock.invalid capacity offsetKind lengthScale) then .error .outOfRange
  else .ok ()

theorem invalid_destination_eq_false {capacity : ℕ} {b : IpcBlock} :
    b.invalid capacity .destination 1 = false ↔
      0 < b.length ∧ b.length ≤ sizeMax ∧ b.dstOffset + b.length ≤ capacity := by
  have hover : b.lengthOverflow 1 = decide (sizeMax < b.length) := by
    rw [IpcBlock.lengthOverflow, Nat.div_one, decide_eq_decide]
    omega
  by_cases hlen : sizeMax < b.length
  · rw [decide_eq_true hlen] at hover
    simp only [IpcBlock.invalid, hover, true_or, or_true, decide_true, Bool.true_eq_false,
      false_iff]
    omega
  · rw [decide_eq_false hlen] at hover
    simp only [IpcBlock.invalid, hover, reduceCtorEq, if_false, Bool.false_eq_true, false_or,
      mul_one, decide_eq_false_iff_not]
    omega

/-- **What it lets pass.** -/
theorem validateIpcBlockBounds_eq_ok {blocks : List IpcBlock} {capacity : ℕ} {u : Unit} :
    validateIpcBlockBounds blocks capacity .destination 1 = .ok u ↔
      ∀ b ∈ blocks, 0 < b.length ∧ b.length ≤ sizeMax ∧ b.dstOffset + b.length ≤ capacity := by
  unfold validateIpcBlockBounds
  split
  · next hany =>
    obtain ⟨b, hb, hinvalid⟩ := any_eq_true.mp hany
    refine ⟨nofun, fun h => ?_⟩
    rw [invalid_destination_eq_false.mpr (h b hb)] at hinvalid
    cases hinvalid
  · next hany =>
    rw [Bool.not_eq_true, any_eq_false] at hany
    refine ⟨fun _ b hb => invalid_destination_eq_false.mp ?_, fun _ => rfl⟩
    exact Bool.eq_false_iff.mpr (hany b hb)

/-! ## Events -/

/-- What a handler does. -/
inductive RecvEvent
  | read (addr n : ℕ)
  | sized (tensor : ℕ) (blocks : List IpcBlock) (size : ℕ)
  /-- `copy_handle_data_with_kernel` of the blocks, with the copies it makes: from an offset in the
  payload at `tensorBuf` to an offset in the tensor -/
  | copy (layer tensor tensorBuf : ℕ) (blocks : List IpcBlock) (size : ℕ) (copies : List IpcBlock)
  | reply (magic reqid : ℕ)
  | terminate
  deriving DecidableEq, Repr

/-- A handler. -/
abbrev Recv := Traced RecvEvent

/-- The end of the process. -/
def Recv.terminate {α : Type} : Recv α := ⟨[.terminate], none⟩

/-- `RTASSERT(c)`. -/
def Recv.rtassert (c : Prop) [Decidable c] : Recv Unit := if c then pure () else Recv.terminate

section Reading

variable (buf : InBuf)

/-- `memcpy` of a number of `n` bytes. -/
def readUint (n addr : ℕ) : Recv ℕ := ⟨[.read addr n], some (buf.uint n addr)⟩

/-- The `memcpy`s of block `i`, at `p`. -/
def readBlock (p i : ℕ) : Recv IpcBlock := do
  let srcOffset ← readUint buf 8 (ptrAdd p (i * sizeofIpcBlock))
  let dstOffset ← readUint buf 8 (ptrAdd p (i * sizeofIpcBlock + 8))
  let length ← readUint buf 8 (ptrAdd p (i * sizeofIpcBlock + 16))
  return ⟨srcOffset, dstOffset, length⟩

/-- The loop over the block list, from block `i` on. -/
def readBlocks (p : ℕ) : ℕ → ℕ → Recv (List IpcBlock)
  | _, 0 => pure []
  | i, n + 1 => do
    let b ← readBlock buf p i
    let rest ← readBlocks p (i + 1) n
    return b :: rest

/-- The call of `reserve`: what it throws leaves a `noexcept` function. -/
def reserveBlocks (reserve : Reserve) (n : ℕ) : Recv Unit :=
  if reserve.returns n then pure () else Recv.terminate

/-- The copy to the tensor. -/
def copyH2d (ndebug : Bool) (cfg : CopyConfig) (layer tensor tensorBuf : ℕ)
    (blocks : List IpcBlock) (size : ℕ) : Recv Unit :=
  match copyHandleDataWithKernel ndebug cfg .h2d blocks size with
  | .ok ops => emit (.copy layer tensor tensorBuf blocks size (ops.flatMap CopyOp.copies))
  | .error _ => Recv.terminate

end Reading

/-- Tensors, by layer and index, after one event. -/
def RecvEvent.apply (tensors : ℕ → ℕ → ℕ → UInt8) :
    RecvEvent → ℕ → ℕ → ℕ → UInt8
  | .copy layer tensor tensorBuf _ _ copies => fun l t =>
    if l = layer ∧ t = tensor then
      copyBlocks buf.mem (copies.map fun op =>
        ⟨ptrAdd tensorBuf op.srcOffset, op.dstOffset, op.length⟩) (tensors l t)
    else tensors l t
  | _ => tensors

/-- …and after all of them. -/
def applyEvents (tensors : ℕ → ℕ → ℕ → UInt8) (log : List RecvEvent) :
    ℕ → ℕ → ℕ → UInt8 := log.foldl (RecvEvent.apply buf) tensors

/-! ## The block list -/

/-- A read of bytes in `[lo, hi)`. -/
def RecvEvent.ReadIn (lo hi : ℕ) (e : RecvEvent) : Prop :=
  ∃ addr n, e = .read addr n ∧ lo ≤ addr ∧ addr + n ≤ hi

theorem RecvEvent.ReadIn.mono {lo hi lo' hi' : ℕ} {e : RecvEvent} (h : e.ReadIn lo hi)
    (hlo : lo' ≤ lo) (hhi : hi ≤ hi') : e.ReadIn lo' hi' :=
  let ⟨addr, n, he, h1, h2⟩ := h
  ⟨addr, n, he, hlo.trans h1, h2.trans hhi⟩

theorem RecvEvent.ReadIn.isRead {lo hi : ℕ} {e : RecvEvent} (h : e.ReadIn lo hi) :
    ∃ addr n, e = .read addr n :=
  let ⟨addr, n, he, _⟩ := h
  ⟨addr, n, he⟩

theorem readIn_read {lo hi addr n : ℕ} (hlo : lo ≤ addr) (hhi : addr + n ≤ hi) :
    (RecvEvent.read addr n).ReadIn lo hi := ⟨addr, n, rfl, hlo, hhi⟩

section Blocks

variable (buf : InBuf) {p : ℕ}

theorem readUint_bind {α : Type} (n addr : ℕ) (f : ℕ → Recv α) :
    (readUint buf n addr >>= f) = after [.read addr n] (f (buf.uint n addr)) := rfl

theorem readBlock_eq (i : ℕ) : readBlock buf p i =
    ⟨[.read (ptrAdd p (i * sizeofIpcBlock)) 8, .read (ptrAdd p (i * sizeofIpcBlock + 8)) 8,
      .read (ptrAdd p (i * sizeofIpcBlock + 16)) 8],
      some ⟨buf.uint 8 (ptrAdd p (i * sizeofIpcBlock)),
        buf.uint 8 (ptrAdd p (i * sizeofIpcBlock + 8)),
        buf.uint 8 (ptrAdd p (i * sizeofIpcBlock + 16))⟩⟩ := rfl

/-- The block list is read from block `i` on, by induction on those left. -/
theorem readBlocks_from : ∀ {i n : ℕ}, p + (i + n) * sizeofIpcBlock < 2 ^ 64 →
    ∃ reads, readBlocks buf p i n = ⟨reads, some (buf.blocksAt (p + i * sizeofIpcBlock) n)⟩ ∧
      ∀ e ∈ reads, e.ReadIn (p + i * sizeofIpcBlock) (p + (i + n) * sizeofIpcBlock)
  | i, 0, _ => ⟨[], rfl, fun _ h => absurd h not_mem_nil⟩
  | i, n + 1, h => by
      have h' : p + (i + 1 + n) * sizeofIpcBlock < 2 ^ 64 := by rwa [add_right_comm]
      obtain ⟨reads, hrest, hreads⟩ := readBlocks_from h'
      unfold sizeofIpcBlock at h h' hreads hrest ⊢
      have hp (k : ℕ) (hk : k ≤ 16) : ptrAdd p (i * 24 + k) = p + i * 24 + k := by
        rw [add_assoc]
        exact ptrAdd_of_lt (by omega)
      have hp₀ : ptrAdd p (i * 24) = p + i * 24 := hp 0 (by omega)
      have hnext : p + (i + 1) * 24 = p + i * 24 + 24 := by omega
      rw [readBlocks, readBlock_eq, bind_of_result rfl, hrest, bind_of_result rfl, hnext]
      unfold sizeofIpcBlock
      rw [hp₀, hp 8 (by omega), hp 16 (by omega)]
      refine ⟨_, rfl, fun e he => ?_⟩
      rw [log_after, log_pure, append_nil] at he
      simp only [mem_append, mem_cons, not_mem_nil, or_false] at he
      rcases he with (rfl | rfl | rfl) | he
      · exact readIn_read le_rfl (by omega)
      · exact readIn_read (by omega) (by omega)
      · exact readIn_read (by omega) (by omega)
      · exact (hreads e he).mono (by omega) (by omega)

/-- **The block list is read where it lies.** -/
theorem readBlocks_spec (h : p + n * sizeofIpcBlock < 2 ^ 64) :
    ∃ reads, readBlocks buf p 0 n = ⟨reads, some (buf.blocksAt p n)⟩ ∧
      ∀ e ∈ reads, e.ReadIn p (p + n * sizeofIpcBlock) := by
  obtain ⟨reads, hblocks, hreads⟩ : ∃ reads, readBlocks buf p 0 n =
      ⟨reads, some (buf.blocksAt (p + 0 * sizeofIpcBlock) n)⟩ ∧
      ∀ e ∈ reads, e.ReadIn (p + 0 * sizeofIpcBlock) (p + (0 + n) * sizeofIpcBlock) :=
    readBlocks_from buf (by rwa [zero_add])
  rw [zero_mul, add_zero] at hblocks hreads
  rw [zero_add] at hreads
  exact ⟨reads, hblocks, hreads⟩

theorem uint_lt (addr : ℕ) : buf.uint 8 addr < 2 ^ 64 := by
  have hlt := leVal_lt (load buf.mem addr 8)
  rwa [length_load] at hlt

theorem length_le_of_mem_blocksAt {b : IpcBlock} : ∀ {p n : ℕ}, b ∈ buf.blocksAt p n →
    b.length ≤ sizeMax
  | p, n + 1, hb => by
      rcases mem_cons.mp hb with rfl | hb
      · exact Nat.le_pred_of_lt (uint_lt buf (p + 16))
      · exact length_le_of_mem_blocksAt hb

end Blocks

/-! ## Reading back -/

section Reading

variable {buf : InBuf}

theorem uint_of_holds {addr n v : ℕ} (h : StoredAt buf.mem addr (leBytes n v)) (hv : v < 256 ^ n) :
    buf.uint n addr = v := by
  rw [InBuf.uint, h.load_eq (length_leBytes n v), leVal_leBytes_of_lt hv]

/-- A block list is found where it was stored. -/
theorem blocksAt_of_holds : ∀ {p : ℕ} {blocks : List IpcBlock},
    StoredAt buf.mem p (blocks.flatMap IpcBlock.raw) →
    (∀ b ∈ blocks, b.Within sizeMax sizeMax) → buf.blocksAt p blocks.length = blocks
  | _, [], _, _ => rfl
  | p, b :: bs, h, hwithin => by
      obtain ⟨hb, hbs⟩ := forall_mem_cons.mp hwithin
      rw [flatMap_cons, storedAt_append, IpcBlock.length_raw] at h
      obtain ⟨hraw, hrest⟩ := h
      obtain ⟨h₁₂, h₃⟩ := storedAt_append.mp hraw
      obtain ⟨h₁, h₂⟩ := storedAt_append.mp h₁₂
      rw [length_append, length_leBytes, length_leBytes] at h₃
      rw [length_leBytes] at h₂
      have hsrc := hb.src_le
      have hdst := hb.dst_le
      unfold sizeMax at hsrc hdst
      rw [length_cons, InBuf.blocksAt, uint_of_holds h₁ (by omega), uint_of_holds h₂ (by omega),
        uint_of_holds h₃ (by omega), sizeofIpcBlock, blocksAt_of_holds hrest hbs]

end Reading

end LlumnixKv
