import LlumnixKv.Channel.Receive

/-!
# Channel/TcpServer — the receiving end of the TCP channel

    [magic u32][reqid u64][layer_idx u64][num_tensors u64]
    per tensor   [metadata_size u64][IpcBlock …][tensor_data_size u64][payload]

`handle_kv_cache_data` walks the message once, and copies a tensor as soon as it has read its part of
it.  A tensor is not listed, refused or copied, which is decided by the bytes of its part (`Listed`,
`Copied`); what a whole message does follows by induction on the tensors left.
-/

open List hiding after
open Machinery Machinery.Traced

namespace LlumnixKv

/-- `TCPInfo`: how many tensors each layer has, and the bytes registered for a tensor. -/
structure TcpInfo where
  ptrs : List ℕ
  layerBlkSizes : List ℕ
  deriving DecidableEq, Repr

namespace TcpServer

section Handler

variable (ndebug : Bool) (cfg : CopyConfig) (reserve : Reserve) (info : TcpInfo) (buf : InBuf)

/-- The block list of tensor `t` at `p`, with the size of its payload and where that starts. -/
def recvBlocks (t p metadataSize : ℕ) : Recv (List IpcBlock × ℕ × ℕ) :=
  if buf.bufEnd < ptrAdd (ptrAdd p (metadataBytes metadataSize)) 8 then stop
  else do
    reserveBlocks reserve metadataSize
    let blocks ← readBlocks buf p 0 metadataSize
    let tensorDataSize ← readUint buf 8 (ptrAdd p (metadataBytes metadataSize))
    emit (.sized t blocks tensorDataSize)
    return (blocks, tensorDataSize, ptrAdd (ptrAdd p (metadataBytes metadataSize)) 8)

/-- …after its length. -/
def recvMetadata (t p : ℕ) : Recv (List IpcBlock × ℕ × ℕ) :=
  if buf.bufEnd < ptrAdd p 8 then stop
  else do
    let metadataSize ← readUint buf 8 p
    recvBlocks reserve buf t (ptrAdd p 8) metadataSize

/-- The payload at `tensorBuf` is checked and copied; what follows it is returned. -/
def recvPayload (layer t : ℕ) (blocks : List IpcBlock) (tensorDataSize tensorBuf : ℕ) : Recv ℕ :=
  if buf.bufEnd < ptrAdd tensorBuf tensorDataSize then stop
  else match info.layerBlkSizes[t]? with
  | none => stop
  | some capacity => match validateIpcBlockBounds blocks capacity .destination 1 with
    | .error _ => stop
    | .ok () => do
      copyH2d ndebug cfg layer t tensorBuf blocks tensorDataSize
      return ptrAdd tensorBuf tensorDataSize

/-- One turn of the loop. -/
def recvTensor (layer t p : ℕ) : Recv ℕ := do
  let (blocks, tensorDataSize, tensorBuf) ← recvMetadata reserve buf t p
  recvPayload ndebug cfg info buf layer t blocks tensorDataSize tensorBuf

/-- The loop over the tensors, `left` of them from `t` on. -/
def recvTensors (layer : ℕ) : ℕ → ℕ → ℕ → Recv Unit
  | 0, _, _ => pure ()
  | left + 1, t, p => do
    let p ← recvTensor ndebug cfg reserve info buf layer t p
    recvTensors layer left (t + 1) p

/-- **`handle_kv_cache_data`** of the TCP server. -/
def handleKvCacheData : Recv Unit :=
  if buf.len < rpcHeader + 8 + 8 then stop
  else do
    let magic ← readUint buf 4 buf.base
    let reqid ← readUint buf 8 (ptrAdd buf.base 4)
    Recv.rtassert (ndebug = true ∨ magic = kvCacheDataMagic)
    let layerIdx ← readUint buf 8 (ptrAdd buf.base rpcHeader)
    let numTensors ← readUint buf 8 (ptrAdd buf.base (rpcHeader + 8))
    match info.ptrs[layerIdx]? with
    | none => stop
    | some tensors =>
      if numTensors ≠ tensors then stop
      else do
        recvTensors ndebug cfg reserve info buf layerIdx numTensors 0
          (ptrAdd buf.base (rpcHeader + 8 + 8))
        emit (.reply magic reqid)

end Handler

/-! ## The header -/

section Header

variable (cfg : CopyConfig) (reserve : Reserve) (info : TcpInfo) {buf : InBuf}

/-- The reads of the header. -/
def headerReads (base : ℕ) : List RecvEvent :=
  [.read base 4, .read (base + 4) 8, .read (base + 12) 8, .read (base + 20) 8]

/-- The header is read where it lies. -/
theorem handleKvCacheData_eq {ndebug : Bool} (hlen : 28 ≤ buf.len)
    (hmagic : ndebug = true ∨ buf.uint 4 buf.base = kvCacheDataMagic) :
    handleKvCacheData ndebug cfg reserve info buf = after (headerReads buf.base)
      (if info.ptrs[buf.uint 8 (buf.base + 12)]? = some (buf.uint 8 (buf.base + 20)) then
        recvTensors ndebug cfg reserve info buf (buf.uint 8 (buf.base + 12))
          (buf.uint 8 (buf.base + 20)) 0 (buf.base + 28) >>= fun _ =>
            emit (.reply (buf.uint 4 buf.base) (buf.uint 8 (buf.base + 4)))
      else stop) := by
  have huser : buf.base + buf.len < 2 ^ 63 := buf.user
  have hp (k : ℕ) (hk : k ≤ 28) : ptrAdd buf.base k = buf.base + k := ptrAdd_of_lt (by omega)
  have hshort : ¬buf.len < 28 := by omega
  simp only [handleKvCacheData, rpcHeader, Nat.reduceAdd, hshort, if_false, readUint_bind,
    Recv.rtassert, hmagic, if_true, Traced.pure_bind, after_after, cons_append, nil_append,
    hp 4 (by omega), hp 12 (by omega), hp 20 (by omega), hp 28 le_rfl, headerReads]
  congr 1
  cases info.ptrs[buf.uint 8 (buf.base + 12)]? with
  | none => rfl
  | some tensors => simp only [Option.some.injEq, ne_eq, ite_not, eq_comm]

theorem readIn_headerReads (hlen : 28 ≤ buf.len) :
    ∀ e ∈ headerReads buf.base, e.ReadIn buf.base buf.bufEnd := by
  intro e he
  simp only [headerReads, mem_cons, not_mem_nil, or_false] at he
  unfold InBuf.bufEnd
  rcases he with rfl | rfl | rfl | rfl
  · exact readIn_read le_rfl (by omega)
  · exact readIn_read (by omega) (by omega)
  · exact readIn_read (by omega) (by omega)
  · exact readIn_read (by omega) (by omega)

end Header

/-! ## One tensor, on the bytes of the message -/

section Bytes

variable (reserve : Reserve) (info : TcpInfo) (buf : InBuf) (t p : ℕ)

/-- The blocks of the tensor whose part of the message starts at `p`, … -/
def tensorBlocks : List IpcBlock := buf.blocksAt (p + 8) (buf.uint 8 p)

/-- … where its payload starts, … -/
def payloadAt : ℕ := p + 8 + buf.uint 8 p * sizeofIpcBlock + 8

/-- … and the size that is written before the payload. -/
def payloadSize : ℕ := buf.uint 8 (p + 8 + buf.uint 8 p * sizeofIpcBlock)

/-- The block list and the size lie in the message, and there is memory for the list. -/
def Listed : Prop := reserve.returns (buf.uint 8 p) = true ∧ payloadAt buf p ≤ buf.bufEnd

/-- All the tests of tensor `t` are passed.  The end of the payload is tested as it is computed. -/
def Copied : Prop :=
  Listed reserve buf p ∧ ptrAdd (payloadAt buf p) (payloadSize buf p) ≤ buf.bufEnd ∧
  ∃ capacity, info.layerBlkSizes[t]? = some capacity ∧
    ∀ b ∈ tensorBlocks buf p, 0 < b.length ∧ b.dstOffset + b.length ≤ capacity

end Bytes

section Cases

variable {reserve : Reserve} {info : TcpInfo} {buf : InBuf} {t p : ℕ}

/-- The metadata is read where it lies, … -/
theorem recvMetadata_listed (t : ℕ) (h : Listed reserve buf p) : ∃ reads,
    recvMetadata reserve buf t p =
      ⟨reads ++ [.sized t (tensorBlocks buf p) (payloadSize buf p)],
        some (tensorBlocks buf p, payloadSize buf p, payloadAt buf p)⟩ ∧
      ∀ e ∈ reads, e.ReadIn p buf.bufEnd := by
  obtain ⟨hreserve, hfits⟩ := h
  have huser : buf.bufEnd < 2 ^ 63 := buf.user
  unfold payloadAt at hfits
  have hp₁ : ptrAdd p 8 = p + 8 := ptrAdd_of_lt (by omega)
  have hp₂ : ptrAdd (p + 8) (buf.uint 8 p * sizeofIpcBlock) =
      p + 8 + buf.uint 8 p * sizeofIpcBlock := ptrAdd_of_lt (by omega)
  have hp₃ : ptrAdd (p + 8 + buf.uint 8 p * sizeofIpcBlock) 8 = payloadAt buf p :=
    ptrAdd_of_lt (by omega)
  have hroom : ¬buf.bufEnd < p + 8 := by omega
  have hroom' : ¬buf.bufEnd < payloadAt buf p := not_lt.mpr hfits
  obtain ⟨reads, hblocks, hreads⟩ : ∃ reads,
      readBlocks buf (p + 8) 0 (buf.uint 8 p) = ⟨reads, some (tensorBlocks buf p)⟩ ∧
      ∀ e ∈ reads, e.ReadIn (p + 8) (p + 8 + buf.uint 8 p * sizeofIpcBlock) :=
    readBlocks_spec buf (by omega)
  refine ⟨.read p 8 :: reads ++ [.read (p + 8 + buf.uint 8 p * sizeofIpcBlock) 8], ?_, ?_⟩
  · rw [recvMetadata, hp₁, if_neg hroom, readUint_bind, recvBlocks, metadataBytes_eq hreserve, hp₂,
      hp₃, if_neg hroom', reserveBlocks, if_pos hreserve, Traced.pure_bind, hblocks,
      bind_of_result rfl, readUint_bind, emit_bind, after_after, after_after, after_after]
    simp only [after, log_pure, result_pure, append_nil, cons_append, nil_append, payloadSize]
  · intro e he
    simp only [cons_append, mem_cons, mem_append, not_mem_nil, or_false] at he
    rcases he with rfl | he | rfl
    · exact readIn_read le_rfl (by omega)
    · exact (hreads e he).mono (by omega) (by omega)
    · exact readIn_read (by omega) (by omega)

/-- … or the message is rejected: a size so large that its bytes wrap is not reserved. -/
theorem recvMetadata_unlisted (t : ℕ) (hp : p ≤ buf.bufEnd) (h : ¬Listed reserve buf p) :
    ∃ log, recvMetadata reserve buf t p = ⟨log, none⟩ ∧
      ∀ e ∈ log, e.ReadIn p buf.bufEnd ∨ e = .terminate := by
  have huser : buf.bufEnd < 2 ^ 63 := buf.user
  have hp₁ : ptrAdd p 8 = p + 8 := ptrAdd_of_lt (by omega)
  rw [recvMetadata, hp₁]
  split
  · exact ⟨[], rfl, fun _ h => absurd h not_mem_nil⟩
  next hroom =>
  have hfirst : (RecvEvent.read p 8).ReadIn p buf.bufEnd :=
    readIn_read le_rfl (Nat.le_of_not_lt hroom)
  rw [readUint_bind, recvBlocks]
  split
  · exact ⟨[.read p 8], rfl, fun e he => .inl (mem_singleton.mp he ▸ hfirst)⟩
  next hend =>
  cases hreserve : reserve.returns (buf.uint 8 p) with
  | false =>
    refine ⟨[.read p 8, .terminate], by rw [reserveBlocks, hreserve]; rfl, fun e he => ?_⟩
    rcases mem_cons.mp he with rfl | he
    · exact .inl hfirst
    · exact .inr (mem_singleton.mp he)
  | true =>
    have hsize := Reserve.mul_sizeof_le hreserve
    have hp₂ : ptrAdd (p + 8) (buf.uint 8 p * sizeofIpcBlock) =
        p + 8 + buf.uint 8 p * sizeofIpcBlock := ptrAdd_of_lt (by omega)
    have hp₃ : ptrAdd (p + 8 + buf.uint 8 p * sizeofIpcBlock) 8 = payloadAt buf p :=
      ptrAdd_of_lt (by omega)
    rw [metadataBytes_eq hreserve, hp₂, hp₃] at hend
    exact absurd ⟨hreserve, Nat.le_of_not_lt hend⟩ h

/-- What is copied, and where the next tensor starts. -/
theorem recvTensor_copied (ndebug : Bool) (cfg : CopyConfig) (layer : ℕ)
    (h : Copied reserve info buf t p)
    (hsum : ndebug = true ∨ totalLength (tensorBlocks buf p) = payloadSize buf p) :
    ∃ reads copies, recvTensor ndebug cfg reserve info buf layer t p =
        ⟨reads ++ [.sized t (tensorBlocks buf p) (payloadSize buf p),
          .copy layer t (payloadAt buf p) (tensorBlocks buf p) (payloadSize buf p) copies],
          some (ptrAdd (payloadAt buf p) (payloadSize buf p))⟩ ∧
      (∀ e ∈ reads, e.ReadIn p buf.bufEnd) ∧ copies.Perm (hostBlocks 0 (tensorBlocks buf p)) := by
  obtain ⟨hlisted, hend, capacity, hcap, hblocks⟩ := h
  obtain ⟨reads, hmeta, hreads⟩ := recvMetadata_listed t hlisted
  obtain ⟨ops, hops, -, hperm⟩ := copyHandleDataWithKernel_spec ndebug cfg .h2d
    (tensorBlocks buf p) (payloadSize buf p) (hsum.imp_right fun h => ⟨fun b hb => (hblocks b hb).1, h⟩)
  have hvalid : validateIpcBlockBounds (tensorBlocks buf p) capacity .destination 1 = .ok () :=
    validateIpcBlockBounds_eq_ok.mpr fun b hb =>
      ⟨(hblocks b hb).1, length_le_of_mem_blocksAt buf hb, (hblocks b hb).2⟩
  refine ⟨reads, _, ?_, hreads, hperm⟩
  rw [recvTensor, hmeta, bind_of_result rfl]
  simp only [recvPayload, if_neg (not_lt.mpr hend), hcap, hvalid, copyH2d, hops, emit_bind, after,
    log_pure, result_pure, append_assoc, cons_append, nil_append]

/-- A tensor that fails a later test is rejected there, … -/
theorem recvTensor_refused (ndebug : Bool) (cfg : CopyConfig) (layer : ℕ)
    (hlisted : Listed reserve buf p) (h : ¬Copied reserve info buf t p) :
    ∃ reads, recvTensor ndebug cfg reserve info buf layer t p =
        ⟨reads ++ [.sized t (tensorBlocks buf p) (payloadSize buf p)], none⟩ ∧
      ∀ e ∈ reads, e.ReadIn p buf.bufEnd := by
  obtain ⟨reads, hmeta, hreads⟩ := recvMetadata_listed t hlisted
  suffices hstop : recvPayload ndebug cfg info buf layer t (tensorBlocks buf p)
      (payloadSize buf p) (payloadAt buf p) = stop by
    refine ⟨reads, ?_, hreads⟩
    rw [recvTensor, hmeta, bind_of_result rfl]
    simp only [hstop, after, log_stop, result_stop, append_nil]
  unfold recvPayload
  split
  · rfl
  next hend =>
  cases hcap : info.layerBlkSizes[t]? with
  | none => rfl
  | some capacity =>
    cases hvalid : validateIpcBlockBounds (tensorBlocks buf p) capacity .destination 1 with
    | error f => simp only [hvalid]
    | ok u =>
      refine absurd ⟨hlisted, Nat.le_of_not_lt hend, capacity, hcap, fun b hb => ?_⟩ h
      have hb := validateIpcBlockBounds_eq_ok.mp hvalid b hb
      exact ⟨hb.1, hb.2.2⟩

/-- … and one that is not listed before its blocks. -/
theorem recvTensor_unlisted (ndebug : Bool) (cfg : CopyConfig) (info : TcpInfo) (layer t : ℕ)
    (hp : p ≤ buf.bufEnd) (h : ¬Listed reserve buf p) :
    ∃ log, recvTensor ndebug cfg reserve info buf layer t p = ⟨log, none⟩ ∧
      ∀ e ∈ log, e.ReadIn p buf.bufEnd ∨ e = .terminate := by
  obtain ⟨log, hmeta, hlog⟩ := recvMetadata_unlisted t hp h
  exact ⟨log, by rw [recvTensor, hmeta, bind_of_stopped rfl], hlog⟩

end Cases

end TcpServer

end LlumnixKv
