import LlumnixKv.Channel.Receive

/-!
# Channel/StagedServer — the receiving end of the staged RDMA channel

    [magic u32][reqid u64][actual_len u64][layer_idx u64][metadata_size u64][IpcBlock …][payload]

The sender has written the message into a receive buffer, whose length is all the server is told; the
message says how much of it is used.  There is one tensor per layer, and the payload is what
`actual_len` leaves after the block list.
-/

open Machinery Machinery.Traced

namespace LlumnixKv

/-- What the staged server registered: its layers, and the bytes of each. -/
structure StagedInfo where
  gpuPtrs : ℕ
  layerBlkSize : ℕ
  deriving DecidableEq, Repr

namespace StagedServer

/-- The bytes before the block list. -/
def headerLen : ℕ := rpcHeader + 8 + 8 + 8

/-- `expected_len`. -/
def expectedLen (metadataSize : ℕ) : ℕ := ptrAdd headerLen (metadataBytes metadataSize)

section Handler

variable (ndebug : Bool) (cfg : CopyConfig) (reserve : Reserve) (info : StagedInfo) (buf : InBuf)

/-- The checks after the block list is read, the copy and the reply. -/
def copyPayload (magic reqid layer : ℕ) (blocks : List IpcBlock) (tensorDataSize tensorBuf : ℕ) :
    Recv Unit :=
  if info.gpuPtrs ≤ layer then stop
  else if info.layerBlkSize = 0 then stop
  else match validateIpcBlockBounds blocks info.layerBlkSize .destination 1 with
  | .error _ => stop
  | .ok () => do
    copyH2d ndebug cfg layer 0 tensorBuf blocks tensorDataSize
    emit (.reply magic reqid)

/-- The block list, and what follows it. -/
def recvBlocks (magic reqid actualLen layer metadataSize : ℕ) : Recv Unit :=
  if actualLen < expectedLen metadataSize then stop
  else do
    reserveBlocks reserve metadataSize
    let blocks ← readBlocks buf (ptrAdd buf.base headerLen) 0 metadataSize
    emit (.sized 0 blocks (actualLen - expectedLen metadataSize))
    copyPayload ndebug cfg info magic reqid layer blocks (actualLen - expectedLen metadataSize)
      (ptrAdd (ptrAdd buf.base headerLen) (metadataBytes metadataSize))

/-- **`handle_kv_cache_data`** of the staged server. -/
def handleKvCacheData : Recv Unit :=
  if buf.len < headerLen then stop
  else do
    let magic ← readUint buf 4 buf.base
    let reqid ← readUint buf 8 (ptrAdd buf.base 4)
    Recv.rtassert (ndebug = true ∨ magic = kvCacheDataMagic)
    let actualLen ← readUint buf 8 (ptrAdd buf.base rpcHeader)
    Recv.rtassert (actualLen ≤ buf.len)
    let layerIdx ← readUint buf 8 (ptrAdd buf.base (rpcHeader + 8))
    let metadataSize ← readUint buf 8 (ptrAdd buf.base (rpcHeader + 8 + 8))
    recvBlocks ndebug cfg reserve info buf magic reqid actualLen layerIdx metadataSize

end Handler

/-! ## What a message does, on its bytes -/

section Bytes

variable (reserve : Reserve) (info : StagedInfo) (buf : InBuf)

/-- `actual_len`, … -/
def actualLen : ℕ := buf.uint 8 (buf.base + 12)

/-- … `layer_idx` … -/
def layerIdx : ℕ := buf.uint 8 (buf.base + 20)

/-- … and `metadata_size`, where they lie. -/
def metadataSize : ℕ := buf.uint 8 (buf.base + 28)

/-- The blocks of the message. -/
def messageBlocks : List IpcBlock := buf.blocksAt (buf.base + headerLen) (metadataSize buf)

/-- The bytes before the payload, if that does not wrap. -/
def payloadOffset : ℕ := headerLen + metadataSize buf * sizeofIpcBlock

/-- The header, and the block list after it, lie in the message. -/
structure Listed : Prop where
  header : headerLen ≤ buf.len
  actual : actualLen buf ≤ buf.len
  reserved : reserve.returns (metadataSize buf) = true
  list : payloadOffset buf ≤ actualLen buf

/-- The tests that are made after it. -/
structure Accepted : Prop where
  layer : layerIdx buf < info.gpuPtrs
  size : info.layerBlkSize ≠ 0
  blocks : ∀ b ∈ messageBlocks buf, 0 < b.length ∧ b.dstOffset + b.length ≤ info.layerBlkSize

end Bytes

/-- The reads of the header. -/
def headerReads (base : ℕ) : List RecvEvent :=
  [.read base 4, .read (base + 4) 8, .read (base + 12) 8, .read (base + 20) 8, .read (base + 28) 8]

section Cases

variable {ndebug : Bool} {reserve : Reserve} {buf : InBuf}

theorem readIn_headerReads (base : ℕ) {n : ℕ} (hn : headerLen ≤ n) :
    ∀ e ∈ headerReads base, e.ReadIn base (base + n) := by
  intro e he
  have hhead : headerLen = 36 := rfl
  simp only [headerReads, List.mem_cons, List.not_mem_nil, or_false] at he
  rcases he with rfl | rfl | rfl | rfl | rfl
  · exact readIn_read le_rfl (by omega)
  · exact readIn_read (by omega) (by omega)
  · exact readIn_read (by omega) (by omega)
  · exact readIn_read (by omega) (by omega)
  · exact readIn_read (by omega) (by omega)

/-- The header is read where it lies. -/
theorem handleKvCacheData_eq (cfg : CopyConfig) (reserve : Reserve) (info : StagedInfo)
    (hlen : headerLen ≤ buf.len) (hmagic : ndebug = true ∨ buf.uint 4 buf.base = kvCacheDataMagic)
    (hactual : actualLen buf ≤ buf.len) :
    handleKvCacheData ndebug cfg reserve info buf = after (headerReads buf.base)
      (recvBlocks ndebug cfg reserve info buf (buf.uint 4 buf.base) (buf.uint 8 (buf.base + 4))
        (actualLen buf) (layerIdx buf) (metadataSize buf)) := by
  have huser : buf.base + buf.len < 2 ^ 63 := buf.user
  have hhead : headerLen = 36 := rfl
  have hp (k : ℕ) (hk : k ≤ 28) : ptrAdd buf.base k = buf.base + k := ptrAdd_of_lt (by omega)
  unfold actualLen at hactual
  simp only [handleKvCacheData, rpcHeader, Nat.reduceAdd, if_neg (not_lt.mpr hlen), readUint_bind,
    Recv.rtassert, hmagic, hactual, if_true, Traced.pure_bind, after_after, List.cons_append,
    List.nil_append, hp 4 (by omega), hp 12 (by omega), hp 20 (by omega), hp 28 le_rfl, headerReads,
    actualLen, layerIdx, metadataSize]

/-- …and so is the block list. -/
theorem recvBlocks_listed (ndebug : Bool) (cfg : CopyConfig) (info : StagedInfo)
    (magic reqid : ℕ) (h : Listed reserve buf) :
    ∃ reads, recvBlocks ndebug cfg reserve info buf magic reqid (actualLen buf) (layerIdx buf)
        (metadataSize buf) =
      after (reads ++ [.sized 0 (messageBlocks buf) (actualLen buf - payloadOffset buf)])
        (copyPayload ndebug cfg info magic reqid (layerIdx buf) (messageBlocks buf)
          (actualLen buf - payloadOffset buf) (buf.base + payloadOffset buf)) ∧
      ∀ e ∈ reads, e.ReadIn (buf.base + headerLen) (buf.base + payloadOffset buf) := by
  have huser : buf.base + buf.len < 2 ^ 63 := buf.user
  have hfits := h.list
  have hactual := h.actual
  have hexpected : expectedLen (metadataSize buf) = payloadOffset buf := by
    rw [expectedLen, metadataBytes_eq h.reserved]
    exact ptrAdd_of_lt (by unfold payloadOffset at hfits; omega)
  have hstart : ptrAdd buf.base headerLen = buf.base + headerLen :=
    ptrAdd_of_lt (by unfold payloadOffset at hfits; omega)
  have hbuf : ptrAdd (buf.base + headerLen) (metadataBytes (metadataSize buf)) =
      buf.base + payloadOffset buf := by
    rw [metadataBytes_eq h.reserved, payloadOffset, ← add_assoc]
    exact ptrAdd_of_lt (by unfold payloadOffset at hfits; omega)
  obtain ⟨reads, hread, hreads⟩ : ∃ reads,
      readBlocks buf (buf.base + headerLen) 0 (metadataSize buf) =
        ⟨reads, some (messageBlocks buf)⟩ ∧ ∀ e ∈ reads, e.ReadIn (buf.base + headerLen)
        (buf.base + headerLen + metadataSize buf * sizeofIpcBlock) :=
    readBlocks_spec buf (by unfold payloadOffset at hfits; omega)
  rw [add_assoc] at hreads
  refine ⟨reads, ?_, hreads⟩
  rw [recvBlocks, hexpected, if_neg (not_lt.mpr hfits), reserveBlocks, if_pos h.reserved,
    Traced.pure_bind, hstart, hread, bind_of_result rfl, emit_bind, hbuf, after_after]

/-- What is not listed is not read further: a size whose bytes wrap is not reserved. -/
theorem handleKvCacheData_unlisted (cfg : CopyConfig) (info : StagedInfo)
    (h : ¬Listed reserve buf) :
    ∀ e ∈ (handleKvCacheData true cfg reserve info buf).log,
      (∃ addr n, e = .read addr n) ∨ e = .terminate := by
  intro e he
  by_cases hlen : headerLen ≤ buf.len
  · by_cases hactual : actualLen buf ≤ buf.len
    · rw [handleKvCacheData_eq cfg reserve info hlen (.inl rfl) hactual, log_after,
        List.mem_append] at he
      rcases he with hread | he
      · obtain ⟨addr, n, hread, -⟩ := readIn_headerReads buf.base hlen e hread
        exact .inl ⟨addr, n, hread⟩
      · rw [recvBlocks, reserveBlocks] at he
        split at he
        · cases he
        next hfits =>
        cases hreserve : reserve.returns (metadataSize buf) with
        | false =>
          rw [hreserve] at he
          exact .inr (List.mem_singleton.mp he)
        | true =>
          have hsize := Reserve.mul_sizeof_le hreserve
          have hhead : headerLen = 36 := rfl
          have hexpected : expectedLen (metadataSize buf) = payloadOffset buf := by
            rw [expectedLen, metadataBytes_eq hreserve]
            exact ptrAdd_of_lt (by omega)
          rw [hexpected] at hfits
          exact absurd ⟨hlen, hactual, hreserve, Nat.le_of_not_lt hfits⟩ h
    · have huser : buf.base + buf.len < 2 ^ 63 := buf.user
      have hp : ptrAdd buf.base 12 = buf.base + 12 :=
        ptrAdd_of_lt (by have hhead : headerLen = 36 := rfl; omega)
      unfold actualLen at hactual
      simp only [handleKvCacheData, rpcHeader, Nat.reduceAdd, if_neg (not_lt.mpr hlen),
        readUint_bind, Recv.rtassert, true_or, if_true, Traced.pure_bind, hp, hactual, if_false,
        Recv.terminate, bind_of_stopped, log_after, List.mem_append, List.mem_singleton] at he
      rcases he with rfl | rfl | rfl | rfl
      · exact .inl ⟨_, _, rfl⟩
      · exact .inl ⟨_, _, rfl⟩
      · exact .inl ⟨_, _, rfl⟩
      · exact .inr rfl
  · rw [handleKvCacheData, if_pos (Nat.lt_of_not_le hlen)] at he
    cases he

variable {info : StagedInfo} (cfg : CopyConfig) (magic reqid size tensorBuf : ℕ)

/-- What passes the tests is copied and answered, in a release build; … -/
theorem copyPayload_accepted (h : Accepted info buf) :
    ∃ copies, (copyPayload true cfg info magic reqid (layerIdx buf) (messageBlocks buf) size
        tensorBuf).log =
        [.copy (layerIdx buf) 0 tensorBuf (messageBlocks buf) size copies, .reply magic reqid] ∧
      copies.Perm (hostBlocks 0 (messageBlocks buf)) := by
  obtain ⟨ops, hops, -, hperm⟩ :=
    copyHandleDataWithKernel_spec true cfg .h2d (messageBlocks buf) size (.inl rfl)
  have hvalid : validateIpcBlockBounds (messageBlocks buf) info.layerBlkSize .destination 1 =
      .ok () := validateIpcBlockBounds_eq_ok.mpr fun b hb =>
    ⟨(h.blocks b hb).1, length_le_of_mem_blocksAt buf hb, (h.blocks b hb).2⟩
  refine ⟨_, ?_, hperm⟩
  rw [copyPayload, if_neg (not_le.mpr h.layer), if_neg h.size, hvalid]
  simp only [copyH2d, hops]
  rfl

/-- … nothing else is. -/
theorem copyPayload_refused (ndebug : Bool) (h : ¬Accepted info buf) :
    copyPayload ndebug cfg info magic reqid (layerIdx buf) (messageBlocks buf) size tensorBuf =
      stop := by
  unfold copyPayload
  split
  · rfl
  next hlayer =>
  split
  · rfl
  next hsize =>
  cases hvalid : validateIpcBlockBounds (messageBlocks buf) info.layerBlkSize .destination 1 with
  | error f => rfl
  | ok u =>
    refine absurd ⟨Nat.lt_of_not_le hlayer, hsize, fun b hb => ?_⟩ h
    have hb := validateIpcBlockBounds_eq_ok.mp hvalid b hb
    exact ⟨hb.1, hb.2.2⟩

end Cases

end StagedServer

end LlumnixKv
