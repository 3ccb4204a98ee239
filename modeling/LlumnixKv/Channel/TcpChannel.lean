import LlumnixKv.Channel.Merge
import LlumnixKv.Channel.Receive
import LlumnixKv.Ranks.Dispatch
import Mathlib.Algebra.Order.BigOperators.Group.List

/-!
# Channel/TcpChannel — the sending end of the TCP channel

    register_data     merges the blocks (P = D), sizes the message, allocates one buffer per layer
    send_data(i)      fills the last buffer left with the message of layer i, and gives it away

The size is computed in one place and the layout written in another.  Here the layout is `tcpMessage`,
a list of bytes; `send_data` writes exactly that (`sendData_spec`), and `register_data` allocated
exactly its length (`registerData_spec`).  Casting to fp8 is off.
-/

open List Machinery

namespace LlumnixKv

open HybridTransfer (DisjointDst)

/-! ## Registering the blocks -/

/-- `TCPChannel`, once it is connected. -/
structure TcpChannel where
  dstLayerNum : ℕ
  data : Option (List (List IpcBlock)) := none
  tensorSendBytes : List ℕ := []
  /-- `host_buffers_`, by length -/
  hostBuffers : List ℕ := []
  deriving DecidableEq, Repr

section Register

variable (ndebug : Bool) (s : BlockSort)

/-- The body of the loop for `PEQD`: the blocks of a tensor as they are sent, and their bytes. -/
def mergeTensor (tensor : List IpcBlock) : Except Fault (List (List IpcBlock × ℕ)) := do
  cassert ndebug (tensor ≠ [])
  cassert ndebug (0 < (mergeInterval s tensor).length)
  cassert ndebug (((mergeInterval s tensor).filter (·.length ≠ 0)).length =
    (mergeInterval s tensor).length)
  return [((mergeInterval s tensor).filter (·.length ≠ 0),
    totalLength (mergeInterval s tensor))]

/-- The blocks as they are sent, and `tensor_sizes`; otherwise than for `PEQD` only the first tensor
is looked at. -/
def collectTensors (kind : TPKind) (data : List (List IpcBlock)) :
    Except Fault (List (List IpcBlock) × List ℕ) :=
  if kind = .peqd then do
    let merged ← emitAll (mergeTensor ndebug s) data
    return (merged.map Prod.fst, merged.map Prod.snd)
  else do
    cassert ndebug (data.length = 1)
    match data with
    | [] => .error .undefined
    | tensor :: _ =>
      cassert ndebug (tensor ≠ [])
      if tensor = [] then .error .undefined else return (data, [totalLength tensor])

/-- The loop that computes `body_bytes`; `tensor_send_bytes_[t]` is not checked. -/
def bodyBytes : List (List IpcBlock) → List ℕ → Except Fault ℕ
  | [], _ => .ok 0
  | _ :: _, [] => .error .undefined
  | tensor :: data, sent :: tensorSendBytes => do
    let rest ← bodyBytes data tensorSendBytes
    return 8 + tensor.length * sizeofIpcBlock + 8 + sent + rest

/-- The buffers, which are allocated when there are none. -/
def TcpChannel.allocate (ch : TcpChannel) (data : List (List IpcBlock)) (tensorSizes : List ℕ) :
    Except Fault (List ℕ) :=
  if ch.hostBuffers = [] ∧ 0 < tensorSizes.sum then do
    let body ← bodyBytes data tensorSizes
    return List.replicate ch.dstLayerNum (rpcHeader + 8 + 8 + body)
  else .ok ch.hostBuffers

/-- **`register_data`.** -/
def TcpChannel.registerData (ch : TcpChannel) (data : List (List IpcBlock)) (kind : TPKind) :
    Except Fault TcpChannel := do
  cassert ndebug (data ≠ [])
  cassert ndebug (ch.data = none)
  let (sent, tensorSizes) ← collectTensors ndebug s kind data
  cassert ndebug (0 < (sent.map List.length).sum)
  cassert ndebug ((sent.map List.length).sum ≤ (data.map List.length).sum)
  cassert ndebug ((data.map totalLength).sum = tensorSizes.sum)
  let buffers ← ch.allocate sent tensorSizes
  cassert ndebug (buffers.length = ch.dstLayerNum)
  return { ch with data := some sent, tensorSendBytes := tensorSizes, hostBuffers := buffers }

end Register

/-! ## Filling a buffer -/

/-- A host buffer and the write pointer in it. -/
structure HostWriter where
  mem : ℕ → UInt8
  p : ℕ

variable (w : HostWriter) {srcCapacity dstCapacity : ℕ}

/-- `memcpy` at the write pointer. -/
def HostWriter.put (bytes : List UInt8) : HostWriter :=
  ⟨store w.mem w.p bytes, w.p + bytes.length⟩

/-- The block list of a tensor, with its length before it and the size of the payload after it. -/
def HostWriter.putMetadata (tensor : List IpcBlock) (sent : ℕ) : HostWriter :=
  ((w.put (leBytes 8 tensor.length)).put (tensor.flatMap IpcBlock.raw)).put (leBytes 8 sent)

/-- The payload of a tensor, copied to where the write pointer is. -/
def HostWriter.fill (copies : List IpcBlock) (gpu : ℕ → UInt8) (sent : ℕ) : HostWriter :=
  ⟨copyBlocks gpu (copies.map fun op => ⟨op.dstOffset, w.p + op.srcOffset, op.length⟩) w.mem,
    w.p + sent⟩

/-- The blocks `send_data` hands to the copy: the offset in the tensor is the source's. -/
def kernelBlocks (tensor : List IpcBlock) : List IpcBlock :=
  tensor.map fun b => ⟨0, b.srcOffset, b.length⟩

section Send

variable (ndebug : Bool) (cfg : CopyConfig)

/-- The loop over the tensors of a layer, from `t` on. -/
def sendTensors (gpu : ℕ → ℕ → UInt8) : ℕ → List (List IpcBlock) → List ℕ → HostWriter →
    Except Fault HostWriter
  | _, [], _, w => .ok w
  | _, _ :: _, [], _ => .error .undefined
  | t, tensor :: data, sent :: tensorSendBytes, w => do
    cassert ndebug (tensor ≠ [])
    let ops ← copyHandleDataWithKernel ndebug cfg .d2h (kernelBlocks tensor) sent
    sendTensors gpu (t + 1) data tensorSendBytes
      ((w.putMetadata tensor sent).fill (ops.flatMap CopyOp.copies) (gpu t) sent)

/-- **`send_data`**: the message, and the channel without its buffer.  The buffer held `garbage`. -/
def TcpChannel.sendData (ch : TcpChannel) (layer reqid : ℕ) (gpu : ℕ → ℕ → UInt8)
    (garbage : ℕ → UInt8) : Except Fault (List UInt8 × TcpChannel) := do
  cassert ndebug (layer < ch.dstLayerNum)
  match ch.data, ch.hostBuffers.getLast? with
  | some data, some bufLen =>
    cassert ndebug (0 < data.length)
    let w ← sendTensors ndebug cfg gpu 0 data ch.tensorSendBytes
      ((((HostWriter.mk garbage 0).put (leBytes 4 kvCacheDataMagic ++ leBytes 8 reqid)).put
        (leBytes 8 layer)).put (leBytes 8 data.length))
    cassert ndebug (ch.hostBuffers.length = ch.dstLayerNum - layer)
    cassert ndebug (w.p ≤ bufLen)
    return (load w.mem 0 w.p, { ch with hostBuffers := ch.hostBuffers.dropLast })
  | _, _ => .error .undefined

/-- The layers below `n`, sent in order: their messages, and the channel after them. -/
def TcpChannel.sendLayers (ch : TcpChannel) (reqid : ℕ → ℕ) (gpu : ℕ → ℕ → ℕ → UInt8)
    (garbage : ℕ → ℕ → UInt8) : ℕ → Except Fault (List (List UInt8) × TcpChannel)
  | 0 => .ok ([], ch)
  | n + 1 => do
    let (msgs, ch') ← ch.sendLayers reqid gpu garbage n
    let (msg, ch'') ← ch'.sendData ndebug cfg n (reqid n) (gpu n) (garbage n)
    return (msgs ++ [msg], ch'')

end Send

/-! ## The layout -/

/-- The payload of a tensor: its blocks, end to end. -/
def gather (gpu : ℕ → UInt8) (blocks : List IpcBlock) : List UInt8 :=
  blocks.flatMap fun b => load gpu b.srcOffset b.length

/-- The part of the message for one tensor. -/
def tcpSection (gpu : ℕ → UInt8) (blocks : List IpcBlock) : List UInt8 :=
  leBytes 8 blocks.length ++ blocks.flatMap IpcBlock.raw ++ leBytes 8 (totalLength blocks) ++
    gather gpu blocks

/-- …and for the tensors from `t` on. -/
def tcpSections (gpu : ℕ → ℕ → UInt8) : ℕ → List (List IpcBlock) → List UInt8
  | _, [] => []
  | t, blocks :: data => tcpSection (gpu t) blocks ++ tcpSections gpu (t + 1) data

/-- The message of a layer. -/
def tcpMessage (layer reqid : ℕ) (gpu : ℕ → ℕ → UInt8) (data : List (List IpcBlock)) : List UInt8 :=
  leBytes 4 kvCacheDataMagic ++ leBytes 8 reqid ++ leBytes 8 layer ++ leBytes 8 data.length ++
    tcpSections gpu 0 data

theorem length_gather (gpu : ℕ → UInt8) : ∀ blocks, (gather gpu blocks).length = totalLength blocks
  | [] => rfl
  | b :: bs => by
      rw [gather, flatMap_cons, length_append, length_load, totalLength_cons]
      exact congrArg (b.length + ·) (length_gather gpu bs)

theorem length_flatMap_raw : ∀ blocks : List IpcBlock,
    (blocks.flatMap IpcBlock.raw).length = blocks.length * sizeofIpcBlock
  | [] => rfl
  | b :: bs => by
      rw [flatMap_cons, length_append, IpcBlock.length_raw, length_flatMap_raw bs,
        length_cons, Nat.succ_mul, add_comm]
      rfl

theorem length_tcpSection (gpu : ℕ → UInt8) (blocks : List IpcBlock) :
    (tcpSection gpu blocks).length =
      8 + blocks.length * sizeofIpcBlock + 8 + totalLength blocks := by
  rw [tcpSection, length_append, length_append, length_append, length_leBytes,
    length_leBytes, length_flatMap_raw, length_gather]

/-- **`register_data` counts what `send_data` writes.** -/
theorem bodyBytes_eq (gpu : ℕ → ℕ → UInt8) : ∀ (t : ℕ) (data : List (List IpcBlock)),
    bodyBytes data (data.map totalLength) = .ok (tcpSections gpu t data).length
  | _, [] => rfl
  | t, blocks :: data => by
      rw [map_cons, bodyBytes, bodyBytes_eq gpu (t + 1) data, ok_bind, tcpSections,
        length_append, length_tcpSection]
      rfl

/-- …which does not depend on the layer, or on what it holds. -/
theorem length_tcpSections (gpu gpu' : ℕ → ℕ → UInt8) : ∀ (t : ℕ) (data : List (List IpcBlock)),
    (tcpSections gpu t data).length = (tcpSections gpu' t data).length
  | _, [] => rfl
  | t, blocks :: data => by
      rw [tcpSections, tcpSections, length_append, length_append, length_tcpSection,
        length_tcpSection, length_tcpSections gpu gpu' (t + 1) data]

/-! ## What is written -/

/-- The bytes from the start of the buffer to the write pointer. -/
def HostWriter.Wrote (bytes : List UInt8) : Prop :=
  w.p = bytes.length ∧ StoredAt w.mem 0 bytes

namespace HostWriter

variable {w : HostWriter} {bytes : List UInt8}

theorem Wrote.put (h : w.Wrote bytes) (more : List UInt8) : (w.put more).Wrote (bytes ++ more) := by
  obtain ⟨hp, hholds⟩ := h
  refine ⟨by rw [HostWriter.put, length_append, hp], storedAt_append.mpr ⟨?_, ?_⟩⟩
  · refine hholds.of_agree fun i _ hi => store_of_not_mem (.inl ?_)
    rwa [hp, ← zero_add bytes.length]
  · rw [zero_add, ← hp]
    exact storedAt_store w.mem w.p more

theorem Wrote.putMetadata (h : w.Wrote bytes) (tensor : List IpcBlock) (sent : ℕ) :
    (w.putMetadata tensor sent).Wrote
      (bytes ++ (leBytes 8 tensor.length ++ tensor.flatMap IpcBlock.raw ++ leBytes 8 sent)) := by
  have hput := ((h.put (leBytes 8 tensor.length)).put (tensor.flatMap IpcBlock.raw)).put
    (leBytes 8 sent)
  rwa [append_assoc, append_assoc, ← append_assoc (leBytes 8 tensor.length)] at hput

end HostWriter

theorem totalLength_kernelBlocks (tensor : List IpcBlock) :
    totalLength (kernelBlocks tensor) = totalLength tensor := by
  rw [totalLength, kernelBlocks, map_map]
  rfl

/-- Where every copy has arrived, the payload is there. -/
theorem storedAt_gather {m gpu : ℕ → UInt8} {p : ℕ} : ∀ {off : ℕ} {tensor : List IpcBlock},
    (∀ op ∈ hostBlocks off (kernelBlocks tensor), ∀ o < op.length,
      m (p + op.srcOffset + o) = gpu (op.dstOffset + o)) →
    StoredAt m (p + off) (gather gpu tensor)
  | _, [], _ => storedAt_nil _
  | off, b :: bs, h => by
      obtain ⟨hb, hbs⟩ := forall_mem_cons.mp h
      have hfirst : StoredAt m (p + off) (load gpu b.srcOffset b.length) := by
        rw [StoredAt, length_load]
        exact load_eq_load hb
      rw [gather, flatMap_cons, storedAt_append]
      refine ⟨hfirst, ?_⟩
      rw [length_load, add_assoc]
      exact storedAt_gather hbs

/-- **The payload is the blocks end to end**, however they were copied. -/
theorem HostWriter.Wrote.fill {w : HostWriter} {bytes : List UInt8} {tensor copies : List IpcBlock}
    (h : w.Wrote bytes) (gpu : ℕ → UInt8)
    (hperm : copies.Perm (hostBlocks 0 (kernelBlocks tensor))) :
    (w.fill copies gpu (totalLength tensor)).Wrote (bytes ++ gather gpu tensor) := by
  obtain ⟨hp, hholds⟩ := h
  have hdisj : (copies.map fun op =>
      (⟨op.dstOffset, w.p + op.srcOffset, op.length⟩ : IpcBlock)).Pairwise DisjointDst := by
    have hhost : (hostBlocks 0 (kernelBlocks tensor)).Pairwise fun x y =>
        x.srcOffset + x.length ≤ y.srcOffset ∨ y.srcOffset + y.length ≤ x.srcOffset :=
      (pairwise_hostBlocks 0 _).imp .inl
    refine pairwise_map.mpr (((hperm.pairwise_iff Or.symm).mpr hhost).imp ?_)
    intro x y hxy
    unfold DisjointDst
    simp only
    omega
  refine ⟨by rw [HostWriter.fill, length_append, hp, length_gather], storedAt_append.mpr ⟨?_, ?_⟩⟩
  · refine hholds.of_agree fun i _ hi => copyBlocks_of_not_written fun q hq => ?_
    obtain ⟨rec, hrec, hbyte⟩ := mem_flatMap.mp hq
    obtain ⟨op, -, rfl⟩ := mem_map.mp hrec
    obtain ⟨o, -, rfl⟩ := IpcBlock.mem_bytes.mp hbyte
    simp only
    omega
  · rw [zero_add, ← hp, ← add_zero w.p]
    refine storedAt_gather fun op hop o ho => ?_
    refine copyBlocks_of_mem hdisj (p := (op.dstOffset + o, w.p + op.srcOffset + o)) ?_
    have hmem : (⟨op.dstOffset, w.p + op.srcOffset, op.length⟩ : IpcBlock) ∈
        copies.map fun op => ⟨op.dstOffset, w.p + op.srcOffset, op.length⟩ :=
      mem_map_of_mem (hperm.symm.subset hop)
    exact mem_flatMap.mpr ⟨_, hmem, IpcBlock.mem_bytes.mpr ⟨o, ho, rfl⟩⟩

/-! ## The blocks of a tensor -/

/-- The blocks of a tensor, inside the two sides' capacities, their destinations apart. -/
structure TensorFits (srcCapacity dstCapacity : ℕ) (blocks : List IpcBlock) : Prop where
  ne_nil : blocks ≠ []
  within : ∀ b ∈ blocks, b.Within srcCapacity dstCapacity
  disjoint : blocks.Pairwise DisjointDst
  src_le : srcCapacity ≤ sizeMax
  dst_le : dstCapacity ≤ sizeMax

theorem TensorFits.len_pos {blocks : List IpcBlock} (h : TensorFits srcCapacity dstCapacity blocks)
    {b : IpcBlock} (hb : b ∈ blocks) :
    0 < b.length := (h.within b hb).len_pos

/-- The blocks of a tensor as they are sent. -/
def sentBlocks (s : BlockSort) (kind : TPKind) (tensor : List IpcBlock) : List IpcBlock :=
  if kind = .peqd then mergeInterval s tensor else tensor

section Sent

variable (s : BlockSort) (kind : TPKind) {srcCapacity dstCapacity : ℕ} {tensor : List IpcBlock}

/-- They fit as the tensor's did, … -/
theorem TensorFits.sent (h : TensorFits srcCapacity dstCapacity tensor) :
    TensorFits srcCapacity dstCapacity (sentBlocks s kind tensor) := by
  unfold sentBlocks
  split
  · have hperm := s.perm tensor
    have hne : s.sort tensor ≠ [] := fun hnil => h.ne_nil (hnil ▸ hperm).symm.eq_nil
    have hwithin (b : IpcBlock) (hb : b ∈ s.sort tensor) : b.Within srcCapacity dstCapacity :=
      h.within b (hperm.subset hb)
    have hdisj : (s.sort tensor).Pairwise DisjointDst :=
      (hperm.pairwise_iff DisjointDst.symm).mpr h.disjoint
    exact ⟨mergeSorted_ne_nil hne, within_mergeSorted hwithin,
      pairwise_mergeSorted (fun b hb => (hwithin b hb).len_pos) hdisj, h.src_le, h.dst_le⟩
  · exact h

/-- … and copy the same bytes. -/
theorem mem_bytes_sentBlocks {q : ℕ × ℕ} :
    q ∈ (sentBlocks s kind tensor).flatMap IpcBlock.bytes ↔ q ∈ tensor.flatMap IpcBlock.bytes := by
  unfold sentBlocks
  split
  · rw [mergeInterval, flatMap_bytes_mergeSorted]
    exact ((s.perm tensor).flatMap_right IpcBlock.bytes).mem_iff
  · rfl

theorem totalLength_sentBlocks : totalLength (sentBlocks s kind tensor) = totalLength tensor := by
  unfold sentBlocks
  split
  · rw [mergeInterval, totalLength_mergeSorted, totalLength_perm (s.perm tensor)]
  · rfl

theorem length_sentBlocks_le : (sentBlocks s kind tensor).length ≤ tensor.length := by
  unfold sentBlocks
  split
  · exact (length_mergeSorted_le _).trans (s.perm tensor).length_eq.le
  · exact le_rfl

end Sent

/-! ## Registering and sending -/

section Runs

variable {ndebug : Bool} {s : BlockSort} {kind : TPKind} {data : List (List IpcBlock)}

/-- What the tensors of a message have in common. -/
def TensorsFit (data : List (List IpcBlock)) : Prop :=
  ∀ tensor ∈ data, ∃ srcCapacity dstCapacity, TensorFits srcCapacity dstCapacity tensor

theorem mergeTensor_eq {tensor : List IpcBlock} (h : TensorFits srcCapacity dstCapacity tensor) :
    mergeTensor ndebug s tensor =
      .ok [(sentBlocks s .peqd tensor, totalLength (sentBlocks s .peqd tensor))] := by
  have hsent : TensorFits srcCapacity dstCapacity (mergeInterval s tensor) :=
    h.sent s .peqd
  have hkept : (mergeInterval s tensor).filter (·.length ≠ 0) =
      mergeInterval s tensor :=
    filter_eq_self.mpr fun b hb => decide_eq_true (hsent.len_pos hb).ne'
  rw [mergeTensor, hkept, cassert_of h.ne_nil, ok_bind,
    cassert_of (length_pos_of_ne_nil hsent.ne_nil), ok_bind, cassert_of rfl, ok_bind]
  rfl

/-- **For `PEQD`, or for one tensor, every tensor is collected.** -/
theorem collectTensors_eq (hkind : kind = .peqd ∨ data.length = 1) (hfits : TensorsFit data) :
    collectTensors ndebug s kind data =
      .ok (data.map (sentBlocks s kind), (data.map (sentBlocks s kind)).map totalLength) := by
  unfold collectTensors
  split
  · next hpeqd =>
    subst hpeqd
    have hmerge : emitAll (mergeTensor ndebug s) data = .ok (data.flatMap fun tensor =>
        [(sentBlocks s .peqd tensor, totalLength (sentBlocks s .peqd tensor))]) :=
      emitAll_ok fun tensor ht => by
        obtain ⟨_, _, h⟩ := hfits tensor ht
        exact mergeTensor_eq h
    rw [hmerge, ok_bind, ← map_eq_flatMap]
    simp only [map_map]
    rfl
  · next hne =>
    obtain ⟨tensor, rfl⟩ := length_eq_one_iff.mp (hkind.resolve_left hne)
    obtain ⟨_, _, h⟩ := hfits tensor mem_cons_self
    have hone : [tensor].length = 1 := rfl
    simp only [cassert_of hone, cassert_of h.ne_nil, ok_bind, if_neg h.ne_nil, map_cons,
      map_nil, sentBlocks, if_neg hne]
    rfl

/-- The length of the message of a layer. -/
def messageLength (data : List (List IpcBlock)) : ℕ :=
  rpcHeader + 8 + 8 + (tcpSections (fun _ _ => 0) 0 data).length

theorem length_tcpMessage (layer reqid : ℕ) (gpu : ℕ → ℕ → UInt8) (data : List (List IpcBlock)) :
    (tcpMessage layer reqid gpu data).length = messageLength data := by
  rw [messageLength, length_tcpSections _ gpu]
  simp only [tcpMessage, length_append, length_leBytes]
  rfl

theorem TensorsFit.sent (hfits : TensorsFit data) (s : BlockSort) (kind : TPKind) :
    TensorsFit (data.map (sentBlocks s kind)) := by
  intro tensor ht
  obtain ⟨original, horiginal, rfl⟩ := mem_map.mp ht
  obtain ⟨srcCapacity, dstCapacity, h⟩ := hfits original horiginal
  exact ⟨srcCapacity, dstCapacity, h.sent s kind⟩

/-- A nonempty list of tensors has blocks, and bytes. -/
theorem TensorsFit.sum_pos (hfits : TensorsFit data) (hne : data ≠ []) :
    0 < (data.map List.length).sum ∧ 0 < (data.map totalLength).sum := by
  cases data with
  | nil => exact absurd rfl hne
  | cons tensor rest =>
    obtain ⟨_, _, h⟩ := hfits tensor mem_cons_self
    cases tensor with
    | nil => exact absurd rfl h.ne_nil
    | cons b bs =>
      have hb : 0 < b.length := h.len_pos mem_cons_self
      simp only [map_cons, sum_cons, length_cons, totalLength_cons]
      omega

/-- The channel with the blocks registered and the buffers of `left` layers. -/
def TcpChannel.registered (ch : TcpChannel) (sent : List (List IpcBlock)) (left : ℕ) : TcpChannel :=
  { ch with
    data := some sent
    tensorSendBytes := sent.map totalLength
    hostBuffers := List.replicate left (messageLength sent) }

variable {ch : TcpChannel} {sent : List (List IpcBlock)}

/-- **`register_data` allocates the length of a message for every layer.** -/
theorem registerData_spec (hdata : ch.data = none) (hbuffers : ch.hostBuffers = [])
    (hne : data ≠ []) (hkind : kind = .peqd ∨ data.length = 1) (hfits : TensorsFit data) :
    ch.registerData ndebug s data kind =
      .ok (ch.registered (data.map (sentBlocks s kind)) ch.dstLayerNum) := by
  have hsent : TensorsFit (data.map (sentBlocks s kind)) := hfits.sent s kind
  have hpos := hsent.sum_pos (mt map_eq_nil_iff.mp hne)
  have hcount : ((data.map (sentBlocks s kind)).map List.length).sum ≤
      (data.map List.length).sum := by
    rw [map_map]
    exact sum_le_sum fun tensor _ => length_sentBlocks_le s kind
  have htotal : (data.map totalLength).sum =
      ((data.map (sentBlocks s kind)).map totalLength).sum := by
    rw [map_map]
    exact congrArg List.sum (map_congr_left fun tensor _ =>
      (totalLength_sentBlocks s kind).symm)
  have hallocate : ch.allocate (data.map (sentBlocks s kind))
      ((data.map (sentBlocks s kind)).map totalLength) =
      .ok (List.replicate ch.dstLayerNum (messageLength (data.map (sentBlocks s kind)))) := by
    rw [TcpChannel.allocate, if_pos ⟨hbuffers, hpos.2⟩, bodyBytes_eq (fun _ _ => 0) 0, ok_bind]
    rfl
  simp only [TcpChannel.registerData, cassert_of hne, cassert_of hdata,
    collectTensors_eq hkind hfits, cassert_of hpos.1, cassert_of hcount, cassert_of htotal,
    hallocate, cassert_of length_replicate, ok_bind]
  rfl

/-- For several tensors and another kind it does not return. -/
theorem registerData_of_many (hbuffers : ch.hostBuffers = []) (hkind : kind ≠ .peqd)
    (hmany : 2 ≤ data.length) (hfits : TensorsFit data) (ch' : TcpChannel) :
    ch.registerData ndebug s data kind ≠ .ok ch' := by
  obtain ⟨first, second, rest, rfl⟩ : ∃ first second rest, data = first :: second :: rest := by
    match data, hmany with
    | first :: second :: rest, _ => exact ⟨first, second, rest, rfl⟩
  obtain ⟨_, _, h⟩ := hfits first mem_cons_self
  have hfirst : 0 < [totalLength first].sum := by
    cases first with
    | nil => exact absurd rfl h.ne_nil
    | cons b bs =>
      have hb : 0 < b.length := h.len_pos mem_cons_self
      simp only [sum_cons, sum_nil, totalLength_cons]
      omega
  intro hok
  replace hok := after_check hok
  replace hok := after_check hok
  obtain ⟨⟨sent, sizes⟩, hcollect, hok⟩ := bind_eq_ok.mp hok
  replace hok := after_check hok
  replace hok := after_check hok
  replace hok := after_check hok
  obtain ⟨buffers, hallocate, -⟩ := bind_eq_ok.mp hok
  rw [collectTensors, if_neg hkind] at hcollect
  replace hcollect := after_check hcollect
  replace hcollect := after_check hcollect
  rw [if_neg h.ne_nil] at hcollect
  obtain ⟨rfl, rfl⟩ := Prod.mk.inj (Except.ok.inj hcollect)
  rw [TcpChannel.allocate, if_pos ⟨hbuffers, hfirst⟩] at hallocate
  obtain ⟨body, hbody, -⟩ := bind_eq_ok.mp hallocate
  obtain ⟨rest, hrest, -⟩ := bind_eq_ok.mp hbody
  cases hrest

/-- **The sections are written one after the other.** -/
theorem sendTensors_spec (ndebug : Bool) (cfg : CopyConfig) (gpu : ℕ → ℕ → UInt8) :
    ∀ {t : ℕ} {sent : List (List IpcBlock)} {w : HostWriter} {bytes : List UInt8},
    TensorsFit sent → w.Wrote bytes →
    ∃ w', sendTensors ndebug cfg gpu t sent (sent.map totalLength) w = .ok w' ∧
      w'.Wrote (bytes ++ tcpSections gpu t sent)
  | _, [], w, bytes, _, hw => ⟨w, rfl, by rwa [tcpSections, append_nil]⟩
  | t, tensor :: sent, w, bytes, hfits, hw => by
      obtain ⟨⟨_, _, h⟩, hrest⟩ := forall_mem_cons.mp hfits
      have hpos (b : IpcBlock) (hb : b ∈ kernelBlocks tensor) : 0 < b.length := by
        obtain ⟨original, horiginal, rfl⟩ := mem_map.mp hb
        exact (h.within original horiginal).len_pos
      obtain ⟨ops, hops, -, hperm⟩ := copyHandleDataWithKernel_spec ndebug cfg .d2h
        (kernelBlocks tensor) (totalLength tensor) (.inr ⟨hpos, totalLength_kernelBlocks tensor⟩)
      obtain ⟨w', hw', hwrote⟩ := sendTensors_spec ndebug cfg gpu (t := t + 1) hrest
        ((hw.putMetadata tensor (totalLength tensor)).fill (gpu t) hperm)
      refine ⟨w', ?_, ?_⟩
      · rw [map_cons, sendTensors, cassert_of h.ne_nil, ok_bind, hops, ok_bind]
        exact hw'
      · rw [tcpSections, tcpSection, ← append_assoc, ← append_assoc bytes]
        exact hwrote

/-- **`send_data` writes the message.** -/
theorem sendData_spec (cfg : CopyConfig) (hne : sent ≠ []) (hfits : TensorsFit sent) {layer : ℕ}
    (hlayer : layer < ch.dstLayerNum) (reqid : ℕ) (gpu : ℕ → ℕ → UInt8) (garbage : ℕ → UInt8) :
    (ch.registered sent (ch.dstLayerNum - layer)).sendData ndebug cfg layer reqid gpu garbage =
      .ok (tcpMessage layer reqid gpu sent,
        ch.registered sent (ch.dstLayerNum - (layer + 1))) := by
  have hstart : (HostWriter.mk garbage 0).Wrote [] := ⟨rfl, storedAt_nil 0⟩
  have hheader := ((hstart.put (leBytes 4 kvCacheDataMagic ++ leBytes 8 reqid)).put
    (leBytes 8 layer)).put (leBytes 8 sent.length)
  obtain ⟨w, hw, hwrote⟩ := sendTensors_spec ndebug cfg gpu (t := 0) hfits hheader
  rw [nil_append] at hwrote
  have hp : w.p = messageLength sent := hwrote.1.trans (length_tcpMessage layer reqid gpu sent)
  have hmsg : load w.mem 0 w.p = tcpMessage layer reqid gpu sent :=
    hwrote.2.load_eq hwrote.1.symm
  obtain ⟨left, hleft⟩ : ∃ left, ch.dstLayerNum - layer = left + 1 :=
    ⟨ch.dstLayerNum - layer - 1, by omega⟩
  have hnext : ch.dstLayerNum - (layer + 1) = left := by omega
  have hlast : (List.replicate (left + 1) (messageLength sent)).getLast? =
      some (messageLength sent) := by
    rw [getLast?_replicate, if_neg (Nat.succ_ne_zero left)]
  have hdrop : (List.replicate (left + 1) (messageLength sent)).dropLast =
      List.replicate left (messageLength sent) := dropLast_replicate
  have hfirst : cassert ndebug (layer < (ch.registered sent (left + 1)).dstLayerNum) = .ok () :=
    cassert_of hlayer
  rw [hleft, hnext, TcpChannel.sendData, hfirst, ok_bind]
  simp only [TcpChannel.registered, hlast, cassert_of (length_pos_of_ne_nil hne), hw, length_replicate, cassert_of hleft.symm,
    cassert_of hp.le, hmsg, hdrop, ok_bind]
  rfl

/-- **The layers are sent one after the other**, each with the buffer registered for it. -/
theorem sendLayers_spec (cfg : CopyConfig) (hne : sent ≠ []) (hfits : TensorsFit sent)
    (reqid : ℕ → ℕ) (gpu : ℕ → ℕ → ℕ → UInt8) (garbage : ℕ → ℕ → UInt8) :
    ∀ {n : ℕ}, n ≤ ch.dstLayerNum →
    (ch.registered sent ch.dstLayerNum).sendLayers ndebug cfg reqid gpu garbage n =
      .ok ((List.range n).map fun layer => tcpMessage layer (reqid layer) (gpu layer) sent,
        ch.registered sent (ch.dstLayerNum - n))
  | 0, _ => rfl
  | n + 1, hn => by
      rw [TcpChannel.sendLayers, sendLayers_spec cfg hne hfits reqid gpu garbage (by omega), ok_bind]
      simp only [sendData_spec cfg hne hfits (show n < ch.dstLayerNum from hn), ok_bind,
        range_succ, map_append, map_cons, map_nil]
      rfl

end Runs

end LlumnixKv
