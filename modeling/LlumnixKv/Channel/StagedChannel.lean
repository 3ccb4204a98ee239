import LlumnixKv.Channel.MergeInPlace
import LlumnixKv.Channel.StagedServer
import LlumnixKv.Client.Coord

/-!
# Channel/StagedChannel — the sending end of the staged RDMA channel

    register_data     sizes the message, allocates a host buffer per layer, asks the server for as many
                      receive buffers — unless those it has are large enough
    send_data(i)      fills the last host buffer left, and writes it into receive buffer i
    flush             waits for the server's reply to every message

A receive buffer may be longer than the message in it, so the message says how long it is.  Its layout is
`stagedMessage`; `send_data` writes exactly that (`StagedChannel.Ready.sendData`), and the server finds in
it what was put there (`decodes_stagedMessage`), whatever is behind it in the buffer.
-/

open List hiding after
open Machinery Machinery.Traced

namespace LlumnixKv

/-! ## The immediate value -/

/-- `STAGED_IMM_BUFFER_MASK`. -/
def stagedImmBufferMask : ℕ := 2 ^ 24 - 1

/-- `STAGED_PREALLOC_MAX_LAYERS`. -/
def stagedPreallocMaxLayers : ℕ := stagedImmBufferMask

/-- `encode_staged_imm_data`. -/
def encodeStagedImmData (bufferId : ℕ) : ℕ := bufferId &&& stagedImmBufferMask

/-- `decode_staged_imm_data`. -/
def decodeStagedImmData (immData : ℕ) : ℕ := immData &&& stagedImmBufferMask

/-- An id that fits is read back. -/
theorem decodeStagedImmData_encode {bufferId : ℕ} (h : bufferId ≤ stagedImmBufferMask) :
    decodeStagedImmData (encodeStagedImmData bufferId) = bufferId := by
  have hlt : bufferId < 2 ^ 24 := by
    unfold stagedImmBufferMask at h
    omega
  rw [decodeStagedImmData, encodeStagedImmData, Nat.and_assoc, Nat.and_self, stagedImmBufferMask,
    Nat.and_two_pow_sub_one_of_lt_two_pow hlt]

/-! ## Registering the blocks -/

/-- `RemoteStagedBuffer`: a receive buffer, as the sender knows it. -/
structure RemoteStagedBuffer where
  remoteAddr : ℕ
  size : ℕ
  rkey : ℕ
  bufferId : ℕ
  deriving DecidableEq, Repr

/-- `RDMAStagedChannel`. -/
structure StagedChannel where
  dstLayerNum : ℕ
  /-- how often it has connected; `chs_[0]` is the last connection -/
  conns : ℕ := 0
  data : Option (List IpcBlock) := none
  sbSizeTotal : ℕ := 0
  /-- `host_buffers_`, by length -/
  hostBuffers : List ℕ := []
  remoteBuffers : List RemoteStagedBuffer := []
  stagedPayloadSize : ℕ := 0
  /-- `staged_write_futs_`, by request -/
  stagedWriteFuts : List ℕ := []
  deriving DecidableEq, Repr

/-- The bytes of a message: the header, the block list and the payload. -/
def stagedSize (blocks : List IpcBlock) (tensorBytes : ℕ) : ℕ :=
  rpcHeader + 8 + 8 + (8 + blocks.length * sizeofIpcBlock) + tensorBytes

namespace StagedChannel

/-- `do_init`: new connections in the place of invalid ones. -/
def doInit (ch : StagedChannel) (valid : Bool) : StagedChannel :=
  { ch with conns := if valid ∧ 0 < ch.conns then ch.conns else ch.conns + 1 }

section Register

variable (ndebug : Bool) (s : BlockSort)

/-- What `RDMAChannel::register_data` makes of the blocks of a tensor, and `sb_size_total_`. -/
def collect (kind : TPKind) (tensor : List IpcBlock) : Except Fault (List IpcBlock × ℕ) := do
  cassert ndebug (tensor ≠ [])
  if kind = .peqd then do
    cassert ndebug (0 < (mergeInPlace (s.sort tensor)).cnt)
    cassert ndebug ((nonzero (mergeInPlace (s.sort tensor)).input).length =
      (mergeInPlace (s.sort tensor)).cnt)
    return (nonzero (mergeInPlace (s.sort tensor)).input, (mergeInPlace (s.sort tensor)).totalSize)
  else if tensor = [] then .error .undefined
  else return (tensor, totalLength tensor)

variable (ch : StagedChannel)

/-- The host buffers, allocated when there are none: the one of layer `i` has `bufLen i` bytes. -/
def allocate (total size : ℕ) (bufLen : ℕ → ℕ) : Except Fault (List ℕ) :=
  if ch.hostBuffers = [] ∧ 0 < total then
    if ∀ i < ch.dstLayerNum, size ≤ bufLen i then .ok ((List.range ch.dstLayerNum).map bufLen)
    else .error (.runtime "AssertFailed")
  else .ok ch.hostBuffers

/-- `can_reuse`. -/
def canReuse (payload : ℕ) : Bool :=
  payload ≤ ch.stagedPayloadSize ∧ ch.remoteBuffers.length = ch.dstLayerNum

/-- **`register_data`, up to the request**: the channel, and the sizes it asks the server for if it asks
at all. -/
def registerData (kind : TPKind) (tensor : List IpcBlock) (valid : Bool) (bufLen : ℕ → ℕ) :
    Except Fault (StagedChannel × Option (List ℕ)) := do
  cassert ndebug (ch.data = none)
  let (blocks, total) ← collect ndebug s kind tensor
  let hosts ← ch.allocate total (stagedSize blocks total) bufLen
  let ch := { ch.doInit valid with data := some blocks, sbSizeTotal := total, hostBuffers := hosts }
  if 0 < total then do
    rtassert (hosts ≠ [])
    if ch.canReuse (stagedSize blocks total) then return (ch, none)
    else return ({ ch with stagedPayloadSize := stagedSize blocks total, remoteBuffers := [] },
      some (List.replicate ch.dstLayerNum (stagedSize blocks total)))
  else return (ch, none)

/-- …and from the response on. -/
def onPrealloc (entries : List RemoteStagedBuffer) :
    Except Fault StagedChannel := do
  if ∃ e ∈ entries, e.bufferId = 0 ∨ stagedImmBufferMask < e.bufferId then .error .overflow
  else do
    rtassert (entries.length = ch.dstLayerNum)
    rtassert (∀ e ∈ entries, e.remoteAddr ≠ 0 ∧ e.rkey ≠ 0)
    return { ch with remoteBuffers := entries }

end Register

end StagedChannel

/-! ## Filling a buffer -/

/-- A message on its way: what it was made of and from, and the bytes. -/
structure StagedMsg where
  /-- the connection it is written on -/
  conn : ℕ
  reqid : ℕ
  layer : ℕ
  blocks : List IpcBlock
  gpu : ℕ → UInt8
  /-- the length of its host buffer -/
  hostLen : ℕ
  remote : RemoteStagedBuffer
  bytes : List UInt8

/-- The immediate value that announces it. -/
def StagedMsg.imm (m : StagedMsg) : ℕ := encodeStagedImmData m.remote.bufferId

namespace StagedChannel

/-- The channel after a message: a host buffer less, a future more. -/
def posted (ch : StagedChannel) (reqid : ℕ) : StagedChannel :=
  { ch with hostBuffers := ch.hostBuffers.dropLast, stagedWriteFuts := ch.stagedWriteFuts ++ [reqid] }

/-- **`send_data`**: the message, and the channel without its host buffer, which held `garbage`. -/
def sendData (ndebug : Bool) (cfg : CopyConfig) (ch : StagedChannel) (layer reqid : ℕ)
    (gpu garbage : ℕ → UInt8) : Except Fault (StagedMsg × StagedChannel) := do
  cassert ndebug (layer < ch.dstLayerNum)
  match ch.data, ch.hostBuffers.getLast?, ch.remoteBuffers[layer]? with
  | some blocks, some bufLen, some remote =>
    let size := stagedSize blocks ch.sbSizeTotal
    cassert ndebug (blocks ≠ [])
    cassert ndebug (ch.hostBuffers.length = ch.dstLayerNum - layer)
    cassert ndebug (size ≤ bufLen)
    cassert ndebug (ch.remoteBuffers.length = ch.dstLayerNum)
    rtassert (size ≤ remote.size)
    rtassert (remote.bufferId ≤ stagedImmBufferMask)
    let ops ← copyHandleDataWithKernel ndebug cfg .d2h (kernelBlocks blocks) ch.sbSizeTotal
    let w := ((((((HostWriter.mk garbage 0).put (leBytes 4 kvCacheDataMagic ++ leBytes 8 reqid)).put
      (leBytes 8 size)).put (leBytes 8 layer)).put (leBytes 8 blocks.length)).put
      (blocks.flatMap IpcBlock.raw)).fill (ops.flatMap CopyOp.copies) gpu ch.sbSizeTotal
    return (⟨ch.conns, reqid, layer, blocks, gpu, bufLen, remote, load w.mem 0 size⟩, ch.posted reqid)
  | _, _, _ => .error .undefined

/-- `flush`, when every reply has come. -/
def flushed (ndebug : Bool) (ch : StagedChannel) : Except Fault StagedChannel := do
  cassert ndebug (ch.hostBuffers = [])
  return { ch with data := none, stagedWriteFuts := [] }

/-- …and when it throws. -/
def flushThrown (ch : StagedChannel) : StagedChannel :=
  { ch with data := none, stagedWriteFuts := [], remoteBuffers := [], stagedPayloadSize := 0 }

end StagedChannel

/-! ## The layout -/

/-- The message of a layer. -/
def stagedMessage (layer reqid : ℕ) (gpu : ℕ → UInt8) (blocks : List IpcBlock) : List UInt8 :=
  leBytes 4 kvCacheDataMagic ++ leBytes 8 reqid ++ leBytes 8 (stagedSize blocks (totalLength blocks))
    ++ leBytes 8 layer ++ leBytes 8 blocks.length ++ blocks.flatMap IpcBlock.raw ++ gather gpu blocks

theorem length_stagedMessage (layer reqid : ℕ) (gpu : ℕ → UInt8) (blocks : List IpcBlock) :
    (stagedMessage layer reqid gpu blocks).length = stagedSize blocks (totalLength blocks) := by
  simp only [stagedMessage, length_append, length_leBytes, length_flatMap_raw, length_gather,
    stagedSize, rpcHeader]
  omega

/-! ## The blocks of a round -/

/-- What a round is about: the blocks of a tensor, which have bytes and lie in 64-bit memories. -/
structure StagedRound where
  kind : TPKind
  tensor : List IpcBlock
  ne_nil : tensor ≠ []
  within : ∀ b ∈ tensor, b.Within sizeMax sizeMax

/-- The blocks a round sends. -/
def StagedRound.sent (r : StagedRound) (s : BlockSort) : List IpcBlock := sentBlocks s r.kind r.tensor

/-- What the blocks of a message have in common. -/
structure SendableBlocks (blocks : List IpcBlock) : Prop where
  ne_nil : blocks ≠ []
  within : ∀ b ∈ blocks, b.Within sizeMax sizeMax

theorem SendableBlocks.total_pos {blocks : List IpcBlock} (h : SendableBlocks blocks) :
    0 < totalLength blocks := by
  obtain ⟨b, bs, rfl⟩ := exists_cons_of_ne_nil h.ne_nil
  have hb : 0 < b.length := (h.within b mem_cons_self).len_pos
  rw [totalLength_cons]
  omega

namespace StagedRound

variable (r : StagedRound) (s : BlockSort)

theorem within_sort {b : IpcBlock} (hb : b ∈ s.sort r.tensor) : b.Within sizeMax sizeMax :=
  r.within b ((s.perm r.tensor).subset hb)

theorem sort_ne_nil : s.sort r.tensor ≠ [] := fun hnil =>
  r.ne_nil (hnil ▸ s.perm r.tensor).symm.eq_nil

/-- Merged or not, they can be sent. -/
theorem sendable : SendableBlocks (r.sent s) := by
  unfold sent sentBlocks
  split
  · exact ⟨mergeSorted_ne_nil (r.sort_ne_nil s), within_mergeSorted fun b hb => r.within_sort s hb⟩
  · exact ⟨r.ne_nil, r.within⟩

/-- **`register_data` keeps the blocks the round sends, and counts their bytes.** -/
theorem collect_eq (ndebug : Bool) : StagedChannel.collect ndebug s r.kind r.tensor =
    .ok (r.sent s, totalLength (r.sent s)) := by
  rw [StagedChannel.collect, cassert_of r.ne_nil, ok_bind, sent, sentBlocks]
  split
  · obtain ⟨hinput, hcounts⟩ := mergeInPlace_spec fun b hb => (r.within_sort s hb).len_pos
    have hcnt : 0 < (mergeInPlace (s.sort r.tensor)).cnt := by
      rw [hcounts.cnt]
      exact length_pos_of_ne_nil (mergeSorted_ne_nil (r.sort_ne_nil s))
    rw [cassert_of hcnt, ok_bind, hinput, cassert_of hcounts.cnt.symm, ok_bind, hcounts.total]
    rfl
  · rw [if_neg r.ne_nil]
    rfl

end StagedRound

/-! ## What is registered -/

namespace StagedChannel

variable {ch : StagedChannel} {layer : ℕ} {blocks : List IpcBlock} {ch' : StagedChannel}

/-- The channel with blocks to send and host buffers for them, … -/
def loaded (ch : StagedChannel) (valid : Bool) (blocks : List IpcBlock) (hosts : List ℕ) :
    StagedChannel :=
  { ch.doInit valid with data := some blocks, sbSizeTotal := totalLength blocks, hostBuffers := hosts }

/-- … and without receive buffers, when it asks for some. -/
def asking (ch : StagedChannel) (payload : ℕ) : StagedChannel :=
  { ch with stagedPayloadSize := payload, remoteBuffers := [] }

/-- **All `register_data` can do** before it asks. -/
theorem registerData_eq_ok {ndebug : Bool} {s : BlockSort} {r : StagedRound} {valid : Bool}
    {bufLen : ℕ → ℕ} {request : Option (List ℕ)} (hhosts : ch.hostBuffers = [])
    (h : ch.registerData ndebug s r.kind r.tensor valid bufLen = .ok (ch', request)) :
    ∃ hosts, hosts.length = ch.dstLayerNum ∧
      (∀ len ∈ hosts, stagedSize (r.sent s) (totalLength (r.sent s)) ≤ len) ∧
      (ch' = ch.loaded valid (r.sent s) hosts ∧ request = none ∧
          stagedSize (r.sent s) (totalLength (r.sent s)) ≤ ch.stagedPayloadSize ∧
          ch.remoteBuffers.length = ch.dstLayerNum ∨
        ch' = (ch.loaded valid (r.sent s) hosts).asking
            (stagedSize (r.sent s) (totalLength (r.sent s))) ∧
          request = some (List.replicate ch.dstLayerNum
            (stagedSize (r.sent s) (totalLength (r.sent s))))) := by
  have hpos := (r.sendable s).total_pos
  replace h := after_check h
  rw [r.collect_eq, ok_bind] at h
  obtain ⟨hosts, halloc, h⟩ := bind_eq_ok.mp h
  rw [allocate, if_pos ⟨hhosts, hpos⟩] at halloc
  split at halloc
  · next hlens =>
    cases halloc
    refine ⟨(List.range ch.dstLayerNum).map bufLen, by rw [length_map, length_range],
      fun len hlen => ?_, ?_⟩
    · obtain ⟨i, hi, rfl⟩ := mem_map.mp hlen
      exact hlens i (mem_range.mp hi)
    · rw [if_pos hpos] at h
      replace h := after_check h
      split at h
      · next hreuse =>
        obtain ⟨rfl, rfl⟩ := Prod.mk.inj (Except.ok.inj h)
        obtain ⟨hle, hlen⟩ := of_decide_eq_true hreuse
        exact .inl ⟨rfl, rfl, hle, hlen⟩
      · obtain ⟨rfl, rfl⟩ := Prod.mk.inj (Except.ok.inj h)
        exact .inr ⟨rfl, rfl⟩
  · cases halloc

/-- The ids and the number of the buffers of a response are checked. -/
theorem onPrealloc_eq_ok {entries : List RemoteStagedBuffer} (h : ch.onPrealloc entries = .ok ch') :
    ch' = { ch with remoteBuffers := entries } ∧
      entries.length = ch.dstLayerNum ∧ ∀ e ∈ entries, e.bufferId ≤ stagedImmBufferMask := by
  unfold onPrealloc at h
  split at h
  · cases h
  · next hids =>
    obtain ⟨_, hlen, h⟩ := bind_eq_ok.mp h
    replace h := after_check h
    refine ⟨(Except.ok.inj h).symm, ?_, fun e he => ?_⟩
    · by_contra hnot
      rw [rtassert, if_neg hnot] at hlen
      cases hlen
    · exact not_lt.mp fun hlt => hids ⟨e, he, .inr hlt⟩

/-! ## What is written -/

/-- The channel in a round, before the message of `layer`. -/
structure Ready (ch : StagedChannel) (layer : ℕ) (blocks : List IpcBlock) : Prop where
  sendable : SendableBlocks blocks
  data : ch.data = some blocks
  total : ch.sbSizeTotal = totalLength blocks
  hosts : ch.hostBuffers.length = ch.dstLayerNum - layer
  host_le : ∀ len ∈ ch.hostBuffers, stagedSize blocks (totalLength blocks) ≤ len
  remotes : ch.remoteBuffers.length = ch.dstLayerNum
  remote_le : ∀ r ∈ ch.remoteBuffers, stagedSize blocks (totalLength blocks) ≤ r.size
  id_le : ∀ r ∈ ch.remoteBuffers, r.bufferId ≤ stagedImmBufferMask

/-- The message of `layer`, from a host buffer of `hostLen` bytes to `remote`. -/
def message (ch : StagedChannel) (layer reqid : ℕ) (blocks : List IpcBlock) (gpu : ℕ → UInt8)
    (hostLen : ℕ) (remote : RemoteStagedBuffer) : StagedMsg :=
  ⟨ch.conns, reqid, layer, blocks, gpu, hostLen, remote, stagedMessage layer reqid gpu blocks⟩

/-- **A message is written**, from one of the host buffers. -/
theorem Ready.sendData (h : ch.Ready layer blocks) (hlayer : layer < ch.dstLayerNum) (ndebug : Bool)
    (cfg : CopyConfig) (reqid : ℕ) (gpu garbage : ℕ → UInt8) :
    ∃ bufLen remote, bufLen ∈ ch.hostBuffers ∧ ch.remoteBuffers[layer]? = some remote ∧
      ch.sendData ndebug cfg layer reqid gpu garbage =
        .ok (ch.message layer reqid blocks gpu bufLen remote, ch.posted reqid) := by
  obtain ⟨bufLen, hlast⟩ : ∃ bufLen, ch.hostBuffers.getLast? = some bufLen := by
    have hne : ch.hostBuffers ≠ [] := ne_nil_of_length_pos (by rw [h.hosts]; omega)
    exact ⟨_, getLast?_eq_some_getLast hne⟩
  have hhost : bufLen ∈ ch.hostBuffers := mem_of_getLast? hlast
  have hidx : layer < ch.remoteBuffers.length := by rwa [h.remotes]
  have hremote : ch.remoteBuffers[layer] ∈ ch.remoteBuffers := getElem_mem hidx
  refine ⟨bufLen, ch.remoteBuffers[layer], hhost, getElem?_eq_getElem hidx, ?_⟩
  have hpos (b : IpcBlock) (hb : b ∈ kernelBlocks blocks) : 0 < b.length := by
    obtain ⟨original, horiginal, rfl⟩ := mem_map.mp hb
    exact (h.sendable.within original horiginal).len_pos
  obtain ⟨ops, hops, -, hperm⟩ := copyHandleDataWithKernel_spec ndebug cfg .d2h
    (kernelBlocks blocks) (totalLength blocks) (.inr ⟨hpos, totalLength_kernelBlocks blocks⟩)
  have hstart : (HostWriter.mk garbage 0).Wrote [] := ⟨rfl, storedAt_nil 0⟩
  have hwrote := ((((((hstart.put (leBytes 4 kvCacheDataMagic ++ leBytes 8 reqid)).put
    (leBytes 8 (stagedSize blocks (totalLength blocks)))).put (leBytes 8 layer)).put
    (leBytes 8 blocks.length)).put (blocks.flatMap IpcBlock.raw)).fill gpu hperm)
  rw [nil_append] at hwrote
  have hbytes := hwrote.2.load_eq (length_stagedMessage layer reqid gpu blocks)
  simp only [StagedChannel.sendData, cassert_of hlayer, h.data, hlast, getElem?_eq_getElem hidx,
    h.total, cassert_of h.sendable.ne_nil, cassert_of h.hosts, cassert_of (h.host_le bufLen hhost),
    cassert_of h.remotes, rtassert_of (h.remote_le _ hremote), rtassert_of (h.id_le _ hremote),
    hops, ok_bind, hbytes]
  rfl

end StagedChannel

/-! ## What is read -/

namespace StagedServer

variable {ndebug : Bool} {cfg : CopyConfig} {reserve : Reserve} {info : StagedInfo} {buf : InBuf}

/-- The server finds a message in its buffer: it reads `actual_len`, which is not above the length of the
buffer, then the block list and the payload behind it, and goes on with those. -/
def Decodes (ndebug : Bool) (cfg : CopyConfig) (reserve : Reserve) (info : StagedInfo) (buf : InBuf)
    (reqid layer : ℕ) (blocks : List IpcBlock) (payload : List UInt8) : Prop :=
  leVal (load buf.mem (buf.base + rpcHeader) 8) ≤ buf.len ∧
  ∃ reads tensorBuf,
    handleKvCacheData ndebug cfg reserve info buf =
      after (reads ++ [.sized 0 blocks payload.length])
        (copyPayload ndebug cfg info kvCacheDataMagic reqid layer blocks payload.length tensorBuf) ∧
    (∀ e ∈ reads, e.ReadIn buf.base (buf.base + leVal (load buf.mem (buf.base + rpcHeader) 8))) ∧
    StoredAt buf.mem tensorBuf payload

theorem stagedSize_eq (gpu : ℕ → UInt8) (blocks : List IpcBlock) :
    stagedSize blocks (totalLength blocks) =
      headerLen + blocks.length * sizeofIpcBlock + (gather gpu blocks).length := by
  rw [length_gather, stagedSize, headerLen]
  omega

section Message

variable {layer reqid : ℕ} {gpu : ℕ → UInt8} {blocks : List IpcBlock}

/-- What was sent is found in the buffer. -/
theorem found_stagedMessage (hlayer : layer ≤ sizeMax) (hreqid : reqid ≤ sizeMax)
    (hlen : stagedSize blocks (totalLength blocks) ≤ buf.len)
    (h : StoredAt buf.mem buf.base (stagedMessage layer reqid gpu blocks)) :
    buf.uint 4 buf.base = kvCacheDataMagic ∧ buf.uint 8 (buf.base + 4) = reqid ∧
      actualLen buf = stagedSize blocks (totalLength blocks) ∧ layerIdx buf = layer ∧
      metadataSize buf = blocks.length := by
  have huser : buf.base + buf.len < 2 ^ 63 := buf.user
  have hsize := stagedSize_eq gpu blocks
  unfold sizeMax at hlayer hreqid
  unfold sizeofIpcBlock at hsize
  obtain ⟨h', -⟩ := storedAt_append.mp h
  obtain ⟨h', -⟩ := storedAt_append.mp h'
  obtain ⟨h₁₂₃₄, h₅⟩ := storedAt_append.mp h'
  obtain ⟨h₁₂₃, h₄⟩ := storedAt_append.mp h₁₂₃₄
  obtain ⟨h₁₂, h₃⟩ := storedAt_append.mp h₁₂₃
  obtain ⟨h₁, h₂⟩ := storedAt_append.mp h₁₂
  simp only [length_append, length_leBytes, Nat.reduceAdd] at h₂ h₃ h₄ h₅
  exact ⟨uint_of_holds h₁ (by decide), uint_of_holds h₂ (by omega), uint_of_holds h₃ (by omega),
    uint_of_holds h₄ (by omega), uint_of_holds h₅ (by omega)⟩

theorem handleKvCacheData_stagedMessage (ndebug : Bool) (cfg : CopyConfig) (reserve : Reserve)
    (info : StagedInfo) (hlayer : layer ≤ sizeMax) (hreqid : reqid ≤ sizeMax)
    (hlen : stagedSize blocks (totalLength blocks) ≤ buf.len)
    (h : StoredAt buf.mem buf.base (stagedMessage layer reqid gpu blocks)) :
    handleKvCacheData ndebug cfg reserve info buf = after (headerReads buf.base)
      (recvBlocks ndebug cfg reserve info buf kvCacheDataMagic reqid (actualLen buf) layer
        (metadataSize buf)) := by
  have hsize := stagedSize_eq gpu blocks
  obtain ⟨hmagic, hid, hactual, hidx, -⟩ := found_stagedMessage hlayer hreqid hlen h
  rw [handleKvCacheData_eq cfg reserve info (by omega) (.inr hmagic) (by omega), hmagic, hid, hidx]

/-- **What was sent is decoded**, whatever follows it in the buffer. -/
theorem decodes_stagedMessage (ndebug : Bool) (cfg : CopyConfig) (info : StagedInfo)
    (hblocks : SendableBlocks blocks) (hlayer : layer ≤ sizeMax) (hreqid : reqid ≤ sizeMax)
    (hreserve : reserve.returns blocks.length = true)
    (hlen : stagedSize blocks (totalLength blocks) ≤ buf.len)
    (h : StoredAt buf.mem buf.base (stagedMessage layer reqid gpu blocks)) :
    Decodes ndebug cfg reserve info buf reqid layer blocks (gather gpu blocks) := by
  have hsize := stagedSize_eq gpu blocks
  have hheader := handleKvCacheData_stagedMessage ndebug cfg reserve info hlayer hreqid hlen h
  obtain ⟨-, -, hactual, hidx, hnum⟩ := found_stagedMessage hlayer hreqid hlen h
  obtain ⟨h₁₂, h₃⟩ := storedAt_append.mp h
  obtain ⟨-, h₂⟩ := storedAt_append.mp h₁₂
  simp only [length_append, length_leBytes, length_flatMap_raw, Nat.reduceAdd] at h₂ h₃
  have hfound : messageBlocks buf = blocks := by
    rw [messageBlocks, hnum]
    exact blocksAt_of_holds h₂ hblocks.within
  have hoffset : payloadOffset buf = headerLen + blocks.length * sizeofIpcBlock := by
    rw [payloadOffset, hnum]
  obtain ⟨reads, hrecv, hreads⟩ := recvBlocks_listed ndebug cfg info kvCacheDataMagic reqid
    ⟨by omega, by omega, hnum ▸ hreserve, by omega⟩
  have hpayload : actualLen buf - payloadOffset buf = (gather gpu blocks).length := by omega
  rw [hpayload, hfound, hidx] at hrecv
  have hfits : actualLen buf ≤ buf.len := by omega
  refine ⟨hfits, headerReads buf.base ++ reads, buf.base + payloadOffset buf, ?_, ?_, ?_⟩
  · rw [hheader, hrecv, after_after, append_assoc]
  · intro e he
    change e.ReadIn buf.base (buf.base + actualLen buf)
    rcases mem_append.mp he with he | he
    · exact readIn_headerReads buf.base (by omega) e he
    · exact (hreads e he).mono (by omega) (by omega)
  · rw [hoffset, headerLen, rpcHeader]
    exact h₃

end Message

end StagedServer

end LlumnixKv
