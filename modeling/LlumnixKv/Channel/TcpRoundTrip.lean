import LlumnixKv.Channel.TcpChannel
import LlumnixKv.Channel.TcpServer

/-!
# Channel/TcpRoundTrip — what is sent over TCP arrives

    P's tensors ──register_data, send_data──▸ tcpMessage ──handle_kv_cache_data──▸ D's tensors

The receiver finds in a `tcpMessage` what the sender put there (`copied_section`), and copying the
payload to the tensor is copying the blocks from P's tensor (`copyBlocks_payload`).  The sender merges
blocks first, which copies the same bytes.
-/

open List hiding after
open Machinery Machinery.Traced

namespace LlumnixKv

open HybridTransfer (DisjointDst)

/-! ## The payload -/

variable {blocks : List IpcBlock}

section Payload

variable {m gpu : ℕ → UInt8} {p : ℕ}

/-- Each block finds its bytes in the payload. -/
theorem exists_hostBlock_of_mem {b : IpcBlock} : ∀ {off : ℕ} {blocks : List IpcBlock},
    StoredAt m (p + off) (gather gpu blocks) → b ∈ blocks →
    ∃ op ∈ hostBlocks off blocks, op.dstOffset = b.dstOffset ∧ op.length = b.length ∧
      ∀ o < b.length, m (p + op.srcOffset + o) = gpu (b.srcOffset + o)
  | off, first :: rest, h, hb => by
      rw [gather, flatMap_cons, storedAt_append, length_load, add_assoc] at h
      rcases mem_cons.mp hb with rfl | hb
      · refine ⟨_, mem_cons_self, rfl, rfl, fun o ho => ?_⟩
        have ho' : o < (load gpu b.srcOffset b.length).length := by rwa [length_load]
        rw [← getElem_load ho', ← h.1.getElem ho']
      · obtain ⟨op, hop, hrest⟩ := exists_hostBlock_of_mem h.2 hb
        exact ⟨op, mem_cons_of_mem _ hop, hrest⟩

/-- **Copying the payload is copying the blocks.** -/
theorem copyBlocks_payload {blocks copies : List IpcBlock} (hdisj : blocks.Pairwise DisjointDst)
    (hperm : copies.Perm (hostBlocks 0 blocks)) (hpayload : StoredAt m p (gather gpu blocks))
    (hend : p + totalLength blocks < 2 ^ 64) (tensor : ℕ → UInt8) :
    copyBlocks m (copies.map fun op => ⟨ptrAdd p op.srcOffset, op.dstOffset, op.length⟩) tensor =
      copyBlocks gpu blocks tensor := by
  have hcopies : (copies.map fun op =>
      (⟨ptrAdd p op.srcOffset, op.dstOffset, op.length⟩ : IpcBlock)).Pairwise DisjointDst :=
    pairwise_map.mpr ((hperm.pairwise_iff DisjointDst.symm).mpr
      (pairwise_disjointDst_hostBlocks hdisj))
  refine eq_copyBlocks hdisj (fun q hq => ?_) fun i hi => ?_
  · obtain ⟨b, hb, hbyte⟩ := mem_flatMap.mp hq
    obtain ⟨o, ho, rfl⟩ := IpcBlock.mem_bytes.mp hbyte
    have hstart : StoredAt m (p + 0) (gather gpu blocks) := hpayload
    obtain ⟨op, hop, hdst, hlen, hbytes⟩ := exists_hostBlock_of_mem hstart hb
    have hbound := (hostBlocks_bounds hop).2
    have hptr : ptrAdd p op.srcOffset = p + op.srcOffset := ptrAdd_of_lt (by omega)
    have hbyte' : (ptrAdd p op.srcOffset + o, op.dstOffset + o) ∈
        (⟨ptrAdd p op.srcOffset, op.dstOffset, op.length⟩ : IpcBlock).bytes :=
      IpcBlock.mem_bytes.mpr ⟨o, hlen ▸ ho, rfl⟩
    have hcopy : (⟨ptrAdd p op.srcOffset, op.dstOffset, op.length⟩ : IpcBlock) ∈
        copies.map fun op => ⟨ptrAdd p op.srcOffset, op.dstOffset, op.length⟩ :=
      mem_map_of_mem (hperm.symm.subset hop)
    rw [← hbytes o ho, ← hptr, ← hdst]
    exact copyBlocks_of_mem hcopies (mem_flatMap.mpr ⟨_, hcopy, hbyte'⟩)
  · refine copyBlocks_of_not_written fun q hq => ?_
    obtain ⟨rec, hrec, hbyte⟩ := mem_flatMap.mp hq
    obtain ⟨op, hop, rfl⟩ := mem_map.mp hrec
    obtain ⟨o, ho, rfl⟩ := IpcBlock.mem_bytes.mp hbyte
    obtain ⟨b, hb, hdst, hlen⟩ := exists_of_mem_hostBlocks (hperm.subset hop)
    have ho' : o < b.length := hlen ▸ ho
    have hne := hi (b.srcOffset + o, b.dstOffset + o)
      (mem_flatMap.mpr ⟨b, hb, IpcBlock.mem_bytes.mpr ⟨o, ho', rfl⟩⟩)
    simp only at hne ⊢
    omega

/-- The blocks that are sent leave what the original blocks leave. -/
theorem copyBlocks_sentBlocks (s : BlockSort) (kind : TPKind) {srcCapacity dstCapacity : ℕ}
    (h : TensorFits srcCapacity dstCapacity blocks) (tensor : ℕ → UInt8) :
    copyBlocks gpu (sentBlocks s kind blocks) tensor = copyBlocks gpu blocks tensor := by
  refine eq_copyBlocks h.disjoint (fun q hq => ?_) fun i hi => ?_
  · exact copyBlocks_of_mem (h.sent s kind).disjoint ((mem_bytes_sentBlocks s kind).mpr hq)
  · exact copyBlocks_of_not_written fun q hq => hi q ((mem_bytes_sentBlocks s kind).mp hq)

end Payload

/-! ## The receiver -/

variable {gpu : ℕ → ℕ → UInt8}

namespace TcpServer

variable {ndebug : Bool} {cfg : CopyConfig} {reserve : Reserve} {info : TcpInfo} {buf : InBuf}
  {sent : List (List IpcBlock)}

/-- A section is found in the message, and passes every test. -/
theorem copied_section {t p srcCapacity dstCapacity : ℕ} {gpu : ℕ → UInt8}
    (hfits : TensorFits srcCapacity dstCapacity blocks)
    (hcap : info.layerBlkSizes[t]? = some dstCapacity)
    (hreserve : reserve.returns blocks.length = true)
    (h : StoredAt buf.mem p (tcpSection gpu blocks))
    (hend : p + (tcpSection gpu blocks).length ≤ buf.bufEnd) :
    tensorBlocks buf p = blocks ∧ payloadSize buf p = totalLength blocks ∧
      payloadAt buf p + totalLength blocks = p + (tcpSection gpu blocks).length ∧
      StoredAt buf.mem (payloadAt buf p) (gather gpu blocks) ∧ Copied reserve info buf t p := by
  have huser : buf.bufEnd < 2 ^ 63 := buf.user
  obtain ⟨h₁₂₃, h₄⟩ := storedAt_append.mp h
  obtain ⟨h₁₂, h₃⟩ := storedAt_append.mp h₁₂₃
  obtain ⟨h₁, h₂⟩ := storedAt_append.mp h₁₂
  simp only [length_append, length_leBytes, length_flatMap_raw, ← add_assoc] at h₂ h₃ h₄
  rw [length_tcpSection] at hend ⊢
  have hn := Reserve.mul_sizeof_le hreserve
  have hmeta : buf.uint 8 p = blocks.length :=
    uint_of_holds h₁ (by unfold sizeofIpcBlock at hn; omega)
  have hblocks : tensorBlocks buf p = blocks := by
    rw [tensorBlocks, hmeta]
    exact blocksAt_of_holds h₂ fun b hb => (hfits.within b hb).mono hfits.src_le hfits.dst_le
  have hsize : payloadSize buf p = totalLength blocks := by
    rw [payloadSize, hmeta]
    exact uint_of_holds h₃ (by omega)
  have hstart : payloadAt buf p = p + 8 + blocks.length * sizeofIpcBlock + 8 := by
    rw [payloadAt, hmeta]
  refine ⟨hblocks, hsize, by omega, hstart ▸ h₄, ⟨hmeta ▸ hreserve, by omega⟩, ?_, dstCapacity, hcap,
    fun b hb => ?_⟩
  · rw [hsize, ptrAdd_of_lt (by omega)]
    omega
  · have hb := hfits.within b (hblocks ▸ hb)
    exact ⟨hb.len_pos, hb.dst_le⟩

/-! ## The message -/

/-- The tensors `sent` of `layer`, from index `t` on, become what copying their blocks from the
sender's tensors leaves, and nothing else changes. -/
def Arrives (buf : InBuf) (gpu : ℕ → ℕ → UInt8) (layer t : ℕ) (sent : List (List IpcBlock))
    (log : List RecvEvent) : Prop :=
  ∀ tensors : ℕ → ℕ → ℕ → UInt8,
    (∀ i blocks, sent[i]? = some blocks → applyEvents buf tensors log layer (t + i) =
      copyBlocks (gpu (t + i)) blocks (tensors layer (t + i))) ∧
    ∀ l i, l ≠ layer ∨ i < t ∨ t + sent.length ≤ i →
      applyEvents buf tensors log l i = tensors l i

theorem applyEvents_append (buf : InBuf) (tensors : ℕ → ℕ → ℕ → UInt8) (log log' : List RecvEvent) :
    applyEvents buf tensors (log ++ log') = applyEvents buf (applyEvents buf tensors log) log' :=
  foldl_append

theorem applyEvents_reads (tensors : ℕ → ℕ → ℕ → UInt8) : ∀ {log : List RecvEvent},
    (∀ e ∈ log, ∃ addr n, e = .read addr n) → applyEvents buf tensors log = tensors
  | [], _ => rfl
  | e :: log, h => by
      obtain ⟨⟨addr, n, rfl⟩, hrest⟩ := forall_mem_cons.mp h
      change applyEvents buf tensors log = tensors
      exact applyEvents_reads tensors hrest

/-- **The sections of a message arrive**, by induction on the tensors left. -/
theorem recvTensors_sections (ndebug : Bool) (cfg : CopyConfig) (layer : ℕ) :
    ∀ {t p : ℕ} {sent : List (List IpcBlock)},
    StoredAt buf.mem p (tcpSections gpu t sent) →
    p + (tcpSections gpu t sent).length ≤ buf.bufEnd →
    (∀ i blocks, sent[i]? = some blocks → reserve.returns blocks.length = true ∧
      ∃ srcCapacity dstCapacity, info.layerBlkSizes[t + i]? = some dstCapacity ∧
        TensorFits srcCapacity dstCapacity blocks) →
    (recvTensors ndebug cfg reserve info buf layer sent.length t p).result = some () ∧
      Arrives buf gpu layer t sent
        (recvTensors ndebug cfg reserve info buf layer sent.length t p).log
  | t, p, [], _, _, _ => ⟨rfl, fun tensors => ⟨fun _ _ h => absurd h nofun, fun _ _ _ => rfl⟩⟩
  | t, p, blocks :: sent, h, hend, hall => by
      have huser : buf.bufEnd < 2 ^ 63 := buf.user
      rw [tcpSections, storedAt_append] at h
      rw [tcpSections, length_append] at hend
      obtain ⟨hreserve, srcCapacity, dstCapacity, hcap, hfits⟩ := hall 0 blocks rfl
      have hcap : info.layerBlkSizes[t]? = some dstCapacity := hcap
      obtain ⟨hblocks, hsize, hstart, hpayload, hcopied⟩ :=
        copied_section hfits hcap hreserve h.1 (by omega)
      obtain ⟨reads, copies, htensor, hreads, hperm⟩ :=
        recvTensor_copied ndebug cfg layer hcopied (.inr (by rw [hblocks, hsize]))
      have hnext : ptrAdd (payloadAt buf p) (totalLength blocks) =
          p + (tcpSection (gpu t) blocks).length := by
        rw [ptrAdd_of_lt (by omega), hstart]
      rw [hblocks, hsize, hnext] at htensor
      rw [hblocks] at hperm
      have hall' (i : ℕ) (blocks' : List IpcBlock) (hi : sent[i]? = some blocks') :
          reserve.returns blocks'.length = true ∧ ∃ srcCapacity dstCapacity,
            info.layerBlkSizes[t + 1 + i]? = some dstCapacity ∧
            TensorFits srcCapacity dstCapacity blocks' := by
        rw [add_assoc, add_comm 1 i]
        exact hall (i + 1) blocks' hi
      obtain ⟨hresult, harrives⟩ := recvTensors_sections ndebug cfg layer h.2 (by omega) hall'
      have hcopied (tensors : ℕ → ℕ → ℕ → UInt8) : applyEvents buf tensors
          (reads ++ [.sized t blocks (totalLength blocks),
            .copy layer t (payloadAt buf p) blocks (totalLength blocks) copies]) =
          fun l i => if l = layer ∧ i = t then copyBlocks (gpu t) blocks (tensors l i)
            else tensors l i := by
        rw [applyEvents_append, applyEvents_reads tensors fun e he => (hreads e he).isRead]
        funext l i
        change (if l = layer ∧ i = t then copyBlocks buf.mem _ (tensors l i) else tensors l i) = _
        rw [copyBlocks_payload hfits.disjoint hperm hpayload (by omega)]
      rw [length_cons, recvTensors, bind_of_result (by rw [htensor]), htensor]
      refine ⟨hresult, fun tensors => ?_⟩
      rw [log_after, applyEvents_append, hcopied]
      obtain ⟨hsent, hkept⟩ := harrives fun l i =>
        if l = layer ∧ i = t then copyBlocks (gpu t) blocks (tensors l i) else tensors l i
      refine ⟨fun i blocks' hi => ?_, fun l i hi => ?_⟩
      · cases i with
        | zero =>
          obtain rfl : blocks = blocks' := Option.some.inj hi
          rw [hkept layer (t + 0) (.inr (.inl (by omega))), if_pos ⟨rfl, rfl⟩]
          rfl
        | succ i =>
          have hnext := hsent i blocks' hi
          rw [add_assoc, add_comm 1 i, if_neg (by omega)] at hnext
          exact hnext
      · rw [hkept l i (by rw [length_cons] at hi; omega), if_neg (by
          rw [length_cons] at hi
          omega)]

theorem length_le_tcpSections (gpu : ℕ → ℕ → UInt8) : ∀ (t : ℕ) (sent : List (List IpcBlock)),
    sent.length ≤ (tcpSections gpu t sent).length
  | _, [] => le_rfl
  | t, blocks :: sent => by
      have hrest := length_le_tcpSections gpu (t + 1) sent
      rw [tcpSections, length_append, length_tcpSection, length_cons]
      omega

/-- Reads before and a reply after change nothing. -/
theorem Arrives.between {layer magic reqid : ℕ} {reads log : List RecvEvent}
    (h : Arrives buf gpu layer 0 sent log) (hreads : ∀ e ∈ reads, ∃ addr n, e = .read addr n) :
    Arrives buf gpu layer 0 sent (reads ++ (log ++ [.reply magic reqid])) := by
  intro tensors
  have hevents : applyEvents buf tensors (reads ++ (log ++ [.reply magic reqid])) =
      applyEvents buf tensors log := by
    rw [applyEvents_append, applyEvents_reads tensors hreads, applyEvents_append]
    rfl
  rw [hevents]
  exact h tensors

/-- **The message of a layer is accepted and arrives.** -/
theorem handleKvCacheData_message (ndebug : Bool) (cfg : CopyConfig) {layer reqid : ℕ}
    (hlayer : layer ≤ sizeMax) (hreqid : reqid ≤ sizeMax)
    (hlen : buf.len = messageLength sent)
    (h : StoredAt buf.mem buf.base (tcpMessage layer reqid gpu sent))
    (hptrs : info.ptrs[layer]? = some sent.length)
    (hall : ∀ (i : ℕ) blocks, sent[i]? = some blocks → reserve.returns blocks.length = true ∧
      ∃ srcCapacity dstCapacity, info.layerBlkSizes[i]? = some dstCapacity ∧
        TensorFits srcCapacity dstCapacity blocks) :
    (handleKvCacheData ndebug cfg reserve info buf).result = some () ∧
      Arrives buf gpu layer 0 sent (handleKvCacheData ndebug cfg reserve info buf).log := by
  have huser : buf.base + buf.len < 2 ^ 63 := buf.user
  have hhead : rpcHeader = 12 := rfl
  rw [messageLength, length_tcpSections _ gpu] at hlen
  have hcount := length_le_tcpSections gpu 0 sent
  obtain ⟨h₁₂₃₄, h₅⟩ := storedAt_append.mp h
  obtain ⟨h₁₂₃, h₄⟩ := storedAt_append.mp h₁₂₃₄
  obtain ⟨h₁₂, h₃⟩ := storedAt_append.mp h₁₂₃
  obtain ⟨h₁, h₂⟩ := storedAt_append.mp h₁₂
  simp only [length_append, length_leBytes, Nat.reduceAdd] at h₂ h₃ h₄ h₅
  have hmagic : buf.uint 4 buf.base = kvCacheDataMagic := uint_of_holds h₁ (by decide)
  have hid : buf.uint 8 (buf.base + 4) = reqid :=
    uint_of_holds h₂ (by unfold sizeMax at hreqid; omega)
  have hidx : buf.uint 8 (buf.base + 12) = layer :=
    uint_of_holds h₃ (by unfold sizeMax at hlayer; omega)
  have hnum : buf.uint 8 (buf.base + 20) = sent.length := uint_of_holds h₄ (by omega)
  obtain ⟨hresult, harrives⟩ := recvTensors_sections ndebug cfg layer h₅
    (by unfold InBuf.bufEnd; omega) (fun i blocks hi => by rw [zero_add]; exact hall i blocks hi)
  have hlen' : 28 ≤ buf.len := by omega
  rw [handleKvCacheData_eq cfg reserve info hlen' (.inr hmagic), hmagic, hid, hidx, hnum,
    if_pos hptrs, bind_of_result hresult]
  exact ⟨rfl, harrives.between fun e he => (readIn_headerReads hlen' e he).isRead⟩

end TcpServer

/-! ## The round trip -/

/-- **What is asked of the TCP data path.**  The blocks can be registered and every layer sent; the
message of a layer is as long as the buffer that was allocated for it; and wherever it is received,
it is accepted, and D's tensors become what copying the original blocks from P's leaves. -/
def TcpRoundTrip (ndebug : Bool) (cfgP cfgD : CopyConfig) (s : BlockSort) (reserve : Reserve)
    (info : TcpInfo) (ch : TcpChannel) (data : List (List IpcBlock)) (kind : TPKind)
    (reqid : ℕ → ℕ) (gpu : ℕ → ℕ → ℕ → UInt8) (garbage : ℕ → ℕ → UInt8) : Prop :=
  ∃ ch' msgs ch'', ch.registerData ndebug s data kind = .ok ch' ∧
    ch'.sendLayers ndebug cfgP reqid gpu garbage ch.dstLayerNum = .ok (msgs, ch'') ∧
    ch'.hostBuffers.length = ch.dstLayerNum ∧
    ∀ layer < ch.dstLayerNum, ∃ msg, msgs[layer]? = some msg ∧
      (∀ bufLen ∈ ch'.hostBuffers, msg.length = bufLen) ∧
      ∀ buf : InBuf, buf.len = msg.length → StoredAt buf.mem buf.base msg →
        (TcpServer.handleKvCacheData ndebug cfgD reserve info buf).result = some () ∧
        TcpServer.Arrives buf (gpu layer) layer 0 data
          (TcpServer.handleKvCacheData ndebug cfgD reserve info buf).log

section RoundTrip

variable {ndebug : Bool} {s : BlockSort} {reserve : Reserve} {info : TcpInfo} {ch : TcpChannel}
variable {data : List (List IpcBlock)} {kind : TPKind}

/-- What arrives of the blocks that are sent is what the original blocks leave. -/
theorem TcpServer.Arrives.of_sent {buf : InBuf} {layer : ℕ} {log : List RecvEvent}
    (hfits : TensorsFit data)
    (h : TcpServer.Arrives buf gpu layer 0 (data.map (sentBlocks s kind)) log) :
    TcpServer.Arrives buf gpu layer 0 data log := by
  intro tensors
  obtain ⟨hsent, hkept⟩ := h tensors
  rw [length_map] at hkept
  refine ⟨fun i blocks hi => ?_, hkept⟩
  obtain ⟨_, _, hblocks⟩ := hfits blocks (mem_of_getElem? hi)
  have hmap : (data.map (sentBlocks s kind))[i]? = some (sentBlocks s kind blocks) := by
    rw [getElem?_map, hi]
    rfl
  rw [hsent i _ hmap, copyBlocks_sentBlocks s kind hblocks]

/-- **The TCP data path makes the round trip exactly for `PEQD`, or for one tensor.**  For every
nonempty list of tensors, each with a nonempty list of blocks of positive length inside both sides'
capacities and with destinations that do not overlap; otherwise `register_data` looks past the end of
`tensor_send_bytes_`. -/
theorem tcpRoundTrip_iff (cfgP cfgD : CopyConfig) (reqid : ℕ → ℕ) (gpu : ℕ → ℕ → ℕ → UInt8)
    (garbage : ℕ → ℕ → UInt8) (hdata : ch.data = none) (hbuffers : ch.hostBuffers = [])
    (hlayers : ch.dstLayerNum ≤ sizeMax) (hreqid : ∀ layer, reqid layer ≤ sizeMax)
    (hne : data ≠ [])
    (hfits : ∀ (t : ℕ) blocks, data[t]? = some blocks → ∃ srcCapacity dstCapacity,
      info.layerBlkSizes[t]? = some dstCapacity ∧ TensorFits srcCapacity dstCapacity blocks)
    (hptrs : ∀ layer < ch.dstLayerNum, info.ptrs[layer]? = some data.length)
    (hreserve : ∀ blocks ∈ data, ∀ n ≤ blocks.length, reserve.returns n = true) :
    TcpRoundTrip ndebug cfgP cfgD s reserve info ch data kind reqid gpu garbage ↔
      kind = .peqd ∨ data.length = 1 := by
  have hall : TensorsFit data := fun blocks hb =>
    let ⟨t, _, ht⟩ := mem_iff_getElem.mp hb
    let ⟨srcCapacity, dstCapacity, _, h⟩ := hfits t blocks (ht ▸ getElem?_eq_getElem _)
    ⟨srcCapacity, dstCapacity, h⟩
  constructor
  · rintro ⟨ch', _, _, hregister, -⟩
    by_contra hnot
    have hmany : 2 ≤ data.length := by
      have := length_pos_of_ne_nil hne
      omega
    exact registerData_of_many hbuffers (fun h => hnot (.inl h)) hmany hall ch' hregister
  · intro hkind
    have hsentFit : TensorsFit (data.map (sentBlocks s kind)) := hall.sent s kind
    have hsentNe : data.map (sentBlocks s kind) ≠ [] := mt map_eq_nil_iff.mp hne
    refine ⟨_, _, _, registerData_spec hdata hbuffers hne hkind hall,
      sendLayers_spec cfgP hsentNe hsentFit reqid gpu garbage le_rfl, length_replicate,
      fun layer hlayer => ⟨tcpMessage layer (reqid layer) (gpu layer) (data.map (sentBlocks s kind)),
        ?_, ?_, ?_⟩⟩
    · rw [getElem?_map, getElem?_range hlayer]
      rfl
    · intro bufLen hbuf
      rw [eq_of_mem_replicate hbuf, length_tcpMessage]
    · intro buf hlen hholds
      rw [length_tcpMessage] at hlen
      have hsent (i : ℕ) (blocks : List IpcBlock)
          (hi : (data.map (sentBlocks s kind))[i]? = some blocks) :
          reserve.returns blocks.length = true ∧ ∃ srcCapacity dstCapacity,
            info.layerBlkSizes[i]? = some dstCapacity ∧
            TensorFits srcCapacity dstCapacity blocks := by
        rw [getElem?_map, Option.map_eq_some_iff] at hi
        obtain ⟨original, horiginal, rfl⟩ := hi
        obtain ⟨srcCapacity, dstCapacity, hcap, h⟩ := hfits i original horiginal
        exact ⟨hreserve original (mem_of_getElem? horiginal) _ (length_sentBlocks_le s kind),
          srcCapacity, dstCapacity, hcap, h.sent s kind⟩
      obtain ⟨hresult, harrives⟩ := TcpServer.handleKvCacheData_message ndebug cfgD
        (hlayer.le.trans hlayers) (hreqid layer) hlen hholds (by rw [length_map]; exact hptrs layer hlayer) hsent
      exact ⟨hresult, harrives.of_sent hall⟩

end RoundTrip

/-- One byte of one tensor, in a channel of one layer. -/
theorem tcpRoundTrip_one_tensor :
    TcpRoundTrip true {} {} stableSort smallReserve ⟨[1], [8]⟩ { dstLayerNum := 1 }
      [[⟨3, 5, 1⟩]] .pgtd (fun _ => 0) (fun _ _ _ => 7) (fun _ _ => 0) := by
  refine (tcpRoundTrip_iff {} {} (fun _ => 0) (fun _ _ _ => 7) (fun _ _ => 0) rfl rfl (by decide)
    (fun _ => by decide) (by decide) (fun t blocks ht => ?_) (fun layer hlayer => ?_)
    (fun blocks hb n hn => ?_)).mpr (.inr rfl)
  · match t, ht with
    | 0, ht =>
      obtain rfl : [⟨3, 5, 1⟩] = blocks := Option.some.inj ht
      refine ⟨8, 8, rfl, by decide, fun b hb => ?_, pairwise_singleton _ _, by decide,
        by decide⟩
      rw [mem_singleton.mp hb]
      exact ⟨by decide, by decide, by decide⟩
  · obtain rfl : layer = 0 := Nat.lt_one_iff.mp hlayer
    rfl
  · rw [mem_singleton.mp hb] at hn
    exact decide_eq_true (hn.trans (by decide))

/-- Two tensors and unequal TP sizes: neither build gets through `register_data`. -/
theorem tcpRoundTrip_two_tensors :
    ¬TcpRoundTrip true {} {} stableSort smallReserve ⟨[2], [8, 8]⟩ { dstLayerNum := 1 }
      [[⟨0, 0, 1⟩], [⟨0, 0, 1⟩]] .pgtd (fun _ => 0) (fun _ _ _ => 7) (fun _ _ => 0) ∧
    ¬TcpRoundTrip false {} {} stableSort smallReserve ⟨[2], [8, 8]⟩ { dstLayerNum := 1 }
      [[⟨0, 0, 1⟩], [⟨0, 0, 1⟩]] .pgtd (fun _ => 0) (fun _ _ _ => 7) (fun _ _ => 0) := by
  suffices h : ∀ ndebug : Bool,
      ¬TcpRoundTrip ndebug {} {} stableSort smallReserve ⟨[2], [8, 8]⟩ { dstLayerNum := 1 }
        [[⟨0, 0, 1⟩], [⟨0, 0, 1⟩]] .pgtd (fun _ => 0) (fun _ _ _ => 7) (fun _ _ => 0) from
    ⟨h true, h false⟩
  rintro ndebug ⟨ch', _, _, hregister, -⟩
  refine registerData_of_many rfl (by decide) (by decide) (fun tensor ht => ?_) ch' hregister
  obtain rfl : tensor = [⟨0, 0, 1⟩] := by
    simpa only [mem_cons, not_mem_nil, or_false, or_self] using ht
  refine ⟨8, 8, by decide, fun b hb => ?_, pairwise_singleton _ _, by decide, by decide⟩
  rw [mem_singleton.mp hb]
  exact ⟨by decide, by decide, by decide⟩

end LlumnixKv
