import LlumnixKv.Channel.StagedServer
import LlumnixKv.Channel.TcpServer

/-!
# Channel/Malformed — what a malformed message does to a server

A message should have no effect at all, or be one whose bytes and blocks are all accounted for
(`RejectsAtomically`).  Two tests are missing for that: that the lengths of a tensor's blocks add up
to the size of its payload — an `assert`, compiled out — and that the end of the payload does not wrap
around the address space.  Which messages get past them can be told from their bytes (`Void`,
`Balanced`).
-/

open List hiding after
open Machinery Machinery.Traced

namespace LlumnixKv

/-! ## What is asked of the events -/

namespace RecvEvent

/-- Nothing is copied, and no reply is sent. -/
def NoEffect : RecvEvent → Prop
  | .copy _ _ _ _ _ copies => copies = []
  | .reply _ _ => False
  | _ => True

/-- The bytes it reads lie inside the message. -/
def Inside (buf : InBuf) : RecvEvent → Prop
  | .read addr n => buf.base ≤ addr ∧ addr + n ≤ buf.bufEnd
  | .copy _ _ tensorBuf _ _ copies => ∀ op ∈ copies,
    buf.base ≤ ptrAdd tensorBuf op.srcOffset ∧
      ptrAdd tensorBuf op.srcOffset + op.length ≤ buf.bufEnd
  | _ => True

/-- The bytes it writes lie inside what was registered. -/
def InCapacity (capacity : ℕ → Option ℕ) : RecvEvent → Prop
  | .copy _ t _ _ _ copies => ∃ c ∈ capacity t, ∀ op ∈ copies, op.dstOffset + op.length ≤ c
  | _ => True

/-- The lengths of the blocks add up to the payload size read for the tensor. -/
def SumsUp : RecvEvent → Prop
  | .sized _ blocks size => totalLength blocks = size
  | _ => True

instance : DecidablePred NoEffect
  | .copy _ _ _ _ _ copies => inferInstanceAs (Decidable (copies = []))
  | .reply _ _ => inferInstanceAs (Decidable False)
  | .read _ _ | .sized _ _ _ | .terminate => inferInstanceAs (Decidable True)

instance (buf : InBuf) : DecidablePred (Inside buf)
  | .read addr n => inferInstanceAs (Decidable (buf.base ≤ addr ∧ addr + n ≤ buf.bufEnd))
  | .copy _ _ tensorBuf _ _ copies => inferInstanceAs (Decidable (∀ op ∈ copies,
    buf.base ≤ ptrAdd tensorBuf op.srcOffset ∧
      ptrAdd tensorBuf op.srcOffset + op.length ≤ buf.bufEnd))
  | .sized _ _ _ | .reply _ _ | .terminate => inferInstanceAs (Decidable True)

instance : DecidablePred SumsUp
  | .sized _ blocks size => inferInstanceAs (Decidable (totalLength blocks = size))
  | .read _ _ | .copy _ _ _ _ _ _ | .reply _ _ | .terminate => inferInstanceAs (Decidable True)

end RecvEvent

open RecvEvent

/-- **Malformed data is rejected atomically**: nothing is copied to any tensor and no reply is sent,
or every byte read lies inside the message, every write inside the registered capacity, and for each
tensor the block lengths add up to the payload size. -/
def RejectsAtomically (buf : InBuf) (capacity : ℕ → Option ℕ) (log : List RecvEvent) : Prop :=
  (∀ e ∈ log, e.NoEffect) ∨
  (∀ e ∈ log, e.Inside buf) ∧ (∀ e ∈ log, e.InCapacity capacity) ∧ ∀ e ∈ log, e.SumsUp

/-- What the second case asks of an event. -/
def Sound (buf : InBuf) (capacity : ℕ → Option ℕ) (e : RecvEvent) : Prop :=
  e.Inside buf ∧ e.InCapacity capacity ∧ e.SumsUp

section Events

variable {buf : InBuf} {capacity : ℕ → Option ℕ} {log : List RecvEvent} {e : RecvEvent}

theorem rejects_iff_sound : RejectsAtomically buf capacity log ↔
    (∀ e ∈ log, e.NoEffect) ∨ ∀ e ∈ log, Sound buf capacity e := by
  simp only [RejectsAtomically, Sound, forall_and]

theorem noEffect_of_read (h : ∃ addr n, e = .read addr n) : e.NoEffect := by
  obtain ⟨_, _, rfl⟩ := h
  trivial

theorem noEffect_of_readIn {lo hi : ℕ} (h : e.ReadIn lo hi) : e.NoEffect :=
  let ⟨addr, n, he, _⟩ := h
  noEffect_of_read ⟨addr, n, he⟩

theorem sound_of_readIn {lo hi : ℕ} (hlo : buf.base ≤ lo) (hhi : hi ≤ buf.bufEnd)
    (h : e.ReadIn lo hi) : Sound buf capacity e := by
  obtain ⟨addr, n, rfl, hin⟩ := h.mono hlo hhi
  exact ⟨hin, trivial, trivial⟩

/-! ## The copy of a payload -/

variable {layer t tensorBuf size c : ℕ} {blocks copies : List IpcBlock}

/-- A payload that lies in the message is read there, … -/
theorem inside_copy (hperm : copies.Perm (hostBlocks 0 blocks)) (hsum : totalLength blocks = size)
    (hbuf : buf.base ≤ tensorBuf) (hend : tensorBuf + size ≤ buf.bufEnd) :
    (RecvEvent.copy layer t tensorBuf blocks size copies).Inside buf := fun op hop => by
  have huser : buf.bufEnd < 2 ^ 63 := buf.user
  have hbound := (hostBlocks_bounds (hperm.subset hop)).2
  rw [ptrAdd_of_lt (by omega)]
  omega

/-- … and written inside what was registered. -/
theorem inCapacity_copy (hperm : copies.Perm (hostBlocks 0 blocks)) (hcap : capacity t = some c)
    (hblocks : ∀ b ∈ blocks, b.dstOffset + b.length ≤ c) :
    (RecvEvent.copy layer t tensorBuf blocks size copies).InCapacity capacity := by
  refine ⟨c, hcap, fun op hop => ?_⟩
  obtain ⟨b, hb, hdst, hlen⟩ := exists_of_mem_hostBlocks (hperm.subset hop)
  rw [hdst, hlen]
  exact hblocks b hb

/-- One whose end wraps covers the byte after the message. -/
theorem noWrap_of_inside (hperm : copies.Perm (hostBlocks 0 blocks))
    (hsum : totalLength blocks = size) (hbuf : tensorBuf ≤ buf.bufEnd)
    (hin : (RecvEvent.copy layer t tensorBuf blocks size copies).Inside buf) :
    tensorBuf + size < 2 ^ 64 := by
  have huser : buf.bufEnd < 2 ^ 63 := buf.user
  by_contra hwrap
  have hcovered : buf.bufEnd - tensorBuf < 0 + totalLength blocks := by omega
  obtain ⟨op, hop, hlo, hhi⟩ := exists_hostBlock (Nat.zero_le _) hcovered
  have hread := (hin op (hperm.symm.subset hop)).2
  rw [ptrAdd_of_lt (by omega)] at hread
  omega

theorem copies_eq_nil_iff (hperm : copies.Perm (hostBlocks 0 blocks)) :
    copies = [] ↔ blocks = [] := by
  rw [← length_eq_zero_iff, hperm.length_eq, length_hostBlocks, length_eq_zero_iff]

end Events

/-! ## The TCP server -/

namespace TcpServer

section Bytes

variable (reserve : Reserve) (info : TcpInfo) (buf : InBuf)

/-- With `left` tensors left, of which `t` lies at `p`: one of them is not copied, and those before it
have no blocks. -/
def Void : ℕ → ℕ → ℕ → Prop
  | 0, _, _ => False
  | left + 1, t, p => ¬Copied reserve info buf t p ∨ tensorBlocks buf p = [] ∧
      Void left (t + 1) (ptrAdd (payloadAt buf p) (payloadSize buf p))

/-- The block lengths of every tensor that is listed add up to its payload size, up to the first that
is not copied, and no payload wraps. -/
def Balanced : ℕ → ℕ → ℕ → Prop
  | 0, _, _ => True
  | left + 1, t, p => Listed reserve buf p →
      totalLength (tensorBlocks buf p) = payloadSize buf p ∧
      (Copied reserve info buf t p → payloadAt buf p + payloadSize buf p < 2 ^ 64 ∧
        Balanced left (t + 1) (payloadAt buf p + payloadSize buf p))

end Bytes

variable {cfg : CopyConfig} {reserve : Reserve} {info : TcpInfo} {buf : InBuf}
  {layer magic reqid : ℕ}

/-- The tensors that are left, and the reply. -/
def answered (cfg : CopyConfig) (reserve : Reserve) (info : TcpInfo) (buf : InBuf)
    (layer magic reqid left t p : ℕ) : Recv Unit :=
  recvTensors true cfg reserve info buf layer left t p >>= fun _ => emit (.reply magic reqid)

section Steps

variable {layer magic reqid left t p : ℕ} {log : List RecvEvent}

theorem answered_of_stopped (h : recvTensor true cfg reserve info buf layer t p = ⟨log, none⟩) :
    answered cfg reserve info buf layer magic reqid (left + 1) t p = ⟨log, none⟩ := by
  rw [answered, recvTensors, h, bind_of_stopped rfl, bind_of_stopped rfl]

theorem answered_of_next {p' : ℕ}
    (h : recvTensor true cfg reserve info buf layer t p = ⟨log, some p'⟩) :
    answered cfg reserve info buf layer magic reqid (left + 1) t p =
      after log (answered cfg reserve info buf layer magic reqid left (t + 1) p') := by
  have htail : (⟨log, some p'⟩ >>= recvTensors true cfg reserve info buf layer left (t + 1) :
      Recv Unit) = after log (recvTensors true cfg reserve info buf layer left (t + 1) p') := rfl
  rw [answered, recvTensors, h, htail, after_bind, answered]

end Steps

/-- **A message has no effect exactly if it is void**, by induction on the tensors left. -/
theorem noEffect_iff : ∀ {left t p : ℕ}, p ≤ buf.bufEnd →
    ((∀ e ∈ (answered cfg reserve info buf layer magic reqid left t p).log, e.NoEffect) ↔
      Void reserve info buf left t p)
  | 0, _, _, _ => ⟨fun h => h _ mem_cons_self, False.elim⟩
  | left + 1, t, p, hp => by
      by_cases hcopied : Copied reserve info buf t p
      · obtain ⟨reads, copies, hrecv, hreads, hperm⟩ :=
          recvTensor_copied true cfg layer hcopied (.inl rfl)
        have hnext : ptrAdd (payloadAt buf p) (payloadSize buf p) ≤ buf.bufEnd := hcopied.2.1
        rw [answered_of_next hrecv, log_after, forall_mem_append, forall_mem_append,
          forall_mem_cons, forall_mem_singleton, noEffect_iff hnext, Void]
        have hcopy : (RecvEvent.copy layer t (payloadAt buf p) (tensorBlocks buf p)
            (payloadSize buf p) copies).NoEffect ↔ tensorBlocks buf p = [] :=
          copies_eq_nil_iff hperm
        refine ⟨fun ⟨⟨_, _, hnil⟩, hrest⟩ => .inr ⟨hcopy.mp hnil, hrest⟩, ?_⟩
        rintro (hnot | ⟨hnil, hrest⟩)
        · exact absurd hcopied hnot
        · exact ⟨⟨fun e he => noEffect_of_readIn (hreads e he), trivial, hcopy.mpr hnil⟩, hrest⟩
      · refine ⟨fun _ => .inl hcopied, fun _ => ?_⟩
        by_cases hlisted : Listed reserve buf p
        · obtain ⟨reads, hrecv, hreads⟩ := recvTensor_refused true cfg layer hlisted hcopied
          rw [answered_of_stopped hrecv, forall_mem_append, forall_mem_singleton]
          exact ⟨fun e he => noEffect_of_readIn (hreads e he), trivial⟩
        · obtain ⟨log, hrecv, hlog⟩ := recvTensor_unlisted true cfg info layer t hp hlisted
          rw [answered_of_stopped hrecv]
          intro e he
          rcases hlog e he with hread | rfl
          · exact noEffect_of_readIn hread
          · trivial

/-- **…and everything it does is in order exactly if it is balanced**: where the lengths add up and
nothing wraps, the next tensor starts inside the message. -/
theorem sound_iff : ∀ {left t p : ℕ}, buf.base ≤ p → p ≤ buf.bufEnd →
    ((∀ e ∈ (answered cfg reserve info buf layer magic reqid left t p).log,
      Sound buf (info.layerBlkSizes[·]?) e) ↔ Balanced reserve info buf left t p)
  | 0, _, _, _, _ => by
      refine ⟨fun _ => trivial, fun _ e he => ?_⟩
      rw [mem_singleton.mp he]
      exact ⟨trivial, trivial, trivial⟩
  | left + 1, t, p, hp, hp' => by
      rw [Balanced]
      by_cases hlisted : Listed reserve buf p
      · rw [forall_prop_of_true hlisted]
        have hsized : Sound buf (info.layerBlkSizes[·]?)
            (.sized t (tensorBlocks buf p) (payloadSize buf p)) ↔
            totalLength (tensorBlocks buf p) = payloadSize buf p :=
          ⟨fun h => h.2.2, fun h => ⟨trivial, trivial, h⟩⟩
        by_cases hcopied : Copied reserve info buf t p
        · obtain ⟨reads, copies, hrecv, hreads, hperm⟩ :=
            recvTensor_copied true cfg layer hcopied (.inl rfl)
          have hend := hcopied.2.1
          obtain ⟨capacity, hcap, hblocks⟩ := hcopied.2.2
          rw [answered_of_next hrecv, log_after, forall_mem_append, forall_mem_append,
            forall_mem_cons, forall_mem_singleton, hsized, forall_prop_of_true hcopied]
          have hbuf : buf.base ≤ payloadAt buf p := by
            unfold payloadAt
            omega
          constructor
          · rintro ⟨⟨-, hsum, hcopy⟩, hrest⟩
            have hwrap := noWrap_of_inside hperm hsum hlisted.2 hcopy.1
            rw [ptrAdd_of_lt hwrap] at hend hrest
            exact ⟨hsum, hwrap, (sound_iff (by omega) hend).mp hrest⟩
          · rintro ⟨hsum, hwrap, hrest⟩
            rw [ptrAdd_of_lt hwrap] at hend ⊢
            refine ⟨⟨fun e he => sound_of_readIn hp le_rfl (hreads e he), hsum,
              inside_copy hperm hsum hbuf hend, ?_, trivial⟩, (sound_iff (by omega) hend).mpr hrest⟩
            exact inCapacity_copy hperm hcap fun b hb => (hblocks b hb).2
        · obtain ⟨reads, hrecv, hreads⟩ := recvTensor_refused true cfg layer hlisted hcopied
          rw [answered_of_stopped hrecv, forall_mem_append, forall_mem_singleton, hsized]
          exact ⟨fun h => ⟨h.2, fun h' => absurd h' hcopied⟩,
            fun h => ⟨fun e he => sound_of_readIn hp le_rfl (hreads e he), h.1⟩⟩
      · obtain ⟨log, hrecv, hlog⟩ := recvTensor_unlisted true cfg info layer t hp' hlisted
        rw [answered_of_stopped hrecv]
        refine ⟨fun _ h => absurd h hlisted, fun _ e he => ?_⟩
        rcases hlog e he with hread | rfl
        · exact sound_of_readIn hp le_rfl hread
        · exact ⟨trivial, trivial, trivial⟩

/-- **When the TCP server rejects atomically**: the message is too short, it is for no layer or not
for as many tensors as the layer has, or what follows the header is void or balanced. -/
theorem rejects_iff (cfg : CopyConfig) (reserve : Reserve) (info : TcpInfo) (buf : InBuf) :
    RejectsAtomically buf (info.layerBlkSizes[·]?)
        (handleKvCacheData true cfg reserve info buf).log ↔
      buf.len < 28 ∨ info.ptrs[buf.uint 8 (buf.base + 12)]? ≠ some (buf.uint 8 (buf.base + 20)) ∨
      Void reserve info buf (buf.uint 8 (buf.base + 20)) 0 (buf.base + 28) ∨
      Balanced reserve info buf (buf.uint 8 (buf.base + 20)) 0 (buf.base + 28) := by
  by_cases hlen : 28 ≤ buf.len
  · have hreads := readIn_headerReads hlen
    have hstart : buf.base ≤ buf.base + 28 := by omega
    have hstart' : buf.base + 28 ≤ buf.bufEnd := by
      unfold InBuf.bufEnd
      omega
    rw [handleKvCacheData_eq cfg reserve info hlen (.inl rfl), rejects_iff_sound, log_after,
      forall_mem_append, forall_mem_append]
    have hnone : ∀ e ∈ headerReads buf.base, e.NoEffect := fun e he =>
      noEffect_of_readIn (hreads e he)
    have hsound : ∀ e ∈ headerReads buf.base, Sound buf (info.layerBlkSizes[·]?) e := fun e he =>
      sound_of_readIn le_rfl le_rfl (hreads e he)
    simp only [and_iff_right hnone, and_iff_right hsound, not_lt.mpr hlen, false_or]
    split
    · next htensors =>
      rw [or_iff_right (not_not.mpr htensors)]
      exact or_congr (noEffect_iff hstart') (sound_iff hstart hstart')
    · next htensors => exact iff_of_true (.inl fun _ h => absurd h not_mem_nil) (.inl htensors)
  · have hshort : buf.len < rpcHeader + 8 + 8 := Nat.lt_of_not_le hlen
    rw [handleKvCacheData, if_pos hshort]
    exact iff_of_true (.inl fun _ h => absurd h not_mem_nil) (.inl hshort)

end TcpServer

/-! ## The staged server -/

namespace StagedServer

/-- **When the staged server rejects atomically**: what it takes has the payload its blocks need. -/
theorem rejects_iff (cfg : CopyConfig) (reserve : Reserve) (info : StagedInfo) (buf : InBuf) :
    RejectsAtomically buf (fun _ => some info.layerBlkSize)
        (handleKvCacheData true cfg reserve info buf).log ↔
      (Listed reserve buf → Accepted info buf →
        totalLength (messageBlocks buf) = actualLen buf - payloadOffset buf) := by
  by_cases hlisted : Listed reserve buf
  · rw [forall_prop_of_true hlisted]
    obtain ⟨reads, hrecv, hreads⟩ := recvBlocks_listed true cfg info (buf.uint 4 buf.base)
      (buf.uint 8 (buf.base + 4)) hlisted
    have hlen := hlisted.header
    have hlist := hlisted.list
    have hactual := hlisted.actual
    have hheader := readIn_headerReads buf.base hlen
    have hin (e : RecvEvent) (he : e ∈ headerReads buf.base ++ reads) :
        e.ReadIn buf.base buf.bufEnd := by
      unfold InBuf.bufEnd
      rcases mem_append.mp he with he | he
      · exact hheader e he
      · exact (hreads e he).mono (by omega) (by omega)
    rw [handleKvCacheData_eq cfg reserve info hlen (.inl rfl) hactual, hrecv, after_after,
      ← append_assoc, rejects_iff_sound, log_after]
    by_cases haccepted : Accepted info buf
    · rw [forall_prop_of_true haccepted]
      obtain ⟨copies, hlog, hperm⟩ := copyPayload_accepted cfg (buf.uint 4 buf.base)
        (buf.uint 8 (buf.base + 4)) (actualLen buf - payloadOffset buf)
        (buf.base + payloadOffset buf) haccepted
      rw [hlog]
      constructor
      · rintro (h | h)
        · exact absurd (h (.reply _ _) (mem_append_right _ (mem_cons_of_mem _ mem_cons_self))) id
        · exact (h (.sized _ _ _) (mem_append_left _ (mem_append_right _ mem_cons_self))).2.2
      · intro hsum
        refine .inr (forall_mem_append.mpr ⟨forall_mem_append.mpr ⟨fun e he =>
          sound_of_readIn le_rfl le_rfl (hin e he), ?_⟩, ?_⟩)
        · exact forall_mem_singleton.mpr ⟨trivial, trivial, hsum⟩
        · refine forall_mem_cons.mpr ⟨⟨inside_copy hperm hsum (by omega) ?_,
            inCapacity_copy hperm rfl fun b hb => (haccepted.blocks b hb).2, trivial⟩, ?_⟩
          · unfold InBuf.bufEnd
            omega
          · exact forall_mem_singleton.mpr ⟨trivial, trivial, trivial⟩
    · refine iff_of_true (.inl ?_) fun h => absurd h haccepted
      rw [copyPayload_refused cfg _ _ _ _ true haccepted, log_stop, append_nil]
      exact forall_mem_append.mpr ⟨fun e he => noEffect_of_readIn (hin e he),
        forall_mem_singleton.mpr trivial⟩
  · refine iff_of_true (.inl fun e he => ?_) fun h => absurd h hlisted
    rcases handleKvCacheData_unlisted cfg info hlisted e he with hread | rfl
    · exact noEffect_of_read hread
    · trivial

end StagedServer

/-- **When a message is rejected atomically**, in a release build, told from its bytes.  To the TCP
server: it is shorter than its header, it is not for as many tensors as the layer has, a tensor is
refused and those before it have no blocks, or the block lengths of every tensor up to the first that
is refused add up to the size of its payload, whose end does not wrap.  To the staged server: if it
passes every test, its block lengths add up to what `actual_len` leaves for the payload. -/
theorem rejectsAtomically_iff (cfg : CopyConfig) (reserve : Reserve) (buf : InBuf) (info : TcpInfo)
    (staged : StagedInfo) :
    (RejectsAtomically buf (info.layerBlkSizes[·]?)
        (TcpServer.handleKvCacheData true cfg reserve info buf).log ↔
      buf.len < 28 ∨ info.ptrs[buf.uint 8 (buf.base + 12)]? ≠ some (buf.uint 8 (buf.base + 20)) ∨
      TcpServer.Void reserve info buf (buf.uint 8 (buf.base + 20)) 0 (buf.base + 28) ∨
      TcpServer.Balanced reserve info buf (buf.uint 8 (buf.base + 20)) 0 (buf.base + 28)) ∧
    (RejectsAtomically buf (fun _ => some staged.layerBlkSize)
        (StagedServer.handleKvCacheData true cfg reserve staged buf).log ↔
      (StagedServer.Listed reserve buf → StagedServer.Accepted staged buf →
        totalLength (StagedServer.messageBlocks buf) =
          StagedServer.actualLen buf - StagedServer.payloadOffset buf)) :=
  ⟨TcpServer.rejects_iff cfg reserve info buf, StagedServer.rejects_iff cfg reserve staged buf⟩

/-! ## Messages that are not -/

/-- A message that lies at address 4096, with zeros after it. -/
def InBuf.at4096 (bytes : List UInt8) (h : 4096 + bytes.length < 2 ^ 63) : InBuf :=
  ⟨fun a => bytes.getD (a - 4096) 0, 4096, bytes.length, h⟩

/-- A block of eight bytes, and no payload. -/
def noPayload : InBuf :=
  .at4096 (leBytes 4 kvCacheDataMagic ++ leBytes 8 1 ++ leBytes 8 0 ++ leBytes 8 1 ++
    leBytes 8 1 ++ IpcBlock.raw ⟨0, 0, 8⟩ ++ leBytes 8 0) (by decide)

/-- A tensor with its payload of one byte, and one whose payload is missing. -/
def lostPayload : InBuf :=
  .at4096 (leBytes 4 kvCacheDataMagic ++ leBytes 8 1 ++ leBytes 8 0 ++ leBytes 8 2 ++
    leBytes 8 1 ++ IpcBlock.raw ⟨0, 0, 1⟩ ++ leBytes 8 1 ++ [7] ++
    leBytes 8 1 ++ IpcBlock.raw ⟨0, 0, 1⟩ ++ leBytes 8 1000) (by decide)

/-- The same as `noPayload`, for the staged server. -/
def noStagedPayload : InBuf :=
  .at4096 (leBytes 4 kvCacheDataMagic ++ leBytes 8 1 ++ leBytes 8 60 ++ leBytes 8 0 ++
    leBytes 8 1 ++ IpcBlock.raw ⟨0, 0, 8⟩) (by decide)

/-- Eight bytes beyond the message are copied and the sender is answered; a tensor is copied and then
the message is rejected; eight bytes beyond the staged message are copied. -/
theorem noPayload_not_rejected :
    ¬RejectsAtomically noPayload ([64][·]?)
      (TcpServer.handleKvCacheData true {} smallReserve ⟨[1], [64]⟩ noPayload).log ∧
    ¬RejectsAtomically lostPayload ([64, 64][·]?)
      (TcpServer.handleKvCacheData true {} smallReserve ⟨[2], [64, 64]⟩ lostPayload).log ∧
    ¬RejectsAtomically noStagedPayload (fun _ => some 64)
      (StagedServer.handleKvCacheData true {} smallReserve ⟨1, 64⟩ noStagedPayload).log := by
  refine ⟨?_, ?_, ?_⟩
  · rintro (h | ⟨h, -⟩)
    · exact absurd h (by decide +kernel)
    · exact absurd h (by decide +kernel)
  · rintro (h | ⟨-, -, h⟩)
    · exact absurd h (by decide +kernel)
    · exact absurd h (by decide +kernel)
  · rintro (h | ⟨h, -⟩)
    · exact absurd h (by decide +kernel)
    · exact absurd h (by decide +kernel)

end LlumnixKv
