import LlumnixKv.Channel.StagedBuffers

/-!
# Channel/StagedProtocol — rounds over reused buffers

    idle ──register_data──▸ sending 0 ──send_data──▸ … ──send_data──▸ sending n ──flush──▸ idle

A channel and the server, with the messages between them.  A message is in flight until the RDMA write
has landed, and waits from then on for its immediate value to be received, which may be late: after
`flush` has given up, after its connection was closed.  A connection that is lost between rounds is
replaced by `register_data`, which keeps the receive buffers it has.  `do_task` drops a channel that has
thrown.

`OnImmRecvCall` finds the buffer of an immediate value under a lock, and reads it without.  A buffer that
is released in between is all that can go wrong (`stagedProtocol_safe_iff`).
-/

open List hiding after
open Machinery Machinery.Traced

namespace LlumnixKv

open StagedServer

/-! ## The actions -/

/-- Where the channel is. -/
inductive StagedPhase
  | idle
  /-- in a round, before the message of `layer` -/
  | sending (layer : ℕ)
  | dropped
  deriving DecidableEq, Repr

/-- A channel, the server, and what is between them. -/
structure StagedWorld where
  ch : StagedChannel
  srv : StagedServerState := {}
  phase : StagedPhase := .idle
  /-- the connection the receive buffers were asked for on -/
  home : ℕ := 0
  /-- messages whose write has not landed -/
  inFlight : List StagedMsg := []
  /-- messages whose immediate value has not been received -/
  arrived : List StagedMsg := []
  /-- messages whose buffer was found, and is still to be read -/
  reading : List (StagedMsg × StagedRecvBuffer) := []
  /-- the request ids used so far -/
  used : List ℕ := []
  /-- the requests whose reply has come -/
  replied : List ℕ := []

/-- The actions of the channel, the network and the server. -/
inductive StagedAct
  /-- `valid`: whether `do_init` finds its connections valid; `bufLen`: the lengths of the host buffers;
  `mems`: the memory the server allocates, if the request gets there; `heard`: whether the response
  comes in time -/
  | register (round : StagedRound) (valid : Bool) (bufLen : ℕ → ℕ) (mems : Option (List (ℕ × InBuf)))
      (heard : Bool)
  | send (reqid : ℕ) (gpu garbage : ℕ → UInt8)
  | land (i : ℕ)
  | lookup (i : ℕ)
  | read (i : ℕ)
  | close (conn : ℕ)
  | flush
  | flushThrow
  /-- any other exception on the way -/
  | drop

namespace StagedWorld

/-- Nothing has happened yet on a channel for so many layers. -/
def start (dstLayerNum : ℕ) : StagedWorld := { ch := { dstLayerNum := dstLayerNum } }

variable (w : StagedWorld)

/-- An exception ends the use of the channel, a failed assertion the process. -/
def throw (f : Fault) : Except Fault StagedWorld :=
  if f.caught then .ok { w with phase := .dropped } else .error f

/-- The request for receive buffers. -/
def request (sizes : List ℕ) (mems : Option (List (ℕ × InBuf))) (heard : Bool) :
    Option (Except Fault StagedWorld) :=
  match mems with
  | none => some (.ok { w with phase := .dropped })
  | some mems =>
    if w.ch.conns ∈ w.srv.closed ∨ ¬w.srv.Fresh mems then none
    else match w.srv.respStagedPrealloc w.ch.conns sizes mems, heard with
      | (srv, some bufs), true => match w.ch.onPrealloc (bufs.map StagedRecvBuffer.entry) with
        | .ok ch => some (.ok { w with srv := srv, ch := ch, phase := .sending 0 })
        | .error f => some ({ w with srv := srv }.throw f)
      | (srv, _), _ => some (.ok { w with srv := srv, phase := .dropped })

section Step

variable (ndebug : Bool) (s : BlockSort) (cfgP cfgD : CopyConfig) (reserve : Reserve) (info : StagedInfo)

/-- `register_data`. -/
def register (w : StagedWorld) (round : StagedRound) (valid : Bool) (bufLen : ℕ → ℕ)
    (mems : Option (List (ℕ × InBuf))) (heard : Bool) : Option (Except Fault StagedWorld) :=
  if w.phase = .idle then
    match w.ch.registerData ndebug s round.kind round.tensor valid bufLen with
    | .error f => some (w.throw f)
    | .ok (ch, none) => some (.ok { w with ch := ch, phase := .sending 0 })
    | .ok (ch, some sizes) => { w with ch := ch, home := ch.conns }.request sizes mems heard
  else none

/-- `send_data` of the next layer; `new_id` gives the request id. -/
def send (w : StagedWorld) (reqid : ℕ) (gpu garbage : ℕ → UInt8) : Option (Except Fault StagedWorld) :=
  match w.phase with
  | .sending layer =>
    if layer < w.ch.dstLayerNum ∧ reqid ≤ sizeMax ∧ reqid ∉ w.used then
      match w.ch.sendData ndebug cfgP layer reqid gpu garbage with
      | .error f => some (w.throw f)
      | .ok (m, ch) => some (.ok { w with
          ch := ch, phase := .sending (layer + 1), inFlight := w.inFlight ++ [m]
          used := reqid :: w.used })
    else none
  | _ => none

/-- The write of a message lands, if its memory is registered. -/
def land (w : StagedWorld) (i : ℕ) : Option (Except Fault StagedWorld) :=
  match w.inFlight[i]? with
  | none => none
  | some m => match w.srv.regions m.remote.rkey with
    | none => none
    | some buf => some (.ok { w with
        srv := w.srv.write m.remote.rkey buf m.remote.remoteAddr m.bytes
        inFlight := w.inFlight.eraseIdx i, arrived := w.arrived ++ [m] })

/-- The immediate value of a message is received, and its buffer looked up. -/
def lookup (w : StagedWorld) (i : ℕ) : Option (Except Fault StagedWorld) :=
  match w.arrived[i]? with
  | none => none
  | some m => some (.ok { w with
      arrived := w.arrived.eraseIdx i
      reading := w.reading ++ ((w.srv.resolve m.conn m.imm).map (m, ·)).toList })

/-- The buffer is read; what is read from one that is released is not followed. -/
def read (w : StagedWorld) (i : ℕ) : Option (Except Fault StagedWorld) :=
  match w.reading[i]? with
  | none => none
  | some (_, b) => match w.srv.handleFound ndebug cfgD reserve info b with
    | none => none
    | some reqids => some (.ok { w with
        reading := w.reading.eraseIdx i, replied := w.replied ++ reqids })

/-- `flush`, after the last layer, with every reply. -/
def flush (w : StagedWorld) : Option (Except Fault StagedWorld) :=
  if w.phase = .sending w.ch.dstLayerNum ∧ ∀ reqid ∈ w.ch.stagedWriteFuts, reqid ∈ w.replied then
    match w.ch.flushed ndebug with
    | .error f => some (.error f)
    | .ok ch => some (.ok { w with ch := ch, phase := .idle })
  else none

/-- `flush` throws. -/
def flushThrow (w : StagedWorld) : Option (Except Fault StagedWorld) :=
  if w.phase = .sending w.ch.dstLayerNum then
    some (.ok { w with ch := w.ch.flushThrown, phase := .dropped })
  else none

/-- **One action.** -/
def step (w : StagedWorld) : StagedAct → Option (Except Fault StagedWorld)
  | .register round valid bufLen mems heard => w.register ndebug s round valid bufLen mems heard
  | .send reqid gpu garbage => w.send ndebug cfgP reqid gpu garbage
  | .land i => w.land i
  | .lookup i => w.lookup i
  | .read i => w.read ndebug cfgD reserve info i
  | .close conn => some (.ok { w with srv := w.srv.closedHook conn })
  | .flush => w.flush ndebug
  | .flushThrow => w.flushThrow
  | .drop => some (.ok { w with phase := .dropped })

end Step

/-! ## The invariant -/

/-- The messages that are in their buffer, … -/
def delivered : List StagedMsg := w.arrived ++ w.reading.map Prod.fst

/-- … and all that have not been read. -/
def unhandled : List StagedMsg := w.inFlight ++ w.delivered

end StagedWorld

/-- A message as it was written, in its two buffers. -/
structure StagedMsg.Sound (m : StagedMsg) : Prop where
  sendable : SendableBlocks m.blocks
  bytes : m.bytes = stagedMessage m.layer m.reqid m.gpu m.blocks
  host_le : m.bytes.length ≤ m.hostLen
  remote_le : m.bytes.length ≤ m.remote.size
  layer_le : m.layer ≤ sizeMax
  reqid_le : m.reqid ≤ sizeMax
  id_le : m.remote.bufferId ≤ stagedImmBufferMask

namespace StagedWorld

/-- **What holds of the channel, the server and the messages.** -/
structure Inv (w : StagedWorld) : Prop where
  tidy : w.srv.Tidy
  issued_le : ∀ p ∈ w.srv.issued, p.1 ≤ w.ch.conns
  at_home : w.home = w.ch.conns ∨ ∀ i, (w.ch.conns, i) ∉ w.srv.issued
  remote_handed : ∀ r ∈ w.ch.remoteBuffers, ∃ b, (w.home, b) ∈ w.srv.handed ∧ b.entry = r
  remote_keys : (w.ch.remoteBuffers.map (·.rkey)).Nodup
  remote_size : ∀ r ∈ w.ch.remoteBuffers,
    r.size = w.ch.stagedPayloadSize ∧ r.bufferId ≤ stagedImmBufferMask
  remote_count : w.ch.remoteBuffers.length ≤ stagedPreallocMaxLayers
  idle : w.phase = .idle → w.ch.hostBuffers = [] ∧ w.ch.data = none ∧
    w.ch.stagedWriteFuts = [] ∧ w.unhandled = []
  sending : ∀ layer, w.phase = .sending layer →
    layer ≤ w.ch.dstLayerNum ∧ ∃ blocks, w.ch.Ready layer blocks
  sound : ∀ m ∈ w.unhandled, m.Sound ∧ m.conn = w.ch.conns ∧
    ∃ b, (w.home, b) ∈ w.srv.handed ∧ b.entry = m.remote
  /-- a message is of this round, and its buffer not among those still to be written -/
  current : ∀ m ∈ w.unhandled, w.phase = .dropped ∨
    m.reqid ∈ w.ch.stagedWriteFuts ∧ ∃ layer, w.phase = .sending layer ∧
      ∀ i r, w.ch.remoteBuffers[i]? = some r → r.rkey = m.remote.rkey → i < layer
  apart : w.unhandled.Pairwise fun m m' => m.remote.rkey ≠ m'.remote.rkey ∧ m.reqid ≠ m'.reqid
  unreplied : ∀ m ∈ w.unhandled, m.reqid ∈ w.used ∧ m.reqid ∉ w.replied
  replied_used : ∀ reqid ∈ w.replied, reqid ∈ w.used
  stored : ∀ m ∈ w.delivered, ∀ buf, w.srv.regions m.remote.rkey = some buf →
    StoredAt buf.mem buf.base m.bytes
  found : ∀ x ∈ w.reading, x.2.entry = x.1.remote

section Invariant

variable {w : StagedWorld}

theorem Inv.drop (h : w.Inv) : { w with phase := .dropped }.Inv :=
  { h with
    idle := nofun
    sending := nofun
    current := fun _ _ => .inl rfl }

variable {m : StagedMsg} {w' : StagedWorld} {ndebug : Bool} {blocks : List IpcBlock}
  {srv : StagedServerState} {b : StagedRecvBuffer} {i : ℕ}

/-- Between two rounds there is no message. -/
theorem Inv.not_mem_of_idle (h : w.Inv) (hidle : w.phase = .idle) (m : StagedMsg) : m ∉ w.unhandled := by
  rw [(h.idle hidle).2.2.2]
  exact not_mem_nil

/-- **What the server does on its own keeps the invariant.** -/
theorem Inv.serve (h : w.Inv) {conn : ℕ} (htidy : srv.Tidy) (hgrows : w.srv.Grows srv conn)
    (hissued : (∀ p ∈ srv.issued, p ∈ w.srv.issued) ∨ w.home = w.ch.conns ∧ conn = w.ch.conns) :
    { w with srv := srv }.Inv :=
  { h with
    tidy := htidy
    issued_le := fun p hp => by
      rcases hissued with hold | ⟨-, rfl⟩
      · exact h.issued_le p (hold p hp)
      · exact (hgrows.issued p hp).elim (h.issued_le p) fun heq => heq.le
    at_home := by
      rcases hissued with hold | ⟨hhome, -⟩
      · exact h.at_home.imp_right fun hnone i hi => hnone i (hold _ hi)
      · exact .inl hhome
    remote_handed := fun r hr =>
      let ⟨b, hb, hentry⟩ := h.remote_handed r hr
      ⟨b, hgrows.handed _ hb, hentry⟩
    sound := fun m hm =>
      let ⟨hsound, hconn, b, hb, hentry⟩ := h.sound m hm
      ⟨hsound, hconn, b, hgrows.handed _ hb, hentry⟩
    stored := fun m hm buf hbuf => by
      obtain ⟨-, -, b, hb, hentry⟩ := h.sound m (mem_append_right _ hm)
      have hkey : b.rkey = m.remote.rkey := congrArg RemoteStagedBuffer.rkey hentry
      exact h.stored m hm buf (hkey ▸ hgrows.region _ hb buf (hkey ▸ hbuf)) }

/-! ### `register_data` -/

section Register

variable {valid : Bool} {blocks : List IpcBlock} {hosts : List ℕ}

theorem conns_doInit (ch : StagedChannel) (valid : Bool) :
    (ch.doInit valid).conns = ch.conns ∨ (ch.doInit valid).conns = ch.conns + 1 := by
  unfold StagedChannel.doInit
  split
  · exact .inl rfl
  · exact .inr rfl

theorem Inv.issued_le_doInit (h : w.Inv) (valid : Bool) {p : ℕ × ℕ} (hp : p ∈ w.srv.issued) :
    p.1 ≤ (w.ch.doInit valid).conns := by
  have hle := h.issued_le p hp
  rcases conns_doInit w.ch valid with heq | heq
  · rwa [heq]
  · rw [heq]
    exact hle.trans (Nat.le_succ _)

/-- On a new connection no id was given. -/
theorem Inv.at_home_doInit (h : w.Inv) (valid : Bool) : w.home = (w.ch.doInit valid).conns ∨
    ∀ i, ((w.ch.doInit valid).conns, i) ∉ w.srv.issued := by
  rcases conns_doInit w.ch valid with heq | heq
  · rw [heq]
    exact h.at_home
  · refine .inr fun i hi => ?_
    rw [heq] at hi
    exact Nat.not_succ_le_self _ (h.issued_le _ hi)

/-- The buffers it has are large enough. -/
theorem Inv.reuse (h : w.Inv) (hidle : w.phase = .idle) (hblocks : SendableBlocks blocks)
    (hhosts : hosts.length = w.ch.dstLayerNum)
    (hhost : ∀ len ∈ hosts, stagedSize blocks (totalLength blocks) ≤ len)
    (hpayload : stagedSize blocks (totalLength blocks) ≤ w.ch.stagedPayloadSize)
    (hremotes : w.ch.remoteBuffers.length = w.ch.dstLayerNum) :
    { w with ch := w.ch.loaded valid blocks hosts, phase := .sending 0 }.Inv :=
  { h with
    issued_le := fun p hp => h.issued_le_doInit valid hp
    at_home := h.at_home_doInit valid
    idle := nofun
    sending := fun layer hlayer => by
      obtain rfl : 0 = layer := StagedPhase.sending.inj hlayer
      refine ⟨Nat.zero_le _, blocks, hblocks, rfl, rfl, hhosts, hhost, hremotes, fun r hr => ?_,
        fun r hr => (h.remote_size r hr).2⟩
      rw [(h.remote_size r hr).1]
      exact hpayload
    sound := fun m hm => absurd hm (h.not_mem_of_idle hidle m)
    current := fun m hm => absurd hm (h.not_mem_of_idle hidle m) }

/-- It gives its buffers up and asks for others. -/
theorem Inv.ask (h : w.Inv) (hidle : w.phase = .idle) (payload : ℕ) :
    { w with
      ch := (w.ch.loaded valid blocks hosts).asking payload
      home := ((w.ch.loaded valid blocks hosts).asking payload).conns, phase := .dropped }.Inv :=
  { h with
    issued_le := fun _ hp => h.issued_le_doInit valid hp
    at_home := .inl rfl
    remote_handed := fun _ hr => absurd hr not_mem_nil
    remote_keys := nodup_nil
    remote_size := fun _ hr => absurd hr not_mem_nil
    remote_count := Nat.zero_le _
    idle := nofun
    sending := nofun
    sound := fun m hm => absurd hm (h.not_mem_of_idle hidle m)
    current := fun _ _ => .inl rfl }

/-- The server answers: each buffer has the size asked for. -/
theorem Inv.answered (h : w.Inv) (hhome : w.home = w.ch.conns) (hblocks : SendableBlocks blocks)
    (hdata : w.ch.data = some blocks) (htotal : w.ch.sbSizeTotal = totalLength blocks)
    (hhosts : w.ch.hostBuffers.length = w.ch.dstLayerNum)
    (hhost : ∀ len ∈ w.ch.hostBuffers, stagedSize blocks (totalLength blocks) ≤ len)
    (hpayload : w.ch.stagedPayloadSize = stagedSize blocks (totalLength blocks))
    {bufs : List StagedRecvBuffer} (hbufs : bufs.length = w.ch.dstLayerNum)
    (hcount : w.ch.dstLayerNum ≤ stagedPreallocMaxLayers)
    (hsize : ∀ b ∈ bufs, b.size = stagedSize blocks (totalLength blocks))
    (hids : ∀ b ∈ bufs, b.bufferId ≤ stagedImmBufferMask) (hkeys : (bufs.map (·.rkey)).Nodup)
    (hhanded : ∀ b ∈ bufs, (w.ch.conns, b) ∈ w.srv.handed) (hnone : ∀ m, m ∉ w.unhandled) :
    { w with
      ch := { w.ch with remoteBuffers := bufs.map StagedRecvBuffer.entry }, phase := .sending 0 }.Inv := by
  have hentry {r : RemoteStagedBuffer} (hr : r ∈ bufs.map StagedRecvBuffer.entry) :
      ∃ b ∈ bufs, b.entry = r := mem_map.mp hr
  have hlen : (bufs.map StagedRecvBuffer.entry).length = w.ch.dstLayerNum := by rw [length_map, hbufs]
  have hremote {r : RemoteStagedBuffer} (hr : r ∈ bufs.map StagedRecvBuffer.entry) :
      r.size = stagedSize blocks (totalLength blocks) ∧ r.bufferId ≤ stagedImmBufferMask := by
    obtain ⟨b, hb, rfl⟩ := hentry hr
    exact ⟨hsize b hb, hids b hb⟩
  exact { h with
    remote_handed := fun r hr => by
      obtain ⟨b, hb, rfl⟩ := hentry hr
      exact ⟨b, hhome ▸ hhanded b hb, rfl⟩
    remote_keys := by
      rw [map_map]
      exact hkeys
    remote_size := fun r hr => hpayload ▸ hremote hr
    remote_count := hlen ▸ hcount
    idle := nofun
    sending := fun layer hlayer => by
      obtain rfl : 0 = layer := StagedPhase.sending.inj hlayer
      exact ⟨Nat.zero_le _, blocks, hblocks, hdata, htotal, hhosts, hhost, hlen,
        fun r hr => (hremote hr).1.ge, fun r hr => (hremote hr).2⟩
    current := fun m hm => absurd hm (hnone m) }

variable {w' : StagedWorld} {mems : Option (List (ℕ × InBuf))}

theorem Inv.of_throw (h : w.Inv) {f : Fault} (hs : w.throw f = .ok w') : w'.Inv := by
  unfold throw at hs
  split at hs
  · cases hs
    exact h.drop
  · cases hs

/-- The request is served or not, and the response heard or not. -/
theorem Inv.request (h : { w with phase := .dropped }.Inv) (hhome : w.home = w.ch.conns)
    (hblocks : SendableBlocks blocks) (hdata : w.ch.data = some blocks)
    (htotal : w.ch.sbSizeTotal = totalLength blocks)
    (hhosts : w.ch.hostBuffers.length = w.ch.dstLayerNum)
    (hhost : ∀ len ∈ w.ch.hostBuffers, stagedSize blocks (totalLength blocks) ≤ len)
    (hpayload : w.ch.stagedPayloadSize = stagedSize blocks (totalLength blocks))
    (hnone : ∀ m, m ∉ w.unhandled) {heard : Bool}
    (hs : w.request (List.replicate w.ch.dstLayerNum (stagedSize blocks (totalLength blocks))) mems
      heard = some (.ok w')) : w'.Inv := by
  unfold StagedWorld.request at hs
  cases mems with
  | none =>
    cases hs
    exact h
  | some mems =>
    simp only at hs
    split at hs
    · cases hs
    next hopen =>
    obtain ⟨hopen, hfresh⟩ := not_or.mp hopen
    have hfresh : w.srv.Fresh mems := not_not.mp hfresh
    cases hresp : w.srv.respStagedPrealloc w.ch.conns
      (List.replicate w.ch.dstLayerNum (stagedSize blocks (totalLength blocks))) mems with
    | mk srv answer =>
      obtain ⟨htidy, hgrows, hanswer⟩ :=
        StagedServerState.respStagedPrealloc_spec h.tidy hopen hfresh hresp
      have hserved := h.serve htidy hgrows (.inr ⟨hhome, rfl⟩)
      rw [hresp] at hs
      split at hs
      · next srv' bufs hpair =>
        cases hpair
        obtain ⟨hsizes, hcount, hkeys, hbufs⟩ := hanswer bufs rfl
        rw [length_replicate] at hcount
        split at hs
        · next ch hch =>
          cases hs
          obtain ⟨rfl, hlen, hids⟩ := StagedChannel.onPrealloc_eq_ok hch
          rw [length_map] at hlen
          refine hserved.answered hhome hblocks hdata htotal hhosts hhost hpayload hlen hcount
            (fun b hb => ?_) (fun b hb => hids _ (mem_map_of_mem hb)) hkeys
            (fun b hb => (hbufs b hb).1) hnone
          exact eq_of_mem_replicate (hsizes ▸ mem_map_of_mem hb)
        · exact hserved.of_throw (Option.some.inj hs)
      · next hpair _ =>
        obtain ⟨rfl, -⟩ := Prod.mk.inj hpair
        cases hs
        exact hserved

/-- **`register_data` keeps the invariant.** -/
theorem Inv.register (h : w.Inv) {ndebug : Bool} {sort : BlockSort} {round : StagedRound}
    {valid : Bool} {bufLen : ℕ → ℕ} {heard : Bool}
    (hs : w.register ndebug sort round valid bufLen mems heard = some (.ok w')) : w'.Inv := by
  unfold StagedWorld.register at hs
  split at hs
  · next hidle =>
    split at hs
    · exact h.of_throw (Option.some.inj hs)
    · next ch hch =>
      cases hs
      obtain ⟨hosts, hlen, hhost, hcases⟩ := StagedChannel.registerData_eq_ok (h.idle hidle).1 hch
      rcases hcases with ⟨rfl, -, hpayload, hremotes⟩ | ⟨-, hreq⟩
      · exact h.reuse hidle (round.sendable sort) hlen hhost hpayload hremotes
      · cases hreq
    · next ch sizes hch =>
      obtain ⟨hosts, hlen, hhost, hcases⟩ := StagedChannel.registerData_eq_ok (h.idle hidle).1 hch
      rcases hcases with ⟨-, hreq, -⟩ | ⟨rfl, hreq⟩
      · cases hreq
      · cases hreq
        refine Inv.request (h.ask hidle _) rfl (round.sendable sort) rfl rfl hlen hhost rfl (fun m => ?_) hs
        exact h.not_mem_of_idle hidle m
  · cases hs

end Register

/-! ### `send_data` -/

/-- A message is posted. -/
theorem Inv.posted (h : w.Inv) {layer reqid bufLen : ℕ} {remote : RemoteStagedBuffer}
    (hphase : w.phase = .sending layer) (hready : w.ch.Ready layer blocks)
    (hlayer : layer < w.ch.dstLayerNum) (hreqid : reqid ≤ sizeMax) (hnew : reqid ∉ w.used)
    (hbuf : bufLen ∈ w.ch.hostBuffers) (hremote : w.ch.remoteBuffers[layer]? = some remote)
    (gpu : ℕ → UInt8) :
    { w with
      ch := w.ch.posted reqid, phase := .sending (layer + 1)
      inFlight := w.inFlight ++ [w.ch.message layer reqid blocks gpu bufLen remote]
      used := reqid :: w.used }.Inv := by
  have hmem : remote ∈ w.ch.remoteBuffers := mem_of_getElem? hremote
  obtain ⟨b, hb, hentry⟩ := h.remote_handed remote hmem
  have hcount : layer ≤ sizeMax := by
    have hle := h.remote_count
    rw [hready.remotes] at hle
    unfold stagedPreallocMaxLayers stagedImmBufferMask at hle
    unfold sizeMax
    omega
  have hsize := length_stagedMessage layer reqid gpu blocks
  have hperm : (w.inFlight ++ [w.ch.message layer reqid blocks gpu bufLen remote] ++ w.delivered).Perm
      (w.ch.message layer reqid blocks gpu bufLen remote :: w.unhandled) := by
    rw [append_assoc]
    exact perm_middle
  have hsplit {m : StagedMsg}
      (hm : m ∈ w.inFlight ++ [w.ch.message layer reqid blocks gpu bufLen remote] ++ w.delivered) :
      m = w.ch.message layer reqid blocks gpu bufLen remote ∨ m ∈ w.unhandled :=
    mem_cons.mp (hperm.subset hm)
  -- the messages of the round so far went to the buffers before this one
  have hbefore {m : StagedMsg} (hm : m ∈ w.unhandled) : m.reqid ∈ w.ch.stagedWriteFuts ∧
      ∀ i r, w.ch.remoteBuffers[i]? = some r → r.rkey = m.remote.rkey → i < layer := by
    rcases h.current m hm with hdropped | ⟨hfut, layer', hphase', hlt⟩
    · cases hphase.symm.trans hdropped
    · obtain rfl : layer = layer' := StagedPhase.sending.inj (hphase.symm.trans hphase')
      exact ⟨hfut, hlt⟩
  have hother {m : StagedMsg} (hm : m ∈ w.unhandled) :
      remote.rkey ≠ m.remote.rkey ∧ reqid ≠ m.reqid :=
    ⟨fun hkey => Nat.lt_irrefl _ ((hbefore hm).2 layer remote hremote hkey),
      fun heq => hnew (heq ▸ (h.unreplied m hm).1)⟩
  refine { h with
    idle := nofun
    sending := fun layer' hlayer' => ?_
    sound := fun m hm => ?_
    current := fun m hm => .inr ?_
    apart := ?_
    unreplied := fun m hm => ?_
    replied_used := fun r hr => mem_cons_of_mem _ (h.replied_used r hr) }
  · obtain rfl : layer + 1 = layer' := StagedPhase.sending.inj hlayer'
    refine ⟨hlayer, blocks, { hready with hosts := ?_, host_le := fun len hlen => ?_ }⟩
    · change w.ch.hostBuffers.dropLast.length = _
      rw [length_dropLast, hready.hosts]
      rfl
    · exact hready.host_le len ((dropLast_subset _ hlen))
  · rcases hsplit hm with rfl | hm
    · exact ⟨⟨hready.sendable, rfl, hsize ▸ hready.host_le bufLen hbuf,
        hsize ▸ hready.remote_le remote hmem, hcount, hreqid, hready.id_le remote hmem⟩,
        rfl, b, hb, hentry⟩
    · exact h.sound m hm
  · rcases hsplit hm with rfl | hm
    · refine ⟨mem_append_right _ mem_cons_self, layer + 1, rfl, fun i r hr hkey => ?_⟩
      have hr : w.ch.remoteBuffers[i]? = some r := hr
      have hsame : (w.ch.remoteBuffers.map (·.rkey))[i]? =
          (w.ch.remoteBuffers.map (·.rkey))[layer]? := by
        rw [getElem?_map, getElem?_map, hr, hremote]
        exact congrArg some hkey
      have hlt : i < (w.ch.remoteBuffers.map (·.rkey)).length := by
        rw [length_map]
        exact (List.getElem?_eq_some_iff.mp hr).1
      rw [(getElem?_inj hlt h.remote_keys).mp hsame]
      exact Nat.lt_succ_self _
    · exact ⟨mem_append_left _ (hbefore hm).1, layer + 1, rfl, fun i r hr hkey =>
        Nat.lt_succ_of_lt ((hbefore hm).2 i r hr hkey)⟩
  · refine (hperm.pairwise_iff fun hx => ⟨hx.1.symm, hx.2.symm⟩).mpr ?_
    exact pairwise_cons.mpr ⟨fun m hm => hother hm, h.apart⟩
  · rcases hsplit hm with rfl | hm
    · exact ⟨mem_cons_self, fun hrep => hnew (h.replied_used reqid hrep)⟩
    · exact ⟨mem_cons_of_mem _ (h.unreplied m hm).1, (h.unreplied m hm).2⟩

/-- **`send_data` keeps the invariant.** -/
theorem Inv.send (h : w.Inv) {cfg : CopyConfig} {reqid : ℕ} {gpu garbage : ℕ → UInt8}
    (hs : w.send ndebug cfg reqid gpu garbage = some (.ok w')) : w'.Inv := by
  unfold StagedWorld.send at hs
  split at hs
  · next layer hphase =>
    split at hs
    · next hcan =>
      obtain ⟨hlayer, hreqid, hnew⟩ := hcan
      obtain ⟨-, blocks, hready⟩ := h.sending layer hphase
      obtain ⟨bufLen, remote, hbuf, hremote, hsend⟩ :=
        hready.sendData hlayer ndebug cfg reqid gpu garbage
      rw [hsend] at hs
      cases hs
      exact h.posted hphase hready hlayer hreqid hnew hbuf hremote gpu
    · cases hs
  · cases hs

/-! ### The network and the server -/

/-- The messages are others only in their places, or some have been read. -/
theorem Inv.moved (h : w.Inv) {inFlight arrived : List StagedMsg}
    {reading : List (StagedMsg × StagedRecvBuffer)} {replied : List ℕ}
    (hsub : (inFlight ++ (arrived ++ reading.map Prod.fst)).Subperm w.unhandled) (htidy : srv.Tidy)
    (hhanded : srv.handed = w.srv.handed) (hissued : srv.issued = w.srv.issued)
    (hreplied : ∀ m ∈ inFlight ++ (arrived ++ reading.map Prod.fst), m.reqid ∉ replied)
    (hused : ∀ reqid ∈ replied, reqid ∈ w.used)
    (hstored : ∀ m ∈ arrived ++ reading.map Prod.fst, ∀ buf, srv.regions m.remote.rkey = some buf →
      StoredAt buf.mem buf.base m.bytes)
    (hfound : ∀ x ∈ reading, x.2.entry = x.1.remote) :
    { w with
      srv := srv, inFlight := inFlight, arrived := arrived, reading := reading, replied := replied }.Inv :=
  { h with
    tidy := htidy
    issued_le := hissued ▸ h.issued_le
    at_home := hissued ▸ h.at_home
    remote_handed := hhanded ▸ h.remote_handed
    idle := fun hidle => by
      obtain ⟨hhosts, hdata, hfuts, hnil⟩ := h.idle hidle
      exact ⟨hhosts, hdata, hfuts, subperm_nil.mp (hnil ▸ hsub)⟩
    sound := fun m hm => hhanded ▸ h.sound m (hsub.subset hm)
    current := fun m hm => h.current m (hsub.subset hm)
    apart := by
      obtain ⟨l, hperm, hsublist⟩ := hsub
      exact (hperm.pairwise_iff fun hx => ⟨hx.1.symm, hx.2.symm⟩).mp (h.apart.sublist hsublist)
    unreplied := fun m hm => ⟨(h.unreplied m (hsub.subset hm)).1, hreplied m hm⟩
    replied_used := hused
    stored := hstored
    found := hfound }

/-- **A write that lands keeps the invariant.** -/
theorem Inv.land (h : w.Inv) (hs : w.land i = some (.ok w')) : w'.Inv := by
  unfold StagedWorld.land at hs
  split at hs
  · cases hs
  next m hm =>
  split at hs
  · cases hs
  next buf hbuf =>
  cases hs
  obtain ⟨hlt, rfl⟩ := List.getElem?_eq_some_iff.mp hm
  have hperm : (w.inFlight.eraseIdx i ++ (w.arrived ++ [w.inFlight[i]] ++ w.reading.map Prod.fst)).Perm
      w.unhandled := by
    have hmove : (w.inFlight.eraseIdx i ++ (w.arrived ++ [w.inFlight[i]] ++ w.reading.map Prod.fst)).Perm
        (w.inFlight[i] :: w.inFlight.eraseIdx i ++ w.delivered) := by
      rw [append_assoc, ← append_assoc, singleton_append, cons_append, delivered, ← append_assoc]
      exact perm_middle
    exact hmove.trans ((getElem_cons_eraseIdx_perm hlt).append_right _)
  obtain ⟨-, -, b, hb, hentry⟩ := h.sound _ (mem_append_left _ (getElem_mem hlt))
  refine h.moved hperm.subperm (h.tidy.write hbuf _ _) rfl rfl
    (fun m hm => (h.unreplied m (hperm.subset hm)).2) h.replied_used (fun m hm buf' hbuf' => ?_) h.found
  by_cases hthis : m = w.inFlight[i]
  · subst hthis
    rcases of_update_eq_some hbuf' with ⟨-, hsame⟩ | ⟨hne, -⟩
    · cases hsame
      have hkey : b.rkey = w.inFlight[i].remote.rkey := congrArg RemoteStagedBuffer.rkey hentry
      have haddr : b.addr = w.inFlight[i].remote.remoteAddr :=
        congrArg RemoteStagedBuffer.remoteAddr hentry
      have hbase := (h.tidy.region_handed w.home b buf hb (hkey ▸ hbuf)).1
      rw [← haddr, ← hbase]
      exact storedAt_store _ _ _
    · exact absurd rfl hne
  · have hm : m ∈ w.delivered := by
      simp only [mem_append, mem_singleton] at hm
      exact mem_append.mpr (hm.imp_left fun hm => hm.resolve_right hthis)
    rcases of_update_eq_some hbuf' with ⟨hkey, -⟩ | ⟨-, hbuf'⟩
    · exact absurd hkey ((pairwise_append.mp h.apart).2.2 _ (getElem_mem hlt) m hm).1.symm
    · exact h.stored m hm buf' hbuf'

/-- **What an immediate value resolves to**: the buffer its message was written to. -/
theorem Inv.resolves (h : w.Inv) (hm : m ∈ w.unhandled) (hb : w.srv.resolve m.conn m.imm = some b) :
    b.entry = m.remote := by
  obtain ⟨hsound, hconn, b', hb', hentry⟩ := h.sound m hm
  obtain ⟨hhanded, hid, -⟩ := h.tidy.of_resolve hb
  have hid : b.bufferId = m.remote.bufferId := hid.trans (decodeStagedImmData_encode hsound.id_le)
  have hid' : b'.bufferId = m.remote.bufferId := congrArg RemoteStagedBuffer.bufferId hentry
  rw [hconn] at hhanded
  rcases h.at_home with hhome | hnone
  · rw [h.tidy.eq_of_id hhanded (hhome ▸ hb') (hid.trans hid'.symm)]
    exact hentry
  · exact absurd (h.tidy.handed_issued _ _ hhanded) (hnone _)

/-- **What is in a buffer that was found**, if it is not released: the message. -/
theorem Inv.holds (h : w.Inv) (hx : (m, b) ∈ w.reading) {buf : InBuf}
    (hbuf : w.srv.regions b.rkey = some buf) : buf.base = b.addr ∧ buf.len = b.size ∧
      StoredAt buf.mem buf.base (stagedMessage m.layer m.reqid m.gpu m.blocks) ∧
      stagedSize m.blocks (totalLength m.blocks) ≤ buf.len := by
  have hm : m ∈ w.delivered := mem_append_right _ (mem_map_of_mem hx)
  obtain ⟨hsound, -, b', hb', hentry'⟩ := h.sound m (mem_append_right _ hm)
  have hentry : b.entry = m.remote := h.found _ hx
  have hkey : b.rkey = m.remote.rkey := congrArg RemoteStagedBuffer.rkey hentry
  have hkey' : b'.rkey = m.remote.rkey := congrArg RemoteStagedBuffer.rkey hentry'
  have hsize : b.size = b'.size := congrArg RemoteStagedBuffer.size (hentry.trans hentry'.symm)
  have haddr : b.addr = b'.addr := congrArg RemoteStagedBuffer.remoteAddr (hentry.trans hentry'.symm)
  obtain ⟨hbase, hlen⟩ := h.tidy.region_handed w.home b' buf hb' (hkey'.trans hkey.symm ▸ hbuf)
  refine ⟨haddr ▸ hbase, hsize ▸ hlen, hsound.bytes ▸ h.stored m hm buf (hkey ▸ hbuf), ?_⟩
  have hle := hsound.remote_le
  rw [hsound.bytes, length_stagedMessage, ← hentry'] at hle
  exact hle.trans_eq hlen.symm

section Served

variable {ndebug : Bool} {cfg : CopyConfig} {reserve : Reserve} {info : StagedInfo}

theorem mem_replies {reqid : ℕ} {log : List RecvEvent} (h : reqid ∈ StagedServerState.replies log) :
    ∃ magic, RecvEvent.reply magic reqid ∈ log := by
  obtain ⟨e, he, hreply⟩ := mem_filterMap.mp h
  cases e with
  | reply magic reqid' =>
    cases hreply
    exact ⟨magic, he⟩
  | _ => cases hreply

/-- After the block list, only the message itself is replied to. -/
theorem reply_of_copyPayload {magic reqid layer size tensorBuf magic' reqid' : ℕ}
    (h : RecvEvent.reply magic' reqid' ∈
      (StagedServer.copyPayload ndebug cfg info magic reqid layer blocks size tensorBuf).log) :
    reqid' = reqid := by
  unfold copyPayload at h
  split at h
  · cases h
  split at h
  · cases h
  split at h
  · cases h
  unfold copyH2d at h
  split at h
  · rw [emit_bind] at h
    simp only [emit, log_after, cons_append, nil_append, mem_cons, reduceCtorEq,
      RecvEvent.reply.injEq, not_mem_nil, or_false, false_or] at h
    exact h.2
  · rw [bind_of_stopped rfl] at h
    cases mem_singleton.mp h

/-- **Only the message in a buffer is replied to.** -/
theorem reply_of_stagedMessage {buf : InBuf} {layer reqid magic' reqid' : ℕ} {gpu : ℕ → UInt8}
    (hblocks : SendableBlocks blocks) (hlayer : layer ≤ sizeMax)
    (hreqid : reqid ≤ sizeMax) (hlen : stagedSize blocks (totalLength blocks) ≤ buf.len)
    (h : StoredAt buf.mem buf.base (stagedMessage layer reqid gpu blocks))
    (hreply : RecvEvent.reply magic' reqid' ∈
      (StagedServer.handleKvCacheData ndebug cfg reserve info buf).log) : reqid' = reqid := by
  cases hreserve : reserve.returns blocks.length with
  | true =>
    obtain ⟨-, reads, tensorBuf, heq, hreads, -⟩ :=
      decodes_stagedMessage ndebug cfg info hblocks hlayer hreqid hreserve hlen h
    rw [heq, log_after] at hreply
    rcases mem_append.mp hreply with hread | hreply
    · rcases mem_append.mp hread with hread | hsized
      · obtain ⟨addr, n, hread, -⟩ := hreads _ hread
        cases hread
      · cases mem_singleton.mp hsized
    · exact reply_of_copyPayload hreply
  | false =>
    -- the process ends before the block list is read
    have hnum := (found_stagedMessage hlayer hreqid hlen h).2.2.2.2
    rw [handleKvCacheData_stagedMessage ndebug cfg reserve info hlayer hreqid hlen h, log_after,
      recvBlocks, reserveBlocks, hnum, hreserve] at hreply
    rcases mem_append.mp hreply with hread | hreply
    · simp only [headerReads, mem_cons, reduceCtorEq, not_mem_nil, or_false] at hread
    · split at hreply
      · cases hreply
      · rw [if_neg Bool.false_ne_true, Recv.terminate, bind_of_stopped rfl] at hreply
        cases mem_singleton.mp hreply

/-- **Looking an immediate value up keeps the invariant.** -/
theorem Inv.lookup (h : w.Inv) {w' : StagedWorld} (hs : w.lookup i = some (.ok w')) : w'.Inv := by
  unfold StagedWorld.lookup at hs
  split at hs
  · cases hs
  next m hm =>
  cases hs
  obtain ⟨hlt, rfl⟩ := List.getElem?_eq_some_iff.mp hm
  have hmem : w.arrived[i] ∈ w.arrived := getElem_mem hlt
  -- the message goes from one list to the other, or away
  have hsub : (w.arrived.eraseIdx i ++ (w.reading ++
      ((w.srv.resolve w.arrived[i].conn w.arrived[i].imm).map (w.arrived[i], ·)).toList).map
        Prod.fst).Subperm w.delivered := by
    have hperm : (w.arrived[i] :: (w.arrived.eraseIdx i ++ w.reading.map Prod.fst)).Perm w.delivered :=
      (getElem_cons_eraseIdx_perm hlt).append_right _
    cases w.srv.resolve w.arrived[i].conn w.arrived[i].imm with
    | none =>
      rw [Option.map_none, Option.toList_none, append_nil]
      exact (sublist_cons_self _ _).subperm.trans hperm.subperm
    | some b =>
      rw [Option.map_some, Option.toList_some, map_append, ← append_assoc]
      exact ((perm_append_singleton _ _).trans hperm).subperm
  have hall := (subperm_append_left w.inFlight).mpr hsub
  refine h.moved hall h.tidy rfl rfl (fun m hm => (h.unreplied m (hall.subset hm)).2) h.replied_used
    (fun m hm => h.stored m (hsub.subset hm)) fun x hx => ?_
  rcases mem_append.mp hx with hx | hx
  · exact h.found x hx
  · obtain ⟨b, hb, rfl⟩ := Option.map_eq_some_iff.mp (Option.mem_toList.mp hx)
    exact h.resolves (mem_append_right _ (mem_append_left _ hmem)) hb

/-- **Reading a buffer keeps the invariant.** -/
theorem Inv.read (h : w.Inv) {w' : StagedWorld}
    (hs : w.read ndebug cfg reserve info i = some (.ok w')) : w'.Inv := by
  unfold StagedWorld.read at hs
  split at hs
  · cases hs
  next m b hm =>
  split at hs
  · cases hs
  next reqids hfound =>
  cases hs
  obtain ⟨hlt, hx⟩ := List.getElem?_eq_some_iff.mp hm
  have hmem : (m, b) ∈ w.reading := hx ▸ getElem_mem hlt
  have hperm : (m :: (w.inFlight ++ (w.arrived ++ (w.reading.eraseIdx i).map Prod.fst))).Perm
      w.unhandled := by
    have herase : (m :: (w.reading.eraseIdx i).map Prod.fst).Perm (w.reading.map Prod.fst) := by
      have hcons := (getElem_cons_eraseIdx_perm hlt).map Prod.fst
      rwa [map_cons, hx] at hcons
    rw [unhandled, delivered, ← append_assoc, ← append_assoc]
    exact perm_middle.symm.trans (herase.append_left _)
  obtain ⟨hothers, -⟩ := pairwise_cons.mp
    ((hperm.pairwise_iff fun hx => ⟨hx.1.symm, hx.2.symm⟩).mpr h.apart)
  have hthis := h.unreplied m (hperm.subset mem_cons_self)
  -- only the message itself is replied to
  have hreplies {reqid : ℕ} (hreqid : reqid ∈ reqids) : reqid = m.reqid := by
    obtain ⟨buf, hbuf, rfl⟩ := Option.map_eq_some_iff.mp hfound
    obtain ⟨-, -, hstored, hlen⟩ := h.holds hmem hbuf
    obtain ⟨magic, hreply⟩ := mem_replies hreqid
    obtain ⟨hsound, -⟩ := h.sound m (hperm.subset mem_cons_self)
    exact reply_of_stagedMessage hsound.sendable hsound.layer_le hsound.reqid_le hlen hstored hreply
  have hsub := (sublist_cons_self m _).subperm.trans hperm.subperm
  refine h.moved hsub h.tidy rfl rfl (fun m' hm' hrep => ?_) (fun reqid hrep => ?_)
    (fun m' hm' => h.stored m' ?_) fun x hx => h.found x (eraseIdx_subset hx)
  · rcases mem_append.mp hrep with hrep | hrep
    · exact (h.unreplied m' (hsub.subset hm')).2 hrep
    · exact (hothers m' hm').2 (hreplies hrep).symm
  · rcases mem_append.mp hrep with hrep | hrep
    · exact h.replied_used reqid hrep
    · rw [hreplies hrep]
      exact hthis.1
  · refine (mem_append.mp hm').elim (mem_append_left _) fun hread => mem_append_right _ ?_
    exact map_subset _ eraseIdx_subset hread

end Served

/-! ### `flush` -/

/-- **A `flush` that returns keeps the invariant**: every message of the round has been received. -/
theorem Inv.flush (h : w.Inv) (hs : w.flush ndebug = some (.ok w')) : w'.Inv := by
  unfold StagedWorld.flush at hs
  split at hs
  · next hdone =>
    obtain ⟨hphase, hreplied⟩ := hdone
    split at hs
    · cases hs
    next ch hch =>
    cases hs
    replace hch := after_check hch
    cases hch
    obtain ⟨-, blocks, hready⟩ := h.sending _ hphase
    have hnone (m : StagedMsg) : m ∉ w.unhandled := fun hm => by
      rcases h.current m hm with hdropped | ⟨hfut, -⟩
      · cases hphase.symm.trans hdropped
      · exact (h.unreplied m hm).2 (hreplied _ hfut)
    have hempty : w.ch.hostBuffers = [] := by
      rw [← length_eq_zero_iff, hready.hosts, Nat.sub_self]
    exact { h with
      idle := fun _ => ⟨hempty, rfl, rfl, eq_nil_iff_forall_not_mem.mpr hnone⟩
      sending := nofun
      current := fun m hm => absurd hm (hnone m) }
  · cases hs

/-- **A `flush` that throws keeps the invariant.** -/
theorem Inv.flushThrow (h : w.Inv) (hs : w.flushThrow = some (.ok w')) : w'.Inv := by
  unfold StagedWorld.flushThrow at hs
  split at hs
  · cases hs
    exact { h with
      remote_handed := fun _ hr => absurd hr not_mem_nil
      remote_keys := nodup_nil
      remote_size := fun _ hr => absurd hr not_mem_nil
      remote_count := Nat.zero_le _
      idle := nofun
      sending := nofun
      current := fun _ _ => .inl rfl }
  · cases hs

/-- **Every action keeps the invariant.** -/
theorem Inv.step (h : w.Inv) {s : BlockSort} {cfgP cfgD : CopyConfig}
    {reserve : Reserve} {info : StagedInfo} {a : StagedAct}
    (hs : w.step ndebug s cfgP cfgD reserve info a = some (.ok w')) : w'.Inv := by
  cases a with
  | register => exact h.register hs
  | send => exact h.send hs
  | land => exact h.land hs
  | lookup => exact h.lookup hs
  | read => exact h.read hs
  | close conn =>
    cases hs
    obtain ⟨htidy, hgrows⟩ := h.tidy.closedHook conn
    exact h.serve htidy hgrows (.inl fun _ hp => hp)
  | flush => exact h.flush hs
  | flushThrow => exact h.flushThrow hs
  | drop =>
    cases hs
    exact h.drop

end Invariant

/-! ## The protocol -/

end StagedWorld

end LlumnixKv
