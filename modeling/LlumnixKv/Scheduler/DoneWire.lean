import LlumnixKv.Machinery.Bytes
import LlumnixKv.Machinery.Stream
import LlumnixKv.Scheduler.Signals
import LlumnixKv.Stub.DoTask
import Mathlib.Data.Nat.Bitwise

/-!
# Scheduler/DoneWire — a done message as bytes

Two senders write the message, the stub's `rpc_send_done` and the connector's
`send_error_done_req`, and one server reads it: `RpcServer._client_main` takes a head of four bytes
off the connection and calls `handle_done_req`, again and again.

    version 2     rank | HAS_VER2    n   (plen, code, len, reqid) × n
    legacy        rank               n   (len, reqid) × n
    …with plens   rank | HAS_PLEN    n   (len, reqid) × n   plen × n

The three bodies are told apart by two bits of the rank (`bodyFormat`), which a rank below `2 ^ 16`
leaves free.  In the combined form the whole message is copied behind itself under a second head;
the server meets two messages with one body.

Every count is written in 32 bits.  The connector's `struct.pack` refuses a larger one, the stub's
`memcpy` cuts it off.
-/

open List Machinery

namespace LlumnixKv

/-! ## Senders -/

/-- A `uint32_t` in memory; `struct.pack("=I", n)`. -/
def word (n : ℕ) : List UInt8 := leBytes 4 n

/-- The UTF-8 bytes of a string. -/
def utf8 (s : String) : List UInt8 := s.toByteArray.data.toList

/-- `SEND_DONE_RESP`, `_SAVE_DONE_RESP`. -/
def doneResp : ℕ := 0x91218102

/-- What a sender writes, and how many bytes it then reads. -/
structure SentDone where
  bytes : List UInt8
  respsize : ℕ

variable (sendSaveDone : Bool)

/-- The end of both senders: in the combined form a copy of the message follows, its head
overwritten. -/
def withSaveDone (buf : List UInt8) : SentDone :=
  if sendSaveDone then ⟨buf ++ (word saveDone2Req ++ buf.drop 4), 8⟩ else ⟨buf, 4⟩

/-- One record of `rpc_send_done`; the length of the id is a `uint32_t`. -/
def DoneRecord.bytes (record : DoneRecord) : List UInt8 :=
  let reqid := utf8 record.reqId
  let rlen := reqid.length % 2 ^ 32
  word record.plen ++ (word record.code ++ (word rlen ++ reqid.take rlen))

variable (workerTpRank : ℕ)

/-- `send_done_buf` and `respsize` of `rpc_send_done`, for the records of its tasks. -/
def sendDoneBuf (records : List DoneRecord) : SentDone :=
  withSaveDone sendSaveDone
    (word sendDoneReq ++ (word (workerTpRank ||| hasVer2) ++ (word records.length ++
      records.flatMap DoneRecord.bytes)))

/-- `HAS_PLEN`, set in the rank of a message. -/
def hasPlen : ℕ := 0x80000000

/-- `len` and `reqid`. -/
def idBytes (reqid : String) : List UInt8 := word (utf8 reqid).length ++ utf8 reqid

/-- The three bodies. -/
inductive BodyFormat
  | ver2
  | legacy
  | legacyPlen
  deriving DecidableEq, Repr

/-- `has_ver2` and `has_plen`. -/
def bodyFormat (workerTprank : ℕ) : BodyFormat :=
  if workerTprank &&& hasVer2 ≠ 0 then .ver2
  else if workerTprank &&& hasPlen ≠ 0 then .legacyPlen
  else .legacy

/-- `readexactly(4)` and `struct.unpack("=I", …)`; words that follow each other are read one by
one. -/
def readWord : StreamReader UInt8 ℕ := readExactly 4 >>= fun buf => pure (leVal buf)

/-- `decode("utf-8")`. -/
def decodeUtf8 (buf : List UInt8) : StreamReader UInt8 String := fun s =>
  (String.fromUTF8? ⟨buf.toArray⟩).map fun reqid => (reqid, s)

/-- A length and an id of that length. -/
def readReqid : StreamReader UInt8 String :=
  readWord >>= fun rlen => readExactly rlen >>= decodeUtf8

/-- One record of version 2. -/
def readRecord : StreamReader UInt8 IoRet :=
  readWord >>= fun plen =>
  readWord >>= fun code =>
  readReqid >>= fun reqid =>
  pure (IoRet.ofRecord plen code reqid)

/-- One id of a legacy body. -/
def readLegacy : StreamReader UInt8 IoRet := readReqid >>= fun reqid => pure { reqid := some reqid }

/-- `iorets[idx].n = len`. -/
def IoRet.withPlen (ioret : IoRet) (plen : ℕ) : IoRet := { ioret with n := some plen }

/-- The records of a body. -/
def readIorets : BodyFormat → ℕ → StreamReader UInt8 (List IoRet)
  | .ver2, numReq => readMany readRecord numReq
  | .legacy, numReq => readMany readLegacy numReq
  | .legacyPlen, numReq =>
    readMany readLegacy numReq >>= fun iorets =>
    readMany readWord numReq >>= fun plens =>
    pure (iorets.zipWith IoRet.withPlen plens)

/-- `handle_done_req`: the rank and the results it calls back with. -/
def handleDoneReq : StreamReader UInt8 (ℕ × List IoRet) :=
  readWord >>= fun workerTprank =>
  readWord >>= fun numReq =>
  readIorets (bodyFormat workerTprank) numReq >>= fun iorets =>
  pure (workerTprank &&& 0xffff, iorets)

/-- A done message the server has handled. -/
structure Served where
  head : ℕ
  workerTprank : ℕ
  iorets : List IoRet
  deriving DecidableEq, Repr

/-- What `handle_done_req` writes for it: `SEND_DONE_RESP` or `_SAVE_DONE_RESP`. -/
def Served.response (_ : Served) : List UInt8 := word doneResp

variable (others : ℕ → Option (StreamReader UInt8 Unit))

/-- One round of `_client_main`; `others` are the methods registered for other heads. -/
def serveOne : StreamReader UInt8 (Option Served) :=
  readWord >>= fun head =>
  if head = sendDoneReq ∨ head = saveDone2Req then
    handleDoneReq >>= fun req => pure (some ⟨head, req.1, req.2⟩)
  else match others head with
    | none => fun _ => none
    | some cb => cb >>= fun _ => pure none

/-- `_client_main`, for at most so many rounds: the done messages handled, and the stream from the
round on that raised or met an unknown head. -/
def clientMain (others : ℕ → Option (StreamReader UInt8 Unit)) :
    ℕ → List UInt8 → List Served × List UInt8
  | 0, s => ([], s)
  | rounds + 1, s => match serveOne others s with
    | none => ([], s)
    | some (served, rest) =>
      let more := clientMain others rounds rest
      (served.toList ++ more.1, more.2)

/-- **The server takes exactly the bytes of the message off the connection, whatever follows them,
handles `served`, and answers as many bytes as the sender reads.** -/
def Delivers (sent : SentDone) (served : List Served) : Prop :=
  (∀ rounds rest, clientMain others (served.length + rounds) (sent.bytes ++ rest) =
    (served ++ (clientMain others rounds rest).1, (clientMain others rounds rest).2)) ∧
  (served.flatMap Served.response).length = sent.respsize

/-! ## Heads and bodies -/

/-- The heads of a message. -/
def doneHeads : List ℕ :=
  if sendSaveDone then [sendDoneReq, saveDone2Req] else [sendDoneReq]

/-- The body of version 2. -/
def ver2Body (records : List DoneRecord) : List UInt8 :=
  word (workerTpRank ||| hasVer2) ++ (word records.length ++ records.flatMap DoneRecord.bytes)

@[simp] theorem length_word (n : ℕ) : (word n).length = 4 := length_leBytes 4 n

/-- **The message is its body under each of its heads.** -/
theorem sendDoneBuf_bytes (rank : ℕ) (records : List DoneRecord) :
    (sendDoneBuf sendSaveDone rank records).bytes =
      (doneHeads sendSaveDone).flatMap fun head => word head ++ ver2Body rank records := by
  cases sendSaveDone with
  | false => exact (append_nil _).symm
  | true =>
    have hcopy (buf : List UInt8) : (word sendDoneReq ++ buf).drop 4 = buf :=
      drop_left' (length_word _)
    change (word sendDoneReq ++ ver2Body rank records) ++ (word saveDone2Req ++
      (word sendDoneReq ++ ver2Body rank records).drop 4) = _
    rw [hcopy]
    exact congrArg _ (append_nil _).symm

theorem sendDoneBuf_respsize (rank : ℕ) (records : List DoneRecord) :
    (sendDoneBuf sendSaveDone rank records).respsize = 4 * (doneHeads sendSaveDone).length := by
  cases sendSaveDone <;> rfl

/-! ## Reading fields -/

theorem reads_readWord {n : ℕ} (h : n < 2 ^ 32) : Reads readWord (word n) n := by
  have hread := (reads_readExactly (length_word n)).bind_pure leVal
  rwa [word, leVal_leBytes_of_lt (h.trans_eq (by decide))] at hread

theorem reads_decodeUtf8 (reqid : String) : Reads (decodeUtf8 (utf8 reqid)) [] reqid := by
  intro rest
  have hdecode : String.fromUTF8? ⟨(utf8 reqid).toArray⟩ = some reqid := dif_pos reqid.isValidUTF8
  rw [decodeUtf8, hdecode, Option.map_some, nil_append]

variable {reqid : String} {bytes : List UInt8} {records : List DoneRecord} {reqids : List String}
  {record : DoneRecord}

theorem reads_readReqid (h : (utf8 reqid).length < 2 ^ 32) :
    Reads readReqid (idBytes reqid) reqid := by
  have hbytes : Reads (readExactly (utf8 reqid).length >>= decodeUtf8) (utf8 reqid ++ []) reqid :=
    (reads_readExactly rfl).bind (reads_decodeUtf8 reqid)
  rw [append_nil] at hbytes
  exact (reads_readWord h).bind hbytes

/-! ## Reading records -/

/-- The numbers of a record fit their fields. -/
structure DoneRecord.Fits (record : DoneRecord) : Prop where
  plen : record.plen < 2 ^ 32
  code : record.code < 2 ^ 32
  reqid : (utf8 record.reqId).length < 2 ^ 32

/-- The numbers of a message fit their fields. -/
structure FitsWire (records : List DoneRecord) : Prop where
  count : records.length < 2 ^ 32
  each : ∀ record ∈ records, record.Fits

/-- The result the server makes of a record. -/
def DoneRecord.ioret (record : DoneRecord) : IoRet :=
  .ofRecord record.plen record.code record.reqId

theorem DoneRecord.Fits.bytes_eq (h : record.Fits) :
    record.bytes = word record.plen ++ (word record.code ++ idBytes record.reqId) := by
  rw [DoneRecord.bytes, Nat.mod_eq_of_lt h.reqid, take_length]
  rfl

theorem reads_readRecord (h : record.Fits) : Reads readRecord record.bytes record.ioret := by
  rw [h.bytes_eq]
  exact (reads_readWord h.plen).bind ((reads_readWord h.code).bind
    ((reads_readReqid h.reqid).bind_pure _))

section Bodies

variable {rank : ℕ}

theorem testBit_rank (hrank : rank < 0xffff) {i : ℕ} (hi : 16 ≤ i) : rank.testBit i = false :=
  Nat.testBit_lt_two_pow (hrank.trans (Nat.lt_of_lt_of_le (by decide)
    (Nat.pow_le_pow_right Nat.two_pos hi)))

theorem and_hasVer2 (n : ℕ) : n &&& hasVer2 ≠ 0 ↔ n.testBit 30 = true := by
  rw [show hasVer2 = 2 ^ 30 from rfl, Nat.and_two_pow]
  cases n.testBit 30 <;> simp

theorem and_hasPlen (n : ℕ) : n &&& hasPlen ≠ 0 ↔ n.testBit 31 = true := by
  rw [show hasPlen = 2 ^ 31 from rfl, Nat.and_two_pow]
  cases n.testBit 31 <;> simp

/-- **The body is told by the flags alone.** -/
theorem bodyFormat_rank (hrank : rank < 0xffff) :
    bodyFormat (rank ||| hasVer2) = .ver2 ∧ bodyFormat rank = .legacy ∧
      bodyFormat (rank ||| hasPlen) = .legacyPlen := by
  have h30 := testBit_rank hrank (i := 30) (by decide)
  have h31 := testBit_rank hrank (i := 31) (by decide)
  have hver2 : hasVer2.testBit 30 = true := by decide
  have hplen30 : hasPlen.testBit 30 = false := by decide
  have hplen31 : hasPlen.testBit 31 = true := by decide
  simp only [bodyFormat, and_hasVer2, and_hasPlen, Nat.testBit_or, h30, h31, hver2, hplen30,
    hplen31]
  decide

/-- The rank is what is left below the flags. -/
theorem and_rank {flag : ℕ} (hrank : rank < 0xffff) (hflag : flag % 2 ^ 16 = 0) :
    (rank ||| flag) &&& 0xffff = rank := by
  have hmod : rank % 2 ^ 16 = rank := Nat.mod_eq_of_lt (hrank.trans (by decide))
  rw [show 0xffff = 2 ^ 16 - 1 from rfl, Nat.and_two_pow_sub_one_eq_mod, Nat.or_mod_two_pow, hmod,
    hflag, Nat.or_zero]

theorem or_flag_lt {flag : ℕ} (hrank : rank < 0xffff) (hflag : flag < 2 ^ 32) :
    rank ||| flag < 2 ^ 32 := Nat.or_lt_two_pow (hrank.trans (by decide)) hflag

/-- A body is its flagged rank, its count and its records. -/
theorem reads_handleDoneReq {worker num : ℕ} {format : BodyFormat} {iorets : List IoRet}
    (hworker : worker < 2 ^ 32) (hrank : worker &&& 0xffff = rank)
    (hformat : bodyFormat worker = format) (hnum : num < 2 ^ 32)
    (h : Reads (readIorets format num) bytes iorets) :
    Reads handleDoneReq (word worker ++ (word num ++ bytes)) (rank, iorets) := by
  subst hrank hformat
  exact (reads_readWord hworker).bind ((reads_readWord hnum).bind (h.bind_pure _))

theorem reads_ver2Body (hrank : rank < 0xffff) (h : FitsWire records) :
    Reads handleDoneReq (ver2Body rank records) (rank, records.map DoneRecord.ioret) :=
  reads_handleDoneReq (or_flag_lt hrank (by decide)) (and_rank hrank (by decide))
    (bodyFormat_rank hrank).1 h.count
    (reads_readMany fun record hr => reads_readRecord (h.each record hr))

end Bodies

/-! ## Serving a message -/

section Serving

variable {others : ℕ → Option (StreamReader UInt8 Unit)} {rank : ℕ}

variable {iorets : List IoRet} {body : List UInt8}

theorem reads_serveOne {head : ℕ} (hhead : head ∈ doneHeads true)
    (h : Reads handleDoneReq body (rank, iorets)) :
    Reads (serveOne others) (word head ++ body) (some ⟨head, rank, iorets⟩) := by
  have hdone : head = sendDoneReq ∨ head = saveDone2Req := by
    simpa only [doneHeads, if_true, mem_cons, not_mem_nil, or_false] using hhead
  have hlt : head < 2 ^ 32 := by
    rcases hdone with rfl | rfl
    · decide
    · decide
  refine (reads_readWord hlt).bind ?_
  rw [if_pos hdone]
  exact h.bind_pure _

theorem clientMain_of_reads {served : Served} (h : Reads (serveOne others) bytes (some served))
    (rounds : ℕ) (rest : List UInt8) :
    clientMain others (rounds + 1) (bytes ++ rest) =
      (served :: (clientMain others rounds rest).1, (clientMain others rounds rest).2) := by
  rw [clientMain, h rest]
  rfl

/-- **One body under several heads is handled once for each.** -/
theorem clientMain_heads
    (h : Reads handleDoneReq body (rank, iorets)) (rounds : ℕ) (rest : List UInt8) :
    ∀ heads : List ℕ, (∀ head ∈ heads, head ∈ doneHeads true) →
      clientMain others (heads.length + rounds)
          ((heads.flatMap fun head => word head ++ body) ++ rest) =
        ((heads.map fun head => ⟨head, rank, iorets⟩) ++ (clientMain others rounds rest).1,
          (clientMain others rounds rest).2)
  | [], _ => by rw [length_nil, Nat.zero_add]; rfl
  | head :: heads, hheads => by
      obtain ⟨hhead, hmore⟩ := forall_mem_cons.mp hheads
      rw [length_cons, Nat.add_right_comm, flatMap_cons, append_assoc,
        clientMain_of_reads (reads_serveOne hhead h), clientMain_heads h rounds rest heads hmore]
      rfl

theorem delivers_heads {sent : SentDone} (h : Reads handleDoneReq body (rank, iorets))
    (heads : List ℕ) (hheads : ∀ head ∈ heads, head ∈ doneHeads true)
    (hbytes : sent.bytes = heads.flatMap fun head => word head ++ body)
    (hrespsize : sent.respsize = 4 * heads.length) :
    Delivers others sent (heads.map fun head => ⟨head, rank, iorets⟩) := by
  refine ⟨fun rounds rest => ?_, ?_⟩
  · rw [hbytes, length_map]
    exact clientMain_heads h rounds rest heads hheads
  · rw [hrespsize, length_flatMap, map_map]
    simp [Function.comp_def, Served.response, Nat.mul_comm]

theorem mem_doneHeads {sendSaveDone : Bool} {head : ℕ} (h : head ∈ doneHeads sendSaveDone) :
    head ∈ doneHeads true := by
  cases sendSaveDone with
  | false => exact mem_cons.mpr (.inl (mem_singleton.mp h))
  | true => exact h

/-- The stub's message is read back. -/
theorem delivers_sendDoneBuf (hrank : rank < 0xffff) (sendSaveDone : Bool) (h : FitsWire records) :
    Delivers others (sendDoneBuf sendSaveDone rank records)
      ((doneHeads sendSaveDone).map fun head => ⟨head, rank, records.map DoneRecord.ioret⟩) :=
  delivers_heads (reads_ver2Body hrank h) _ (fun _ => mem_doneHeads)
    (sendDoneBuf_bytes sendSaveDone rank records) (sendDoneBuf_respsize sendSaveDone rank records)

/-- **What `rpc_send_done` says is what the scheduler hears**: the message of a batch, as the stub
writes it, arrives with its heads and its records. -/
theorem rpcSendDone_delivers {stub : Stub} {states : ReqStates} {reqs : List ReqSendTask}
    {msg : DoneMessage} (hrank : stub.src.workerTpRank < 0xffff)
    (h : rpcSendDone stub states reqs = .ok msg) (hfits : FitsWire msg.records) :
    Delivers others
      (sendDoneBuf stub.sendSaveDone stub.src.workerTpRank (reqs.map (doneRecord states)))
      (msg.heads.map fun head =>
        ⟨head, stub.src.workerTpRank, msg.records.map DoneRecord.ioret⟩) := by
  replace h := after_check h
  cases h
  exact delivers_sendDoneBuf hrank stub.sendSaveDone hfits

end Serving

/-! ## The connector's message -/

/-- The records of `send_error_done_req`. -/
def errorRecords (plen : ℕ) (reqids : List String) : List DoneRecord :=
  reqids.map fun reqid => ⟨plen, codeInternalerror, reqid⟩

end LlumnixKv
