import LlumnixKv.Foundations.Worker
import LlumnixKv.Machinery.Numerals

/-!
# Foundations/WorkerText — a worker's info as text

    instId,workerId,tp,rank,b₁|b₂|…,t₁|t₂|…,blocks,layers,protocols,kernel,indexer,pack,stride[,addr]

A worker advertises itself as one line of comma-separated fields, with the local-only fields left
out.  Earlier versions wrote neither the stride nor, before that, the pack size, so `from_string`
accepts eleven to fourteen fields and tells an address from a number by its digits: in a 12- or
13-field text the last field is the address unless it is a numeral.
-/

namespace LlumnixKv

open List Machinery

/-! ## Numbers and lists of sizes -/

/-- What `to_string` and `from_string` throw. -/
inductive TextFault
  /-- `std::runtime_error` -/
  | runtime (msg : String)
  /-- `std::invalid_argument` or `std::out_of_range`, from `std::stoul` -/
  | stoul (e : NumeralError)
  deriving DecidableEq, Repr

/-- `std::stoul`; `std::stoull` reads the same 64 bits. -/
def stoul (token : List Char) : Except TextFault ℕ := (readUnsigned 64 token).mapError .stoul

/-- `join_sizes`. -/
def joinSizes (v : List ℕ) : List Char := listed '|' v

/-- `parse_sizes`. -/
def parseSizes (s : List Char) : Except TextFault (List ℕ) :=
  ((s.splitOn '|').filter (· ≠ [])).mapM stoul

/-- `is_numeric_token`. -/
def isNumericToken (s : List Char) : Bool := !s.isEmpty && s.all Char.isDigit

theorem stoul_decimal {n : ℕ} (h : n < 2 ^ 64) : stoul (decimal n) = .ok n := by
  rw [stoul, readUnsigned_decimal h]
  rfl

theorem parseSizes_joinSizes {v : List ℕ} (h : ∀ n ∈ v, n < 2 ^ 64) :
    parseSizes (joinSizes v) = .ok v := by
  rw [parseSizes, joinSizes, filter_splitOn_listed (by decide)]
  exact mapM_decimal fun n hn => stoul_decimal (h n hn)

theorem isNumericToken_decimal (n : ℕ) : isNumericToken (decimal n) = true := by
  rw [isNumericToken, all_isDigit_decimal, Bool.and_true, Bool.not_eq_true',
    isEmpty_eq_false_iff]
  exact decimal_ne_nil n

/-! ## Writing -/

/-- `MAX_INSTANCE_NAME_LEN`. -/
def maxInstanceNameLen : ℕ := 256

/-- `MAX_ADDRESS_LEN`. -/
def maxAddressLen : ℕ := 64

variable (w : WorkerInfo)

/-- The first eleven fields, which every version writes. -/
def WorkerInfo.baseFields : List (List Char) :=
  [w.instId.toList, decimal w.workerId, decimal w.engineTpSize, decimal w.workerTpRank,
    joinSizes w.blockSizes, joinSizes w.tokenSizes, decimal w.layerNumBlocks, decimal w.numLayers,
    decimal w.transferProtocols, decimal w.attnKernelBlkNtpb, decimal w.indexerBlkNtpb]

/-- Fields with commas between them. -/
def commaJoined (fields : List (List Char)) : String := .ofList ([','].intercalate fields)

/-- `WorkerInfo::to_string`. -/
def WorkerInfo.toString : Except TextFault String :=
  let fields := w.baseFields ++ [decimal w.attnPackSize, decimal w.kdaPageStride]
  if maxInstanceNameLen < w.instId.utf8ByteSize then
    .error (.runtime "invalid worker instance name, too large;")
  else if w.addr = "" then .ok (commaJoined fields)
  else if maxAddressLen < w.addr.utf8ByteSize then
    .error (.runtime "invalid worker address, too large;")
  else .ok (commaJoined (fields ++ [w.addr.toList]))

/-! ## Reading -/

/-- The first eleven fields of a text, narrowed to the types of the info's fields. -/
def decodeBase (tmp : List (List Char)) : Except TextFault WorkerInfo := do
  let workerId ← stoul (tmp.getD 1 [])
  let engineTpSize ← stoul (tmp.getD 2 [])
  let workerTpRank ← stoul (tmp.getD 3 [])
  let blockSizes ← parseSizes (tmp.getD 4 [])
  let tokenSizes ← parseSizes (tmp.getD 5 [])
  let layerNumBlocks ← stoul (tmp.getD 6 [])
  let numLayers ← stoul (tmp.getD 7 [])
  let transferProtocols ← stoul (tmp.getD 8 [])
  let attnKernelBlkNtpb ← stoul (tmp.getD 9 [])
  let indexerBlkNtpb ← stoul (tmp.getD 10 [])
  return { instId := .ofList (tmp.getD 0 []), workerId := u32 workerId,
           engineTpSize := u32 engineTpSize, workerTpRank := u32 workerTpRank,
           blockSizes, tokenSizes, layerNumBlocks := u32 layerNumBlocks,
           numLayers := u32 numLayers, transferProtocols := transferProtocols % 2 ^ 8,
           attnKernelBlkNtpb := u32 attnKernelBlkNtpb, indexerBlkNtpb := u32 indexerBlkNtpb }

/-- The fields after the eleventh; the pack size is 1 and the stride 0 where they are missing. -/
def decodeTail (tmp : List (List Char)) : Except TextFault WorkerInfo :=
  if tmp.length = 11 then .ok w
  else if tmp.length = 12 then
    if isNumericToken (tmp.getD 11 []) then do
      let pack ← stoul (tmp.getD 11 [])
      return { w with attnPackSize := u32 pack }
    else .ok { w with addr := .ofList (tmp.getD 11 []) }
  else if tmp.length = 13 then do
    let pack ← stoul (tmp.getD 11 [])
    if isNumericToken (tmp.getD 12 []) then
      let stride ← stoul (tmp.getD 12 [])
      return { w with attnPackSize := u32 pack, kdaPageStride := stride }
    else return { w with attnPackSize := u32 pack, addr := .ofList (tmp.getD 12 []) }
  else do
    let pack ← stoul (tmp.getD 11 [])
    let stride ← stoul (tmp.getD 12 [])
    return { w with attnPackSize := u32 pack, kdaPageStride := stride,
                    addr := .ofList (tmp.getD 13 []) }

/-- `WorkerInfo::from_string`. -/
def WorkerInfo.fromString (src : String) : Except TextFault WorkerInfo :=
  let tmp := src.toList.splitOn ','
  if tmp.length < 11 ∨ 14 < tmp.length then .error (.runtime "invalid worker info string;")
  else do
    let w ← decodeBase tmp
    let w ← decodeTail w tmp
    return if w.attnPackSize = 0 then { w with attnPackSize := 1 } else w

/-! ## What a text keeps -/

/-- The values the C++ types of the serialized fields hold. -/
@[mk_iff]
structure WorkerInfo.Sized (w : WorkerInfo) : Prop where
  workerId : w.workerId < 2 ^ 32
  engineTpSize : w.engineTpSize < 2 ^ 32
  workerTpRank : w.workerTpRank < 2 ^ 32
  blockSizes : ∀ n ∈ w.blockSizes, n < 2 ^ 64
  tokenSizes : ∀ n ∈ w.tokenSizes, n < 2 ^ 64
  layerNumBlocks : w.layerNumBlocks < 2 ^ 32
  numLayers : w.numLayers < 2 ^ 32
  transferProtocols : w.transferProtocols < 2 ^ 8
  attnKernelBlkNtpb : w.attnKernelBlkNtpb < 2 ^ 32
  indexerBlkNtpb : w.indexerBlkNtpb < 2 ^ 32
  attnPackSize : w.attnPackSize < 2 ^ 32
  kdaPageStride : w.kdaPageStride < 2 ^ 64

/-- The info can be written as text: its strings hold no comma and are within the limits. -/
@[mk_iff]
structure WorkerInfo.Writable (w : WorkerInfo) : Prop extends w.Sized where
  instId_noComma : ',' ∉ w.instId.toList
  addr_noComma : ',' ∉ w.addr.toList
  instId_le : w.instId.utf8ByteSize ≤ maxInstanceNameLen
  addr_le : w.addr.utf8ByteSize ≤ maxAddressLen

instance (w : WorkerInfo) : Decidable w.Sized := decidable_of_iff' _ (WorkerInfo.sized_iff w)

instance (w : WorkerInfo) : Decidable w.Writable := decidable_of_iff' _ (WorkerInfo.writable_iff w)

/-- The serialized fields of an info, the local-only ones as a fresh info has them. -/
def WorkerInfo.serialized : WorkerInfo :=
  { instId := w.instId, workerId := w.workerId, engineTpSize := w.engineTpSize,
    workerTpRank := w.workerTpRank, blockSizes := w.blockSizes, tokenSizes := w.tokenSizes,
    layerNumBlocks := w.layerNumBlocks, numLayers := w.numLayers,
    transferProtocols := w.transferProtocols, attnKernelBlkNtpb := w.attnKernelBlkNtpb,
    indexerBlkNtpb := w.indexerBlkNtpb, attnPackSize := w.attnPackSize,
    kdaPageStride := w.kdaPageStride, addr := w.addr }

/-- The versions of the text: without pack size and stride, without stride, as written today. -/
inductive Payload
  | noPack
  | noStride
  | current
  deriving DecidableEq, Repr

/-- The fields a version writes after the first eleven. -/
def WorkerInfo.tailFields (p : Payload) (withAddr : Bool) : List (List Char) :=
  (match p with
    | .noPack => []
    | .noStride => [decimal w.attnPackSize]
    | .current => [decimal w.attnPackSize, decimal w.kdaPageStride])
  ++ if withAddr then [w.addr.toList] else []

/-- The text of a version, with or without the address. -/
def WorkerInfo.text (p : Payload) (withAddr : Bool) : String :=
  commaJoined (w.baseFields ++ w.tailFields p withAddr)

/-- What the eleven common fields say of the worker. -/
def WorkerInfo.base : WorkerInfo :=
  { w.serialized with attnPackSize := 1, kdaPageStride := 0, addr := "" }

/-- What a text of that version says of the worker: the fields it leaves out have their defaults. -/
def WorkerInfo.told (p : Payload) (withAddr : Bool) : WorkerInfo :=
  { w.serialized with
    attnPackSize := if p = .noPack then 1 else w.attnPackSize
    kdaPageStride := if p = .current then w.kdaPageStride else 0
    addr := if withAddr then w.addr else "" }

/-- A pack size of 0 is read as 1. -/
def WorkerInfo.packed : WorkerInfo :=
  if w.attnPackSize = 0 then { w with attnPackSize := 1 } else w

/-! ## The round trip -/

section RoundTrip

variable {w : WorkerInfo}

theorem commaFree_baseFields (hw : w.Writable) : ∀ f ∈ w.baseFields, ',' ∉ f := by
  have hnum : ∀ n : ℕ, ',' ∉ decimal n := fun n => not_mem_decimal (by decide)
  have hsizes : ∀ v : List ℕ, ',' ∉ joinSizes v := not_mem_listed (by decide) (by decide)
  simp only [WorkerInfo.baseFields, forall_mem_cons, hnum, hsizes, hw.instId_noComma,
    not_false_eq_true, true_and, not_mem_nil, false_imp_iff, implies_true]

theorem commaFree_tailFields (hw : w.Writable) (p : Payload) (withAddr : Bool) :
    ∀ f ∈ w.tailFields p withAddr, ',' ∉ f := by
  have hnum : ∀ n : ℕ, ',' ∉ decimal n := fun n => not_mem_decimal (by decide)
  refine forall_mem_append.mpr ⟨?_, ?_⟩
  · cases p with
    | noPack => exact fun f hf => absurd hf not_mem_nil
    | noStride => exact forall_mem_singleton.mpr (hnum _)
    | current => exact forall_mem_cons.mpr ⟨hnum _, forall_mem_singleton.mpr (hnum _)⟩
  · cases withAddr with
    | true => exact forall_mem_singleton.mpr hw.addr_noComma
    | false => exact fun f hf => absurd hf not_mem_nil

/-- Splitting a text at its commas gives its fields back. -/
theorem splitOn_text (hw : w.Writable) (p : Payload) (withAddr : Bool) :
    (w.text p withAddr).toList.splitOn ',' = w.baseFields ++ w.tailFields p withAddr := by
  rw [WorkerInfo.text, commaJoined, String.toList_ofList]
  exact splitOn_intercalate ','
    (forall_mem_append.mpr ⟨commaFree_baseFields hw, commaFree_tailFields hw p withAddr⟩)
    (cons_ne_nil _ _)

/-- **The eleven common fields are read back**, whatever follows them. -/
theorem decodeBase_baseFields (hw : w.Sized) (rest : List (List Char)) :
    decodeBase (w.baseFields ++ rest) = .ok w.base := by
  have h32 : ∀ {n : ℕ}, n < 2 ^ 32 → stoul (decimal n) = .ok n := fun h =>
    stoul_decimal (h.trans (by decide))
  simp only [decodeBase, WorkerInfo.baseFields, cons_append, getD_cons_succ,
    getD_cons_zero, h32 hw.workerId, h32 hw.engineTpSize, h32 hw.workerTpRank,
    parseSizes_joinSizes hw.blockSizes, parseSizes_joinSizes hw.tokenSizes,
    h32 hw.layerNumBlocks, h32 hw.numLayers, stoul_decimal (hw.transferProtocols.trans (by decide)),
    h32 hw.attnKernelBlkNtpb, h32 hw.indexerBlkNtpb, ok_bind, String.ofList_toList,
    u32_of_lt hw.workerId, u32_of_lt hw.engineTpSize, u32_of_lt hw.workerTpRank,
    u32_of_lt hw.layerNumBlocks, u32_of_lt hw.numLayers, u32_of_lt hw.attnKernelBlkNtpb,
    u32_of_lt hw.indexerBlkNtpb, Nat.mod_eq_of_lt hw.transferProtocols]
  rfl

/-- **The optional fields are read back**: only a 12- or 13-field text has to tell an address from
a number, and there the address is not a numeral. -/
theorem decodeTail_tailFields (hw : w.Sized) (p : Payload) (withAddr : Bool)
    (hnum : p ≠ .current → withAddr = true → isNumericToken w.addr.toList = false) :
    decodeTail w.base (w.baseFields ++ w.tailFields p withAddr) = .ok (w.told p withAddr) := by
  have hpack : stoul (decimal w.attnPackSize) = .ok w.attnPackSize :=
    stoul_decimal (hw.attnPackSize.trans (by decide))
  have hstride : stoul (decimal w.kdaPageStride) = .ok w.kdaPageStride :=
    stoul_decimal hw.kdaPageStride
  cases p <;> cases withAddr
  · rfl
  · have haddr := hnum (by decide) rfl
    simp [decodeTail, WorkerInfo.baseFields, WorkerInfo.tailFields, haddr, WorkerInfo.told,
      WorkerInfo.base]
  · simp [decodeTail, WorkerInfo.baseFields, WorkerInfo.tailFields, isNumericToken_decimal, hpack,
      u32_of_lt hw.attnPackSize, WorkerInfo.told, WorkerInfo.base]
  · have haddr := hnum (by decide) rfl
    simp [decodeTail, WorkerInfo.baseFields, WorkerInfo.tailFields, haddr, hpack,
      u32_of_lt hw.attnPackSize, WorkerInfo.told, WorkerInfo.base]
  · simp [decodeTail, WorkerInfo.baseFields, WorkerInfo.tailFields, isNumericToken_decimal, hpack,
      hstride, u32_of_lt hw.attnPackSize, WorkerInfo.told, WorkerInfo.base]
  · simp [decodeTail, WorkerInfo.baseFields, WorkerInfo.tailFields, hpack, hstride,
      u32_of_lt hw.attnPackSize, WorkerInfo.told, WorkerInfo.base]

/-- **Every version's text is read back**, a pack size of 0 as 1. -/
theorem fromString_text (hw : w.Writable) (p : Payload) (withAddr : Bool)
    (hnum : p ≠ .current → withAddr = true → isNumericToken w.addr.toList = false) :
    WorkerInfo.fromString (w.text p withAddr) = .ok (w.told p withAddr).packed := by
  have hlen : ¬((w.baseFields ++ w.tailFields p withAddr).length < 11
      ∨ 14 < (w.baseFields ++ w.tailFields p withAddr).length) := by
    cases p <;> cases withAddr <;> simp [WorkerInfo.baseFields, WorkerInfo.tailFields]
  simp only [WorkerInfo.fromString, splitOn_text hw]
  rw [if_neg hlen, decodeBase_baseFields hw.toSized, ok_bind,
    decodeTail_tailFields hw.toSized p withAddr hnum, ok_bind]
  rfl

/-- The text `to_string` writes: today's version, with the address if there is one. -/
theorem toString_eq (hw : w.Writable) :
    w.toString = .ok (w.text .current (decide (w.addr ≠ ""))) := by
  rw [WorkerInfo.toString, if_neg (Nat.not_lt.mpr hw.instId_le)]
  by_cases haddr : w.addr = ""
  · rw [if_pos haddr, decide_eq_false (not_not.mpr haddr)]
    rfl
  · rw [if_neg haddr, if_neg (Nat.not_lt.mpr hw.addr_le), decide_eq_true haddr]
    rfl

theorem told_current (w : WorkerInfo) : w.told .current (decide (w.addr ≠ "")) = w.serialized := by
  by_cases haddr : w.addr = "" <;> simp [WorkerInfo.told, haddr, WorkerInfo.serialized]

/-- **What `from_string` makes of what `to_string` wrote**: the serialized fields, with a pack size
of 0 read as 1. -/
theorem fromString_of_toString (hw : w.Writable) :
    w.toString.bind WorkerInfo.fromString = .ok w.serialized.packed := by
  have hread := fromString_text hw .current (decide (w.addr ≠ "")) (fun h => absurd rfl h)
  rw [told_current] at hread
  rw [toString_eq hw, Except.bind, hread]

theorem packed_of_pos {v : WorkerInfo} (h : 1 ≤ v.attnPackSize) : v.packed = v :=
  if_neg (Nat.one_le_iff_ne_zero.mp h)

/-- **A worker's info survives its text** — every serialized field is read back as it was written,
and from the shorter texts of earlier versions the missing fields have their defaults. -/
theorem workerText_roundTrip (hw : w.Writable)
    (haddr : w.addr = "" ∨ isNumericToken w.addr.toList = false) (hpack : 1 ≤ w.attnPackSize) :
    w.toString.bind WorkerInfo.fromString = .ok w.serialized
      ∧ ∀ p withAddr, WorkerInfo.fromString (w.text p withAddr) = .ok (w.told p withAddr) := by
  refine ⟨?_, fun p withAddr => ?_⟩
  · rw [fromString_of_toString hw, packed_of_pos (v := w.serialized) hpack]
  · have hnum : isNumericToken w.addr.toList = false := by
      rcases haddr with h | h
      · rw [h]; rfl
      · exact h
    rw [fromString_text hw p withAddr fun _ _ => hnum, packed_of_pos]
    cases p with
    | noPack => exact Nat.le_refl 1
    | noStride | current => exact hpack

end RoundTrip

/-- The worker of `CommonTest.TestWorkerInfo`. -/
def testWorker : WorkerInfo :=
  { instId := "1234", workerId := 4, engineTpSize := 8, workerTpRank := 2, blockSizes := [1024],
    tokenSizes := [128], layerNumBlocks := 4, numLayers := 2, transferProtocols := 1,
    attnKernelBlkNtpb := 64, indexerBlkNtpb := 32, addr := "127.0.0.1:9900" }

theorem workerText_roundTrip_testWorker :
    testWorker.toString.bind WorkerInfo.fromString = .ok testWorker.serialized
      ∧ ∀ p withAddr,
        WorkerInfo.fromString (testWorker.text p withAddr) = .ok (testWorker.told p withAddr) :=
  workerText_roundTrip (by decide) (.inr (by decide)) (by decide)

end LlumnixKv
