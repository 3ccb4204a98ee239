import LlumnixKv.Machinery.Walk

/-!
# Foundations/Worker — workers, requests and the ways a call can end

The records both sides of a transfer share: a `WorkerInfo` describes the cache a worker registered,
a `RequestInfo` the block tables of one request on the two sides, and a `ReqSendTask` the token
range of it one step sends.  Counters and sizes are natural numbers; where the source narrows to
`uint32_t` the narrowing is written out (`u32`).
-/

namespace LlumnixKv

/-! ## How a call ends -/

/-- What ends a call that does not return. -/
inductive Fault
  /-- a failed `assert` in a debug build, a failed `RTASSERT` in any -/
  | abort
  /-- `std::out_of_range` -/
  | outOfRange
  /-- `std::overflow_error` -/
  | overflow
  /-- `std::runtime_error` -/
  | runtime (msg : String)
  /-- undefined behaviour: a division by zero, a call through a null pointer -/
  | undefined
  deriving DecidableEq, Repr

/-- The faults `catch (std::exception&)` catches; the others end the process. -/
def Fault.caught : Fault → Bool
  | .abort | .undefined => false
  | .outOfRange | .overflow | .runtime _ => true

/-- `assert(c)`, compiled out under `NDEBUG`. -/
def cassert (ndebug : Bool) (c : Prop) [Decidable c] : Except Fault Unit :=
  if ndebug = true ∨ c then .ok () else .error .abort

variable {ndebug : Bool}

@[simp] theorem cassert_of {c : Prop} [Decidable c] (h : c) :
    cassert ndebug c = .ok () := if_pos (.inr h)

theorem cassert_release (h : ndebug = true) (c : Prop) [Decidable c] :
    cassert ndebug c = .ok () := if_pos (.inl h)

theorem cassert_eq_ok {c : Prop} [Decidable c] {u : Unit} :
    cassert ndebug c = .ok u ↔ ndebug = true ∨ c := by
  unfold cassert
  split <;> simp_all

theorem cassert_bind (ndebug : Bool) (c : Prop) [Decidable c] {α : Type} (x : Except Fault α) :
    (cassert ndebug c >>= fun _ => x) = if ndebug = true ∨ c then x else .error .abort := by
  unfold cassert
  split_ifs <;> rfl

/-- `v.at(i)`. -/
def vecAt {α : Type*} (v : List α) (i : ℕ) : Except Fault α :=
  match v[i]? with
  | some x => .ok x
  | none => .error .outOfRange

theorem vecAt_eq_ok {α : Type*} {v : List α} {i : ℕ} {x : α} :
    vecAt v i = .ok x ↔ v[i]? = some x := by
  unfold vecAt
  split <;> simp_all

theorem lt_of_vecAt_eq_ok {α : Type*} {v : List α} {i : ℕ} {x : α} (h : vecAt v i = .ok x) :
    i < v.length :=
  (List.getElem?_eq_some_iff.mp (vecAt_eq_ok.mp h)).1

theorem vecAt_singleton (v : ℕ) : vecAt [v] 0 = .ok v := rfl

/-- The value a `uint32_t` keeps. -/
def u32 (x : ℕ) : ℕ := x % 2 ^ 32

theorem u32_of_lt {x : ℕ} (h : x < 2 ^ 32) : u32 x = x := Nat.mod_eq_of_lt h

/-- `std::numeric_limits<size_t>::max()`. -/
def sizeMax : ℕ := 2 ^ 64 - 1

/-! ## The build and its environment -/

/-- The cache layouts of `envcfg.h`; `env_cache_shape` may return any other number too. -/
inductive CacheShape
  | raggedFlash
  | flash
  | qwen3NextFlash
  | dpskV32SparseMla
  | flashinfer
  | turboquant
  | qwen3NextFlashinfer
  | kimiK3Mla
  | other (code : ℤ)
  deriving DecidableEq, Repr

/-- What the build and the process environment fix. -/
structure EnvCfg where
  /-- asserts are compiled out, as in the wheels `setup.py` builds -/
  ndebug : Bool := true
  /-- `env_cache_shape` -/
  cacheShape : CacheShape := .raggedFlash
  /-- `env_bf162fp8_conversion` -/
  bf162fp8Conversion : Bool := false
  /-- `env_pad_last_attn_block` -/
  padLastAttnBlock : Bool := true
  deriving DecidableEq, Repr

/-- By default the build is a release build, without fp8 conversion, of RAGGED_FLASH. -/
theorem EnvCfg.release : ({} : EnvCfg).ndebug = true := rfl

theorem EnvCfg.fp8_off : ({} : EnvCfg).bf162fp8Conversion = false := rfl

theorem EnvCfg.ragged : ({} : EnvCfg).cacheShape = .raggedFlash := rfl

/-- `MAX_TP_SIZE`. -/
def maxTpSize : ℕ := 16

/-! ## Workers -/

/-- `WorkerInfo`: a worker's identity, its place in the tensor-parallel group and the geometry of
the cache it registered.  The fields after `addr` stay on the worker; the others are serialized. -/
structure WorkerInfo where
  instId : String := ""
  workerId : ℕ := 2 ^ 32 - 1
  engineTpSize : ℕ := 0
  workerTpRank : ℕ := 0
  blockSizes : List ℕ := []
  tokenSizes : List ℕ := []
  layerNumBlocks : ℕ := 1
  numLayers : ℕ := 1
  transferProtocols : ℕ := 0
  attnKernelBlkNtpb : ℕ := 0
  indexerBlkNtpb : ℕ := 0
  attnPackSize : ℕ := 1
  kdaPageStride : ℕ := 0
  addr : String := ""
  numKvHeads : ℤ := -1
  numGdnLayers : ℕ := 3
  hybridIndexerTokenSize : ℕ := 0
  gdnConvElemSize : ℕ := 1
  gdnSsmElemSize : ℕ := 1
  convStateShape : List ℕ := []
  ssmStateShape : List ℕ := []
  gdnConvChannelDims : List ℕ := []
  numPleLayers : ℕ := 0
  pleBlockGroup : ℕ := 0
  pleConvElemSize : ℕ := 1
  pleConvStateShape : List ℕ := []
  kdaConvDimFirst : Bool := false
  hybridAttnTokenSize : ℕ := 0
  deriving DecidableEq, Repr

/-! ## Requests -/

/-- `RequestInfo`, less its mutable state; `key` is the identity of the shared object. -/
structure RequestInfo where
  key : ℕ
  reqId : String
  srcBlocks : List (List ℕ)
  dstBlocks : List (List ℕ)
  deriving DecidableEq, Repr

/-- `ReqState`. -/
inductive ReqState
  | inprocess
  | ok
  | failed
  deriving DecidableEq, Repr

/-- `ReqSendTask`: tokens `[seenTokens, seenTokens + newTokens)` of a request. -/
structure ReqSendTask where
  req : RequestInfo
  seenTokens : ℕ
  newTokens : ℕ
  reachLastToken : Bool
  endTokens_lt : seenTokens + newTokens < 2 ^ 32
  deriving DecidableEq, Repr

/-- The first tokens of a request. -/
def ReqSendTask.first (req : RequestInfo) (newTokens : UInt32) (reachLastToken : Bool) :
    ReqSendTask :=
  ⟨req, 0, newTokens.toNat, reachLastToken, by rw [zero_add]; exact newTokens.toNat_lt⟩

theorem one_lt_u32 : 1 < 2 ^ 32 := by decide

/-- `ReqSendTask::end_tokens`. -/
def ReqSendTask.endTokens (t : ReqSendTask) : ℕ := t.seenTokens + t.newTokens

end LlumnixKv
