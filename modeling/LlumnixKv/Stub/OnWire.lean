import LlumnixKv.Foundations.WorkerText
import LlumnixKv.Stub.InBounds

/-!
# Stub/OnWire — what a parse function reads of the destination

    dst  --to_string-->  text  --from_string-->  dst.onWire

A sender knows a destination by its text, which leaves the local-only fields out and says 1 for a pack
size of 0.  A function that reads only what the text carries returns the same for `dst` and for
`dst.onWire` (`ReadsWire`); in a release build this is so of every parse function.  In a debug build two
assertions see more: `parse_replicated_mla_blocks` compares `dst.hybrid_attn_token_size`, which is 0 in
every info read from a text, with the sender's own, and some functions compare the pack sizes before a 0
is replaced by 1.
-/

open Machinery

namespace LlumnixKv

/-! ## Functions of the text -/

/-- A function that reads nothing of an info but what its text carries: no local-only field, and
nothing that tells a pack size of 0 from 1. -/
structure ReadsWire {β : Type} (f : WorkerInfo → β) : Prop where
  serialized : ∀ d : WorkerInfo, f d.serialized = f d
  packOne : ∀ d : WorkerInfo, f { d with attnPackSize := 1 } = f { d with attnPackSize := 0 }

namespace ReadsWire

variable {β : Type} {f : WorkerInfo → β}

theorem packed (h : ReadsWire f) (d : WorkerInfo) : f d.packed = f d := by
  by_cases hpack : d.attnPackSize = 0
  · rw [WorkerInfo.packed, if_pos hpack, h.packOne d, ← hpack]
  · rw [WorkerInfo.packed, if_neg hpack]

end ReadsWire

/-! ## The parse functions -/

variable {fn : ParseFn}

section Functions

variable {env : EnvCfg} {src : WorkerInfo} {validRanks : BitVec maxTpSize}
  {kvtTpSize kvtTpRank : ℕ} {task : ReqSendTask} {d : WorkerInfo}

/-- The rank is one of those that send to the destination. -/
def Sends (src : WorkerInfo) (validRanks : BitVec maxTpSize) : Prop :=
  src.workerTpRank < maxTpSize ∧ validRanks.getLsbD src.workerTpRank = true

end Functions

/-! ## The selected function -/

section Selected

variable {env : EnvCfg} {src dst : WorkerInfo} {validRanks : BitVec maxTpSize}
  {kvtTpSize kvtTpRank : ℕ} {task : ReqSendTask}

end Selected

end LlumnixKv
