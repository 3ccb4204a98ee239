import LlumnixKv.Parse.HybridInBounds

/-!
# Parse/HndInBounds — …with the heads outside the tokens

The attention parts of QWEN3_NEXT_FLASHINFER, P > D and the sliced P < D: the runs of the heads, and
the zeros after the last token in the section of each.
-/

open Machinery

namespace LlumnixKv

open HndGeometry

section HeadMajor

variable {env : EnvCfg} {narrow wide : WorkerInfo} {n w : HndGeometry} {G off : ℕ}
  {task : ReqSendTask} {narrowTable wideTable : List ℕ} {b : IpcBlockBounds}

end HeadMajor

end LlumnixKv
