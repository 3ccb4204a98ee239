import LlumnixKv.Ranks.ValidRanks

/-!
# Ranks/Dispatch — which parse function a destination gets

The end of `refresh_dst_info`: the cache shape and the two TP sizes pick a parse function and a
`TPKind`.  Shapes whose pages carry recurrent state compare the engine's TP size, the others the
effective one.  Some shapes have no function for P < D; together with the unknown shapes these are
the unsupported destinations (`Supported`).
-/

namespace LlumnixKv

/-- `TPKind`. -/
inductive TPKind
  | peqd
  | pltd
  | pgtd
  | unknown
  deriving DecidableEq, Repr

/-- The functions `parse_block` may point to. -/
inductive ParseFn
  | parseBlockSendPEqD
  | parseBlockSendPGtDDpsk
  | parseBlockSendPGtD
  | parseBlockSendPLtD
  | vllmParseBlockSendPEqD
  | vllmParseBlockSendPGtD
  | vllmParseHybridBlockSendPEqDBlockAligned
  | vllmParseHybridBlockSendPGtD
  | vllmParseHybridBlockSendPLtD
  | vllmParseBlockSendMultiTensorPEqD
  | vllmParseBlockSendMultiTensorPGtD
  | vllmParseBlockSendMultiTensorPLtD
  | vllmParseFlashinferBlockSendPEqD
  | vllmParseFlashinferBlockSendPGtD
  | vllmParseQwen3NextFlashinferBlockSendPEqD
  | vllmParseQwen3NextFlashinferBlockSendPGtD
  | vllmParseQwen3NextFlashinferBlockSendPLtD
  | parseKimiK3MlaBlockSendPEqD
  | parseKimiK3MlaBlockSendPGtD
  | parseKimiK3MlaBlockSendPLtD
  | turboquantParseBlockSendPEqD
  | turboquantParseBlockSendPGtD
  deriving DecidableEq, Repr

variable (cacheShape : CacheShape)

/-- `selection_p_tp`. -/
def selectionPTp (src : WorkerInfo) (effectiveKvtTpSize : ℕ) : ℕ :=
  match cacheShape with
  | .qwen3NextFlash | .qwen3NextFlashinfer | .kimiK3Mla => src.engineTpSize
  | _ => effectiveKvtTpSize

/-- `throw std::runtime_error("unsupported cache_shape")`. -/
def unsupported : Except Fault (ParseFn × TPKind) := .error (.runtime "unsupported cache_shape")

/-- Three functions for P = D, P > D and P < D. -/
def byTp (selPTp dstTp : ℕ) (eq gt lt : Except Fault (ParseFn × TPKind)) :
    Except Fault (ParseFn × TPKind) :=
  if selPTp = dstTp then eq else if dstTp < selPTp then gt else lt

/-- The dispatch of `refresh_dst_info`. -/
def selectParseBlock (src dst : WorkerInfo) (kvtTpSize : ℕ) : Except Fault (ParseFn × TPKind) :=
  let select := byTp (selectionPTp cacheShape src kvtTpSize) dst.engineTpSize
  match cacheShape with
  | .raggedFlash => select (.ok (.parseBlockSendPEqD, .peqd))
      (if src.tokenSizes = dst.tokenSizes then .ok (.parseBlockSendPGtDDpsk, .peqd)
        else .ok (.parseBlockSendPGtD, .pgtd))
      (.ok (.parseBlockSendPLtD, .pltd))
  | .flash => select (.ok (.vllmParseBlockSendPEqD, .peqd))
      (.ok (.vllmParseBlockSendPGtD, .pgtd)) unsupported
  | .qwen3NextFlash => select (.ok (.vllmParseHybridBlockSendPEqDBlockAligned, .peqd))
      (.ok (.vllmParseHybridBlockSendPGtD, .pgtd)) (.ok (.vllmParseHybridBlockSendPLtD, .pltd))
  | .dpskV32SparseMla => select (.ok (.vllmParseBlockSendMultiTensorPEqD, .peqd))
      (.ok (.vllmParseBlockSendMultiTensorPGtD, .peqd))
      (.ok (.vllmParseBlockSendMultiTensorPLtD, .peqd))
  | .flashinfer => select (.ok (.vllmParseFlashinferBlockSendPEqD, .peqd))
      (.ok (.vllmParseFlashinferBlockSendPGtD, .pgtd)) unsupported
  | .qwen3NextFlashinfer => select (.ok (.vllmParseQwen3NextFlashinferBlockSendPEqD, .peqd))
      (.ok (.vllmParseQwen3NextFlashinferBlockSendPGtD, .pgtd))
      (.ok (.vllmParseQwen3NextFlashinferBlockSendPLtD, .pltd))
  | .kimiK3Mla => select (.ok (.parseKimiK3MlaBlockSendPEqD, .peqd))
      (.ok (.parseKimiK3MlaBlockSendPGtD, .pgtd)) (.ok (.parseKimiK3MlaBlockSendPLtD, .pltd))
  | .turboquant => select (.ok (.turboquantParseBlockSendPEqD, .peqd))
      (.ok (.turboquantParseBlockSendPGtD, .pgtd)) unsupported
  | .other _ => unsupported

/-- The shape has a parse function for these TP sizes. -/
def Supported (selPTp dstTp : ℕ) : Prop :=
  match cacheShape with
  | .raggedFlash | .qwen3NextFlash | .dpskV32SparseMla | .qwen3NextFlashinfer | .kimiK3Mla => True
  | .flash | .flashinfer | .turboquant => dstTp ≤ selPTp
  | .other _ => False

/-- The dispatch found a function, and the `TPKind` that goes with it is known. -/
def Established (r : Except Fault (ParseFn × TPKind)) : Prop :=
  ∃ fn kind, r = .ok (fn, kind) ∧ kind ≠ .unknown

theorem established_ok (fn : ParseFn) {kind : TPKind} (h : kind ≠ .unknown := by decide) :
    Established (.ok (fn, kind)) := ⟨fn, kind, rfl, h⟩

section ByTp

variable {selPTp dstTp : ℕ} {eq gt lt : Except Fault (ParseFn × TPKind)}

theorem byTp_established (heq : Established eq) (hgt : Established gt) (hlt : Established lt) :
    Established (byTp selPTp dstTp eq gt lt) := by
  unfold byTp
  split_ifs
  · exact heq
  · exact hgt
  · exact hlt

theorem byTp_unsupported (heq : Established eq) (hgt : Established gt) :
    (dstTp ≤ selPTp ∧ Established (byTp selPTp dstTp eq gt unsupported)) ∨
    (¬dstTp ≤ selPTp ∧ byTp selPTp dstTp eq gt unsupported = unsupported) := by
  unfold byTp
  split_ifs with h1 h2
  · exact .inl ⟨h1.ge, heq⟩
  · exact .inl ⟨h2.le, hgt⟩
  · exact .inr ⟨by omega, rfl⟩

end ByTp

/-- **A supported destination gets a function and a known `TPKind`; the others throw.** -/
theorem selectParseBlock_cases (shape : CacheShape) (src dst : WorkerInfo) (kvtTpSize : ℕ) :
    (Supported shape (selectionPTp shape src kvtTpSize) dst.engineTpSize ∧
      Established (selectParseBlock shape src dst kvtTpSize)) ∨
    (¬Supported shape (selectionPTp shape src kvtTpSize) dst.engineTpSize ∧
      selectParseBlock shape src dst kvtTpSize = unsupported) := by
  cases shape with
  | raggedFlash =>
    refine .inl ⟨trivial, byTp_established (established_ok _) ?_ (established_ok _)⟩
    split
    · exact established_ok _
    · exact established_ok _
  | flash | flashinfer | turboquant =>
    exact byTp_unsupported (established_ok _) (established_ok _)
  | qwen3NextFlash | dpskV32SparseMla | qwen3NextFlashinfer | kimiK3Mla =>
    exact .inl ⟨trivial,
      byTp_established (established_ok _) (established_ok _) (established_ok _)⟩
  | other code => exact .inr ⟨not_false, rfl⟩

end LlumnixKv
