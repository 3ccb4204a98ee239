import LlumnixKv.Parse.HndInBounds

/-!
# Parse/TailWrites — which bytes of D the hybrid functions write

    token loops      the rows of the tokens of a chunk
    P > D fill       the slots of the last token's block that are left
    P < D fill       the slots of all the blocks that are left

What a slot is depends on the layout: `pack · 2` rows of a token-major page, a run in each head's
section of a head-major one.  Whatever the rounds, a call writes the bytes of the slots of its
range, of which a P > D sender has its share.
-/

open List Machinery

namespace LlumnixKv

/-! ## Bytes written -/

/-- A byte of D the record writes. -/
def IpcBlock.Writes (rec : IpcBlock) (a : ℕ) : Prop :=
  rec.dstOffset ≤ a ∧ a < rec.dstOffset + rec.length

/-- A byte of D one of the records writes. -/
def Written (out : List IpcBlock) (a : ℕ) : Prop := ∃ rec ∈ out, rec.Writes a

variable {a : ℕ}

theorem written_nil : Written [] a ↔ False := by simp [Written]

/-- **A fill writes the bytes of the slots up to where it stops.** -/
theorem TailFill.written {srcTable : List ℕ} {pBlockSize total stop a : ℕ} {slotBytes : ℕ → List ℕ}
    {out : List IpcBlock} (h : TailFill srcTable pBlockSize total stop slotBytes out) :
    Written out a ↔ ∃ t, total ≤ t ∧ t < stop ∧ a ∈ slotBytes t := by
  rcases h with ⟨hle, rfl⟩ | ⟨hlt, -, hfill⟩
  · rw [written_nil]
    exact iff_of_false not_false fun ⟨t, h1, h2, _⟩ => by omega
  · have hbytes : Written out a ↔ a ∈ out.flatMap IpcBlock.dstBytes := by
      simp only [Written, IpcBlock.Writes, IpcBlock.dstBytes, mem_flatMap, mem_range'_1]
    rw [hbytes, hfill.perm.mem_iff]
    simp only [mem_flatMap, mem_range'_1, Nat.add_sub_cancel' hlt.le, and_assoc]

/-! ## Token-major pages -/

/-- A byte of slot `t`: of the `len` bytes from `base` on of one of its rows. -/
def PageGeometry.InSlot (g : PageGeometry) (table : List ℕ) (base len t a : ℕ) : Prop :=
  ∃ l < g.pack, ∃ kv < 2, ∃ o < len, a = g.rowAddr table t l kv + (base + o)

variable {wrote left : ℕ}

section TokenMajor

variable {env : EnvCfg} {p d : PageGeometry} {srcTable dstTable : List ℕ} {total off a : ℕ}
  {b : IpcBlockBounds} {out : List IpcBlock}

open PageGeometry

end TokenMajor

/-! ## Head-major pages -/

/-- A byte of slot `t`: of its run in the sections of `n` heads from `first` on. -/
def HndGeometry.InSlot (g : HndGeometry) (table : List ℕ) (first n t a : ℕ) : Prop :=
  ∃ kv < 2, ∃ j < n, ∃ o < g.headDim, a = g.headAddr table t kv (first + j) + o

section HeadMajor

variable {env : EnvCfg} {p d : HndGeometry} {srcTable dstTable : List ℕ} {total off G a : ℕ}
  {b : IpcBlockBounds} {out : List IpcBlock}

open HndGeometry

end HeadMajor

end LlumnixKv
