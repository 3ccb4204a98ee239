import LlumnixKv.Parse.Memory

/-!
# Channel/CopyKernels — moving blocks between a staging buffer and a tensor

    host     | b₀ | b₁ | b₂ | …         the blocks end to end, in the order of the list
    tensor   … b₁ … b₀ … b₂ …          each at its dst_offset

`copy_handle_data_with_kernel` moves the blocks in one of several ways — a loop of `cudaMemcpyAsync`,
a kernel, a mixture, each in batches — that a profile chooses.  A method is modelled by the calls it
makes (`CopyOp`), and a call by its copies: a record from the offset in the host buffer to the offset in
the tensor.  Whatever is chosen, the copies are those of `hostBlocks`, in some order, and no kernel is
given more entries than the limit (`copyHandleDataWithKernel_spec`).
-/

open List Machinery

namespace LlumnixKv

open HybridTransfer (DisjointDst)

/-- The bytes of a list of blocks. -/
def totalLength (blocks : List IpcBlock) : ℕ := (blocks.map (·.length)).sum

@[simp] theorem totalLength_nil : totalLength [] = 0 := rfl

@[simp] theorem totalLength_cons (b : IpcBlock) (bs : List IpcBlock) :
    totalLength (b :: bs) = b.length + totalLength bs := rfl

/-- The blocks laid end to end in a host buffer, from `off` on: from there to the tensor. -/
def hostBlocks : ℕ → List IpcBlock → List IpcBlock
  | _, [] => []
  | off, b :: bs => ⟨off, b.dstOffset, b.length⟩ :: hostBlocks (off + b.length) bs

/-! ## Which method -/

/-- `CopyMethod`. -/
inductive CopyMethod
  | kernel
  | memcpyLoop
  deriving DecidableEq, Repr

/-- `CopyDirection`. -/
inductive CopyDirection
  | h2d
  | d2h
  deriving DecidableEq, Repr

/-- The globals of `copy_kernels.cpp`: the profile, and the limits of the environment. -/
structure CopyConfig where
  copyProfileEnabled : Bool := false
  /-- by direction, bucket of the block count and bucket of the block size -/
  copyProfileTable : List ((CopyDirection × ℕ × ℕ) × CopyMethod) := []
  copyProfileBlockCounts : List ℕ := []
  copyProfileBlockSizes : List ℕ := []
  memcpyFallbackBlockThreshold : ℕ := 256 * 1024
  memcpyFallbackMaxBlocks : ℕ := 16
  /-- `env_kernel_copy_max_block_num`, read by `env2posint` -/
  kernelCopyMaxBlockNum : ℕ := 8192
  maxBlockNum_pos : 0 < kernelCopyMaxBlockNum := by decide

/-- `upper_bucket`: the first bucket that is large enough, or the last. -/
def upperBucket (buckets : List ℕ) (value : ℕ) : ℕ :=
  match buckets.find? (value ≤ ·) with
  | some b => b
  | none => buckets.getLast?.getD 0

/-- `CopyLayoutSummary`. -/
structure CopyLayoutSummary where
  numBlocks : ℕ := 0
  avgBlockSize : ℕ := 0
  maxBlockSize : ℕ := 0
  allSameSize : Bool := true
  deriving DecidableEq, Repr

/-- `summarize_layout`. -/
def summarizeLayout (blocks : List IpcBlock) : CopyLayoutSummary :=
  match blocks with
  | [] => {}
  | first :: _ =>
    { numBlocks := blocks.length
      avgBlockSize := totalLength blocks % 2 ^ 64 / blocks.length
      maxBlockSize := (blocks.map (·.length)).foldl max 0
      allSameSize := blocks.all (·.length = first.length) }

section Selection

variable (cfg : CopyConfig) (direction : CopyDirection)

/-- The entry of the profile, if it is in use. -/
def profiled (countBucket sizeBucket : ℕ) : Option CopyMethod :=
  if cfg.copyProfileEnabled then cfg.copyProfileTable.lookup (direction, countBucket, sizeBucket)
  else none

/-- `select_copy_method`. -/
def selectCopyMethod (blocks : List IpcBlock) : CopyMethod :=
  let summary := summarizeLayout blocks
  if summary.numBlocks = 0 then .kernel
  else match profiled cfg direction
      (upperBucket cfg.copyProfileBlockCounts summary.numBlocks)
      (upperBucket cfg.copyProfileBlockSizes
        (if summary.allSameSize then summary.maxBlockSize else summary.avgBlockSize)) with
  | some method => method
  | none =>
    if summary.numBlocks ≤ cfg.memcpyFallbackMaxBlocks ∧ 64 * 1024 ≤ summary.avgBlockSize then
      .memcpyLoop
    else if cfg.memcpyFallbackBlockThreshold ≤ summary.maxBlockSize ∧
        summary.numBlocks ≤ cfg.memcpyFallbackMaxBlocks then .memcpyLoop
    else .kernel

/-- `select_single_block_method`. -/
def selectSingleBlockMethod (blockSize : ℕ) : CopyMethod :=
  match profiled cfg direction 1 (upperBucket cfg.copyProfileBlockSizes blockSize) with
  | some method => method
  | none => if cfg.memcpyFallbackBlockThreshold ≤ blockSize then .memcpyLoop else .kernel

end Selection

/-! ## The methods -/

/-- A copy, with the host offset taken from the start of a batch. -/
def IpcBlock.shift (tensorOffset : ℕ) (op : IpcBlock) : IpcBlock :=
  { op with srcOffset := tensorOffset + op.srcOffset }

/-- A call that copies: one `cudaMemcpyAsync`, or a launch with the three arrays of offsets and lengths,
whose host offsets count from `base` on. -/
inductive CopyOp
  | memcpy (b : IpcBlock)
  | launch (base : ℕ) (arrays : List IpcBlock)
  deriving DecidableEq, Repr

/-- The copies of a call. -/
def CopyOp.copies : CopyOp → List IpcBlock
  | .memcpy b => [b]
  | .launch base arrays => arrays.map (IpcBlock.shift base)

/-- The entries of the arrays a call is given. -/
def CopyOp.arraySize : CopyOp → ℕ
  | .memcpy _ => 0
  | .launch _ arrays => arrays.length

section Methods

variable (ndebug : Bool)

/-- The loop of `enqueue_memcpy_loop`, at `tensorOffset` of the host buffer. -/
def memcpyLoop (size : ℕ) : ℕ → List IpcBlock → Except Fault (List IpcBlock)
  | tensorOffset, [] => do
    cassert ndebug (tensorOffset = size)
    return []
  | tensorOffset, b :: bs => do
    cassert ndebug (0 < b.length)
    cassert ndebug (tensorOffset + b.length ≤ size)
    return ⟨tensorOffset, b.dstOffset, b.length⟩ :: (← memcpyLoop size (tensorOffset + b.length) bs)

/-- `enqueue_memcpy_loop`. -/
def enqueueMemcpyLoop (blocks : List IpcBlock) (size : ℕ) : Except Fault (List CopyOp) := do
  return (← memcpyLoop ndebug size 0 blocks).map .memcpy

/-- The loop of `copy_handle_data_kernel_direct`, which fills the offsets the kernel copies by. -/
def kernelOffsets (size : ℕ) (useExplicitHostOffsets : Bool) :
    ℕ → List IpcBlock → Except Fault (List IpcBlock)
  | tensorOffset, [] => do
    cassert ndebug (useExplicitHostOffsets = true ∨ tensorOffset = size)
    return []
  | tensorOffset, b :: bs => do
    cassert ndebug (0 < b.length)
    cassert ndebug (tensorOffset + b.length ≤ size)
    let hostOffset := if useExplicitHostOffsets then b.srcOffset else tensorOffset
    cassert ndebug (hostOffset + b.length ≤ size)
    return ⟨hostOffset, b.dstOffset, b.length⟩ ::
      (← kernelOffsets size useExplicitHostOffsets (tensorOffset + b.length) bs)

/-- `copy_handle_data_kernel_direct`: one launch, `base` bytes into the host buffer. -/
def copyHandleDataKernelDirect (base : ℕ) (blocks : List IpcBlock) (size : ℕ)
    (useExplicitHostOffsets : Bool) : Except Fault (List CopyOp) :=
  if blocks = [] then .ok []
  else do return [.launch base (← kernelOffsets ndebug size useExplicitHostOffsets 0 blocks)]

/-- The batches of a launch loop: `max` blocks each, but the last. -/
def inBatches (max : ℕ) : ℕ → List IpcBlock → List (List IpcBlock)
  | 0, _ => []
  | _ + 1, [] => []
  | fuel + 1, b :: bs => (b :: bs).take max :: inBatches max fuel ((b :: bs).drop max)

/-- `enqueue_kernel_explicit_offsets`. -/
def enqueueKernelExplicitOffsets (max : ℕ) (blocks : List IpcBlock) (size : ℕ) :
    Except Fault (List CopyOp) :=
  emitAll (fun batch => copyHandleDataKernelDirect ndebug 0 batch size true)
    (inBatches max blocks.length blocks)

/-- The loop of `enqueue_hybrid_copy`: the blocks it copies itself, and those it leaves to the
kernel. -/
def hybridSplit (cfg : CopyConfig) (direction : CopyDirection) :
    ℕ → List IpcBlock → List IpcBlock × List IpcBlock
  | _, [] => ([], [])
  | tensorOffset, b :: bs =>
    let rest := hybridSplit cfg direction (tensorOffset + b.length) bs
    if selectSingleBlockMethod cfg direction b.length = .memcpyLoop then
      (⟨tensorOffset, b.dstOffset, b.length⟩ :: rest.1, rest.2)
    else (rest.1, ⟨tensorOffset, b.dstOffset, b.length⟩ :: rest.2)

/-- `enqueue_hybrid_copy`; `none` when it leaves the blocks unhandled. -/
def enqueueHybridCopy (cfg : CopyConfig) (direction : CopyDirection) (blocks : List IpcBlock)
    (size : ℕ) : Except Fault (Option (List CopyOp)) :=
  let split := hybridSplit cfg direction 0 blocks
  if split.1 = [] then .ok none
  else do
    let launched ← enqueueKernelExplicitOffsets ndebug cfg.kernelCopyMaxBlockNum split.2 size
    return some (split.1.map .memcpy ++ launched)

/-- The batched kernel launches of `copy_handle_data_with_kernel`, each with the pointer moved to where
its batch starts. -/
def kernelBatches : ℕ → List (List IpcBlock) → Except Fault (List CopyOp)
  | _, [] => .ok []
  | tensorOffset, batch :: rest => do
    let launched ← copyHandleDataKernelDirect ndebug tensorOffset (hostBlocks 0 batch)
      (totalLength batch) false
    let more ← kernelBatches (tensorOffset + totalLength batch) rest
    return launched ++ more

/-- The launches of `copy_handle_data_with_kernel`: one, or in batches. -/
def launchKernels (cfg : CopyConfig) (blocks : List IpcBlock) (size : ℕ) :
    Except Fault (List CopyOp) :=
  if blocks.length ≤ cfg.kernelCopyMaxBlockNum then
    copyHandleDataKernelDirect ndebug 0 blocks size false
  else kernelBatches ndebug 0 (inBatches cfg.kernelCopyMaxBlockNum blocks.length blocks)

/-- **`copy_handle_data_with_kernel`**: the calls it makes, in order. -/
def copyHandleDataWithKernel (cfg : CopyConfig) (direction : CopyDirection)
    (blocks : List IpcBlock) (size : ℕ) : Except Fault (List CopyOp) :=
  if blocks = [] then .ok []
  else if selectCopyMethod cfg direction blocks = .memcpyLoop then
    enqueueMemcpyLoop ndebug blocks size
  else if (summarizeLayout blocks).allSameSize then launchKernels ndebug cfg blocks size
  else do
    match ← enqueueHybridCopy ndebug cfg direction blocks size with
    | some ops => return ops
    | none => launchKernels ndebug cfg blocks size

end Methods

/-! ## Blocks end to end -/

theorem totalLength_append (xs ys : List IpcBlock) :
    totalLength (xs ++ ys) = totalLength xs + totalLength ys := by
  rw [totalLength, map_append, sum_append]
  rfl

theorem totalLength_perm {xs ys : List IpcBlock} (h : xs.Perm ys) :
    totalLength xs = totalLength ys := (h.map _).sum_nat

theorem totalLength_hostBlocks : ∀ (off : ℕ) (bs : List IpcBlock),
    totalLength (hostBlocks off bs) = totalLength bs
  | _, [] => rfl
  | off, b :: bs => by
      rw [hostBlocks, totalLength_cons, totalLength_cons, totalLength_hostBlocks _ bs]

theorem hostBlocks_append : ∀ (off : ℕ) (xs ys : List IpcBlock),
    hostBlocks off (xs ++ ys) = hostBlocks off xs ++ hostBlocks (off + totalLength xs) ys
  | _, [], _ => rfl
  | off, x :: xs, ys => by
      rw [cons_append, hostBlocks, hostBlocks, hostBlocks_append _ xs ys, totalLength_cons,
        add_assoc, cons_append]

theorem hostBlocks_hostBlocks : ∀ (off off' : ℕ) (bs : List IpcBlock),
    hostBlocks off (hostBlocks off' bs) = hostBlocks off bs
  | _, _, [] => rfl
  | off, off', b :: bs => by rw [hostBlocks, hostBlocks, hostBlocks_hostBlocks _ _ bs, hostBlocks]

theorem map_shift_hostBlocks (tensorOffset : ℕ) : ∀ (off : ℕ) (bs : List IpcBlock),
    (hostBlocks off bs).map (IpcBlock.shift tensorOffset) = hostBlocks (tensorOffset + off) bs
  | _, [] => rfl
  | off, b :: bs => by
      rw [hostBlocks, map_cons, map_shift_hostBlocks tensorOffset _ bs, hostBlocks,
        add_assoc, IpcBlock.shift]

theorem length_hostBlocks : ∀ (off : ℕ) (bs : List IpcBlock),
    (hostBlocks off bs).length = bs.length
  | _, [] => rfl
  | off, b :: bs => by
      rw [hostBlocks, length_cons, length_hostBlocks (off + b.length) bs, length_cons]

/-- Each stays inside the buffer. -/
theorem hostBlocks_bounds {op : IpcBlock} : ∀ {off : ℕ} {bs : List IpcBlock},
    op ∈ hostBlocks off bs → off ≤ op.srcOffset ∧ op.srcOffset + op.length ≤ off + totalLength bs
  | off, b :: bs, h => by
      rw [totalLength_cons]
      rcases mem_cons.mp h with rfl | h
      · exact ⟨le_rfl, Nat.add_le_add_left (Nat.le_add_right _ _) off⟩
      · have hrest := hostBlocks_bounds h
        omega

theorem pairwise_hostBlocks : ∀ (off : ℕ) (bs : List IpcBlock),
    (hostBlocks off bs).Pairwise fun x y => x.srcOffset + x.length ≤ y.srcOffset
  | _, [] => .nil
  | off, b :: bs => pairwise_cons.mpr
      ⟨fun _ hop => (hostBlocks_bounds hop).1, pairwise_hostBlocks (off + b.length) bs⟩

theorem exists_of_mem_hostBlocks {op : IpcBlock} : ∀ {off : ℕ} {bs : List IpcBlock},
    op ∈ hostBlocks off bs → ∃ b ∈ bs, op.dstOffset = b.dstOffset ∧ op.length = b.length
  | _, b :: _, h => by
      rcases mem_cons.mp h with rfl | h
      · exact ⟨b, mem_cons_self, rfl, rfl⟩
      · obtain ⟨b', hb', heq⟩ := exists_of_mem_hostBlocks h
        exact ⟨b', mem_cons_of_mem _ hb', heq⟩

/-- Blocks apart in the tensor stay apart. -/
theorem pairwise_disjointDst_hostBlocks : ∀ {off : ℕ} {blocks : List IpcBlock},
    blocks.Pairwise DisjointDst → (hostBlocks off blocks).Pairwise DisjointDst
  | _, [], _ => .nil
  | off, b :: bs, h => by
      obtain ⟨hb, hbs⟩ := pairwise_cons.mp h
      refine pairwise_cons.mpr ⟨fun op hop => ?_, pairwise_disjointDst_hostBlocks hbs⟩
      obtain ⟨b', hb', hdst, hlen⟩ := exists_of_mem_hostBlocks hop
      have hapart : b.dstOffset + b.length ≤ b'.dstOffset ∨
        b'.dstOffset + b'.length ≤ b.dstOffset := hb b' hb'
      unfold DisjointDst
      simp only
      omega

/-- **Together they cover it.** -/
theorem exists_hostBlock {i : ℕ} : ∀ {off : ℕ} {bs : List IpcBlock},
    off ≤ i → i < off + totalLength bs →
    ∃ op ∈ hostBlocks off bs, op.srcOffset ≤ i ∧ i < op.srcOffset + op.length
  | off, [], hi, hi' => by
      rw [totalLength_nil] at hi'
      omega
  | off, b :: bs, hi, hi' => by
      rw [totalLength_cons] at hi'
      by_cases h : i < off + b.length
      · exact ⟨_, mem_cons_self, hi, h⟩
      · have hi'' : i < off + b.length + totalLength bs := by omega
        obtain ⟨op, hop, hrange⟩ := exists_hostBlock (Nat.le_of_not_lt h) hi''
        exact ⟨op, mem_cons_of_mem _ hop, hrange⟩

/-! ## Every method makes the same copies -/

/-- The arrays of the launches stay within the limit. -/
def WithinLimit (max : ℕ) (ops : List CopyOp) : Prop := ∀ op ∈ ops, op.arraySize ≤ max

/-- The calls make these copies, within the limit. -/
structure Copies (max : ℕ) (ops : List CopyOp) (copies : List IpcBlock) : Prop where
  eq : ops.flatMap CopyOp.copies = copies
  limit : WithinLimit max ops

section Same

variable {ndebug : Bool} {size max : ℕ} {bs batch : List IpcBlock}

theorem copies_nil : Copies max [] [] := ⟨rfl, fun _ h => absurd h not_mem_nil⟩

theorem Copies.append {ops ops' : List CopyOp} {bs bs' : List IpcBlock} (h : Copies max ops bs)
    (h' : Copies max ops' bs') : Copies max (ops ++ ops') (bs ++ bs') :=
  ⟨by rw [flatMap_append, h.eq, h'.eq], forall_mem_append.mpr ⟨h.limit, h'.limit⟩⟩

theorem copies_memcpy (bs : List IpcBlock) : Copies max (bs.map .memcpy) bs := by
  refine ⟨?_, fun op hop => ?_⟩
  · rw [flatMap_map]
    exact flatMap_singleton' bs
  · obtain ⟨b, -, rfl⟩ := mem_map.mp hop
    exact Nat.zero_le _

theorem copies_launch (base : ℕ) {arrays : List IpcBlock} (h : arrays.length ≤ max) :
    Copies max [.launch base arrays] (arrays.map (IpcBlock.shift base)) :=
  ⟨append_nil _, forall_mem_singleton.mpr h⟩

theorem memcpyLoop_eq : ∀ (off : ℕ) (bs : List IpcBlock),
    (ndebug = true ∨ (∀ b ∈ bs, 0 < b.length) ∧ off + totalLength bs = size) →
    memcpyLoop ndebug size off bs = .ok (hostBlocks off bs)
  | off, [], h => by
      have hend : cassert ndebug (off = size) = .ok () :=
        cassert_eq_ok.mpr (h.imp_right fun h => h.2)
      rw [memcpyLoop, hend, ok_bind]
      rfl
  | off, b :: bs, h => by
      have hpos : cassert ndebug (0 < b.length) = .ok () :=
        cassert_eq_ok.mpr (h.imp_right fun h => h.1 b mem_cons_self)
      have hfits : cassert ndebug (off + b.length ≤ size) = .ok () :=
        cassert_eq_ok.mpr (h.imp_right fun h => by
          have := h.2
          rw [totalLength_cons] at this
          omega)
      have hrest := memcpyLoop_eq (off + b.length) bs (h.imp_right fun h =>
        ⟨fun b hb => h.1 b (mem_cons_of_mem _ hb), by rw [← h.2, totalLength_cons]; omega⟩)
      rw [memcpyLoop, hpos, ok_bind, hfits, ok_bind, hrest]
      rfl

/-- Without explicit offsets the third assertion repeats the second. -/
theorem kernelOffsets_eq : ∀ (off : ℕ) (bs : List IpcBlock),
    kernelOffsets ndebug size false off bs = memcpyLoop ndebug size off bs
  | off, [] => by simp only [kernelOffsets, memcpyLoop, Bool.false_eq_true, false_or]
  | off, b :: bs => by
      rw [kernelOffsets, memcpyLoop, kernelOffsets_eq (off + b.length) bs]
      cases hfits : cassert ndebug (off + b.length ≤ size) with
      | error f => rfl
      | ok u => simp only [hfits, Bool.false_eq_true, if_false, ok_bind]

/-- With explicit offsets the copies are the blocks. -/
theorem kernelOffsets_explicit : ∀ (off : ℕ) (bs : List IpcBlock),
    (ndebug = true ∨ (∀ b ∈ bs, 0 < b.length ∧ b.srcOffset + b.length ≤ size) ∧
      off + totalLength bs ≤ size) →
    kernelOffsets ndebug size true off bs = .ok bs
  | off, [], _ => by
      rw [kernelOffsets, cassert_of (.inl rfl), ok_bind]
      rfl
  | off, b :: bs, h => by
      have hpos : cassert ndebug (0 < b.length) = .ok () :=
        cassert_eq_ok.mpr (h.imp_right fun h => (h.1 b mem_cons_self).1)
      have hfits : cassert ndebug (off + b.length ≤ size) = .ok () :=
        cassert_eq_ok.mpr (h.imp_right fun h => by
          have := h.2
          rw [totalLength_cons] at this
          omega)
      have hhost : cassert ndebug (b.srcOffset + b.length ≤ size) = .ok () :=
        cassert_eq_ok.mpr (h.imp_right fun h => (h.1 b mem_cons_self).2)
      have hrest := kernelOffsets_explicit (off + b.length) bs
        (h.imp_right fun h => ⟨fun b hb => h.1 b (mem_cons_of_mem _ hb), by
          have := h.2
          rw [totalLength_cons] at this
          omega⟩)
      rw [kernelOffsets, hpos, ok_bind, hfits, ok_bind]
      change (do
        cassert ndebug (b.srcOffset + b.length ≤ size)
        return IpcBlock.mk b.srcOffset b.dstOffset b.length ::
          (← kernelOffsets ndebug size true (off + b.length) bs)) = _
      rw [hhost, ok_bind, hrest]
      rfl

/-- A batch has at most `max` blocks. -/
theorem length_le_of_mem_inBatches : ∀ {fuel : ℕ}
    {bs : List IpcBlock}, batch ∈ inBatches max fuel bs → batch.length ≤ max
  | 0, _, h => absurd h not_mem_nil
  | _ + 1, [], h => absurd h not_mem_nil
  | fuel + 1, b :: bs, h => by
      rcases mem_cons.mp h with rfl | h
      · exact length_take_le _ _
      · exact length_le_of_mem_inBatches h

theorem flatten_inBatches (hmax : 0 < max) : ∀ {fuel : ℕ} {bs : List IpcBlock},
    bs.length ≤ fuel → (inBatches max fuel bs).flatten = bs
  | 0, [], _ => rfl
  | _ + 1, [], _ => rfl
  | fuel + 1, b :: bs, h => by
      have hdrop : ((b :: bs).drop max).length ≤ fuel := by
        rw [length_drop]
        omega
      rw [inBatches, flatten_cons, flatten_inBatches hmax hdrop, take_append_drop]

theorem map_shift_zero (bs : List IpcBlock) : bs.map (IpcBlock.shift 0) = bs := by
  conv_rhs => rw [← map_id bs]
  exact map_congr_left fun b _ => by rw [IpcBlock.shift, zero_add]; rfl

/-- One launch, the blocks end to end from `base` on. -/
theorem exists_kernelDirect (base : ℕ) (hmax : bs.length ≤ max)
    (h : ndebug = true ∨ (∀ b ∈ bs, 0 < b.length) ∧ totalLength bs = size) :
    ∃ ops, copyHandleDataKernelDirect ndebug base bs size false = .ok ops ∧
      Copies max ops (hostBlocks base bs) := by
  unfold copyHandleDataKernelDirect
  split
  · next hnil =>
    rw [hnil]
    exact ⟨[], rfl, copies_nil⟩
  · rw [kernelOffsets_eq, memcpyLoop_eq 0 bs (by rwa [zero_add])]
    have hcopies := copies_launch base ((length_hostBlocks 0 bs).trans_le hmax)
    rw [map_shift_hostBlocks, add_zero] at hcopies
    exact ⟨_, rfl, hcopies⟩

/-- One launch, the host offsets given. -/
theorem exists_kernelDirect_explicit (hmax : bs.length ≤ max)
    (h : ndebug = true ∨ (∀ b ∈ bs, 0 < b.length ∧ b.srcOffset + b.length ≤ size) ∧
      totalLength bs ≤ size) :
    ∃ ops, copyHandleDataKernelDirect ndebug 0 bs size true = .ok ops ∧ Copies max ops bs := by
  unfold copyHandleDataKernelDirect
  split
  · next hnil =>
    rw [hnil]
    exact ⟨[], rfl, copies_nil⟩
  · rw [kernelOffsets_explicit 0 bs (by rwa [zero_add])]
    have hcopies := copies_launch 0 hmax
    rw [map_shift_zero] at hcopies
    exact ⟨_, rfl, hcopies⟩

theorem totalLength_le_flatten : ∀ {batches : List (List IpcBlock)},
    batch ∈ batches → totalLength batch ≤ totalLength batches.flatten
  | b :: bs, h => by
      rw [flatten_cons, totalLength_append]
      rcases mem_cons.mp h with rfl | h
      · exact Nat.le_add_right _ _
      · exact (totalLength_le_flatten h).trans (Nat.le_add_left _ _)

/-- Launches one after the other make the copies of all. -/
theorem exists_launches {f : List IpcBlock → Except Fault (List CopyOp)} :
    ∀ {batches : List (List IpcBlock)},
    (∀ batch ∈ batches, ∃ ops, f batch = .ok ops ∧ Copies max ops batch) →
    ∃ ops, emitAll f batches = .ok ops ∧ Copies max ops batches.flatten
  | [], _ => ⟨[], rfl, copies_nil⟩
  | batch :: rest, h => by
      obtain ⟨hbatch, hrest⟩ := forall_mem_cons.mp h
      obtain ⟨ops, hops, hcopies⟩ := hbatch
      obtain ⟨more, hmore, hcopies'⟩ := exists_launches hrest
      refine ⟨ops ++ more, ?_, hcopies.append hcopies'⟩
      rw [emitAll, hops, hmore]
      rfl

theorem exists_kernelExplicitOffsets (hmax : 0 < max)
    (h : ndebug = true ∨ (∀ b ∈ bs, 0 < b.length ∧ b.srcOffset + b.length ≤ size) ∧
      totalLength bs ≤ size) :
    ∃ ops, enqueueKernelExplicitOffsets ndebug max bs size = .ok ops ∧ Copies max ops bs := by
  have hflat : (inBatches max bs.length bs).flatten = bs := flatten_inBatches hmax le_rfl
  have hlaunches : ∃ ops, enqueueKernelExplicitOffsets ndebug max bs size = .ok ops ∧
      Copies max ops (inBatches max bs.length bs).flatten := by
    refine exists_launches fun batch hb => exists_kernelDirect_explicit
      (length_le_of_mem_inBatches hb) (h.imp_right fun h => ⟨fun b hbb => ?_, ?_⟩)
    · exact h.1 b (hflat ▸ mem_flatten.mpr ⟨batch, hb, hbb⟩)
    · exact (totalLength_le_flatten hb).trans (hflat.symm ▸ h.2)
  rwa [hflat] at hlaunches

/-- The two halves of the mixture are the copies, in some order. -/
theorem hybridSplit_perm (cfg : CopyConfig) (direction : CopyDirection) :
    ∀ (off : ℕ) (bs : List IpcBlock),
    ((hybridSplit cfg direction off bs).1 ++ (hybridSplit cfg direction off bs).2).Perm
      (hostBlocks off bs)
  | _, [] => .nil
  | off, b :: bs => by
      have hrest := hybridSplit_perm cfg direction (off + b.length) bs
      by_cases hm : selectSingleBlockMethod cfg direction b.length = .memcpyLoop
      · simp only [hybridSplit, hostBlocks, if_pos hm]
        exact hrest.cons _
      · simp only [hybridSplit, hostBlocks, if_neg hm]
        exact perm_middle.trans (hrest.cons _)

theorem exists_kernelBatches : ∀ (off : ℕ) {batches : List (List IpcBlock)},
    (∀ batch ∈ batches, batch.length ≤ max) →
    (ndebug = true ∨ ∀ b ∈ batches.flatten, 0 < b.length) →
    ∃ ops, kernelBatches ndebug off batches = .ok ops ∧
      Copies max ops (hostBlocks off batches.flatten)
  | _, [], _, _ => ⟨[], rfl, copies_nil⟩
  | off, batch :: rest, hmax, h => by
      obtain ⟨hbatch, hrest⟩ := forall_mem_cons.mp hmax
      have hfirst : ndebug = true ∨ (∀ b ∈ hostBlocks 0 batch, 0 < b.length) ∧
          totalLength (hostBlocks 0 batch) = totalLength batch := by
        refine h.imp_right fun h => ⟨fun op hop => ?_, totalLength_hostBlocks 0 batch⟩
        obtain ⟨b, hb, -, hlen⟩ := exists_of_mem_hostBlocks hop
        exact hlen ▸ h b (mem_flatten.mpr ⟨batch, mem_cons_self, hb⟩)
      obtain ⟨ops, hops, hcopies⟩ :=
        exists_kernelDirect off ((length_hostBlocks 0 batch).trans_le hbatch) hfirst
      obtain ⟨more, hmore, hcopies'⟩ := exists_kernelBatches (off + totalLength batch) hrest
        (h.imp_right fun h b hb => h b (mem_append_right batch hb))
      rw [hostBlocks_hostBlocks] at hcopies
      refine ⟨ops ++ more, ?_, ?_⟩
      · rw [kernelBatches, hops, ok_bind, hmore]
        rfl
      · rw [flatten_cons, hostBlocks_append]
        exact hcopies.append hcopies'

/-- **Whatever the profile chooses, the copies are those of the blocks end to end**, in some order. -/
theorem copyHandleDataWithKernel_spec (ndebug : Bool) (cfg : CopyConfig) (direction : CopyDirection)
    (bs : List IpcBlock) (size : ℕ)
    (h : ndebug = true ∨ (∀ b ∈ bs, 0 < b.length) ∧ totalLength bs = size) :
    ∃ ops, copyHandleDataWithKernel ndebug cfg direction bs size = .ok ops ∧
      WithinLimit cfg.kernelCopyMaxBlockNum ops ∧
      (ops.flatMap CopyOp.copies).Perm (hostBlocks 0 bs) := by
  suffices h : ∃ ops copies, copyHandleDataWithKernel ndebug cfg direction bs size = .ok ops ∧
      Copies cfg.kernelCopyMaxBlockNum ops copies ∧ copies.Perm (hostBlocks 0 bs) by
    obtain ⟨ops, copies, hops, hcopies, hperm⟩ := h
    exact ⟨ops, hops, hcopies.limit, hcopies.eq ▸ hperm⟩
  have hkernel : ∃ ops copies, launchKernels ndebug cfg bs size = .ok ops ∧
      Copies cfg.kernelCopyMaxBlockNum ops copies ∧ copies.Perm (hostBlocks 0 bs) := by
    unfold launchKernels
    split
    · next hlen =>
      obtain ⟨ops, hops, hcopies⟩ := exists_kernelDirect 0 hlen h
      exact ⟨ops, _, hops, hcopies, .refl _⟩
    · have hflat : (inBatches cfg.kernelCopyMaxBlockNum bs.length bs).flatten = bs :=
        flatten_inBatches cfg.maxBlockNum_pos le_rfl
      obtain ⟨ops, hops, hcopies⟩ := exists_kernelBatches 0
        (fun batch hbatch => length_le_of_mem_inBatches hbatch)
        (h.imp_right fun h b hb => h.1 b (hflat ▸ hb))
      exact ⟨ops, _, hops, hcopies, by rw [hflat]⟩
  unfold copyHandleDataWithKernel
  split
  · next hnil =>
    rw [hnil]
    exact ⟨[], [], rfl, copies_nil, .nil⟩
  split
  · refine ⟨_, _, ?_, copies_memcpy (hostBlocks 0 bs), .refl _⟩
    rw [enqueueMemcpyLoop, memcpyLoop_eq 0 bs (by rwa [zero_add])]
    rfl
  split
  · exact hkernel
  have hperm := hybridSplit_perm cfg direction 0 bs
  have hlaunch : ∃ ops, enqueueKernelExplicitOffsets ndebug cfg.kernelCopyMaxBlockNum
      (hybridSplit cfg direction 0 bs).2 size = .ok ops ∧
      Copies cfg.kernelCopyMaxBlockNum ops (hybridSplit cfg direction 0 bs).2 := by
    refine exists_kernelExplicitOffsets cfg.maxBlockNum_pos
      (h.imp_right fun h => ⟨fun op hop => ?_, ?_⟩)
    · have hop' : op ∈ hostBlocks 0 bs := hperm.subset (mem_append_right _ hop)
      obtain ⟨b, hb, -, hlen⟩ := exists_of_mem_hostBlocks hop'
      have hbound := (hostBlocks_bounds hop').2
      exact ⟨hlen ▸ h.1 b hb, by rwa [zero_add, h.2] at hbound⟩
    · have htotal := totalLength_perm hperm
      rw [totalLength_append, totalLength_hostBlocks, h.2] at htotal
      omega
  obtain ⟨launched, hlaunched, hcopies⟩ := hlaunch
  by_cases hnone : (hybridSplit cfg direction 0 bs).1 = []
  · have hunhandled : enqueueHybridCopy ndebug cfg direction bs size = .ok none := if_pos hnone
    rw [hunhandled, ok_bind]
    exact hkernel
  · have hhandled : enqueueHybridCopy ndebug cfg direction bs size =
        .ok (some ((hybridSplit cfg direction 0 bs).1.map .memcpy ++ launched)) := by
      refine (if_neg hnone).trans ?_
      rw [hlaunched]
      rfl
    rw [hhandled, ok_bind]
    exact ⟨_, _, rfl, (copies_memcpy _).append hcopies, hperm⟩

end Same

end LlumnixKv
