import LlumnixKv.Channel.CopyKernels

/-!
# Channel/Merge — merging adjacent blocks

`merge_interval` sorts the blocks by their source and joins a block to the one before it where both
its source and its destination follow on.  `std::sort` is not stable, so the sort is any function that
sorts and permutes (`BlockSort`).  A merged list copies the same bytes
(`flatMap_bytes_mergeSorted`), and keeps what the transfer rests on: positive lengths, bounds, and
destinations that do not overlap.
-/

open List Machinery

namespace LlumnixKv

open HybridTransfer (DisjointDst)

/-- `can_merge`. -/
def canMerge (pre cur : IpcBlock) : Bool :=
  cur.srcOffset = pre.srcOffset + pre.length ∧ cur.dstOffset = pre.dstOffset + pre.length

/-- The loop of `merge_interval`, from the block `pre` on: the blocks that are not merged away. -/
def mergeFrom (pre : IpcBlock) : List IpcBlock → List IpcBlock
  | [] => [pre]
  | cur :: rest =>
    if canMerge pre cur then mergeFrom { pre with length := pre.length + cur.length } rest
    else pre :: mergeFrom cur rest

/-- The loop of `merge_interval`, over the sorted blocks. -/
def mergeSorted : List IpcBlock → List IpcBlock
  | [] => []
  | b :: bs => mergeFrom b bs

/-- `std::sort` by the source offset: what it leaves is sorted, and a permutation. -/
structure BlockSort where
  sort : List IpcBlock → List IpcBlock
  perm : ∀ bs, (sort bs).Perm bs
  sorted : ∀ bs, (sort bs).Pairwise fun x y => x.srcOffset ≤ y.srcOffset

/-- A stable sort by the source offset. -/
def stableSort : BlockSort where
  sort := List.insertionSort fun x y => x.srcOffset ≤ y.srcOffset
  perm := perm_insertionSort _
  sorted bs := by
    have : Std.Total fun x y : IpcBlock => x.srcOffset ≤ y.srcOffset :=
      ⟨fun x y => Nat.le_total x.srcOffset y.srcOffset⟩
    have : IsTrans IpcBlock fun x y => x.srcOffset ≤ y.srcOffset := ⟨fun _ _ _ => Nat.le_trans⟩
    exact pairwise_insertionSort _ bs

/-- `merge_interval`: the blocks by their source, adjacent ones merged. -/
def mergeInterval (s : BlockSort) (input : List IpcBlock) : List IpcBlock :=
  mergeSorted (s.sort input)

variable {pre cur : IpcBlock}

theorem canMerge_iff : canMerge pre cur = true ↔
    cur.srcOffset = pre.srcOffset + pre.length ∧ cur.dstOffset = pre.dstOffset + pre.length :=
  decide_eq_true_iff

theorem bytes_join (h : canMerge pre cur = true) :
    ({ pre with length := pre.length + cur.length } : IpcBlock).bytes = pre.bytes ++ cur.bytes := by
  obtain ⟨hsrc, hdst⟩ := canMerge_iff.mp h
  simp only [IpcBlock.bytes, range_add, map_append, map_map, Function.comp_def, hsrc,
    hdst, Nat.add_assoc]

/-- **Merging keeps the bytes that are copied**, in order. -/
theorem flatMap_bytes_mergeFrom : ∀ (pre : IpcBlock) (bs : List IpcBlock),
    (mergeFrom pre bs).flatMap IpcBlock.bytes = pre.bytes ++ bs.flatMap IpcBlock.bytes
  | _, [] => rfl
  | pre, cur :: bs => by
      rw [mergeFrom]
      split
      · next h =>
        rw [flatMap_bytes_mergeFrom _ bs, bytes_join h, append_assoc, flatMap_cons]
      · rw [flatMap_cons, flatMap_bytes_mergeFrom cur bs, flatMap_cons]

variable (bs : List IpcBlock) {srcEnd dstEnd : ℕ}

theorem flatMap_bytes_mergeSorted :
    (mergeSorted bs).flatMap IpcBlock.bytes = bs.flatMap IpcBlock.bytes := by
  cases bs with
  | nil => rfl
  | cons b bs => exact flatMap_bytes_mergeFrom b bs

theorem totalLength_mergeFrom : ∀ (pre : IpcBlock) (bs : List IpcBlock),
    totalLength (mergeFrom pre bs) = pre.length + totalLength bs
  | _, [] => rfl
  | pre, cur :: bs => by
      rw [mergeFrom]
      split
      · rw [totalLength_mergeFrom _ bs, totalLength_cons, Nat.add_assoc]
      · rw [totalLength_cons, totalLength_mergeFrom cur bs, totalLength_cons]

theorem totalLength_mergeSorted : totalLength (mergeSorted bs) = totalLength bs := by
  cases bs with
  | nil => rfl
  | cons b bs => exact totalLength_mergeFrom b bs

theorem length_mergeFrom_le : ∀ (pre : IpcBlock) (bs : List IpcBlock),
    (mergeFrom pre bs).length ≤ bs.length + 1
  | _, [] => le_rfl
  | pre, cur :: bs => by
      rw [mergeFrom, length_cons]
      split
      · exact (length_mergeFrom_le _ bs).trans (Nat.le_succ _)
      · exact Nat.succ_le_succ (length_mergeFrom_le cur bs)

theorem length_mergeSorted_le : (mergeSorted bs).length ≤ bs.length := by
  cases bs with
  | nil => exact le_rfl
  | cons b bs => exact length_mergeFrom_le b bs

theorem mergeFrom_ne_nil : ∀ (pre : IpcBlock) (bs : List IpcBlock), mergeFrom pre bs ≠ []
  | _, [] => nofun
  | pre, cur :: bs => by
      rw [mergeFrom]
      split
      · exact mergeFrom_ne_nil _ bs
      · exact nofun

theorem mergeSorted_ne_nil {bs : List IpcBlock} (h : bs ≠ []) : mergeSorted bs ≠ [] := by
  cases bs with
  | nil => exact absurd rfl h
  | cons b bs => exact mergeFrom_ne_nil b bs

/-- The merged blocks stay inside both tensors. -/
theorem within_mergeFrom {rec : IpcBlock} :
    ∀ {pre : IpcBlock} {bs : List IpcBlock}, pre.Within srcEnd dstEnd →
      (∀ b ∈ bs, b.Within srcEnd dstEnd) → rec ∈ mergeFrom pre bs → rec.Within srcEnd dstEnd
  | pre, [], hpre, _, hrec => mem_singleton.mp hrec ▸ hpre
  | pre, cur :: bs, hpre, hbs, hrec => by
      obtain ⟨hcur, hbs⟩ := forall_mem_cons.mp hbs
      rw [mergeFrom] at hrec
      split at hrec
      · next h =>
        obtain ⟨hsrc, hdst⟩ := canMerge_iff.mp h
        have hcur₁ := hcur.src_le
        have hcur₂ := hcur.dst_le
        have hjoin : IpcBlock.Within srcEnd dstEnd
            { pre with length := pre.length + cur.length } :=
          ⟨Nat.add_pos_left hpre.len_pos _, by simp only; omega, by simp only; omega⟩
        exact within_mergeFrom hjoin hbs hrec
      · rcases mem_cons.mp hrec with rfl | hrec
        · exact hpre
        · exact within_mergeFrom hcur hbs hrec

theorem within_mergeSorted {bs : List IpcBlock} (h : ∀ b ∈ bs, b.Within srcEnd dstEnd) :
    ∀ b ∈ mergeSorted bs, b.Within srcEnd dstEnd := by
  cases bs with
  | nil => exact h
  | cons b bs =>
    obtain ⟨hb, hbs⟩ := forall_mem_cons.mp h
    exact fun rec hrec => within_mergeFrom hb hbs hrec

/-- A block that is apart from both is apart from the two joined. -/
theorem disjointDst_join {pre cur b : IpcBlock} (h : canMerge pre cur = true) (hpos : 0 < b.length)
    (hpre : DisjointDst pre b) (hcur : DisjointDst cur b) :
    DisjointDst { pre with length := pre.length + cur.length } b := by
  obtain ⟨-, hdst⟩ := canMerge_iff.mp h
  unfold DisjointDst at *
  simp only
  omega

/-- A block that is apart from all is apart from what they are merged to. -/
theorem disjointDst_mergeFrom {b rec : IpcBlock} (hpos : 0 < b.length) :
    ∀ {pre : IpcBlock} {bs : List IpcBlock}, DisjointDst pre b → (∀ r ∈ bs, DisjointDst r b) →
      rec ∈ mergeFrom pre bs → DisjointDst rec b
  | pre, [], hpre, _, hrec => mem_singleton.mp hrec ▸ hpre
  | pre, cur :: bs, hpre, hbs, hrec => by
      obtain ⟨hcur, hbs⟩ := forall_mem_cons.mp hbs
      rw [mergeFrom] at hrec
      split at hrec
      · next h => exact disjointDst_mergeFrom hpos (disjointDst_join h hpos hpre hcur) hbs hrec
      · rcases mem_cons.mp hrec with rfl | hrec
        · exact hpre
        · exact disjointDst_mergeFrom hpos hcur hbs hrec

theorem DisjointDst.symm {a b : IpcBlock} (h : DisjointDst a b) : DisjointDst b a := Or.symm h

/-- **The merged blocks do not overlap** if the blocks did not. -/
theorem pairwise_mergeFrom : ∀ {pre : IpcBlock} {bs : List IpcBlock}, 0 < pre.length →
    (∀ b ∈ bs, 0 < b.length) → (∀ b ∈ bs, DisjointDst pre b) → bs.Pairwise DisjointDst →
    (mergeFrom pre bs).Pairwise DisjointDst
  | pre, [], _, _, _, _ => pairwise_singleton _ _
  | pre, cur :: bs, hpos, hall, hpre, hbs => by
      obtain ⟨hcurPos, hallPos⟩ := forall_mem_cons.mp hall
      obtain ⟨hprecur, hpre⟩ := forall_mem_cons.mp hpre
      obtain ⟨hcur, hbs⟩ := pairwise_cons.mp hbs
      rw [mergeFrom]
      split
      · next h =>
        refine pairwise_mergeFrom (Nat.add_pos_left hpos _) hallPos (fun b hb => ?_) hbs
        exact disjointDst_join h (hallPos b hb) (hpre b hb) (hcur b hb)
      · refine pairwise_cons.mpr ⟨fun rec hrec => ?_, pairwise_mergeFrom hcurPos hallPos hcur hbs⟩
        exact (disjointDst_mergeFrom hpos hprecur.symm
          (fun r hr => (hpre r hr).symm) hrec).symm

theorem pairwise_mergeSorted {bs : List IpcBlock} (hpos : ∀ b ∈ bs, 0 < b.length)
    (h : bs.Pairwise DisjointDst) : (mergeSorted bs).Pairwise DisjointDst := by
  cases bs with
  | nil => exact h
  | cons b bs =>
    obtain ⟨hb, hbs⟩ := forall_mem_cons.mp hpos
    obtain ⟨hfirst, hrest⟩ := pairwise_cons.mp h
    exact pairwise_mergeFrom hb hbs hfirst hrest

end LlumnixKv
