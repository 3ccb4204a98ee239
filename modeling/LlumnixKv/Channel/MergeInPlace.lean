import Mathlib.Data.List.GetD
import Mathlib.Order.Bounds.Basic
import LlumnixKv.Channel.TcpChannel

/-!
# Channel/MergeInPlace — the loop of `merge_interval` on its array

    closed … closed   pre   0 … 0   cur   rest …
                      ^prev_idx     ^idx

The array is rewritten while it is read.  Before `prev_idx` stand the blocks that are done, with
zeroed entries between them; between `prev_idx` and `idx` every entry has been zeroed; from `idx` on the
array is as the sort left it.  Read without its zeroed entries it is, at every round, what `mergeFrom`
makes of the same blocks (`Merging`).  Adjacent blocks stay apart in one way only: where two sources
overlap, a third block can stand between them in the order of the sort.
-/

open List Machinery

namespace LlumnixKv

/-! ## The loop -/

/-- The array and the counters of `merge_interval`. -/
structure MergeState where
  input : List IpcBlock
  prevIdx : ℕ
  minSize : ℕ
  maxSize : ℕ
  totalSize : ℕ
  cnt : ℕ
  deriving DecidableEq, Repr

variable (st : MergeState) {bs kept : List IpcBlock}

/-- A block that will not grow any more is counted. -/
def MergeState.count (length : ℕ) : MergeState :=
  { st with minSize := min st.minSize length, maxSize := max st.maxSize length,
            totalSize := st.totalSize + length, cnt := st.cnt + 1 }

/-- `input[i]`. -/
def MergeState.at (i : ℕ) : IpcBlock := st.input.getD i ⟨0, 0, 0⟩

/-- `input[i] = b`. -/
def MergeState.write (i : ℕ) (b : IpcBlock) : MergeState :=
  { st with input := st.input.set i b }

/-- One round of the loop. -/
def mergeRound (idx : ℕ) : MergeState :=
  let pre := st.at st.prevIdx
  let cur := st.at idx
  if canMerge pre cur then
    (st.write st.prevIdx { pre with length := pre.length + cur.length }).write idx
      { cur with length := 0 }
  else { st.count pre.length with prevIdx := idx }

/-- After the loop the last block is counted, if there is one. -/
def mergeEnd : MergeState :=
  if st.prevIdx < st.input.length then st.count (st.at st.prevIdx).length else st

/-- The counters before the loop. -/
def mergeStart (sorted : List IpcBlock) : MergeState := ⟨sorted, 0, sizeMax, 0, 0, 0⟩

/-- `merge_interval`, from the sorted array on. -/
def mergeInPlace (sorted : List IpcBlock) : MergeState :=
  mergeEnd ((List.range' 1 (sorted.length - 1)).foldl mergeRound (mergeStart sorted))

/-- The array without its zeroed entries, as `remove_if` leaves it. -/
def nonzero (bs : List IpcBlock) : List IpcBlock := bs.filter (·.length ≠ 0)

theorem nonzero_append (bs cs : List IpcBlock) : nonzero (bs ++ cs) = nonzero bs ++ nonzero cs :=
  filter_append ..

theorem nonzero_of_zeroed (h : ∀ b ∈ bs, b.length = 0) : nonzero bs = [] :=
  filter_eq_nil_iff.mpr fun b hb => by simp [h b hb]

theorem nonzero_of_pos (h : ∀ b ∈ bs, 0 < b.length) : nonzero bs = bs :=
  filter_eq_self.mpr fun b hb => decide_eq_true (h b hb).ne'

/-! ## The counters -/

/-- The counters speak of the blocks `kept`. -/
structure MergeState.Counts (st : MergeState) (kept : List IpcBlock) : Prop where
  min : IsLeast (insert sizeMax {l | ∃ b ∈ kept, b.length = l}) st.minSize
  max : IsGreatest (insert 0 {l | ∃ b ∈ kept, b.length = l}) st.maxSize
  total : st.totalSize = totalLength kept
  cnt : st.cnt = kept.length

theorem lengths_append_singleton (kept : List IpcBlock) (pre : IpcBlock) (x : ℕ) :
    insert x {l | ∃ b ∈ kept ++ [pre], b.length = l}
      = insert pre.length (insert x {l | ∃ b ∈ kept, b.length = l}) := by
  ext l
  simp only [mem_append, mem_singleton, Set.mem_insert_iff, Set.mem_ofPred_eq, or_and_right,
    exists_or, exists_eq_left, eq_comm (a := pre.length)]
  rw [← or_assoc, or_comm]

theorem MergeState.Counts.count {st : MergeState} (h : st.Counts kept) (pre : IpcBlock) :
    (st.count pre.length).Counts (kept ++ [pre]) where
  min := by
    rw [lengths_append_singleton, MergeState.count, min_comm]
    exact h.min.insert pre.length
  max := by
    rw [lengths_append_singleton, MergeState.count, max_comm]
    exact h.max.insert pre.length
  total := by
    rw [MergeState.count, h.total, totalLength_append, totalLength_cons]
    rfl
  cnt := by rw [MergeState.count, h.cnt, length_append, length_singleton]

theorem counts_mergeStart (sorted : List IpcBlock) : (mergeStart sorted).Counts [] where
  min := ⟨.inl rfl, fun _ hl => hl.elim (fun h => h ▸ le_rfl) fun ⟨_, hb, _⟩ => nomatch hb⟩
  max := ⟨.inl rfl, fun _ hl => hl.elim (fun h => h ▸ le_rfl) fun ⟨_, hb, _⟩ => nomatch hb⟩
  total := rfl
  cnt := rfl

/-- …and of nothing but them. -/
theorem MergeState.Counts.congr {st st' : MergeState} (h : st.Counts kept)
    (hmin : st'.minSize = st.minSize) (hmax : st'.maxSize = st.maxSize)
    (htotal : st'.totalSize = st.totalSize) (hcnt : st'.cnt = st.cnt) : st'.Counts kept :=
  ⟨hmin ▸ h.min, hmax ▸ h.max, htotal ▸ h.total, hcnt ▸ h.cnt⟩

/-! ## The array while it is rewritten -/

/-- The loop at the entry after `closed`, `pre` and `zeroed`. -/
structure Merging (st : MergeState) (closed : List IpcBlock) (pre : IpcBlock)
    (zeroed rest : List IpcBlock) : Prop where
  input : st.input = closed ++ pre :: (zeroed ++ rest)
  prevIdx : st.prevIdx = closed.length
  zeroed : ∀ b ∈ zeroed, b.length = 0
  counts : st.Counts (nonzero closed)

namespace Merging

variable {st : MergeState} {closed zeroed rest : List IpcBlock} {pre cur : IpcBlock}

theorem at_prevIdx (h : Merging st closed pre zeroed rest) : st.at st.prevIdx = pre := by
  rw [MergeState.at, h.input, h.prevIdx, getD_append_right _ _ _ _ (Nat.le_refl _),
    Nat.sub_self, getD_cons_zero]

theorem at_idx (h : Merging st closed pre zeroed (cur :: rest)) :
    st.at (closed.length + 1 + zeroed.length) = cur := by
  have hinput : st.input = (closed ++ pre :: zeroed) ++ cur :: rest := by
    rw [h.input, append_assoc, cons_append]
  have hidx : closed.length + 1 + zeroed.length = (closed ++ pre :: zeroed).length := by
    rw [length_append, length_cons, Nat.add_assoc, Nat.add_comm 1]
  rw [MergeState.at, hinput, hidx, getD_append_right _ _ _ _ (Nat.le_refl _), Nat.sub_self,
    getD_cons_zero]

theorem nonzero_closed (h : Merging st closed pre zeroed rest) (hpos : 0 < pre.length) :
    nonzero (closed ++ pre :: zeroed) = nonzero closed ++ [pre] := by
  rw [nonzero_append, ← singleton_append, nonzero_append, nonzero_of_zeroed h.zeroed,
    append_nil, nonzero_of_pos (forall_mem_singleton.mpr hpos)]

/-- A block that follows on is added to `pre` and zeroed. -/
theorem join (h : Merging st closed pre zeroed (cur :: rest)) (hmerge : canMerge pre cur = true) :
    Merging (mergeRound st (closed.length + 1 + zeroed.length)) closed
      { pre with length := pre.length + cur.length } (zeroed ++ [{ cur with length := 0 }]) rest := by
  have hround : mergeRound st (closed.length + 1 + zeroed.length) =
      (st.write st.prevIdx { pre with length := pre.length + cur.length }).write
        (closed.length + 1 + zeroed.length) { cur with length := 0 } := by
    simp only [mergeRound, h.at_prevIdx, h.at_idx, if_pos hmerge]
  rw [hround]
  refine ⟨?_, h.prevIdx, ?_, h.counts.congr rfl rfl rfl rfl⟩
  · simp only [MergeState.write, h.input, h.prevIdx, set_append, Nat.lt_irrefl, if_false, Nat.sub_self,
      set_cons_zero]
    rw [if_neg (by omega), show closed.length + 1 + zeroed.length - closed.length
      = zeroed.length + 1 by omega, set_cons_succ, set_append, if_neg (Nat.lt_irrefl _),
      Nat.sub_self, set_cons_zero, append_assoc, singleton_append]
  · exact forall_mem_append.mpr ⟨h.zeroed, forall_mem_singleton.mpr rfl⟩

/-- At a block that does not, `pre` is done. -/
theorem advance (h : Merging st closed pre zeroed (cur :: rest)) (hpos : 0 < pre.length)
    (hmerge : canMerge pre cur = false) :
    Merging (mergeRound st (closed.length + 1 + zeroed.length)) (closed ++ pre :: zeroed) cur []
      rest := by
  have hround : mergeRound st (closed.length + 1 + zeroed.length) =
      { st.count pre.length with prevIdx := closed.length + 1 + zeroed.length } := by
    simp only [mergeRound, h.at_prevIdx, h.at_idx, hmerge, Bool.false_eq_true, if_false]
  rw [hround]
  refine ⟨?_, ?_, fun b hb => absurd hb not_mem_nil, ?_⟩
  · change st.input = _
    rw [h.input, append_assoc, cons_append, nil_append]
  · change closed.length + 1 + zeroed.length = _
    rw [length_append, length_cons, Nat.add_assoc, Nat.add_comm 1]
  · rw [h.nonzero_closed hpos]
    exact (h.counts.count pre).congr rfl rfl rfl rfl

/-- **The array, read without its zeroed entries, is what `mergeFrom` makes of the blocks**, whatever
has been rewritten so far. -/
theorem run : ∀ {rest : List IpcBlock} {st : MergeState} {closed zeroed : List IpcBlock}
    {pre : IpcBlock}, Merging st closed pre zeroed rest → 0 < pre.length →
    (∀ b ∈ rest, 0 < b.length) →
    ∃ closed' pre' zeroed',
      Merging ((List.range' (closed.length + 1 + zeroed.length) rest.length).foldl mergeRound st)
        closed' pre' zeroed' [] ∧ 0 < pre'.length ∧
      nonzero closed' ++ [pre'] = nonzero closed ++ mergeFrom pre rest
  | [], st, closed, zeroed, pre, h, hpos, _ => ⟨closed, pre, zeroed, h, hpos, rfl⟩
  | cur :: rest, st, closed, zeroed, pre, h, hpos, hrest => by
      obtain ⟨hcur, hrest⟩ := forall_mem_cons.mp hrest
      rw [length_cons, range'_succ, foldl_cons, mergeFrom]
      by_cases hmerge : canMerge pre cur = true
      · rw [if_pos hmerge]
        have hlen : closed.length + 1 + zeroed.length + 1
            = closed.length + 1 + (zeroed ++ [{ cur with length := 0 }]).length := by
          rw [length_append, length_singleton, Nat.add_assoc]
        rw [hlen]
        exact run (h.join hmerge) (Nat.add_pos_left hpos _) hrest
      · rw [if_neg hmerge]
        have hlen : closed.length + 1 + zeroed.length + 1
            = (closed ++ pre :: zeroed).length + 1 + ([] : List IpcBlock).length := by
          rw [length_append, length_cons, length_nil]
          omega
        rw [hlen]
        obtain ⟨closed', pre', zeroed', hrun, hpos', hkept⟩ :=
          run (h.advance hpos (Bool.not_eq_true _ ▸ hmerge)) hcur hrest
        refine ⟨closed', pre', zeroed', hrun, hpos', ?_⟩
        rw [hkept, h.nonzero_closed hpos, append_assoc, singleton_append]

/-- After the last round the block at `prev_idx` is counted, too. -/
theorem close (h : Merging st closed pre zeroed []) (hpos : 0 < pre.length) :
    nonzero (mergeEnd st).input = nonzero closed ++ [pre] ∧
      (mergeEnd st).Counts (nonzero closed ++ [pre]) := by
  have hlt : st.prevIdx < st.input.length := by
    rw [h.prevIdx, h.input, length_append, length_cons]
    omega
  rw [mergeEnd, if_pos hlt, h.at_prevIdx]
  refine ⟨?_, h.counts.count pre⟩
  change nonzero st.input = _
  rw [h.input, append_nil, h.nonzero_closed hpos]

end Merging

/-- **The loop leaves the merged blocks, and has counted them.** -/
theorem mergeInPlace_spec {sorted : List IpcBlock} (hpos : ∀ b ∈ sorted, 0 < b.length) :
    nonzero (mergeInPlace sorted).input = mergeSorted sorted ∧
      (mergeInPlace sorted).Counts (mergeSorted sorted) := by
  cases sorted with
  | nil => exact ⟨rfl, counts_mergeStart []⟩
  | cons b bs =>
    obtain ⟨hb, hbs⟩ := forall_mem_cons.mp hpos
    have hstart : Merging (mergeStart (b :: bs)) [] b [] bs :=
      ⟨rfl, rfl, fun c hc => absurd hc not_mem_nil, counts_mergeStart (b :: bs)⟩
    obtain ⟨closed, pre, zeroed, hend, hpre, hkept⟩ := hstart.run hb hbs
    have hclose := hend.close hpre
    rw [hkept] at hclose
    exact hclose

/-! ## Nothing is left to merge -/

/-- The sources of two blocks do not overlap. -/
def DisjointSrc (a b : IpcBlock) : Prop :=
  a.srcOffset + a.length ≤ b.srcOffset ∨ b.srcOffset + b.length ≤ a.srcOffset

/-- The source of `a` ends before that of `b` starts. -/
def SrcBefore (a b : IpcBlock) : Prop := a.srcOffset + a.length ≤ b.srcOffset

/-- Sorted blocks that do not overlap stand one behind the other. -/
theorem srcBefore_of_sorted (hpos : ∀ b ∈ bs, 0 < b.length)
    (hsorted : bs.Pairwise fun x y => x.srcOffset ≤ y.srcOffset) (hdisj : bs.Pairwise DisjointSrc) :
    bs.Pairwise SrcBefore := by
  refine (hsorted.and hdisj).imp_of_mem fun {a b} _ hb h => ?_
  have hb := hpos b hb
  rcases h.2 with h' | h'
  · exact h'
  · exact absurd h.1 (by omega)

/-- The first merged block starts where the first block did. -/
theorem mergeFrom_eq_cons : ∀ (pre : IpcBlock) (bs : List IpcBlock),
    ∃ length tail, mergeFrom pre bs = { pre with length := length } :: tail ∧ pre.length ≤ length
  | pre, [] => ⟨pre.length, [], rfl, le_rfl⟩
  | pre, cur :: bs => by
      rw [mergeFrom]
      split
      · obtain ⟨length, tail, htail, hle⟩ :=
          mergeFrom_eq_cons { pre with length := pre.length + cur.length } bs
        exact ⟨length, tail, htail, (Nat.le_add_right _ _).trans hle⟩
      · exact ⟨pre.length, mergeFrom cur bs, rfl, le_rfl⟩

/-- **Merging blocks that stand one behind the other leaves no two of them adjacent.**  The next block
was not joined, and any later one starts behind the next. -/
theorem pairwise_maximal_mergeFrom : ∀ {pre : IpcBlock} {bs : List IpcBlock}, 0 < pre.length →
    (∀ b ∈ bs, 0 < b.length) → (pre :: bs).Pairwise SrcBefore →
    (mergeFrom pre bs).Pairwise fun a b => SrcBefore a b ∧ canMerge a b = false
  | pre, [], _, _, _ => pairwise_singleton _ _
  | pre, cur :: bs, hpos, hall, hbefore => by
      obtain ⟨hcur, hall⟩ := forall_mem_cons.mp hall
      obtain ⟨hpre, hbefore⟩ := pairwise_cons.mp hbefore
      obtain ⟨hprecur, hpre⟩ := forall_mem_cons.mp hpre
      obtain ⟨hcurbs, hbs⟩ := pairwise_cons.mp hbefore
      rw [mergeFrom]
      split
      · next h =>
        refine pairwise_maximal_mergeFrom (Nat.add_pos_left hpos _) hall
          (pairwise_cons.mpr ⟨fun b hb => ?_, hbs⟩)
        have hsrc := (canMerge_iff.mp h).1
        have hlater := hcurbs b hb
        unfold SrcBefore at *
        simp only
        omega
      · next h =>
        have hrest := pairwise_maximal_mergeFrom hcur hall hbefore
        refine pairwise_cons.mpr ⟨fun b hb => ?_, hrest⟩
        obtain ⟨length, tail, htail, hle⟩ := mergeFrom_eq_cons cur bs
        rw [htail] at hrest hb
        rcases mem_cons.mp hb with rfl | hb
        · exact ⟨hprecur, Bool.not_eq_true _ ▸ h⟩
        · have hbehind : cur.srcOffset + length ≤ b.srcOffset :=
            ((pairwise_cons.mp hrest).1 b hb).1
          unfold SrcBefore at *
          refine ⟨by omega, ?_⟩
          rw [← Bool.not_eq_true, canMerge_iff]
          exact fun hmerge => absurd hmerge.1 (by omega)

theorem pairwise_maximal_mergeSorted (hpos : ∀ b ∈ bs, 0 < b.length) (h : bs.Pairwise SrcBefore) :
    (mergeSorted bs).Pairwise fun a b => SrcBefore a b ∧ canMerge a b = false := by
  cases bs with
  | nil => exact List.Pairwise.nil
  | cons b bs =>
    obtain ⟨hb, hbs⟩ := forall_mem_cons.mp hpos
    exact pairwise_maximal_mergeFrom hb hbs h

/-- **`merge_interval` keeps the transfer, counts what it leaves and leaves nothing to merge.**  For
every list of blocks with positive lengths, and whatever order `std::sort` gives blocks with the same
source: the array without its zeroed entries describes the same copies, byte by byte; the total is the
sum of the lengths, the count the number of blocks left, and the minimum and maximum are their extreme
lengths (`SIZE_MAX` and 0 for the empty list); and if the sources do not overlap, no two of the blocks
left are adjacent on both sides. -/
theorem mergeInterval_keeps_transfer (s : BlockSort) (bs : List IpcBlock)
    (hpos : ∀ b ∈ bs, 0 < b.length) :
    ((nonzero (mergeInPlace (s.sort bs)).input).flatMap IpcBlock.bytes).Perm
        (bs.flatMap IpcBlock.bytes) ∧
      (mergeInPlace (s.sort bs)).totalSize = (bs.map IpcBlock.length).sum ∧
      (mergeInPlace (s.sort bs)).cnt = (nonzero (mergeInPlace (s.sort bs)).input).length ∧
      IsLeast (insert sizeMax {l | ∃ b ∈ nonzero (mergeInPlace (s.sort bs)).input, b.length = l})
        (mergeInPlace (s.sort bs)).minSize ∧
      IsGreatest (insert 0 {l | ∃ b ∈ nonzero (mergeInPlace (s.sort bs)).input, b.length = l})
        (mergeInPlace (s.sort bs)).maxSize ∧
      (bs.Pairwise DisjointSrc →
        (nonzero (mergeInPlace (s.sort bs)).input).Pairwise fun a b =>
          canMerge a b = false ∧ canMerge b a = false) := by
  have hperm := s.perm bs
  have hsorted : ∀ b ∈ s.sort bs, 0 < b.length := fun b hb => hpos b (hperm.subset hb)
  obtain ⟨hkept, hcounts⟩ := mergeInPlace_spec hsorted
  rw [hkept]
  refine ⟨?_, ?_, hcounts.cnt, hcounts.min, hcounts.max, fun hdisj => ?_⟩
  · rw [flatMap_bytes_mergeSorted]
    exact hperm.flatMap_right _
  · rw [hcounts.total, totalLength_mergeSorted, totalLength, (hperm.map _).sum_eq]
  · have hbefore : (s.sort bs).Pairwise SrcBefore := by
      refine srcBefore_of_sorted hsorted (s.sorted bs) ?_
      exact (hperm.pairwise_iff fun h => Or.symm h).mpr hdisj
    have hleft : ∀ b ∈ mergeSorted (s.sort bs), 0 < b.length := fun b hb => by
      rw [← hkept] at hb
      exact Nat.pos_of_ne_zero (of_decide_eq_true (mem_filter.mp hb).2)
    refine (pairwise_maximal_mergeSorted hsorted hbefore).imp_of_mem fun {a b} ha _ h => ⟨h.2, ?_⟩
    have ha := hleft a ha
    have hbehind : a.srcOffset + a.length ≤ b.srcOffset := h.1
    rw [← Bool.not_eq_true, canMerge_iff]
    exact fun hmerge => absurd hmerge.1 (by omega)

theorem mergeInterval_keeps_transfer_three :
    ((nonzero (mergeInPlace (stableSort.sort [⟨4, 5, 2⟩, ⟨1, 1, 2⟩, ⟨3, 3, 1⟩])).input).flatMap
        IpcBlock.bytes).Perm ([⟨4, 5, 2⟩, ⟨1, 1, 2⟩, ⟨3, 3, 1⟩].flatMap IpcBlock.bytes) ∧
      nonzero (mergeInPlace (stableSort.sort [⟨4, 5, 2⟩, ⟨1, 1, 2⟩, ⟨3, 3, 1⟩])).input
        = [⟨1, 1, 3⟩, ⟨4, 5, 2⟩] :=
  ⟨(mergeInterval_keeps_transfer stableSort _ (by decide)).1, by decide⟩

end LlumnixKv
