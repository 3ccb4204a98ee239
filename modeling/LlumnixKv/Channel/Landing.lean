import LlumnixKv.Channel.Rdma
import LlumnixKv.Channel.TcpChannel

/-!
# Channel/Landing — the write batches of a layer, in any order

    data ──▶ merge what is adjacent ──▶ cut into batches ──▶ connections ──▶ the receiver's tensors

However the connections deliver the batches of a layer, each tensor of the receiver ends as if the
blocks of the parse function had been copied one by one (`sendData_lands`).
-/

open List

namespace LlumnixKv

theorem flatten_cutBatches (d : ℕ) : ∀ datas l : List (ℕ × IpcBlock),
    (cutBatches d datas l).flatten = datas ++ l
  | datas, [] => by
      rw [cutBatches]
      split <;> simp [*]
  | datas, b :: l => by
      rw [cutBatches]
      split
      · rw [flatten_cons, flatten_cutBatches d [] l, nil_append, ← append_cons]
      · rw [flatten_cutBatches d _ l, ← append_cons]

/-- The blocks that batches write to tensor `i`. -/
def writtenTo (i : ℕ) (batches : List WriteBatch) : List IpcBlock :=
  (batches.flatMap (·.datas)).filterMap fun e => if e.1 = i then some e.2 else none

theorem filterMap_entry (i n : ℕ) (t : List IpcBlock) : (t.map (n, ·)).filterMap
    (fun e => if e.1 = i then some e.2 else none) = if n = i then t else [] := by
  split
  · next h => simp [h]
  · next h => simp [h]

/-- The entries of one tensor among those of all, which are counted from `n`. -/
theorem filterMap_entries (i : ℕ) : ∀ (data : List (List IpcBlock)) (n : ℕ),
    ((data.zipIdx n).flatMap fun e => e.1.map (e.2, ·)).filterMap
      (fun e => if e.1 = i then some e.2 else none) = if n ≤ i then (data[i - n]?).getD [] else []
  | [], n => by simp
  | t :: data, n => by
      rw [zipIdx_cons, flatMap_cons, filterMap_append, filterMap_entry,
        filterMap_entries i data (n + 1)]
      grind

theorem writtenTo_sendData (d layer i : ℕ) (data : List (List IpcBlock)) :
    writtenTo i (sendData d data layer) = (data[i]?).getD [] := by
  have hall : (sendData d data layer).flatMap (·.datas) =
      data.zipIdx.flatMap fun e => e.1.map (e.2, ·) := by
    rw [sendData, flatMap_map]
    exact flatMap_id.trans (flatten_cutBatches d [] _)
  rw [writtenTo, hall, filterMap_entries, if_pos (Nat.zero_le i), Nat.sub_zero]

/-- `register_data` leaves of a tensor what is sent of it. -/
theorem getElem?_registerData (s : BlockSort) {chs m n i : ℕ} (kind : TPKind)
    {data : List (List IpcBlock)} {tensor : List IpcBlock} (hget : data[i]? = some tensor)
    (h : TensorFits m n tensor) :
    (registerData s chs kind data).1[i]? = some (sentBlocks s kind tensor) := by
  have hpos := fun b hb => Nat.ne_of_gt ((h.sent s kind).within b hb).len_pos
  unfold registerData
  unfold sentBlocks at hpos ⊢
  split at hpos
  · next hkind =>
    rw [if_pos hkind, if_pos hkind, getElem?_map, hget]
    exact congrArg some (filter_eq_self.mpr fun b hb => decide_eq_true (hpos b hb))
  · next hkind => rw [if_neg hkind, if_neg hkind, hget]

/-- **A layer lands as its blocks say**: however `std::sort` orders equal offsets and in whatever order
the write batches are delivered, a tensor whose blocks fit ends as if they had been copied unmerged, one
by one. -/
theorem sendData_lands {β : Type*} (s : BlockSort) (chs layer : ℕ) (kind : TPKind)
    (data : List (List IpcBlock)) {m n i : ℕ} {tensor : List IpcBlock}
    (hget : data[i]? = some tensor) (h : TensorFits m n tensor)
    {landed : List WriteBatch} (hlanded : landed.Perm
      (sendData (registerData s chs kind data).2 (registerData s chs kind data).1 layer))
    (src dst : ℕ → β) : copyBlocks src (writtenTo i landed) dst = copyBlocks src tensor dst := by
  have hperm : (writtenTo i landed).Perm (sentBlocks s kind tensor) := by
    refine ((hlanded.flatMap_right _).filterMap _).trans (.of_eq ?_)
    exact (writtenTo_sendData _ layer i _).trans (by rw [getElem?_registerData s kind hget h]; rfl)
  have hdisj := (hperm.pairwise_iff DisjointDst.symm).mpr (h.sent s kind).disjoint
  have hbytes (p : ℕ × ℕ) : p ∈ (writtenTo i landed).flatMap IpcBlock.bytes ↔
      p ∈ tensor.flatMap IpcBlock.bytes := by
    rw [(hperm.flatMap_right _).mem_iff, mem_bytes_sentBlocks]
  refine eq_copyBlocks h.disjoint (fun p hp => copyBlocks_of_mem hdisj ((hbytes p).mpr hp)) ?_
  exact fun j hj => copyBlocks_of_not_written fun p hp => hj p ((hbytes p).mp hp)

/-- …here two tensors on two connections, of which the second delivers first. -/
theorem sendData_lands_swapped :
    copyBlocks id (writtenTo 0 [⟨0, [(1, ⟨8, 4, 4⟩)]⟩, ⟨0, [(0, ⟨0, 0, 4⟩)]⟩]) (fun _ => 0) =
      copyBlocks id [⟨0, 0, 4⟩] fun _ => 0 :=
  sendData_lands stableSort 2 0 .peqd [[⟨0, 0, 4⟩], [⟨8, 4, 4⟩]] rfl (m := 4) (n := 4)
    ⟨by simp, forall_mem_singleton.mpr ⟨by decide, by decide, by decide⟩, pairwise_singleton _ _,
      by decide, by decide⟩ (by decide) _ _

end LlumnixKv
