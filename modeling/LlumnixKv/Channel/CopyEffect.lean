import LlumnixKv.Channel.CopyKernels
import LlumnixKv.Machinery.Bytes

/-!
# Channel/CopyEffect — what a copy does to the two memories

    D2H    gpu  --gather-->  host | b₀ | b₁ | …
    H2D    host | b₀ | b₁ | …  --scatter-->  gpu

`Channel/CopyKernels` follows `copy_handle_data_with_kernel` to the calls it makes.  Here the bytes of
the calls are moved, in any order at all, as the threads of a kernel do.  However the profile chooses,
the result is the gather or the scatter of the list.
-/

open List Machinery

namespace LlumnixKv

open HybridTransfer (DisjointDst)

/-! ## The two memories -/

section Memories

variable {β : Type} {bs : List IpcBlock}

/-- Where block `i` stands in the host buffer: the lengths before it, summed. -/
theorem getElem?_hostBlocks : ∀ (off : ℕ) (bs : List IpcBlock) (i : ℕ),
    (hostBlocks off bs)[i]?
      = bs[i]?.map fun b => ⟨off + totalLength (bs.take i), b.dstOffset, b.length⟩
  | _, [], _ => rfl
  | off, b :: bs, 0 => rfl
  | off, b :: bs, i + 1 => by
      rw [hostBlocks, getElem?_cons_succ, getElem?_hostBlocks (off + b.length) bs i,
        getElem?_cons_succ, take_succ_cons, totalLength_cons, add_assoc]

/-- The bytes of the copies: byte `o` of block `i` against byte `o` of its place in the host buffer. -/
theorem mem_bytes_hostBlocks {p : ℕ × ℕ} : p ∈ (hostBlocks 0 bs).flatMap IpcBlock.bytes ↔
    ∃ i b, bs[i]? = some b ∧ ∃ o < b.length,
      p = (totalLength (bs.take i) + o, b.dstOffset + o) := by
  rw [mem_flatMap]
  constructor
  · rintro ⟨rec, hrec, hp⟩
    obtain ⟨i, hi⟩ := mem_iff_getElem?.mp hrec
    rw [getElem?_hostBlocks, Option.map_eq_some_iff] at hi
    obtain ⟨b, hb, rfl⟩ := hi
    obtain ⟨o, ho, rfl⟩ := IpcBlock.mem_bytes.mp hp
    exact ⟨i, b, hb, o, ho, by rw [zero_add]⟩
  · rintro ⟨i, b, hb, o, ho, rfl⟩
    have hi : (hostBlocks 0 bs)[i]? = some ⟨0 + totalLength (bs.take i), b.dstOffset, b.length⟩ := by
      rw [getElem?_hostBlocks, hb, Option.map_some]
    refine ⟨_, mem_of_getElem? hi, IpcBlock.mem_bytes.mpr ⟨o, ho, ?_⟩⟩
    rw [zero_add]

/-- In the host buffer every byte is met once, … -/
theorem map_fst_bytes_hostBlocks : ∀ (off : ℕ) (bs : List IpcBlock),
    ((hostBlocks off bs).flatMap IpcBlock.bytes).map Prod.fst = List.range' off (totalLength bs)
  | _, [] => rfl
  | off, b :: bs => by
      have hfirst : (IpcBlock.mk off b.dstOffset b.length).bytes.map Prod.fst
          = List.range' off b.length := by
        rw [IpcBlock.bytes, map_map, range'_eq_map_range]
        rfl
      rw [hostBlocks, flatMap_cons, map_append, hfirst,
        map_fst_bytes_hostBlocks (off + b.length) bs, totalLength_cons, ← range'_append_1]

/-- …and in the tensor, where the blocks do not overlap. -/
theorem nodup_dst_bytes : ∀ {bs : List IpcBlock}, bs.Pairwise DisjointDst →
    ((bs.flatMap IpcBlock.bytes).map Prod.snd).Nodup
  | [], _ => nodup_nil
  | b :: bs, h => by
      obtain ⟨hb, hbs⟩ := pairwise_cons.mp h
      rw [flatMap_cons, map_append]
      refine nodup_append'.mpr ⟨?_, nodup_dst_bytes hbs, ?_⟩
      · rw [IpcBlock.bytes, map_map]
        exact nodup_range.map fun o o' h => Nat.add_left_cancel h
      · intro t ht ht'
        obtain ⟨p, hp, rfl⟩ := mem_map.mp ht
        obtain ⟨q, hq, hqp⟩ := mem_map.mp ht'
        obtain ⟨o, ho, rfl⟩ := IpcBlock.mem_bytes.mp hp
        obtain ⟨b', hb', hq⟩ := mem_flatMap.mp hq
        obtain ⟨o', ho', rfl⟩ := IpcBlock.mem_bytes.mp hq
        have hapart : b.dstOffset + b.length ≤ b'.dstOffset ∨
          b'.dstOffset + b'.length ≤ b.dstOffset := hb b' hb'
        simp only at hqp
        omega

/-- **The scatter of a host buffer**: block `i` takes its bytes from the host range that starts at the
sum of the earlier lengths, and no other byte of the tensor changes. -/
structure Scattered (bs : List IpcBlock) (host gpu gpu' : ℕ → β) : Prop where
  moved : ∀ i b, bs[i]? = some b → ∀ o < b.length,
    gpu' (b.dstOffset + o) = host (totalLength (bs.take i) + o)
  kept : ∀ a, (∀ b ∈ bs, ¬(b.dstOffset ≤ a ∧ a < b.dstOffset + b.length)) → gpu' a = gpu a

/-- **The gather into a host buffer**, likewise. -/
structure Gathered (bs : List IpcBlock) (gpu host host' : ℕ → β) : Prop where
  moved : ∀ i b, bs[i]? = some b → ∀ o < b.length,
    host' (totalLength (bs.take i) + o) = gpu (b.dstOffset + o)
  kept : ∀ a, totalLength bs ≤ a → host' a = host a

/-- The bytes the calls move in a direction, each from where to where. -/
def CopyDirection.moves (direction : CopyDirection) (ops : List CopyOp) : List (ℕ × ℕ) :=
  match direction with
  | .h2d => (ops.flatMap CopyOp.copies).flatMap IpcBlock.bytes
  | .d2h => ((ops.flatMap CopyOp.copies).flatMap IpcBlock.bytes).map Prod.swap

/-- What the moves of a direction are to leave of the two memories. -/
def CopyDirection.Effect (direction : CopyDirection) (bs : List IpcBlock) (moves : List (ℕ × ℕ))
    (host gpu : ℕ → β) : Prop :=
  match direction with
  | .h2d => Scattered bs host gpu (moveAll host moves gpu)
  | .d2h => Gathered bs gpu host (moveAll gpu moves host)

variable {ops : List CopyOp} {moves : List (ℕ × ℕ)}

theorem scattered_of_moves (hops : (ops.flatMap CopyOp.copies).Perm (hostBlocks 0 bs))
    (hdisj : bs.Pairwise DisjointDst) (hmoves : moves.Perm (CopyDirection.h2d.moves ops))
    (host gpu : ℕ → β) : Scattered bs host gpu (moveAll host moves gpu) := by
  have hperm : moves.Perm ((hostBlocks 0 bs).flatMap IpcBlock.bytes) :=
    hmoves.trans (hops.flatMap_right _)
  have hnodup : (moves.map Prod.snd).Nodup :=
    (hperm.map _).nodup_iff.mpr (nodup_dst_bytes (pairwise_disjointDst_hostBlocks hdisj))
  refine ⟨fun i b hb o ho => ?_, fun a ha => moveAll_of_not_mem fun p hp => ?_⟩
  · have hp : (totalLength (bs.take i) + o, b.dstOffset + o) ∈ moves :=
      hperm.mem_iff.mpr (mem_bytes_hostBlocks.mpr ⟨i, b, hb, o, ho, rfl⟩)
    exact moveAll_of_mem hnodup hp
  · obtain ⟨i, b, hb, o, ho, rfl⟩ := mem_bytes_hostBlocks.mp (hperm.mem_iff.mp hp)
    have hout := ha b (mem_of_getElem? hb)
    simp only
    omega

theorem gathered_of_moves (hops : (ops.flatMap CopyOp.copies).Perm (hostBlocks 0 bs))
    (hmoves : moves.Perm (CopyDirection.d2h.moves ops)) (gpu host : ℕ → β) :
    Gathered bs gpu host (moveAll gpu moves host) := by
  have hperm : moves.Perm (((hostBlocks 0 bs).flatMap IpcBlock.bytes).map Prod.swap) :=
    hmoves.trans ((hops.flatMap_right _).map _)
  have hcells : (((hostBlocks 0 bs).flatMap IpcBlock.bytes).map Prod.swap).map Prod.snd
      = List.range' 0 (totalLength bs) := by
    rw [map_map, ← map_fst_bytes_hostBlocks 0 bs]
    rfl
  have hnodup : (moves.map Prod.snd).Nodup := by
    rw [(hperm.map _).nodup_iff, hcells]
    exact nodup_range'
  refine ⟨fun i b hb o ho => ?_, fun a ha => moveAll_of_not_mem fun p hp => ?_⟩
  · have hp : (b.dstOffset + o, totalLength (bs.take i) + o) ∈ moves :=
      hperm.mem_iff.mpr (mem_map.mpr
        ⟨_, mem_bytes_hostBlocks.mpr ⟨i, b, hb, o, ho, rfl⟩, rfl⟩)
    exact moveAll_of_mem hnodup hp
  · have hcell : p.2 ∈ List.range' 0 (totalLength bs) :=
      hcells ▸ mem_map_of_mem (hperm.mem_iff.mp hp)
    have hlt := (mem_range'_1.mp hcell).2
    omega

end Memories

/-! ## From one GPU to the other -/

/-- The records of a direct copy from the blocks of one list to those of another. -/
def directBlocks (ps ds : List IpcBlock) : List IpcBlock :=
  List.zipWith (fun p d => ⟨p.dstOffset, d.dstOffset, d.length⟩) ps ds

section Direct

variable {β : Type} {ps ds : List IpcBlock}

theorem getElem?_directBlocks (hlen : ps.map IpcBlock.length = ds.map IpcBlock.length) {i : ℕ}
    {d : IpcBlock} (hd : ds[i]? = some d) : ∃ p, ps[i]? = some p ∧ p.length = d.length ∧
      (directBlocks ps ds)[i]? = some ⟨p.dstOffset, d.dstOffset, d.length⟩ := by
  have hat : (ps.map IpcBlock.length)[i]? = some d.length := by
    rw [hlen, getElem?_map, hd, Option.map_some]
  rw [getElem?_map, Option.map_eq_some_iff] at hat
  obtain ⟨p, hp, hpd⟩ := hat
  refine ⟨p, hp, hpd, ?_⟩
  rw [directBlocks, getElem?_zipWith, hp, hd]

theorem totalLength_take (hlen : ps.map IpcBlock.length = ds.map IpcBlock.length) (i : ℕ) :
    totalLength (ps.take i) = totalLength (ds.take i) := by
  rw [totalLength, totalLength, map_take, map_take, hlen]

theorem exists_of_mem_directBlocks {rec : IpcBlock} (h : rec ∈ directBlocks ps ds) :
    ∃ (i : ℕ) (p d : IpcBlock), ps[i]? = some p ∧ ds[i]? = some d ∧ rec = ⟨p.dstOffset, d.dstOffset, d.length⟩ := by
  obtain ⟨i, hi⟩ := mem_iff_getElem?.mp h
  rw [directBlocks, getElem?_zipWith_eq_some] at hi
  obtain ⟨p, d, hp, hd, rfl⟩ := hi
  exact ⟨i, p, d, hp, hd, rfl⟩

theorem pairwise_directBlocks :
    ∀ {ps ds : List IpcBlock}, ds.Pairwise DisjointDst → (directBlocks ps ds).Pairwise DisjointDst
  | [], _, _ => by
      rw [directBlocks, zipWith_nil_left]
      exact .nil
  | p :: ps, [], _ => .nil
  | p :: ps, d :: ds, h => by
      obtain ⟨hd, hds⟩ := pairwise_cons.mp h
      refine pairwise_cons.mpr ⟨fun rec hrec => ?_, pairwise_directBlocks hds⟩
      obtain ⟨i, p', d', -, hd', rfl⟩ := exists_of_mem_directBlocks hrec
      exact hd d' (mem_of_getElem? hd')

/-- **A gather and a scatter with the same lengths are the direct copy.** -/
theorem scatter_gather (hlen : ps.map IpcBlock.length = ds.map IpcBlock.length)
    (hdisj : ds.Pairwise DisjointDst) {gpu host host' tensor tensor' : ℕ → β}
    (hgather : Gathered ps gpu host host') (hscatter : Scattered ds host' tensor tensor') :
    tensor' = copyBlocks gpu (directBlocks ps ds) tensor := by
  refine eq_copyBlocks (pairwise_directBlocks hdisj) (fun q hq => ?_) fun a ha => ?_
  · obtain ⟨rec, hrec, hq⟩ := mem_flatMap.mp hq
    obtain ⟨i, p, d, hp, hd, rfl⟩ := exists_of_mem_directBlocks hrec
    obtain ⟨o, ho, rfl⟩ := IpcBlock.mem_bytes.mp hq
    obtain ⟨p', hp', hpd, -⟩ := getElem?_directBlocks hlen hd
    obtain rfl : p = p' := Option.some.inj (hp.symm.trans hp')
    calc tensor' (d.dstOffset + o)
        = host' (totalLength (ds.take i) + o) := hscatter.moved i d hd o ho
      _ = host' (totalLength (ps.take i) + o) := by rw [totalLength_take hlen]
      _ = gpu (p.dstOffset + o) := hgather.moved i p hp o (hpd ▸ ho)
  · refine hscatter.kept a fun d hd hin => ?_
    obtain ⟨i, hi⟩ := mem_iff_getElem?.mp hd
    obtain ⟨p, hp, -, hrec⟩ := getElem?_directBlocks hlen hi
    refine ha (p.dstOffset + (a - d.dstOffset), d.dstOffset + (a - d.dstOffset))
      (mem_flatMap.mpr ⟨_, mem_of_getElem? hrec, IpcBlock.mem_bytes.mpr
        ⟨a - d.dstOffset, ?_, rfl⟩⟩) ?_
    · simp only
      omega
    · simp only
      omega

end Direct

/-- **The result of a copy does not depend on the method.**  For every batch limit, every answer of the
profile and every order in which the calls move their bytes, a call of `copy_handle_data_with_kernel`
returns, gives no kernel more entries than the limit, and scatters the host buffer to the GPU ranges
(H2D) or gathers these into it (D2H), block `i` against the host range that starts at the sum of the
earlier lengths.  A D2H and an H2D copy with the same lengths are together the direct copy. -/
theorem copy_independent_of_method (ndebug : Bool) (cfg : CopyConfig) (bs : List IpcBlock)
    (hpos : ∀ b ∈ bs, 0 < b.length) (hdisj : bs.Pairwise DisjointDst) :
    (∀ direction, ∃ ops, copyHandleDataWithKernel ndebug cfg direction bs (totalLength bs) = .ok ops ∧
      WithinLimit cfg.kernelCopyMaxBlockNum ops ∧
      ∀ moves, moves.Perm (direction.moves ops) → ∀ host gpu : ℕ → UInt8,
        direction.Effect bs moves host gpu) ∧
    ∀ (ndebug' : Bool) (cfg' : CopyConfig) (ps : List IpcBlock), (∀ p ∈ ps, 0 < p.length) →
      ps.Pairwise DisjointDst → ps.map IpcBlock.length = bs.map IpcBlock.length →
      ∃ out back, copyHandleDataWithKernel ndebug' cfg' .d2h ps (totalLength ps) = .ok out ∧
        copyHandleDataWithKernel ndebug cfg .h2d bs (totalLength bs) = .ok back ∧
        ∀ movesOut movesBack, movesOut.Perm (CopyDirection.d2h.moves out) →
          movesBack.Perm (CopyDirection.h2d.moves back) → ∀ gpu host tensor : ℕ → UInt8,
          moveAll (moveAll gpu movesOut host) movesBack tensor
            = copyBlocks gpu (directBlocks ps bs) tensor := by
  refine ⟨fun direction => ?_, fun ndebug' cfg' ps hps _ hlen => ?_⟩
  · obtain ⟨ops, hops, hlimit, hperm⟩ :=
      copyHandleDataWithKernel_spec ndebug cfg direction bs _ (.inr ⟨hpos, rfl⟩)
    refine ⟨ops, hops, hlimit, fun moves hmoves host gpu => ?_⟩
    cases direction with
    | h2d => exact scattered_of_moves hperm hdisj hmoves host gpu
    | d2h => exact gathered_of_moves hperm hmoves gpu host
  · obtain ⟨out, hout, -, hpermOut⟩ :=
      copyHandleDataWithKernel_spec ndebug' cfg' .d2h ps _ (.inr ⟨hps, rfl⟩)
    obtain ⟨back, hback, -, hpermBack⟩ :=
      copyHandleDataWithKernel_spec ndebug cfg .h2d bs _ (.inr ⟨hpos, rfl⟩)
    refine ⟨out, back, hout, hback, fun movesOut movesBack hmovesOut hmovesBack gpu host tensor => ?_⟩
    exact scatter_gather hlen hdisj (gathered_of_moves hpermOut hmovesOut gpu host)
      (scattered_of_moves hpermBack hdisj hmovesBack _ tensor)

theorem copy_independent_of_method_two :
    ∃ ops, copyHandleDataWithKernel false { kernelCopyMaxBlockNum := 1 } .h2d [⟨0, 5, 2⟩, ⟨0, 1, 3⟩] 5 = .ok ops ∧
      WithinLimit 1 ops ∧ ops = [.launch 0 [⟨0, 5, 2⟩], .launch 2 [⟨0, 1, 3⟩]] := by
  have hblocks : ([⟨0, 5, 2⟩, ⟨0, 1, 3⟩] : List IpcBlock).Pairwise DisjointDst := by
    simp [DisjointDst]
  obtain ⟨ops, hops, hlimit, -⟩ := (copy_independent_of_method false { kernelCopyMaxBlockNum := 1 }
    [⟨0, 5, 2⟩, ⟨0, 1, 3⟩] (by decide) hblocks).1 .h2d
  have hcalls : copyHandleDataWithKernel false { kernelCopyMaxBlockNum := 1 } .h2d [⟨0, 5, 2⟩, ⟨0, 1, 3⟩] 5
      = .ok [.launch 0 [⟨0, 5, 2⟩], .launch 2 [⟨0, 1, 3⟩]] := by decide +kernel
  exact ⟨ops, hops, hlimit, Except.ok.inj (hops.symm.trans hcalls)⟩

end LlumnixKv
