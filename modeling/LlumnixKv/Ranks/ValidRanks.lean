import LlumnixKv.Foundations.Worker
import LlumnixKv.Machinery.Bitset
import Mathlib.Data.List.Sort

/-!
# Ranks/ValidRanks — which P ranks send, and to whom

    computeValidRanksPd   the P ranks that hold heads nobody below them holds   (tx_stub.cpp)
    kvtTpRank             the index of a rank among them                        (tx_stub.cpp)
    getDist               the D ranks a P rank sends to                         (kvtbackend.py)

The first two run in the sender's stub, the third in the scheduler's Python; nothing but arithmetic
keeps them together.  When `d_tp ∣ p_tp` all three selection cases pick the multiples of one stride
`s` below `p_tp` (`Selects`), and with `p_tp = d_tp · (n · s)` the two sides meet: the D rank
`getDist` names for rank `k · s` is `k / n`.
-/

open List Machinery

namespace LlumnixKv

/-! ## The selection -/

/-- `for (i = 0; i < n; ++i) result.set(f(i))`. -/
def setRanks (n : ℕ) (f : ℕ → ℕ) : Except Fault (BitVec maxTpSize) :=
  (List.range n).foldlM
    (fun v i => if f i < maxTpSize then .ok (Bitset.set v (f i)) else .error .outOfRange)
    0

/-- `compute_valid_ranks_pd`. -/
def computeValidRanksPd (ndebug : Bool) (pTp dTp : ℕ) (numKvHeads : ℤ) :
    Except Fault (BitVec maxTpSize) :=
  if pTp < dTp then do
    cassert ndebug (dTp % pTp = 0)
    if 0 < numKvHeads ∧ pTp < numKvHeads.toNat ∧ numKvHeads.toNat < dTp then
      cassert ndebug (numKvHeads.toNat % pTp = 0)
      cassert ndebug (dTp % numKvHeads.toNat = 0)
    setRanks pTp id
  else if numKvHeads ≤ 0 ∨ pTp ≤ numKvHeads.toNat then
    setRanks pTp id
  else if dTp ≤ numKvHeads.toNat then do
    cassert ndebug (pTp % numKvHeads.toNat = 0)
    setRanks numKvHeads.toNat (· * (pTp / numKvHeads.toNat))
  else do
    cassert ndebug (dTp % numKvHeads.toNat = 0)
    cassert ndebug (pTp % dTp = 0)
    setRanks dTp (· * (pTp / dTp))

/-- `(valid_ranks << (valid_ranks.size() - worker_tp_rank)).count()`, the subtraction in `size_t`. -/
def kvtTpRank (validRanks : BitVec maxTpSize) (workerTpRank : ℕ) : ℕ :=
  Bitset.count (Bitset.shl validRanks ((maxTpSize + 2 ^ 64 - workerTpRank) % 2 ^ 64))

/-! ## The routing -/

/-- The three fields of a `d_inst_id`, written `dst_inst_name|dst_dprank|dst_tpsize`. -/
structure DInstId where
  dstInstName : String
  dstDprank : ℕ
  dstTpsize : ℕ
  dstTpsize_pos : 0 < dstTpsize
  deriving DecidableEq, Repr

/-- `_get_dist`: the `(dst_inst_name, dst_worker_id, worker_tp_rank)` a P rank sends to. -/
def getDist (srcTprank srcTpsize : ℕ) (d : DInstId) : List (String × ℕ × ℕ) :=
  let base := d.dstDprank * d.dstTpsize
  if d.dstTpsize = srcTpsize then [(d.dstInstName, base + srcTprank, srcTprank)]
  else if d.dstTpsize < srcTpsize then
    let groupN := srcTpsize / d.dstTpsize
    if d.dstTpsize * groupN ≠ srcTpsize then []
    else [(d.dstInstName, base + srcTprank / groupN, srcTprank / groupN)]
  else
    let groupN := d.dstTpsize / srcTpsize
    if srcTpsize * groupN ≠ d.dstTpsize then []
    else (List.range groupN).map fun j =>
      (d.dstInstName, base + srcTprank * groupN + j, srcTprank * groupN + j)

variable {d : DInstId}

/-- **Several P ranks feed one D rank**: the only target of rank `r` is `r / (p_tp / d_tp)`. -/
theorem getDist_of_dvd {p : ℕ} (hd : d.dstTpsize ∣ p) (hp : d.dstTpsize ≤ p) (r : ℕ) :
    getDist r p d = [(d.dstInstName,
      d.dstDprank * d.dstTpsize + r / (p / d.dstTpsize), r / (p / d.dstTpsize))] := by
  unfold getDist
  rcases Nat.eq_or_lt_of_le hp with heq | hlt
  · simp [heq, Nat.div_self (heq ▸ d.dstTpsize_pos)]
  · simp [hlt, hlt.ne, Nat.mul_div_cancel' hd]

/-- The P ranks `getDist` maps to D rank `x`. -/
def mappedRanks (pTp : ℕ) (d : DInstId) (x : ℕ) : List ℕ :=
  (List.range pTp).filter fun r => decide (x ∈ (getDist r pTp d).map fun t => t.2.2)

theorem mem_mappedRanks {p x r : ℕ} (hd : d.dstTpsize ∣ p) (hp : d.dstTpsize ≤ p) :
    r ∈ mappedRanks p d x ↔ r < p ∧ r / (p / d.dstTpsize) = x := by
  rw [mappedRanks, mem_filter, mem_range, decide_eq_true_eq, getDist_of_dvd hd hp,
    map_singleton, mem_singleton, eq_comm (a := x)]

/-- The ranks of a D rank follow each other. -/
theorem mem_mappedRanks_of_lt {p x j : ℕ} (hd : d.dstTpsize ∣ p)
    (hp : d.dstTpsize ≤ p) (hx : x < d.dstTpsize) (hj : j < p / d.dstTpsize) :
    x * (p / d.dstTpsize) + j ∈ mappedRanks p d x := by
  refine (mem_mappedRanks hd hp).mpr ⟨?_, Radix.div_digit hj⟩
  have hlt := Radix.digit_lt hx hj
  rwa [Nat.mul_div_cancel' hd] at hlt

/-- With more P ranks than D ranks, each D rank has several. -/
theorem one_lt_groupN {p : ℕ} (hd : d.dstTpsize ∣ p) (hp : d.dstTpsize < p) :
    1 < p / d.dstTpsize := by
  obtain ⟨m, rfl⟩ := hd
  rw [Nat.mul_div_cancel_left _ d.dstTpsize_pos]
  exact (Nat.lt_mul_iff_one_lt_right d.dstTpsize_pos).mp hp

/-! ## The heads -/

/-- The KV heads a rank of a `tp`-wide group holds, in the order of its cache row: its equal share,
or one replicated head when there are fewer heads than ranks. -/
def heldHeads (tp numKvHeads r : ℕ) : List ℕ :=
  if tp ≤ numKvHeads then List.range' (r * (numKvHeads / tp)) (numKvHeads / tp)
  else [r * numKvHeads / tp]

/-- The head counts a P group and a D group can agree on: unknown, split evenly over the P ranks, or
replicated over them with the D side splitting or replicating too. -/
def HeadsAccepted (pTp dTp : ℕ) (numKvHeads : ℤ) : Prop :=
  numKvHeads ≤ 0 ∨ ((pTp : ℤ) ≤ numKvHeads ∧ (pTp : ℤ) ∣ numKvHeads) ∨
    (0 < numKvHeads ∧ numKvHeads < pTp ∧ numKvHeads ∣ (pTp : ℤ) ∧
      ((dTp : ℤ) ∣ numKvHeads ∨ numKvHeads ∣ (dTp : ℤ)))

/-- The valid ranks `getDist` routes to D rank `x`, in increasing order. -/
def senders (validRanks : BitVec maxTpSize) (pTp : ℕ) (d : DInstId) (x : ℕ) : List ℕ :=
  (List.range pTp).filter fun r =>
    validRanks.getLsbD r && decide (x ∈ (getDist r pTp d).map fun t => t.2.2)

/-! ## All three cases select a stride -/

theorem setRanks_ok {n : ℕ} {f : ℕ → ℕ} (h : ∀ i < n, f i < maxTpSize) :
    ∃ v, setRanks n f = .ok v ∧ ∀ j, v.getLsbD j = true ↔ ∃ i < n, f i = j := by
  induction n with
  | zero => exact ⟨0, rfl, by simp⟩
  | succ n ih =>
    obtain ⟨v, hv, hbit⟩ := ih fun i hi => h i (by omega)
    refine ⟨Bitset.set v (f n), ?_, fun j => ?_⟩
    · rw [setRanks, range_succ, foldlM_append]
      rw [setRanks] at hv
      rw [hv]
      simp [h n (by omega), bind, Except.bind, pure, Except.pure]
    · rw [Bitset.getLsbD_set, Bool.or_eq_true, hbit, Bool.and_eq_true, decide_eq_true_iff,
        decide_eq_true_iff]
      constructor
      · rintro (⟨i, hi, hij⟩ | ⟨_, hj⟩)
        · exact ⟨i, by omega, hij⟩
        · exact ⟨n, by omega, hj⟩
      · rintro ⟨i, hi, hij⟩
        rcases Nat.lt_succ_iff_lt_or_eq.mp hi with hlt | rfl
        · exact .inl ⟨i, hlt, hij⟩
        · exact .inr ⟨h i (by omega), hij⟩

/-- A rank beyond the set is all that can go wrong. -/
theorem setRanks_cases (f : ℕ → ℕ) : ∀ n,
    (∀ i < n, f i < maxTpSize) ∨ setRanks n f = .error .outOfRange
  | 0 => .inl nofun
  | n + 1 => by
      have hstep : setRanks (n + 1) f = setRanks n f >>= fun v =>
          if f n < maxTpSize then .ok (Bitset.set v (f n)) else .error .outOfRange := by
        rw [setRanks, range_succ, foldlM_append]
        exact bind_congr fun v => bind_pure _
      rcases setRanks_cases f n with hlt | hstop
      · by_cases hn : f n < maxTpSize
        · exact .inl fun i hi => (Nat.lt_succ_iff_lt_or_eq.mp hi).elim (hlt i) fun h => h ▸ hn
        · obtain ⟨v, hv, -⟩ := setRanks_ok hlt
          exact .inr (by rw [hstep, hv, ok_bind, if_neg hn])
      · exact .inr (by rw [hstep, hstop]; rfl)

/-- `for` loops over multiples of `s` select a strided set. -/
theorem setRanks_strided {k s : ℕ} (hs : 0 < s) (h : k * s ≤ maxTpSize) :
    ∃ v, setRanks k (· * s) = .ok v ∧ Bitset.Strided s (k * s) v := by
  have hlt : ∀ i < k, i * s < maxTpSize := fun i hi =>
    lt_of_lt_of_le (Nat.mul_lt_mul_of_pos_right hi hs) h
  obtain ⟨v, hv, hbit⟩ := setRanks_ok hlt
  refine ⟨v, hv, fun j => (hbit j).trans ⟨?_, ?_⟩⟩
  · rintro ⟨i, hi, rfl⟩
    exact ⟨Nat.mul_lt_mul_of_pos_right hi hs, Nat.dvd_mul_left s i⟩
  · rintro ⟨hj, i, rfl⟩
    rw [mul_comm s i] at hj ⊢
    exact ⟨i, Nat.lt_of_mul_lt_mul_right hj, rfl⟩

/-- The valid ranks are the multiples of `s` below `pTp`, `n` of them for each D rank. -/
structure Grouped (pTp dTp : ℕ) (validRanks : BitVec maxTpSize) (s n : ℕ) : Prop where
  stride_pos : 0 < s
  groups_pos : 0 < n
  share : pTp = dTp * (n * s)
  strided : Bitset.Strided s pTp validRanks

/-- What a selection looks like once `d_tp ∣ p_tp`.  `heads` says which of the three cases chose the
stride. -/
structure Selects (pTp dTp : ℕ) (numKvHeads : ℤ) (validRanks : BitVec maxTpSize) (s n : ℕ) :
    Prop extends Grouped pTp dTp validRanks s n where
  width : pTp ≤ maxTpSize
  heads : numKvHeads ≤ 0 ∨
    (s = 1 ∧ pTp ≤ numKvHeads.toNat ∧ pTp ∣ numKvHeads.toNat) ∨
    (0 < numKvHeads ∧ numKvHeads.toNat < pTp ∧ numKvHeads.toNat = dTp * n) ∨
    (0 < numKvHeads ∧ numKvHeads.toNat < dTp ∧ n = 1)

theorem computeValidRanksPd_selects (ndebug : Bool) {p d : ℕ} {H : ℤ} (hd : 0 < d) (hdp : d ∣ p)
    (hle : d ≤ p) (hp : p ≤ maxTpSize) (hH : HeadsAccepted p d H) :
    ∃ V s n, computeValidRanksPd ndebug p d H = .ok V ∧ Selects p d H V s n := by
  obtain ⟨m, rfl⟩ := hdp
  have hm : 0 < m := Nat.pos_of_mul_pos_left (lt_of_lt_of_le hd hle)
  have hfull : ∃ v, setRanks (d * m) id = .ok v ∧ Bitset.Strided 1 (d * m) v := by
    obtain ⟨v, hv, hst⟩ := setRanks_strided (k := d * m) one_pos (by simpa using hp)
    exact ⟨v, by simpa [Function.id_def] using hv, by simpa using hst⟩
  rw [computeValidRanksPd, if_neg (by omega)]
  by_cases h1 : H ≤ 0 ∨ d * m ≤ H.toNat
  · -- every rank holds heads of its own
    obtain ⟨v, hv, hst⟩ := hfull
    refine ⟨v, 1, m, by rw [if_pos h1, hv], ⟨one_pos, hm, by simp, hst⟩, hp, ?_⟩
    rcases hH with h | ⟨h, hdiv⟩ | ⟨h0, hlt, _⟩
    · exact .inl h
    · refine .inr (.inl ⟨rfl, by omega, ?_⟩)
      obtain ⟨e, rfl⟩ := Int.eq_ofNat_of_zero_le (show (0 : ℤ) ≤ H by omega)
      exact_mod_cast hdiv
    · omega
  · rw [if_neg h1]
    push Not at h1
    obtain ⟨h0, hlt⟩ := h1
    obtain ⟨h, rfl⟩ := Int.eq_ofNat_of_zero_le h0.le
    simp only [Int.toNat_natCast] at hlt ⊢
    have hpos : 0 < h := by omega
    obtain ⟨hdiv, hdh⟩ : h ∣ d * m ∧ (d ∣ h ∨ h ∣ d) := by
      rcases hH with hh | ⟨hh, _⟩ | ⟨_, _, hdiv, hdh⟩
      · omega
      · omega
      · exact ⟨by exact_mod_cast hdiv, by exact_mod_cast hdh⟩
    by_cases h2 : d ≤ h
    · -- one representative for each head
      rw [if_pos h2, cassert_of (Nat.mod_eq_zero_of_dvd hdiv)]
      obtain ⟨n, rfl⟩ : d ∣ h := hdh.elim id fun hh =>
        (Nat.le_antisymm (Nat.le_of_dvd hd hh) h2) ▸ dvd_rfl
      obtain ⟨s, hs⟩ := hdiv
      have hspos : 0 < s := Nat.pos_of_ne_zero fun hz => by
        rw [hz, mul_zero] at hs
        omega
      have hstride : d * m / (d * n) = s := by rw [hs, Nat.mul_div_cancel_left _ hpos]
      obtain ⟨v, hv, hst⟩ := setRanks_strided (k := d * n) hspos (hs ▸ hp)
      refine ⟨v, s, n, by rw [hstride]; exact hv, ⟨hspos, Nat.pos_of_mul_pos_left hpos,
        by rw [hs, mul_assoc], hs ▸ hst⟩, hp, ?_⟩
      rw [Int.toNat_natCast]
      exact .inr (.inr (.inl ⟨h0, hlt, rfl⟩))
    · -- one representative for each D rank
      rw [if_neg h2, cassert_of (Nat.mod_eq_zero_of_dvd
          (hdh.resolve_left fun hh => h2 (Nat.le_of_dvd hpos hh))),
        cassert_of (Nat.mul_mod_right d m)]
      have hstride : d * m / d = m := Nat.mul_div_cancel_left m hd
      obtain ⟨v, hv, hst⟩ := setRanks_strided (k := d) hm hp
      refine ⟨v, m, 1, by rw [hstride]; exact hv, ⟨hm, one_pos, by simp, hst⟩, hp, ?_⟩
      exact .inr (.inr (.inr ⟨h0, by simpa using h2, rfl⟩))

/-! ## Effective ranks -/

section Selected

variable {p dTp s n : ℕ} {H : ℤ} {V : BitVec maxTpSize}

/-- The shift pushes out exactly the ranks from `r` on. -/
theorem kvtTpRank_eq {r : ℕ} (V : BitVec maxTpSize) (hr : r ≤ maxTpSize) :
    kvtTpRank V r = (List.range r).countP V.getLsbD := by
  have hsub : (maxTpSize + 2 ^ 64 - r) % 2 ^ 64 = maxTpSize - r := by
    simp only [maxTpSize] at hr ⊢
    omega
  rw [kvtTpRank, hsub, Bitset.count_shl V hr]

section Grouped

variable (h : Grouped p dTp V s n)
include h

theorem Grouped.share' : p = dTp * n * s := by
  rw [h.share, mul_assoc]

theorem Grouped.count : Bitset.count V = dTp * n :=
  Bitset.Strided.count (h.share' ▸ h.strided) h.stride_pos

variable {k : ℕ}

theorem Grouped.mul_lt (hk : k < dTp * n) : k * s < p := by
  rw [h.share']
  exact Nat.mul_lt_mul_of_pos_right hk h.stride_pos

theorem Grouped.exists_mul {r : ℕ} (hr : V.getLsbD r = true) : ∃ k < dTp * n, r = k * s := by
  obtain ⟨hlt, k, rfl⟩ := (h.strided r).mp hr
  rw [h.share', mul_comm s k] at hlt
  exact ⟨k, Nat.lt_of_mul_lt_mul_right hlt, mul_comm s k⟩

theorem Grouped.valid_mul (hk : k < dTp * n) : V.getLsbD (k * s) = true :=
  (h.strided _).mpr ⟨h.mul_lt hk, Nat.dvd_mul_left s k⟩

/-- The effective rank of the `k`-th multiple of the stride is `k`. -/
theorem Grouped.kvtTpRank_mul (hk : k < dTp * n) : kvtTpRank V (k * s) = k := by
  have hwidth : k * s < maxTpSize := BitVec.lt_of_getLsbD (h.valid_mul hk)
  rw [kvtTpRank_eq V hwidth.le, h.strided.countP_range h.stride_pos (h.mul_lt hk).le]

end Grouped

variable {d : DInstId} {ndebug : Bool} {x : ℕ}

/-- **Routing by rank is routing by effective rank**: the group of `k · s` is `k / n`. -/
theorem Grouped.getDist_mul (h : Grouped p d.dstTpsize V s n) (k : ℕ) :
    getDist (k * s) p d = [(d.dstInstName, d.dstDprank * d.dstTpsize + k / n, k / n)] := by
  have hns : 0 < n * s := mul_pos h.groups_pos h.stride_pos
  have hgroup : p / d.dstTpsize = n * s := by
    rw [h.share, Nat.mul_div_cancel_left _ d.dstTpsize_pos]
  have hle : d.dstTpsize ≤ p := by
    rw [h.share]
    exact Nat.le_mul_of_pos_right _ hns
  rw [getDist_of_dvd ⟨n * s, h.share⟩ hle, hgroup, Nat.mul_div_mul_right _ _ h.stride_pos]

/-- The senders of D rank `x`, in increasing order. -/
theorem Grouped.senders_eq (h : Grouped p d.dstTpsize V s n) (hx : x < d.dstTpsize) :
    senders V p d x = (List.range n).map fun j => (x * n + j) * s := by
  have hblock : ∀ j < n, x * n + j < d.dstTpsize * n := fun j hj => Radix.digit_lt hx hj
  refine Pairwise.eq_of_mem_iff (r := (· < ·)) (pairwise_lt_range.filter _) ?_ fun r => ?_
  · refine pairwise_map.mpr (pairwise_lt_range.imp fun hab => ?_)
    exact Nat.mul_lt_mul_of_pos_right (by omega) h.stride_pos
  · simp only [senders, mem_filter, mem_range, mem_map, Bool.and_eq_true,
      decide_eq_true_iff]
    constructor
    · rintro ⟨-, hv, hmem⟩
      obtain ⟨k, -, rfl⟩ := h.exists_mul hv
      rw [h.getDist_mul] at hmem
      obtain rfl : k / n = x := by simpa using hmem
      exact ⟨k % n, Nat.mod_lt _ h.groups_pos, by rw [Nat.div_add_mod']⟩
    · rintro ⟨j, hj, rfl⟩
      refine ⟨h.mul_lt (hblock j hj), h.valid_mul (hblock j hj), ?_⟩
      rw [h.getDist_mul, Radix.div_digit hj]
      simp

/-- …have the group offsets `0, …, n - 1`. -/
theorem Grouped.map_kvtTpRank_mod (h : Grouped p d.dstTpsize V s n) (hx : x < d.dstTpsize) :
    (senders V p d x).map (fun r => kvtTpRank V r % n) = List.range n := by
  rw [h.senders_eq hx, map_map]
  conv_rhs => rw [← map_id (List.range n)]
  refine map_congr_left fun j hj => ?_
  have hj : j < n := mem_range.mp hj
  rw [Function.comp_apply, h.kvtTpRank_mul (Radix.digit_lt hx hj), Radix.mod_digit hj, id]

/-! ## What an accepted selection looks like -/

/-- Loops over multiples of `s` that returned selected a strided set. -/
theorem strided_of_setRanks {k s : ℕ} (hs : 0 < s) (h : setRanks k (· * s) = .ok V) :
    Bitset.Strided s (k * s) V := by
  obtain ⟨v, hv, hbit⟩ :=
    setRanks_ok ((setRanks_cases _ _).resolve_right fun herr => by cases h.symm.trans herr)
  obtain rfl : v = V := Except.ok.inj (hv.symm.trans h)
  refine fun j => (hbit j).trans ⟨?_, ?_⟩
  · rintro ⟨i, hi, rfl⟩
    exact ⟨Nat.mul_lt_mul_of_pos_right hi hs, Nat.dvd_mul_left s i⟩
  · rintro ⟨hj, i, rfl⟩
    rw [mul_comm s i] at hj ⊢
    exact ⟨i, Nat.lt_of_mul_lt_mul_right hj, rfl⟩

/-- How many ranks are set, and how far apart. -/
def rankStride (pTp dTp : ℕ) (numKvHeads : ℤ) : ℕ × ℕ :=
  if pTp < dTp ∨ numKvHeads ≤ 0 ∨ pTp ≤ numKvHeads.toNat then (pTp, 1)
  else if dTp ≤ numKvHeads.toNat then (numKvHeads.toNat, pTp / numKvHeads.toNat)
  else (dTp, pTp / dTp)

/-- The assertions of `compute_valid_ranks_pd`. -/
def RanksAsserted (pTp dTp : ℕ) (numKvHeads : ℤ) : Prop :=
  if pTp < dTp then
    dTp % pTp = 0 ∧ (0 < numKvHeads ∧ pTp < numKvHeads.toNat ∧ numKvHeads.toNat < dTp →
      numKvHeads.toNat % pTp = 0 ∧ dTp % numKvHeads.toNat = 0)
  else if numKvHeads ≤ 0 ∨ pTp ≤ numKvHeads.toNat then True
  else if dTp ≤ numKvHeads.toNat then pTp % numKvHeads.toNat = 0
  else dTp % numKvHeads.toNat = 0 ∧ pTp % dTp = 0

/-- **All the selection can do**: set its ranks, or fail an assertion. -/
theorem computeValidRanksPd_cases (ndebug : Bool) (p d : ℕ) (H : ℤ) :
    ((ndebug = true ∨ RanksAsserted p d H) ∧ computeValidRanksPd ndebug p d H =
      setRanks (rankStride p d H).1 (· * (rankStride p d H).2)) ∨
    (¬(ndebug = true ∨ RanksAsserted p d H) ∧ computeValidRanksPd ndebug p d H = .error .abort) := by
  have hid : setRanks p id = setRanks p (· * 1) := by simp only [mul_one, Function.id_def]
  simp only [computeValidRanksPd, RanksAsserted, rankStride, cassert_bind, hid]
  by_cases hlt : p < d
  · simp only [hlt, if_true, true_or]
    split_ifs <;> first | exact .inl ⟨by tauto, rfl⟩ | exact .inr ⟨by tauto, rfl⟩
  by_cases hheads : H ≤ 0 ∨ p ≤ H.toNat
  · simp only [hlt, hheads, if_true, if_false, or_true, true_and, true_or]
  · simp only [hlt, hheads, if_false, false_or]
    split_ifs <;> first | exact .inl ⟨by tauto, rfl⟩ | exact .inr ⟨by tauto, rfl⟩

theorem rankStride_pos (p d : ℕ) (H : ℤ) : 0 < (rankStride p d H).2 := by
  unfold rankStride
  split_ifs
  · exact one_pos
  · exact Nat.div_pos (by omega) (by omega)
  · exact Nat.div_pos (by omega) (by omega)

theorem strided_of_computeValidRanksPd (hV : computeValidRanksPd ndebug p dTp H = .ok V) :
    (ndebug = true ∨ RanksAsserted p dTp H) ∧
      Bitset.Strided (rankStride p dTp H).2 ((rankStride p dTp H).1 * (rankStride p dTp H).2) V := by
  rcases computeValidRanksPd_cases ndebug p dTp H with ⟨hassert, heq⟩ | ⟨-, heq⟩
  · exact ⟨hassert, strided_of_setRanks (rankStride_pos p dTp H) (heq.symm.trans hV)⟩
  · cases heq.symm.trans hV

theorem count_of_computeValidRanksPd (hV : computeValidRanksPd ndebug p dTp H = .ok V) :
    Bitset.count V = (rankStride p dTp H).1 :=
  (strided_of_computeValidRanksPd hV).2.count (rankStride_pos p dTp H)

/-- **Senders that divide among the D ranks come in equal groups**, whichever case selected them. -/
theorem computeValidRanksPd_grouped (hV : computeValidRanksPd false p dTp H = .ok V)
    (hdvd : dTp ∣ Bitset.count V) (hpos : 0 < Bitset.count V) : ∃ s n, Grouped p dTp V s n := by
  obtain ⟨hassert, hst⟩ := strided_of_computeValidRanksPd hV
  have hp : (rankStride p dTp H).1 * (rankStride p dTp H).2 = p := by
    replace hassert := hassert.resolve_left Bool.false_ne_true
    unfold RanksAsserted at hassert
    unfold rankStride
    by_cases hall : p < dTp ∨ H ≤ 0 ∨ p ≤ H.toNat
    · rw [if_pos hall]
      exact mul_one p
    rw [if_neg (not_or.mp hall).1, if_neg (not_or.mp hall).2] at hassert
    rw [if_neg hall]
    split_ifs at hassert ⊢
    · exact Nat.mul_div_cancel' (Nat.dvd_of_mod_eq_zero hassert)
    · exact Nat.mul_div_cancel' (Nat.dvd_of_mod_eq_zero hassert.2)
  rw [count_of_computeValidRanksPd hV] at hdvd hpos
  rw [hp] at hst
  obtain ⟨n, hn⟩ := hdvd
  refine ⟨_, n, rankStride_pos p dTp H, Nat.pos_of_mul_pos_left (hn ▸ hpos), ?_, hst⟩
  rw [← mul_assoc, ← hn, hp]

/-- **With fewer heads than D ranks there is one sender for each D rank, otherwise there are more**:
what a selection looks like where several P ranks feed one D rank. -/
theorem computeValidRanksPd_fewer (hd : 0 < dTp) (hlt : dTp < p) (hdvd : dTp ∣ p)
    (hV : computeValidRanksPd ndebug p dTp H = .ok V) :
    (0 < H ∧ H ≤ dTp ∧ Grouped p dTp V (p / dTp) 1) ∨ ((H ≤ 0 ∨ dTp < H) ∧ dTp < Bitset.count V) := by
  have hst := (strided_of_computeValidRanksPd hV).2
  have hone (hst : Bitset.Strided (p / dTp) (dTp * (p / dTp)) V) : Grouped p dTp V (p / dTp) 1 := by
    rw [Nat.mul_div_cancel' hdvd] at hst
    exact ⟨Nat.div_pos hlt.le hd, one_pos, by rw [one_mul, Nat.mul_div_cancel' hdvd], hst⟩
  rw [count_of_computeValidRanksPd hV]
  unfold rankStride at hst ⊢
  split_ifs at hst ⊢ with hall hheads
  · exact .inr ⟨by omega, hlt⟩
  · rcases Nat.eq_or_lt_of_le hheads with heq | hgt
    · rw [← heq] at hst
      exact .inl ⟨by omega, by omega, hone hst⟩
    · exact .inr ⟨by omega, hgt⟩
  · exact .inl ⟨by omega, by omega, hone hst⟩

/-! ## The heads of a group, in order -/

/-- Consecutive blocks of `c` make up one block. -/
theorem flatMap_range'_blocks (a c n : ℕ) :
    ((List.range n).flatMap fun j => List.range' (a + j * c) c) = List.range' a (n * c) := by
  induction n with
  | zero => simp
  | succ n ih =>
    rw [range_succ, flatMap_append, ih, Nat.succ_mul, ← range'_append_1]
    simp

theorem nodup_heldHeads (tp h r : ℕ) : (heldHeads tp h r).Nodup := by
  unfold heldHeads
  split
  · exact nodup_range'
  · exact nodup_singleton _

/-- Either every effective rank holds its own `c` heads, or one sender holds its D rank's head. -/
theorem Selects.heldHeads_mul (h : Selects p dTp H V s n) (hd : 0 < dTp) (hH : 0 < H) :
    (∃ c, 0 < c ∧ H.toNat = dTp * (n * c) ∧
      ∀ k, heldHeads p H.toNat (k * s) = List.range' (k * c) c) ∨
    (n = 1 ∧ ∀ k, heldHeads p H.toNat (k * s) = heldHeads dTp H.toNat k) := by
  have hns : 0 < n * s := mul_pos h.groups_pos h.stride_pos
  have hp : 0 < p := by rw [h.share]; exact mul_pos hd hns
  rcases h.heads with h0 | ⟨rfl, hle, c, hc⟩ | ⟨-, hlt, hHn⟩ | ⟨-, hlt, rfl⟩
  · omega
  · have hcpos : 0 < c := Nat.pos_of_ne_zero fun hz => by
      rw [hz, mul_zero] at hc
      omega
    refine .inl ⟨c, hcpos, ?_, fun k => ?_⟩
    · rw [hc, h.share', mul_one, mul_assoc]
    · rw [heldHeads, if_pos hle, hc, Nat.mul_div_cancel_left _ hp, mul_one]
  · refine .inl ⟨1, one_pos, by rw [hHn, mul_one], fun k => ?_⟩
    have hkey : k * s * H.toNat / p = k := by
      rw [hHn, h.share', mul_assoc, mul_comm s, ← h.share', Nat.mul_div_cancel _ hp]
    rw [heldHeads, if_neg (by omega), hkey, mul_one]
    rfl
  · refine .inr ⟨rfl, fun k => ?_⟩
    have hps : p = dTp * s := by rw [h.share, one_mul]
    have hle : dTp ≤ p := by rw [hps]; exact Nat.le_mul_of_pos_right _ h.stride_pos
    rw [heldHeads, heldHeads, if_neg (by omega), if_neg (by omega), hps, mul_right_comm,
      Nat.mul_div_mul_right _ _ h.stride_pos]

/-- **The senders' heads, in order, are the heads of the D row.** -/
theorem Selects.flatMap_heldHeads (h : Selects p d.dstTpsize H V s n) (hH : 0 < H)
    (hx : x < d.dstTpsize) :
    (senders V p d x).flatMap (heldHeads p H.toNat) = heldHeads d.dstTpsize H.toNat x := by
  rw [h.senders_eq hx, flatMap_map]
  rcases h.heldHeads_mul d.dstTpsize_pos hH with ⟨c, hc, hHc, heq⟩ | ⟨rfl, heq⟩
  · have hle : d.dstTpsize ≤ H.toNat := by
      rw [hHc]
      exact Nat.le_mul_of_pos_right _ (mul_pos h.groups_pos hc)
    have hshare : H.toNat / d.dstTpsize = n * c := by
      rw [hHc, Nat.mul_div_cancel_left _ d.dstTpsize_pos]
    simp only [heq]
    simp only [add_mul]
    rw [flatMap_range'_blocks, heldHeads, if_pos hle, hshare, mul_assoc]
  · simp [heq]

end Selected

/-- **Sender selection agrees with routing.**  The stub's bit tricks and the scheduler's division
name the same D rank, and the heads a D rank receives arrive in the order of its row. -/
theorem computeValidRanksPd_agrees_getDist (ndebug : Bool) (p : ℕ) (d : DInstId) (H : ℤ)
    (hle : d.dstTpsize ≤ p) (hdvd : d.dstTpsize ∣ p) (hp : p ≤ maxTpSize)
    (hH : HeadsAccepted p d.dstTpsize H) :
    ∃ V, computeValidRanksPd ndebug p d.dstTpsize H = .ok V ∧
      d.dstTpsize ∣ Bitset.count V ∧
      (∀ r, V.getLsbD r = true → r < p ∧
        kvtTpRank V r = (List.range r).countP V.getLsbD ∧
        ∃ x, x = kvtTpRank V r / (Bitset.count V / d.dstTpsize) ∧
          getDist r p d = [(d.dstInstName, d.dstDprank * d.dstTpsize + x, x)]) ∧
      (0 < H → ∀ x < d.dstTpsize,
        (senders V p d x).map (fun r => kvtTpRank V r % (Bitset.count V / d.dstTpsize)) =
          List.range (Bitset.count V / d.dstTpsize) ∧
        (senders V p d x).Pairwise (fun r r' =>
          (heldHeads p H.toNat r).Disjoint (heldHeads p H.toNat r')) ∧
        (senders V p d x).flatMap (heldHeads p H.toNat) = heldHeads d.dstTpsize H.toNat x) := by
  obtain ⟨V, s, n, hV, h⟩ :=
    computeValidRanksPd_selects ndebug d.dstTpsize_pos hdvd hle hp hH
  have hn : Bitset.count V / d.dstTpsize = n := by
    rw [h.count, Nat.mul_div_cancel_left _ d.dstTpsize_pos]
  refine ⟨V, hV, ⟨n, h.count⟩, fun r hr => ?_, fun hH x hx => ⟨?_, ?_, h.flatMap_heldHeads hH hx⟩⟩
  · obtain ⟨k, hk, rfl⟩ := h.exists_mul hr
    have hlt := h.mul_lt hk
    refine ⟨hlt, kvtTpRank_eq V (hlt.le.trans hp), k / n, ?_, h.getDist_mul k⟩
    rw [h.kvtTpRank_mul hk, hn]
  · rw [hn]
    exact h.map_kvtTpRank_mod hx
  · have hnodup : ((senders V p d x).flatMap (heldHeads p H.toNat)).Nodup := by
      rw [h.flatMap_heldHeads hH hx]
      exact nodup_heldHeads _ _ _
    exact (nodup_flatMap.mp hnodup).2

/-- Eight P ranks over four heads and two D ranks: the replicated heads leave four senders. -/
theorem computeValidRanksPd_agrees_getDist_eight_two :
    ∃ V, computeValidRanksPd true 8 2 4 = .ok V ∧ 2 ∣ Bitset.count V := by
  obtain ⟨V, hV, hdvd, -⟩ := computeValidRanksPd_agrees_getDist true 8 ⟨"d", 0, 2, by decide⟩ 4
    (by decide) (by decide) (by decide) (.inr (.inr (by decide)))
  exact ⟨V, hV, hdvd⟩

end LlumnixKv
