import LlumnixKv.Parse.HeadSplit
import LlumnixKv.Ranks.Dispatch

/-!
# Parse/Reassembly — putting the heads of several P ranks into one D row

    P rank r   │ heads of r │      group_off = r % group_n,  group_n = kvt_tp_size / d_tp
                     ↓
    D row      │ h₀ │ h₁ │ … │   slot j of rank x must hold head x·H/d_tp + j

The RAGGED_FLASH and DPSK_V32 functions place a P rank's heads at `group_off` of the D row.  The
group size counts only the valid ranks while the rank is the engine's, so the two agree when every
rank is valid — `p_tp ≤ H` — and only then: with replicated heads the second copy of a head is
written into the slot of the next one.
-/

open List Machinery

namespace LlumnixKv

open Radix

/-! ## The transfer -/

/-- The two shapes whose P > D functions split rows by heads. -/
inductive HeadParse
  | ragged
  | dpsk
  deriving DecidableEq

def HeadParse.cacheShape : HeadParse → CacheShape
  | .ragged => .raggedFlash
  | .dpsk => .dpskV32SparseMla

/-- The P > D function of the shape. -/
def HeadParse.fn : HeadParse → ParseFn
  | .ragged => .parseBlockSendPGtD
  | .dpsk => .vllmParseBlockSendMultiTensorPGtD

/-- …and its model. -/
def HeadParse.parse : HeadParse → EnvCfg → ParseBlockFunc
  | .ragged => parseBlockSendPGtD
  | .dpsk => vllmParseBlockSendMultiTensorPGtD

/-- A cache tensor `[num_gpu_blocks, ntpb, 2, heads, headBytes]`, whatever the number of heads. -/
structure KvTensor where
  ntpb : ℕ
  headBytes : ℕ
  ntpb_pos : 0 < ntpb
  ntpb_lt : ntpb < 2 ^ 32
  headBytes_pos : 0 < headBytes

namespace KvTensor

/-- The bytes of a token's row. -/
def tokenSize (T : KvTensor) (heads : ℕ) : ℕ := 2 * (heads * T.headBytes)

def blockSize (T : KvTensor) (heads : ℕ) : ℕ := T.ntpb * T.tokenSize heads

/-- The address of byte `b` of slot `j` in half `kv` of token `t`. -/
def addr (T : KvTensor) (heads : ℕ) (table : List ℕ) (t kv j b : ℕ) : ℕ :=
  tokenOffset table T.ntpb (T.tokenSize heads) t + ((kv * heads + j) * T.headBytes + b)

/-- A run of slots stays inside the cache. -/
theorem addr_add_le {T : KvTensor} {heads N t kv j k : ℕ} {table : List ℕ}
    (hid : table.getD (t / T.ntpb) 0 < N) (hkv : kv < 2) (hj : j + k ≤ heads) :
    T.addr heads table t kv j 0 + k * T.headBytes ≤ T.blockSize heads * N := by
  have hrow : (kv * heads + j) * T.headBytes + k * T.headBytes ≤ T.tokenSize heads := by
    have hslots : kv * heads + (j + k) ≤ 2 * heads :=
      calc kv * heads + (j + k) ≤ 1 * heads + heads :=
            Nat.add_le_add (Nat.mul_le_mul_right heads (by omega)) hj
        _ = 2 * heads := by ring
    calc (kv * heads + j) * T.headBytes + k * T.headBytes
        = (kv * heads + (j + k)) * T.headBytes := by ring
      _ ≤ 2 * heads * T.headBytes := Nat.mul_le_mul_right _ hslots
      _ = T.tokenSize heads := by rw [tokenSize, mul_assoc]
  calc T.addr heads table t kv j 0 + k * T.headBytes
      = (table.getD (t / T.ntpb) 0 * T.ntpb + t % T.ntpb) * T.tokenSize heads
        + (kv * heads + j) * T.headBytes + k * T.headBytes := by
          simp only [addr, tokenOffset]; ring
    _ ≤ N * T.ntpb * T.tokenSize heads :=
      span_le (digit_lt hid (Nat.mod_lt t T.ntpb_pos)) hrow
    _ = T.blockSize heads * N := by rw [blockSize]; ring

/-- **An address determines its half, slot and byte.** -/
theorem addr_inj {T : KvTensor} {heads t t' kv kv' j j' b b' : ℕ} {table : List ℕ} (hkv : kv < 2)
    (hkv' : kv' < 2) (hj : j < heads) (hj' : j' < heads) (hb : b < T.headBytes)
    (hb' : b' < T.headBytes) (h : T.addr heads table t kv j b = T.addr heads table t' kv' j' b') :
    kv = kv' ∧ j = j' ∧ b = b' := by
  have hrow : ∀ {kv j b}, kv < 2 → j < heads → b < T.headBytes →
      (kv * heads + j) * T.headBytes + b < T.tokenSize heads := fun hkv hj hb => by
    rw [tokenSize, ← mul_assoc]
    exact digit_lt (digit_lt hkv hj) hb
  obtain ⟨-, hin⟩ := digit_inj (hrow hkv hj hb) (hrow hkv' hj' hb') h
  obtain ⟨hslot, hbyte⟩ := digit_inj hb hb' hin
  obtain ⟨hhalf, hj⟩ := digit_inj hj hj' hslot
  exact ⟨hhalf, hj, hbyte⟩

end KvTensor

/-- The number of heads in a rank's row. -/
def headsPerRank (tp numKvHeads : ℕ) : ℕ := if tp ≤ numKvHeads then numKvHeads / tp else 1

/-- A worker registered these tensors for its heads, and the blocks of the range are among them. -/
structure Holds (w : WorkerInfo) (tp rank numKvHeads : ℕ) (tensors : List KvTensor)
    (table : List ℕ) (task : ReqSendTask) : Prop where
  engineTpSize : w.engineTpSize = tp
  workerTpRank : w.workerTpRank = rank
  tokenSizes : w.tokenSizes = tensors.map (·.tokenSize (headsPerRank tp numKvHeads))
  blockSizes : w.blockSizes = tensors.map (·.blockSize (headsPerRank tp numKvHeads))
  layerNumBlocks_pos : 0 < w.layerNumBlocks
  capacity : ∀ T ∈ tensors, T.blockSize (headsPerRank tp numKvHeads) * w.layerNumBlocks ≤ sizeMax
  covered : ∀ T ∈ tensors, ∀ t, task.seenTokens ≤ t → t < task.endTokens →
    ∃ id, table[t / T.ntpb]? = some id ∧ id < w.layerNumBlocks

namespace Holds

variable {w : WorkerInfo} {tp rank H : ℕ} {tensors : List KvTensor} {table : List ℕ}
  {task : ReqSendTask} {i : ℕ} {T : KvTensor}

variable (h : Holds w tp rank H tensors table task)
include h

theorem tokenSize_at (hi : tensors[i]? = some T) :
    w.tokenSizes[i]? = some (T.tokenSize (headsPerRank tp H)) := by
  rw [h.tokenSizes, getElem?_map, hi, Option.map_some]

theorem blockSize_at (hi : tensors[i]? = some T) :
    w.blockSizes[i]? = some (T.blockSize (headsPerRank tp H)) := by
  rw [h.blockSizes, getElem?_map, hi, Option.map_some]

theorem block_at (hT : T ∈ tensors) {t : ℕ} (h1 : task.seenTokens ≤ t) (h2 : t < task.endTokens) :
    t / T.ntpb < table.length ∧ table.getD (t / T.ntpb) 0 < w.layerNumBlocks := by
  obtain ⟨id, hid, hlt⟩ := h.covered T hT t h1 h2
  obtain ⟨hlook, rfl⟩ := getD_of_some hid
  exact ⟨hlook, hlt⟩

end Holds

/-- A P > D transfer of a token range, fp8 off: P ranks `srcInfo r`, D ranks `dstInfo x`, `H` heads
split over both, and more effective senders than D ranks. -/
structure HeadTransfer where
  env : EnvCfg
  kind : HeadParse
  dInst : DInstId
  pTp : ℕ
  H : ℕ
  validRanks : BitVec maxTpSize
  tensors : List KvTensor
  task : ReqSendTask
  srcTable : List ℕ
  dstTable : List ℕ
  srcInfo : ℕ → WorkerInfo
  dstInfo : ℕ → WorkerInfo
  shape : env.cacheShape = kind.cacheShape
  fp8_off : env.bf162fp8Conversion = false
  dTp_le : dInst.dstTpsize ≤ pTp
  dTp_dvd : dInst.dstTpsize ∣ pTp
  pTp_le : pTp ≤ maxTpSize
  heads : (pTp ≤ H ∧ pTp ∣ H) ∨ (dInst.dstTpsize ∣ H ∧ H ∣ pTp)
  validRanks_eq : computeValidRanksPd env.ndebug pTp dInst.dstTpsize H = .ok validRanks
  wide : dInst.dstTpsize < Bitset.count validRanks
  tensors_ne : tensors ≠ []
  ragged_one : kind = .ragged → tensors.length = 1
  srcBlocks : task.req.srcBlocks[0]? = some srcTable
  dstBlocks : task.req.dstBlocks[0]? = some dstTable
  src_heads : ∀ r < pTp, (srcInfo r).numKvHeads = H
  src_holds : ∀ r < pTp, Holds (srcInfo r) pTp r H tensors srcTable task
  dst_holds : ∀ x < dInst.dstTpsize, Holds (dstInfo x) dInst.dstTpsize x H tensors dstTable task

namespace HeadTransfer

variable (X : HeadTransfer)

/-- The D side's TP size. -/
abbrev dTp : ℕ := X.dInst.dstTpsize

/-- What P rank `r` emits for D rank `x`. -/
def parse (X : HeadTransfer) (r x : ℕ) : Except Fault (List (List IpcBlock)) :=
  X.kind.parse X.env (X.srcInfo r) (X.dstInfo x) X.validRanks (Bitset.count X.validRanks)
    (kvtTpRank X.validRanks r) X.task

/-- `_get_dist` maps P rank `r` to D rank `x`. -/
def Routed (r x : ℕ) : Prop :=
  r < X.pTp ∧ x ∈ (getDist r X.pTp X.dInst).map fun t => t.2.2

/-- Byte `src` of P rank `r` and byte `dst` of D rank `x` are the same byte of the same head: token
`t`, half `kv`, slot `s` of the P row and slot `j` of the D row. -/
def SameHead (T : KvTensor) (r x src dst t kv j b : ℕ) : Prop :=
  ∃ s h, (heldHeads X.pTp X.H r)[s]? = some h ∧ (heldHeads X.dTp X.H x)[j]? = some h ∧
    src = T.addr (headsPerRank X.pTp X.H) X.srcTable t kv s b ∧
    dst = T.addr (headsPerRank X.dTp X.H) X.dstTable t kv j b

/-- **D rank `x` is put together right**: every routed rank's parse succeeds; every byte of every
slot of the range is written with the byte of its head; and nothing else is written. -/
def Reassembles (x : ℕ) : Prop :=
  ∃ recs : ℕ → List (List IpcBlock), (∀ r, X.Routed r x → X.parse r x = .ok (recs r)) ∧
    ∀ i T, X.tensors[i]? = some T →
      (∀ t, X.task.seenTokens ≤ t → t < X.task.endTokens →
        ∀ kv < 2, ∀ j < headsPerRank X.dTp X.H, ∀ b < T.headBytes,
          ∃ r, X.Routed r x ∧ ∃ rec ∈ (recs r).getD i [], ∃ src dst,
            rec.Copies src dst ∧ X.SameHead T r x src dst t kv j b) ∧
      (∀ r, X.Routed r x → ∀ rec ∈ (recs r).getD i [], ∀ src dst, rec.Copies src dst →
        ∃ t kv j b, X.task.seenTokens ≤ t ∧ t < X.task.endTokens ∧ kv < 2 ∧
          j < headsPerRank X.dTp X.H ∧ b < T.headBytes ∧ X.SameHead T r x src dst t kv j b)

/-! ## Groups

`G` effective senders share a D row and each brings `c` heads. -/

variable {X : HeadTransfer} {G c : ℕ}

/-- The shares of a row. -/
structure Groups (X : HeadTransfer) (G c : ℕ) : Prop where
  one_lt : 1 < G
  heads_pos : 0 < c
  count : Bitset.count X.validRanks = X.dTp * G
  pHeads : headsPerRank X.pTp X.H = c
  dHeads : headsPerRank X.dTp X.H = G * c

/-- Every P rank is valid. -/
def AllValid (X : HeadTransfer) (G c : ℕ) : Prop :=
  X.pTp ≤ X.H ∧ X.pTp = X.dTp * G ∧ X.H = X.dTp * (G * c)

/-- Each head lies on `m` consecutive P ranks. -/
def Replicated (X : HeadTransfer) (G c m : ℕ) : Prop :=
  X.H < X.pTp ∧ c = 1 ∧ 1 < m ∧ X.pTp = X.dTp * (G * m) ∧ X.H = X.dTp * G

theorem H_pos (X : HeadTransfer) : 0 < X.H := by
  have hp : 0 < X.pTp := lt_of_lt_of_le X.dInst.dstTpsize_pos X.dTp_le
  rcases X.heads with ⟨hle, -⟩ | ⟨-, hdvd⟩
  · omega
  · exact Nat.pos_of_dvd_of_pos hdvd hp

theorem headsAccepted (X : HeadTransfer) : HeadsAccepted X.pTp X.dTp X.H := by
  have hH := X.H_pos
  have hp : 0 < X.pTp := lt_of_lt_of_le X.dInst.dstTpsize_pos X.dTp_le
  rcases X.heads with ⟨hle, hdvd⟩ | ⟨hd, hdvd⟩
  · exact .inr (.inl ⟨by exact_mod_cast hle, by exact_mod_cast hdvd⟩)
  · rcases Nat.eq_or_lt_of_le (Nat.le_of_dvd hp hdvd) with heq | hlt
    · exact .inr (.inl ⟨by omega, by rw [heq]⟩)
    · exact .inr (.inr ⟨by exact_mod_cast hH, by exact_mod_cast hlt, by exact_mod_cast hdvd,
        .inl (by exact_mod_cast hd)⟩)

theorem headsPerRank_of_mul {tp k : ℕ} (htp : 0 < tp) (hk : 0 < k) :
    headsPerRank tp (tp * k) = k := by
  rw [headsPerRank, if_pos (Nat.le_mul_of_pos_right tp hk), Nat.mul_div_cancel_left k htp]

/-- **Either every rank is valid or heads are replicated.** -/
theorem exists_groups (X : HeadTransfer) :
    ∃ G c, X.Groups G c ∧ (X.AllValid G c ∨ ∃ m, X.Replicated G c m) := by
  obtain ⟨V, s, n, hV, hsel⟩ := computeValidRanksPd_selects X.env.ndebug X.dInst.dstTpsize_pos
    X.dTp_dvd X.dTp_le X.pTp_le X.headsAccepted
  obtain rfl : V = X.validRanks := Except.ok.inj (hV.symm.trans X.validRanks_eq)
  have hd := X.dInst.dstTpsize_pos
  have hn : 1 < n := by
    have hwide := X.wide
    rw [hsel.count] at hwide
    exact (Nat.lt_mul_iff_one_lt_right hd).mp hwide
  have hH := X.H_pos
  rcases hsel.heads with h0 | ⟨rfl, hle, c, hc⟩ | ⟨-, hlt, hHn⟩ | ⟨-, -, h1⟩
  · omega
  · have hpn : X.pTp = X.dTp * n := by rw [hsel.share, mul_one]
    have hHc : X.H = X.dTp * (n * c) := by
      rw [← mul_assoc, ← hpn]
      exact_mod_cast hc
    have hcpos : 0 < c := Nat.pos_of_ne_zero fun hz => by
      rw [hz, mul_zero, mul_zero] at hHc
      omega
    have hp : 0 < X.pTp := by rw [hpn]; exact mul_pos hd (by omega)
    refine ⟨n, c, ⟨hn, hcpos, hsel.count, ?_, ?_⟩, .inl ⟨by simpa using hle, hpn, hHc⟩⟩
    · rw [hHc, ← mul_assoc, ← hpn, headsPerRank_of_mul hp hcpos]
    · rw [hHc, headsPerRank_of_mul hd (mul_pos (by omega) hcpos)]
  · rw [Int.toNat_natCast] at hlt hHn
    have hs : 1 < s := by
      have hshare := hsel.share'
      rw [← hHn] at hshare
      exact (Nat.lt_mul_iff_one_lt_right hH).mp (hshare ▸ hlt)
    refine ⟨n, 1, ⟨hn, one_pos, hsel.count, ?_, ?_⟩,
      .inr ⟨s, hlt, rfl, hs, hsel.share, hHn⟩⟩
    · rw [headsPerRank, if_neg (by omega)]
    · rw [hHn, headsPerRank_of_mul hd (by omega), mul_one]
  · omega

variable {r x : ℕ} {T : KvTensor}

theorem routed_iff : X.Routed r x ↔ r < X.pTp ∧ r / (X.pTp / X.dTp) = x := by
  unfold Routed
  rw [getDist_of_dvd X.dTp_dvd X.dTp_le]
  simp [eq_comm]

/-! ## What a P rank emits -/

/-- The record of half `kv` of token `t`: rank `r`'s `c` heads, at its group offset. -/
def rowRecord (X : HeadTransfer) (G c : ℕ) (T : KvTensor) (r kv t : ℕ) : IpcBlock :=
  ⟨T.addr c X.srcTable t kv 0 0, T.addr (G * c) X.dstTable t kv (r % G * c) 0, c * T.headBytes⟩

/-- **A record copies `c` slots to the `c` slots at its group offset.** -/
theorem rowRecord_copies {r kv t src dst : ℕ} :
    (X.rowRecord G c T r kv t).Copies src dst ↔ ∃ s < c, ∃ b < T.headBytes,
      src = T.addr c X.srcTable t kv s b ∧ dst = T.addr (G * c) X.dstTable t kv (r % G * c + s) b := by
  simp only [IpcBlock.Copies, rowRecord, KvTensor.addr]
  constructor
  · rintro ⟨o, ho, rfl, rfl⟩
    obtain ⟨s, hs, b, hb, rfl⟩ := exists_digit ho
    exact ⟨s, hs, b, hb, by ring, by ring⟩
  · rintro ⟨s, hs, b, hb, rfl, rfl⟩
    exact ⟨s * T.headBytes + b, digit_lt hs hb, by ring, by ring⟩

/-- The list holds the K and V records of the range, and nothing else. -/
def Emits (X : HeadTransfer) (G c : ℕ) (T : KvTensor) (r : ℕ) (out : List IpcBlock) : Prop :=
  ∀ rec, rec ∈ out ↔ ∃ t, X.task.seenTokens ≤ t ∧ t < X.task.endTokens ∧
    ∃ kv < 2, rec = X.rowRecord G c T r kv t

/-- The bounds of tensor `i`. -/
def bounds (X : HeadTransfer) (G c : ℕ) (T : KvTensor) (r x i : ℕ) : IpcBlockBounds :=
  ⟨T.blockSize c * (X.srcInfo r).layerNumBlocks, T.blockSize (G * c) * (X.dstInfo x).layerNumBlocks,
    1, i⟩

/-- The body on tensor `i`. -/
def tensorRecords (X : HeadTransfer) (G c r x i : ℕ) : Except Fault (List IpcBlock) :=
  match X.tensors[i]? with
  | none => .ok []
  | some T => sendTensor X.env (X.dTp * G) X.dTp r x (T.blockSize c) (T.blockSize (G * c))
      (T.tokenSize c) (T.tokenSize (G * c)) X.srcTable X.dstTable X.task.seenTokens
      X.task.newTokens (X.bounds G c T r x i) false

theorem makeIpcBlockBounds_eq (hg : X.Groups G c) {r x i : ℕ} (hr : r < X.pTp)
    (hx : x < X.dTp) (hi : X.tensors[i]? = some T) :
    makeIpcBlockBounds X.env (X.srcInfo r) (X.dstInfo x) i = .ok (X.bounds G c T r x i) := by
  have hsrc := X.src_holds r hr
  have hdst := X.dst_holds x hx
  have hT := mem_of_getElem? hi
  rw [makeIpcBlockBounds_of_le X.fp8_off (hsrc.blockSize_at hi) (hdst.blockSize_at hi)
    hsrc.layerNumBlocks_pos hdst.layerNumBlocks_pos (hsrc.capacity T hT) (hdst.capacity T hT),
    hg.pHeads, hg.dHeads]
  rfl

theorem rowRecord_fits (hg : X.Groups G c) {r x i kv t : ℕ} (hr : r < X.pTp)
    (hx : x < X.dTp) (hi : X.tensors[i]? = some T) (hkv : kv < 2) (h1 : X.task.seenTokens ≤ t)
    (h2 : t < X.task.endTokens) :
    (X.bounds G c T r x i).Fits (X.rowRecord G c T r kv t).srcOffset
      (X.rowRecord G c T r kv t).dstOffset (c * T.headBytes) := by
  have hT := mem_of_getElem? hi
  have hsrc : T.addr c X.srcTable t kv 0 0 + c * T.headBytes
      ≤ T.blockSize c * (X.srcInfo r).layerNumBlocks :=
    KvTensor.addr_add_le ((X.src_holds r hr).block_at hT h1 h2).2 hkv (zero_add c).le
  have hslot : r % G * c + c ≤ G * c := by
    have hmod := Nat.mod_lt r (Nat.zero_lt_of_lt hg.one_lt)
    calc r % G * c + c = (r % G + 1) * c := by ring
      _ ≤ G * c := Nat.mul_le_mul_right c hmod
  have hdst : T.addr (G * c) X.dstTable t kv (r % G * c) 0 + c * T.headBytes
      ≤ T.blockSize (G * c) * (X.dstInfo x).layerNumBlocks :=
    KvTensor.addr_add_le ((X.dst_holds x hx).block_at hT h1 h2).2 hkv hslot
  have hcap := (X.src_holds r hr).capacity T hT
  rw [hg.pHeads] at hcap
  exact ⟨mul_pos hg.heads_pos T.headBytes_pos, one_pos,
    by rw [bounds, mul_one]; omega, by rw [bounds, mul_one]; exact hsrc, hdst⟩

/-- The two records of a token, in the body's own terms. -/
theorem gtRecord_eq_rowRecord (T : KvTensor) (r t : ℕ) :
    gtRecord (2 * (c * T.headBytes)) (c * T.headBytes) (2 * (c * T.headBytes) * G) T.ntpb (r % G)
      X.srcTable X.dstTable false t = X.rowRecord G c T r 0 t := by
  simp only [gtRecord, rowRecord, KvTensor.addr, KvTensor.tokenSize, Bool.false_eq_true, if_false,
    IpcBlock.mk.injEq, and_true]
  exact ⟨by ring, by rw [show 2 * (c * T.headBytes) * G = 2 * (G * c * T.headBytes) by ring]; ring⟩

theorem vRecord_rowRecord (T : KvTensor) (r t : ℕ) :
    vRecord false (c * T.headBytes) (c * T.headBytes * G) (X.rowRecord G c T r 0 t)
      = X.rowRecord G c T r 1 t := by
  simp only [vRecord, rowRecord, KvTensor.addr, Bool.false_eq_true, if_false, IpcBlock.mk.injEq,
    and_true]
  exact ⟨by ring, by ring⟩

/-- **The body emits the rows of the range.** -/
theorem tensorRecords_ok (hg : X.Groups G c) {r x i : ℕ} (hr : r < X.pTp) (hx : x < X.dTp)
    (hi : X.tensors[i]? = some T) (hrank : X.env.ndebug = true ∨ r / G = x) :
    ∃ out, X.tensorRecords G c r x i = .ok out ∧ X.Emits G c T r out := by
  have hT := mem_of_getElem? hi
  have hpsize : T.tokenSize c = 2 * (c * T.headBytes) := rfl
  have hdsize : T.tokenSize (G * c) = 2 * (c * T.headBytes) * G := by
    rw [KvTensor.tokenSize]; ring
  obtain ⟨ks, hks, hperm⟩ := sendTensor_ok (d := X.dTp) (b := X.bounds G c T r x i) X.fp8_off
    X.dInst.dstTpsize_pos hg.one_lt hrank (mul_pos hg.heads_pos T.headBytes_pos) T.ntpb_pos
    T.ntpb_lt fun t h1 h2 => ⟨((X.src_holds r hr).block_at hT h1 h2).1,
      ((X.dst_holds x hx).block_at hT h1 h2).1, fun rec hrec => by
        rw [gtRecord_eq_rowRecord, vRecord_rowRecord, mem_pair] at hrec
        rcases hrec with rfl | rfl
        · exact rowRecord_fits hg hr hx hi two_pos h1 h2
        · exact rowRecord_fits hg hr hx hi one_lt_two h1 h2⟩
  refine ⟨_, by simpa only [tensorRecords, hi, KvTensor.blockSize, hpsize, hdsize] using hks,
    fun rec => ?_⟩
  have hk : ∀ rec, rec ∈ ks ↔ ∃ t, X.task.seenTokens ≤ t ∧ t < X.task.endTokens ∧
      X.rowRecord G c T r 0 t = rec := fun rec => by
    rw [hperm.mem_iff, mem_map]
    simp only [mem_range'_1, gtRecord_eq_rowRecord, and_assoc]
    rfl
  rw [mem_append, mem_map, hk]
  constructor
  · rintro (⟨t, h1, h2, rfl⟩ | ⟨k, hmem, rfl⟩)
    · exact ⟨t, h1, h2, 0, two_pos, rfl⟩
    · obtain ⟨t, h1, h2, rfl⟩ := (hk k).mp hmem
      exact ⟨t, h1, h2, 1, one_lt_two, vRecord_rowRecord T r t⟩
  · rintro ⟨t, h1, h2, kv, hkv, rfl⟩
    obtain rfl | rfl : kv = 0 ∨ kv = 1 := by omega
    · exact .inl ⟨t, h1, h2, rfl⟩
    · exact .inr ⟨_, (hk _).mpr ⟨t, h1, h2, rfl⟩, vRecord_rowRecord T r t⟩

/-! ## The two parse functions run the body on each tensor -/

/-- What the functions read for tensor `i`. -/
theorem reads (hg : X.Groups G c) {r x i : ℕ} (hr : r < X.pTp) (hx : x < X.dTp)
    (hi : X.tensors[i]? = some T) :
    vecAt (X.srcInfo r).blockSizes i = .ok (T.blockSize c) ∧
    vecAt (X.dstInfo x).blockSizes i = .ok (T.blockSize (G * c)) ∧
    vecAt (X.srcInfo r).tokenSizes i = .ok (T.tokenSize c) ∧
    vecAt (X.dstInfo x).tokenSizes i = .ok (T.tokenSize (G * c)) := by
  simp only [vecAt_eq_ok]
  rw [← hg.dHeads, ← hg.pHeads]
  exact ⟨(X.src_holds r hr).blockSize_at hi, (X.dst_holds x hx).blockSize_at hi,
    (X.src_holds r hr).tokenSize_at hi, (X.dst_holds x hx).tokenSize_at hi⟩

theorem lengths (hr : r < X.pTp) (hx : x < X.dTp) :
    (X.srcInfo r).tokenSizes.length = X.tensors.length ∧
    (X.srcInfo r).blockSizes.length = X.tensors.length ∧
    (X.dstInfo x).tokenSizes.length = X.tensors.length ∧
    (X.dstInfo x).blockSizes.length = X.tensors.length := by
  rw [(X.src_holds r hr).tokenSizes, (X.src_holds r hr).blockSizes, (X.dst_holds x hx).tokenSizes,
    (X.dst_holds x hx).blockSizes]
  simp

/-- The rows differ, so the functions do not take their equal-rows branch. -/
theorem tokenSizes_ne (hg : X.Groups G c) (hr : r < X.pTp) (hx : x < X.dTp) :
    (X.srcInfo r).tokenSizes ≠ (X.dstInfo x).tokenSizes := by
  intro heq
  obtain ⟨T, hT⟩ := exists_mem_of_ne_nil _ X.tensors_ne
  obtain ⟨i, hi⟩ := getElem?_of_mem hT
  have hsrc := (X.src_holds r hr).tokenSize_at hi
  rw [heq, (X.dst_holds x hx).tokenSize_at hi, hg.pHeads, hg.dHeads] at hsrc
  have hrow : 2 * (G * c * T.headBytes) = 2 * (c * T.headBytes) := Option.some.inj hsrc
  have hpos : 0 < c * T.headBytes := mul_pos hg.heads_pos T.headBytes_pos
  have hlt : 1 * (c * T.headBytes) < G * (c * T.headBytes) :=
    Nat.mul_lt_mul_of_pos_right hg.one_lt hpos
  rw [mul_assoc] at hrow
  omega

/-- …and `refresh_dst_info`, reading the workers, does choose the P > D function. -/
theorem dispatched (X : HeadTransfer) (hr : r < X.pTp) (hx : x < X.dTp) :
    computeValidRanksPd X.env.ndebug (X.srcInfo r).engineTpSize (X.dstInfo x).engineTpSize
        (X.srcInfo r).numKvHeads = .ok X.validRanks ∧
      ∃ kind, selectParseBlock X.env.cacheShape (X.srcInfo r) (X.dstInfo x)
        (Bitset.count X.validRanks) = .ok (X.kind.fn, kind) := by
  obtain ⟨G, c, hg, -⟩ := X.exists_groups
  have htp : (X.dstInfo x).engineTpSize = X.dTp := (X.dst_holds x hx).engineTpSize
  have hwide : X.dTp < Bitset.count X.validRanks := X.wide
  refine ⟨by rw [(X.src_holds r hr).engineTpSize, htp, X.src_heads r hr, X.validRanks_eq], ?_⟩
  rw [X.shape]
  cases X.kind with
  | ragged =>
    exact ⟨.pgtd, by simp only [HeadParse.cacheShape, HeadParse.fn, selectParseBlock, selectionPTp,
      byTp, htp, if_neg hwide.ne', if_pos hwide, if_neg (tokenSizes_ne hg hr hx)]⟩
  | dpsk =>
    exact ⟨.peqd, by simp only [HeadParse.cacheShape, HeadParse.fn, selectParseBlock, selectionPTp,
      byTp, htp, if_neg hwide.ne', if_pos hwide]⟩

/-- `send_blocks.resize(n)` does nothing once there are `n` lists. -/
theorem resize_eq {n : ℕ} {e : Except Fault (List (List IpcBlock))}
    (h : ∀ lists, e = .ok lists → lists.length = n) :
    (do let lists ← e; return lists ++ List.replicate (n - lists.length) []) = e := by
  cases e with
  | error f => rfl
  | ok lists =>
    refine congrArg Except.ok ?_
    rw [h lists rfl, Nat.sub_self, replicate_zero, append_nil]

/-- **Both functions are the loop over the tensors.** -/
theorem parse_eq (hg : X.Groups G c) (hr : r < X.pTp) (hx : x < X.dTp) :
    X.parse r x = emitAll (fun i => do let out ← X.tensorRecords G c r x i; return [out])
      (List.range X.tensors.length) := by
  obtain ⟨hl1, hl2, hl3, hl4⟩ := lengths hr hx
  have hrank := (X.src_holds r hr).workerTpRank
  have hrank' := (X.dst_holds x hx).workerTpRank
  have htp : (X.dstInfo x).engineTpSize = X.dTp := (X.dst_holds x hx).engineTpSize
  cases hkind : X.kind with
  | ragged =>
    have hone := X.ragged_one hkind
    obtain ⟨T, hT⟩ := length_eq_one_iff.mp hone
    have hi : X.tensors[0]? = some T := by rw [hT]; rfl
    obtain ⟨h1, h2, h3, h4⟩ := reads hg hr hx hi
    simp only [parse, hkind, HeadParse.parse, parseBlockSendPGtD, makeIpcBlockBounds_eq hg hr hx hi,
      vecIdx_of_some X.srcBlocks, vecIdx_of_some X.dstBlocks, doParseBlockSendInternal, hl1, hl2,
      hl3, hl4, hone, cassert_of trivial, h1, h2, h3, h4, hrank, hrank', htp, hg.count,
      range_one, tensorRecords, hi, emitAll, bind, Except.bind]
    split
    · rfl
    · rfl
  | dpsk =>
    have hbody : ∀ i ∈ List.range X.tensors.length, (do
        let pBlockSize ← vecAt (X.srcInfo r).blockSizes i
        let dBlockSize ← vecAt (X.dstInfo x).blockSizes i
        let pTokenSize ← vecAt (X.srcInfo r).tokenSizes i
        let dTokenSize ← vecAt (X.dstInfo x).tokenSizes i
        let bounds ← makeIpcBlockBounds X.env (X.srcInfo r) (X.dstInfo x) i
        let out ← sendTensor X.env (Bitset.count X.validRanks) X.dTp r x pBlockSize dBlockSize
          pTokenSize dTokenSize X.srcTable X.dstTable X.task.seenTokens X.task.newTokens bounds
          false
        return [out]) = (do let out ← X.tensorRecords G c r x i; return [out]) := by
      intro i hi
      obtain ⟨T, hT⟩ : ∃ T, X.tensors[i]? = some T :=
        ⟨_, getElem?_eq_getElem (mem_range.mp hi)⟩
      obtain ⟨h1, h2, h3, h4⟩ := reads hg hr hx hT
      simp only [h1, h2, h3, h4, makeIpcBlockBounds_eq hg hr hx hT, hg.count, tensorRecords, hT,
        bind, Except.bind]
    simp only [parse, hkind, HeadParse.parse, vllmParseBlockSendMultiTensorPGtD,
      if_neg (tokenSizes_ne hg hr hx), vecAt_eq_ok.mpr X.srcBlocks, vecAt_eq_ok.mpr X.dstBlocks,
      doMultiTensorParseBlockSend, hl1, hl2, hl3, hl4, hrank, hrank', htp, cassert_of trivial]
    rw [← emitAll_congr hbody]
    refine resize_eq fun lists hlists => ?_
    rw [emitAll_congr hbody] at hlists
    rw [length_emitAll hlists, length_range]

theorem tensor_at {i : ℕ} (hi : i < X.tensors.length) : ∃ T, X.tensors[i]? = some T :=
  ⟨_, getElem?_eq_getElem hi⟩

/-- **A parse whose rank passes the assert succeeds**, and lists the rows of each tensor. -/
theorem parse_ok (hg : X.Groups G c) (hr : r < X.pTp) (hx : x < X.dTp)
    (hrank : X.env.ndebug = true ∨ r / G = x) :
    ∃ recs, X.parse r x = .ok recs ∧
      ∀ i T, X.tensors[i]? = some T → X.Emits G c T r (recs.getD i []) := by
  have hex : ∀ i, ∃ out, i < X.tensors.length → X.tensorRecords G c r x i = .ok out ∧
      ∀ T, X.tensors[i]? = some T → X.Emits G c T r out := fun i => by
    by_cases hi : i < X.tensors.length
    · obtain ⟨T, hT⟩ := tensor_at hi
      obtain ⟨out, hout, hem⟩ := tensorRecords_ok hg hr hx hT hrank
      refine ⟨out, fun _ => ⟨hout, fun T' hT' => ?_⟩⟩
      cases hT.symm.trans hT'
      exact hem
    · exact ⟨[], fun h => absurd h hi⟩
  choose out hout using hex
  refine ⟨(List.range X.tensors.length).map out, ?_, fun i T hT => ?_⟩
  · rw [parse_eq hg hr hx, map_eq_flatMap]
    refine emitAll_ok fun i hi => ?_
    rw [(hout i (mem_range.mp hi)).1]
    rfl
  · have hi : i < X.tensors.length := (List.getElem?_eq_some_iff.mp hT).1
    rw [getD_eq_getElem?_getD, getElem?_map, getElem?_range hi, Option.map_some,
      Option.getD_some]
    exact (hout i hi).2 T hT

/-- …and so for all the ranks of a D rank. -/
theorem exists_recs (hg : X.Groups G c) {x : ℕ} (hx : x < X.dTp)
    (hrank : ∀ r, X.Routed r x → X.env.ndebug = true ∨ r / G = x) :
    ∃ recs : ℕ → List (List IpcBlock), ∀ r, X.Routed r x → X.parse r x = .ok (recs r) ∧
      ∀ i T, X.tensors[i]? = some T → X.Emits G c T r ((recs r).getD i []) := by
  have hex : ∀ r, ∃ recs, X.Routed r x → X.parse r x = .ok recs ∧
      ∀ i T, X.tensors[i]? = some T → X.Emits G c T r (recs.getD i []) := fun r => by
    by_cases hr : X.Routed r x
    · exact (parse_ok hg hr.1 hx (hrank r hr)).imp fun _ h _ => h
    · exact ⟨[], fun h => absurd h hr⟩
  choose recs hrecs using hex
  exact ⟨recs, hrecs⟩

/-- With asserts on, a rank outside the group of its D rank aborts. -/
theorem parse_abort (hg : X.Groups G c) (hr : r < X.pTp) (hx : x < X.dTp)
    (hnd : X.env.ndebug = false) (hrank : r / G ≠ x) : X.parse r x = .error .abort := by
  have hpos : 0 < X.tensors.length := length_pos_iff.mpr X.tensors_ne
  obtain ⟨T, hT⟩ := tensor_at hpos
  have hfirst : X.tensorRecords G c r x 0 = .error .abort := by
    rw [tensorRecords, hT]
    exact sendTensor_abort hnd X.dInst.dstTpsize_pos hg.one_lt hrank _ _ _ _
  obtain ⟨n, hn⟩ := Nat.exists_eq_succ_of_ne_zero hpos.ne'
  rw [parse_eq hg hr hx, hn, range_succ_eq_map, emitAll, hfirst]
  rfl

/-! ## Which head lands where -/

theorem heldHeads_getElem? {tp c r s : ℕ} (htp : 0 < tp) (hs : s < c) :
    (heldHeads tp (tp * c) r)[s]? = some (r * c + s) := by
  rw [heldHeads, if_pos (Nat.le_mul_of_pos_right tp (by omega)), Nat.mul_div_cancel_left c htp,
    getElem?_range' hs, one_mul]

/-- With every rank valid, slot `s` of rank `r` is slot `r % G · c + s` of its D rank. -/
theorem sameHead_of_allValid (hg : X.Groups G c) (hv : X.AllValid G c) {s : ℕ} (hs : s < c)
    (T : KvTensor) (r t kv b : ℕ) :
    X.SameHead T r (r / G) (T.addr c X.srcTable t kv s b)
      (T.addr (G * c) X.dstTable t kv (r % G * c + s) b) t kv (r % G * c + s) b := by
  obtain ⟨-, hpn, hHc⟩ := hv
  have hd := X.dInst.dstTpsize_pos
  have hp : 0 < X.pTp := lt_of_lt_of_le hd X.dTp_le
  have hHp : X.H = X.pTp * c := by rw [hHc, hpn, mul_assoc]
  have hslot : r % G * c + s < G * c :=
    digit_lt (Nat.mod_lt r (Nat.zero_lt_of_lt hg.one_lt)) hs
  refine ⟨s, r * c + s, by rw [hHp, heldHeads_getElem? hp hs], ?_, by rw [hg.pHeads],
    by rw [hg.dHeads]⟩
  rw [hHc, heldHeads_getElem? hd hslot]
  congr 1
  calc r / G * (G * c) + (r % G * c + s) = (r / G * G + r % G) * c + s := by ring
    _ = r * c + s := by rw [Nat.div_add_mod']

/-- **With every rank valid the row is put together right.** -/
theorem reassembles_of_allValid (hg : X.Groups G c) (hv : X.AllValid G c) {x : ℕ}
    (hx : x < X.dTp) : X.Reassembles x := by
  have hG : 0 < G := Nat.zero_lt_of_lt hg.one_lt
  have hgroup : X.pTp / X.dTp = G := by
    rw [hv.2.1, Nat.mul_div_cancel_left G X.dInst.dstTpsize_pos]
  have hrouted : ∀ r, X.Routed r x ↔ r < X.pTp ∧ r / G = x := fun r => by rw [routed_iff, hgroup]
  obtain ⟨recs, hrecs⟩ := exists_recs hg hx fun r hr => .inr ((hrouted r).mp hr).2
  refine ⟨recs, fun r hr => (hrecs r hr).1, fun i T hT => ⟨?_, ?_⟩⟩
  · intro t h1 h2 kv hkv j hj b hb
    rw [hg.dHeads] at hj
    obtain ⟨g, hgl, s, hs, rfl⟩ := exists_digit hj
    have hmod : (x * G + g) % G = g := mod_digit hgl
    have hdiv : (x * G + g) / G = x := div_digit hgl
    have hr : X.Routed (x * G + g) x :=
      (hrouted _).mpr ⟨by rw [hv.2.1]; exact digit_lt hx hgl, hdiv⟩
    have hsame := sameHead_of_allValid hg hv hs T (x * G + g) t kv b
    rw [hmod, hdiv] at hsame
    refine ⟨x * G + g, hr, X.rowRecord G c T (x * G + g) kv t,
      ((hrecs _ hr).2 i T hT _).mpr ⟨t, h1, h2, kv, hkv, rfl⟩, _, _,
      rowRecord_copies.mpr ⟨s, hs, b, hb, rfl, ?_⟩, hsame⟩
    rw [hmod]
  · intro r hr rec hrec src dst hcopy
    obtain ⟨t, h1, h2, kv, hkv, rfl⟩ := ((hrecs r hr).2 i T hT rec).mp hrec
    obtain ⟨s, hs, b, hb, rfl, rfl⟩ := rowRecord_copies.mp hcopy
    obtain ⟨-, rfl⟩ := (hrouted r).mp hr
    refine ⟨t, kv, r % G * c + s, b, h1, h2, hkv, ?_, hb, sameHead_of_allValid hg hv hs T r t kv b⟩
    rw [hg.dHeads]
    exact digit_lt (Nat.mod_lt r hG) hs

/-! ## Replicated heads -/

/-- The second copy of the first head of D rank `x`. -/
def secondCopy (G m x : ℕ) : ℕ := x * (G * m) + 1

section Replicated

variable {m x : ℕ}

variable (h : X.Replicated G c m)
include h

theorem Replicated.routed_iff {r : ℕ} : X.Routed r x ↔ r < X.pTp ∧ r / (G * m) = x := by
  rw [HeadTransfer.routed_iff, h.2.2.2.1, Nat.mul_div_cancel_left _ X.dInst.dstTpsize_pos]

theorem Replicated.routed (hx : x < X.dTp) {o : ℕ} (ho : o < G * m) :
    X.Routed (x * (G * m) + o) x :=
  h.routed_iff.mpr ⟨by rw [h.2.2.2.1]; exact digit_lt hx ho, div_digit ho⟩

/-- **Its records put the first head into the second slot.** -/
theorem Replicated.not_sameHead (hg : X.Groups G c) (T : KvTensor) {t t' kv j b : ℕ} (hkv : kv < 2)
    (hj : j < headsPerRank X.dTp X.H) (hb : b < T.headBytes) :
    ¬X.SameHead T (secondCopy G m x) x (T.addr c X.srcTable t 0 0 0)
      (T.addr (G * c) X.dstTable t 0 (secondCopy G m x % G * c + 0) 0) t' kv j b := by
  obtain ⟨hlt, rfl, hm, hp, hH⟩ := h
  have hG := hg.one_lt
  rintro ⟨s, head, hs, hd, -, hdst⟩
  have hoff : secondCopy G m x % G = 1 := by
    rw [secondCopy, mul_left_comm, Nat.mul_add_mod, Nat.mod_eq_of_lt hG]
  -- the destination decodes to half 0, slot 1
  rw [hoff, hg.dHeads] at hdst
  rw [hg.dHeads] at hj
  obtain ⟨-, rfl, -⟩ := KvTensor.addr_inj two_pos hkv (by omega) hj T.headBytes_pos hb hdst
  -- where D rank `x` expects its second head, and the source holds its first
  have hwant : head = x * G + 1 := by
    rw [hH, heldHeads_getElem? X.dInst.dstTpsize_pos (by omega)] at hd
    exact (Option.some.inj hd).symm
  have hheld : secondCopy G m x * X.H / X.pTp = x * G := by
    have hHpos := X.H_pos
    rw [hp, ← mul_assoc, ← hH, mul_comm _ X.H, Nat.mul_div_mul_left _ _ hHpos, secondCopy,
      ← mul_assoc, div_digit hm]
  rw [heldHeads, if_neg (by omega), hheld] at hs
  have hhave : head = x * G := mem_singleton.mp (mem_of_getElem? hs)
  omega

/-- **With replicated heads no row is put together right**: with asserts on some routed rank aborts,
and without them the second copy of a head overwrites the next slot. -/
theorem Replicated.not_reassembles (hg : X.Groups G c) (hx : x < X.dTp)
    (hrun : X.env.ndebug = false ∨ 0 < X.task.newTokens) : ¬X.Reassembles x := by
  rintro ⟨recs, hparse, hrecs⟩
  have hG := hg.one_lt
  have hm := h.2.2.1
  have hlt : ∀ o, o ≤ G → o < G * m := fun o ho =>
    lt_of_le_of_lt ho ((Nat.lt_mul_iff_one_lt_right (by omega)).mpr hm)
  by_cases hnd : X.env.ndebug = true
  · have hpos : 0 < X.task.newTokens := hrun.resolve_left (by simp [hnd])
    have hr : X.Routed (secondCopy G m x) x := h.routed hx (hlt 1 (by omega))
    obtain ⟨recs', hrecs', hemit⟩ := parse_ok hg hr.1 hx (.inl hnd)
    obtain rfl : recs' = recs (secondCopy G m x) :=
      Except.ok.inj (hrecs'.symm.trans (hparse _ hr))
    obtain ⟨T, hT⟩ := tensor_at (X := X) (length_pos_iff.mpr X.tensors_ne)
    have hmem := (hemit 0 T hT _).mpr ⟨X.task.seenTokens, le_rfl,
      Nat.lt_add_of_pos_right hpos, 0, two_pos, rfl⟩
    obtain ⟨t, kv, j, b, -, -, hkv, hj, hb, hsame⟩ := (hrecs 0 T hT).2 _ hr _ hmem _ _
      (rowRecord_copies.mpr ⟨0, hg.heads_pos, 0, T.headBytes_pos, rfl, rfl⟩)
    exact h.not_sameHead hg T hkv hj hb hsame
  · have hr : X.Routed (x * (G * m) + G) x := h.routed hx (hlt G le_rfl)
    have hout : (x * (G * m) + G) / G ≠ x := by
      have hdiv : (x * (G * m) + G) / G = x * m + 1 := by
        rw [show x * (G * m) + G = (x * m + 1) * G by ring, Nat.mul_div_cancel _ (by omega)]
      have hle : x * 1 ≤ x * m := Nat.mul_le_mul_left x hm.le
      omega
    have habort := parse_abort hg hr.1 hx (by simpa using hnd) hout
    rw [hparse _ hr] at habort
    cases habort

end Replicated

/-- An empty range has nothing to put together. -/
theorem reassembles_of_empty (hg : X.Groups G c) {x : ℕ} (hx : x < X.dTp)
    (hnd : X.env.ndebug = true) (hnew : X.task.newTokens = 0) : X.Reassembles x := by
  have hempty : ∀ t, X.task.seenTokens ≤ t → ¬t < X.task.endTokens := fun t ht => by
    rw [ReqSendTask.endTokens, hnew]
    omega
  obtain ⟨recs, hrecs⟩ := exists_recs hg hx fun _ _ => .inl hnd
  refine ⟨recs, fun r hr => (hrecs r hr).1, fun i T hT =>
    ⟨fun t h1 h2 => absurd h2 (hempty t h1), fun r hr rec hrec => ?_⟩⟩
  obtain ⟨t, h1, h2, -⟩ := ((hrecs r hr).2 i T hT rec).mp hrec
  exact absurd h2 (hempty t h1)

end HeadTransfer

/-- **A D row is put together right exactly when no head is replicated on the P side** (or a release
build is asked for an empty range). -/
theorem reassembles_iff (X : HeadTransfer) (x : Fin X.dTp) :
    X.Reassembles x ↔ X.pTp ≤ X.H ∨ (X.env.ndebug = true ∧ X.task.newTokens = 0) := by
  obtain ⟨G, c, hg, hv | ⟨m, hrep⟩⟩ := X.exists_groups
  · exact ⟨fun _ => .inl hv.1, fun _ => HeadTransfer.reassembles_of_allValid hg hv x.isLt⟩
  · constructor
    · intro h
      by_contra hc
      rw [not_or, not_and, not_le] at hc
      refine hrep.not_reassembles hg x.isLt ?_ h
      by_cases hnd : X.env.ndebug = true
      · exact .inr (Nat.pos_of_ne_zero (hc.2 hnd))
      · exact .inl (by simpa using hnd)
    · rintro (hle | ⟨hnd, hnew⟩)
      · exact absurd hrep.1 (by omega)
      · exact HeadTransfer.reassembles_of_empty hg x.isLt hnd hnew

/-- One token of two one-byte heads, for one D rank. -/
def twoHeads (pTp : ℕ) (hp : pTp = 2 ∨ pTp = 4) : HeadTransfer where
  env := {}
  kind := .ragged
  dInst := ⟨"d", 0, 1, Nat.one_pos⟩
  pTp := pTp
  H := 2
  validRanks := if pTp = 2 then 3 else 5
  tensors := [⟨1, 1, Nat.one_pos, one_lt_u32, Nat.one_pos⟩]
  task := .first ⟨0, "req", [[0]], [[0]]⟩ 1 true
  srcTable := [0]
  dstTable := [0]
  srcInfo r := { engineTpSize := pTp, workerTpRank := r, tokenSizes := [2], blockSizes := [2],
                 numKvHeads := 2 }
  dstInfo x := { engineTpSize := 1, workerTpRank := x, tokenSizes := [4], blockSizes := [4] }
  shape := EnvCfg.ragged
  fp8_off := EnvCfg.fp8_off
  dTp_le := by rcases hp with rfl | rfl <;> decide
  dTp_dvd := one_dvd _
  pTp_le := by rcases hp with rfl | rfl <;> decide
  heads := by rcases hp with rfl | rfl <;> decide
  validRanks_eq := by rcases hp with rfl | rfl <;> decide
  wide := by rcases hp with rfl | rfl <;> decide
  tensors_ne := by simp
  ragged_one _ := rfl
  srcBlocks := rfl
  dstBlocks := rfl
  src_heads _ _ := rfl
  src_holds r _ := by
    have hc : headsPerRank pTp 2 = 1 := by rcases hp with rfl | rfl <;> decide
    refine ⟨rfl, rfl, by rw [hc]; rfl, by rw [hc]; rfl, one_pos, ?_, ?_⟩
    · simp [hc, KvTensor.blockSize, KvTensor.tokenSize, sizeMax]
    · intro T hT t _ ht
      obtain rfl : t = 0 := Nat.lt_one_iff.mp ht
      exact ⟨0, by simp, one_pos⟩
  dst_holds x _ := by
    refine ⟨rfl, rfl, rfl, rfl, one_pos, ?_, ?_⟩
    · simp [headsPerRank, KvTensor.blockSize, KvTensor.tokenSize, sizeMax]
    · intro T hT t _ ht
      obtain rfl : t = 0 := Nat.lt_one_iff.mp ht
      exact ⟨0, by simp, one_pos⟩

/-- **Four P ranks over two heads**: rank 1 holds head 0 and writes it where head 1 belongs. -/
theorem twoHeads_four_not_reassembles :
    (twoHeads 4 (by decide)).parse 1 0 = .ok [[⟨0, 1, 1⟩, ⟨1, 3, 1⟩]] ∧
      heldHeads 4 2 1 = [0] ∧ heldHeads 1 2 0 = [0, 1] ∧
      ¬(twoHeads 4 (by decide)).Reassembles 0 := by
  refine ⟨by rfl, by decide, by decide, ?_⟩
  obtain ⟨G, c, hg, hv | ⟨m, hrep⟩⟩ := (twoHeads 4 (by decide)).exists_groups
  · exact absurd hv.1 (by decide)
  · exact hrep.not_reassembles hg (by decide) (.inr (by decide))

/-- Two P ranks over two heads leave no head replicated. -/
theorem twoHeads_two_reassembles : (twoHeads 2 (by decide)).Reassembles 0 :=
  (reassembles_iff (twoHeads 2 (by decide)) ⟨0, by decide⟩).mpr (.inl (by decide))

end LlumnixKv
