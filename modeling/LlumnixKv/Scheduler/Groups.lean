import LlumnixKv.Machinery.Walk

/-!
# Scheduler/Groups — the KV cache groups of a hybrid model

`_validate_group_ordering` (`__init__.py`) compares the places of each type of group, and in the end
their number.

    gdn … gdn  indexer?  attn?  ple?        `ple` only after an `attn`

`_get_computed_blocks_for_kvt` (`engine_proxy.py`) makes one prefix hit of those of the groups: only
groups of full attention count, and their block sizes need not agree.
-/

open List Machinery

namespace LlumnixKv

/-- The type of a KV cache group. -/
inductive GroupType
  | gdn | indexer | attn | ple
  | other (label : String)
  deriving DecidableEq, Repr

/-- The assertion of `_validate_group_ordering` that fails. -/
inductive OrderFault
  | gdnStart | gdnSequence | indexerCount | indexerPlace | attnStart | attnCount | pleCount
  | pleAlone | plePlace | total
  deriving DecidableEq, Repr

/-- `assert c`. -/
def OrderFault.unless (fault : OrderFault) (c : Prop) [Decidable c] : Except OrderFault Unit :=
  if c then .ok () else .error fault

/-- `_validate_group_ordering`; an assertion under an `if` is an implication. -/
def validateGroupOrdering (groupTypes : List GroupType) : Except OrderFault Unit :=
  if groupTypes = [] then .ok ()
  else do
    let gdn := groupTypes.idxsOf .gdn
    let indexer := groupTypes.idxsOf .indexer
    let attn := groupTypes.idxsOf .attn
    let ple := groupTypes.idxsOf .ple
    OrderFault.gdnStart.unless (gdn ≠ [] → gdn.head? = some 0)
    OrderFault.gdnSequence.unless (gdn ≠ [] → gdn = List.range gdn.length)
    OrderFault.indexerCount.unless (indexer ≠ [] → indexer.length = 1)
    OrderFault.indexerPlace.unless
      (indexer ≠ [] → indexer.head? = some (if gdn ≠ [] then gdn.length else 0))
    OrderFault.attnStart.unless
      (attn ≠ [] → attn.head? = some (gdn.length + if indexer ≠ [] then 1 else 0))
    OrderFault.attnCount.unless (attn ≠ [] → attn.length = 1)
    OrderFault.pleCount.unless (ple ≠ [] → ple.length = 1)
    OrderFault.pleAlone.unless (ple ≠ [] → attn ≠ [])
    OrderFault.plePlace.unless (ple ≠ [] → ple.head? = attn.head?.map (· + 1))
    OrderFault.total.unless
      (gdn.length + indexer.length + attn.length + ple.length = groupTypes.length)

variable {fault : OrderFault}

theorem unless_eq_ok {c : Prop} [Decidable c] : fault.unless c = .ok () ↔ c := by
  unfold OrderFault.unless
  split <;> simp_all

theorem unless_bind_eq_ok {c : Prop} [Decidable c] {y : Except OrderFault Unit} :
    (fault.unless c >>= fun _ => y) = .ok () ↔ c ∧ y = .ok () := by
  rw [bind_eq_ok]
  exact ⟨fun ⟨_, hc, hy⟩ => ⟨unless_eq_ok.mp hc, hy⟩, fun ⟨hc, hy⟩ => ⟨(), unless_eq_ok.mpr hc, hy⟩⟩

/-! ## Places -/

theorem findIdxs_replicate (t t' : GroupType) (s : ℕ) : ∀ n : ℕ,
    (List.replicate n t).findIdxs (· == t') s = if t = t' then List.range' s n else []
  | 0 => by simp
  | n + 1 => by
      rw [replicate_succ, findIdxs_cons, findIdxs_replicate t t' (s + 1) n]
      by_cases h : t = t' <;> simp [h, range'_succ]

/-- A type that is found at the first places stands there, and the others come after it. -/
theorem exists_replicate_append {t : GroupType} : ∀ {n s : ℕ} {l : List GroupType},
    l.findIdxs (· == t) s = List.range' s n → ∃ l', l = List.replicate n t ++ l' ∧
      ∀ t' ≠ t, l'.findIdxs (· == t') (s + n) = l.findIdxs (· == t') s
  | 0, _, l, _ => ⟨l, rfl, fun _ _ => rfl⟩
  | n + 1, s, [], h => by cases h
  | n + 1, s, x :: l, h => by
      rw [findIdxs_cons, range'_succ] at h
      split at h
      · next hx =>
        obtain rfl := eq_of_beq hx
        obtain ⟨l', rfl, hrest⟩ := exists_replicate_append (cons.inj h).2
        refine ⟨l', rfl, fun t' ht' => ?_⟩
        rw [findIdxs_cons, if_neg (by simpa using ht'.symm), ← hrest t' ht', add_right_comm,
          add_assoc]
      · have := ge_of_mem_findIdxs s (h ▸ mem_cons_self)
        omega

/-- At most one place, and that one. -/
theorem exists_range'_le_one {l : List ℕ} {c : ℕ} (hlength : l ≠ [] → l.length = 1)
    (hhead : l ≠ [] → l.head? = some c) :
    ∃ n ≤ 1, l = List.range' c n ∧ (if l ≠ [] then 1 else 0) = n := by
  rcases l with _ | ⟨x, _ | ⟨y, l⟩⟩
  · exact ⟨0, Nat.zero_le 1, rfl, rfl⟩
  · exact ⟨1, le_rfl, by simpa using hhead, rfl⟩
  · simp at hlength

/-- The checks ask for places one after another, at most one but for the first type. -/
theorem places_of_checks {g x t p : List ℕ} (hg : g ≠ [] → g = List.range g.length)
    (hx : x ≠ [] → x.length = 1) (hx₀ : x ≠ [] → x.head? = some (if g ≠ [] then g.length else 0))
    (ht₀ : t ≠ [] → t.head? = some (g.length + if x ≠ [] then 1 else 0))
    (ht : t ≠ [] → t.length = 1) (hp : p ≠ [] → p.length = 1) (hpt : p ≠ [] → t ≠ [])
    (hp₀ : p ≠ [] → p.head? = t.head?.map (· + 1)) :
    ∃ a i n q, i ≤ 1 ∧ n ≤ 1 ∧ q ≤ n ∧ g = List.range' 0 a ∧ x = List.range' a i ∧
      t = List.range' (a + i) n ∧ p = List.range' (a + i + n) q := by
  have hlen : (if g ≠ [] then g.length else 0) = g.length := by cases g <;> rfl
  have hgdn : g = List.range' 0 g.length := by
    by_cases hnil : g = []
    · rw [hnil, length_nil, range'_zero]
    · rw [← range_eq_range', ← hg hnil]
  obtain ⟨i, hi, rfl, hif⟩ := exists_range'_le_one hx hx₀
  rw [hif] at ht₀
  obtain ⟨n, hn, rfl, -⟩ := exists_range'_le_one ht ht₀
  rw [hlen]
  rcases Nat.le_one_iff_eq_zero_or_eq_one.mp hn with rfl | rfl
  · exact ⟨_, i, 0, 0, hi, hn, le_rfl, hgdn, rfl, rfl, by simpa using hpt⟩
  · obtain ⟨q, hq, rfl, -⟩ := exists_range'_le_one hp hp₀
    exact ⟨_, i, 1, q, hi, hn, hq, hgdn, rfl, rfl, rfl⟩

/-- **The check of the group order is exact**: it accepts the types `gdn^a indexer? attn? ple?` with
`ple` only after an `attn`, the empty list among them, and no others. -/
theorem validateGroupOrdering_eq_ok (types : List GroupType) : validateGroupOrdering types = .ok () ↔
    ∃ a i t p, i ≤ 1 ∧ t ≤ 1 ∧ p ≤ t ∧ types = List.replicate a .gdn ++ (List.replicate i .indexer ++
      (List.replicate t .attn ++ List.replicate p .ple)) := by
  unfold validateGroupOrdering
  split
  · next h => exact ⟨fun _ => ⟨0, 0, 0, 0, by simp [h]⟩, fun _ => rfl⟩
  · simp only [unless_bind_eq_ok, unless_eq_ok]
    simp only [idxsOf]
    constructor
    · rintro ⟨-, hg, hx, hx₀, ht₀, ht, hp, hpt, hp₀, htotal⟩
      obtain ⟨a, i, n, q, hi, hn, hq, hg, hx, ht, hp⟩ := places_of_checks hg hx hx₀ ht₀ ht hp hpt hp₀
      rw [hg, hx, ht, hp] at htotal
      -- each type stands where it is found
      obtain ⟨l₁, rfl, h₁⟩ := exists_replicate_append hg
      simp only [zero_add] at h₁
      obtain ⟨l₂, rfl, h₂⟩ := exists_replicate_append ((h₁ .indexer nofun).trans hx)
      obtain ⟨l₃, rfl, h₃⟩ := exists_replicate_append
        ((h₂ .attn nofun).trans ((h₁ .attn nofun).trans ht))
      obtain ⟨l₄, rfl, -⟩ := exists_replicate_append
        ((h₃ .ple nofun).trans ((h₂ .ple nofun).trans ((h₁ .ple nofun).trans hp)))
      simp only [length_range', length_append, length_replicate] at htotal
      obtain rfl : l₄ = [] := length_eq_zero_iff.mp (by omega)
      exact ⟨a, i, n, q, hi, hn, hq, by rw [append_nil]⟩
    · rintro ⟨a, i, t, p, hi, ht, hp, rfl⟩
      simp only [findIdxs_append, findIdxs_replicate]
      rcases Nat.le_one_iff_eq_zero_or_eq_one.mp hi with rfl | rfl <;>
        rcases Nat.le_one_iff_eq_zero_or_eq_one.mp ht with rfl | rfl <;>
        rcases Nat.le_one_iff_eq_zero_or_eq_one.mp (hp.trans ht) with rfl | rfl <;>
        cases a <;> simp_all [range_eq_range', range'_succ]

/-! ## Prefix hits -/

/-- A KV cache group of a request: what is asked of its spec, and its longest cache hit. -/
structure GroupHit (β : Type) where
  /-- `isinstance(spec, FullAttentionSpec)` -/
  fullAttention : Bool
  /-- `isinstance(spec, (MLAAttentionSpec, Qwen3NextIndexerAttentionSpec))` -/
  unscaled : Bool
  blockSize : ℕ
  hit : ℕ
  blocks : List β

namespace GroupHit

variable {β : Type} (dcpWorldSize : ℕ)

/-- `_token_cache_block_size`. -/
def tokenCacheBlockSize (g : GroupHit β) : ℕ :=
  if g.unscaled then g.blockSize else g.blockSize * dcpWorldSize

variable (groups : List (GroupHit β))

/-- The groups of full attention: only their hits count. -/
def tokenGroups : List (GroupHit β) := groups.filter (·.fullAttention)

/-- `token_group_alignment`. -/
def tokenGroupAlignment : ℕ :=
  ((tokenGroups groups).map (tokenCacheBlockSize dcpWorldSize)).foldr Nat.lcm 1

/-- `seen_tokens`; `none` is a `ZeroDivisionError`. -/
def seenTokens : Option ℕ :=
  match ((tokenGroups groups).map hit).min? with
  | none => some 0
  | some seen =>
    let alignment := tokenGroupAlignment dcpWorldSize groups
    if alignment = 0 then none else some (seen / alignment * alignment)

/-- `_get_computed_blocks_for_kvt`; `computed` is the answer of `get_computed_blocks`. -/
def getComputedBlocksForKvt (computed : List (List β) × ℕ) (save isKvtConsumer : Bool)
    (groups : List (GroupHit β)) : Option (List (List β) × ℕ) :=
  if !isKvtConsumer || save then some computed
  else (seenTokens dcpWorldSize groups).map fun seen =>
    (groups.map fun g => if 0 < seen ∧ g.fullAttention = true then
      g.blocks.take (seen / g.tokenCacheBlockSize dcpWorldSize) else [], seen)

theorem foldr_lcm_dvd {n : ℕ} : ∀ {l : List ℕ}, l.foldr Nat.lcm 1 ∣ n ↔ ∀ s ∈ l, s ∣ n
  | [] => by simp
  | s :: l => by rw [foldr_cons, Nat.lcm_dvd_iff, foldr_lcm_dvd, forall_mem_cons]

theorem foldr_lcm_pos : ∀ {l : List ℕ}, (∀ s ∈ l, 0 < s) → 0 < l.foldr Nat.lcm 1
  | [], _ => Nat.one_pos
  | _ :: _, h => Nat.lcm_pos (forall_mem_cons.mp h).1 (foldr_lcm_pos (forall_mem_cons.mp h).2)

theorem forall_mem_tokenGroups {groups : List (GroupHit β)} {f : GroupHit β → ℕ} {P : ℕ → Prop} :
    (∀ n ∈ (tokenGroups groups).map f, P n) ↔
      ∀ g ∈ groups, g.fullAttention = true → P (f g) := by
  simp only [tokenGroups, forall_mem_map, mem_filter, and_imp]

/-- **The prefix hit is aligned**: where some group is one of full attention, the tokens seen are the
most that are a multiple of each such group's block size and within each such group's hit, which
keeps the blocks of as many tokens; the other groups keep none. -/
theorem getComputedBlocksForKvt_aligned (dcp : ℕ) (computed : List (List β) × ℕ)
    {groups : List (GroupHit β)} (hfull : ∃ g ∈ groups, g.fullAttention = true)
    (hsize : ∀ g ∈ groups, g.fullAttention = true → 0 < g.tokenCacheBlockSize dcp)
    (hblocks : ∀ g ∈ groups, g.fullAttention = true →
      g.hit = g.blocks.length * g.tokenCacheBlockSize dcp) :
    ∃ kept seen, getComputedBlocksForKvt dcp computed false true groups = some (kept, seen) ∧
      IsGreatest {n | ∀ g ∈ groups, g.fullAttention = true →
        g.tokenCacheBlockSize dcp ∣ n ∧ n ≤ g.hit} seen ∧
      kept = groups.map (fun g => if g.fullAttention = true then
        g.blocks.take (seen / g.tokenCacheBlockSize dcp) else []) ∧
      ∀ g ∈ groups, g.fullAttention = true →
        seen / g.tokenCacheBlockSize dcp ≤ g.blocks.length := by
  obtain ⟨g₀, hg₀⟩ := hfull
  obtain ⟨least, hleast⟩ := Option.isSome_iff_exists.mp
    (isSome_min?_of_mem (mem_map_of_mem (f := hit) (mem_filter.mpr hg₀)))
  have hle (n : ℕ) : n ≤ least ↔ ∀ g ∈ groups, g.fullAttention = true → n ≤ g.hit :=
    (le_min?_iff hleast).trans forall_mem_tokenGroups
  have hdvd (n : ℕ) : tokenGroupAlignment dcp groups ∣ n ↔
      ∀ g ∈ groups, g.fullAttention = true → g.tokenCacheBlockSize dcp ∣ n :=
    foldr_lcm_dvd.trans forall_mem_tokenGroups
  have hpos : 0 < tokenGroupAlignment dcp groups :=
    foldr_lcm_pos (forall_mem_tokenGroups.mpr hsize)
  have hseen : seenTokens dcp groups =
      some (least / tokenGroupAlignment dcp groups * tokenGroupAlignment dcp groups) := by
    simp only [seenTokens, tokenGroups, hleast]
    exact if_neg hpos.ne'
  generalize tokenGroupAlignment dcp groups = alignment at hdvd hpos hseen
  have hgreatest : IsGreatest {n | ∀ g ∈ groups, g.fullAttention = true →
      g.tokenCacheBlockSize dcp ∣ n ∧ n ≤ g.hit} (least / alignment * alignment) := by
    refine ⟨fun g hg hfull => ⟨?_, ?_⟩, fun n hn => ?_⟩
    · exact (hdvd _).mp (Nat.dvd_mul_left _ _) g hg hfull
    · exact (hle _).mp (Nat.div_mul_le_self _ _) g hg hfull
    · obtain ⟨k, rfl⟩ := (hdvd n).mpr fun g hg hfull => (hn g hg hfull).1
      rw [Nat.mul_comm]
      refine Nat.mul_le_mul_right _ ((Nat.le_div_iff_mul_le hpos).mpr ?_)
      rw [Nat.mul_comm]
      exact (hle _).mpr fun g hg hfull => (hn g hg hfull).2
  refine ⟨_, _, by rw [getComputedBlocksForKvt, hseen]; rfl, hgreatest, ?_, fun g hg hfull => ?_⟩
  · refine map_congr_left fun g _ => ?_
    by_cases hfull : g.fullAttention = true
    · rcases Nat.eq_zero_or_pos (least / alignment * alignment) with hzero | hpos
      · simp [hzero]
      · rw [if_pos ⟨hpos, hfull⟩, if_pos hfull]
    · rw [if_neg fun h => hfull h.2, if_neg hfull]
  · refine Nat.div_le_of_le_mul ((hgreatest.1 g hg hfull).2.trans_eq ?_)
    rw [hblocks g hg hfull, Nat.mul_comm]

/-- Blocks of `2` and of `3` tokens, and a group that is not one of full attention. -/
def twoSizes : List (GroupHit ℕ) :=
  [⟨true, false, 2, 8, [0, 1, 2, 3]⟩, ⟨false, false, 4, 4, [7]⟩, ⟨true, true, 3, 9, [4, 5, 6]⟩]

theorem getComputedBlocksForKvt_aligned_twoSizes : ∃ kept seen,
    getComputedBlocksForKvt 1 ([], 0) false true twoSizes = some (kept, seen) ∧ 2 ∣ seen := by
  obtain ⟨kept, seen, hrun, hgreatest, -⟩ := getComputedBlocksForKvt_aligned 1 ([], 0)
    (show ∃ g ∈ twoSizes, _ from ⟨_, mem_cons_self, rfl⟩) (by decide) (by decide)
  exact ⟨kept, seen, hrun, (hgreatest.1 _ mem_cons_self rfl).1⟩

end GroupHit

end LlumnixKv
