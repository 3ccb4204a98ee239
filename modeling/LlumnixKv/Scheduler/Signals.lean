import LlumnixKv.Machinery.Dict
import Mathlib.Order.MinMax
import Mathlib.Data.Int.Order.Basic
import Mathlib.Order.Bounds.Defs
import Mathlib.Data.Option.NAry

/-!
# Scheduler/Signals — done signals, collected by worker rank

The scheduler's side of a done message (`utils.py`).  Every worker of the group signals the end of
an I/O on a request, once for each source or a fixed number of times; `tryAdvance` files a signal
under its rank and tells when the whole group is ready, `merge` makes one result of what was filed.

    expectedSources = []       a worker is ready after `signalsPerWorker` signals
    expectedSources ≠ []       a worker is ready when it has signalled every source

A signal that does not count — a surplus one, a repeated or an unknown source — is dropped with a
warning, and leaves no trace but an empty list under its rank.
-/

open List Machinery

namespace LlumnixKv

/-! ## Results of an I/O -/

/-- An exception, as the result of an I/O carries it. -/
inductive Exn
  /-- `CodeError(code, msg)` -/
  | codeError (code : ℕ) (msg : String)
  | other (msg : String)
  deriving DecidableEq, Repr

/-- `IoRet`. -/
structure IoRet where
  reqid : Option String := none
  ex : Option Exn := none
  n : Option ℤ := none
  source : Option String := none
  deriving DecidableEq, Repr

/-- The `IoRet` of one record `(plen, code, reqid)` of a version 2 done message
(`handle_done_req`). -/
def IoRet.ofRecord (plen code : ℕ) (reqid : String) : IoRet :=
  { reqid := some reqid, n := some plen
    ex := if code ≠ 0 then some (.codeError code "done req") else none }

/-! ## The state of one request -/

/-- `IoState`; `expectedSources` is an attribute of `_SavingReq` only, read with the default `()`. -/
structure IoState where
  signalsPerWorker : ℕ := 1
  expectedSources : List String := []
  /-- worker rank ↦ the signals received from it -/
  workerSignals : Dict ℕ (List IoRet) := .empty
  deriving DecidableEq, Repr

namespace IoState

variable (st : IoState)

/-- What a worker has signalled so far. -/
def signals (rank : ℕ) : List IoRet := (st.workerSignals.get? rank).getD []

/-- A worker with these signals is ready. -/
def ready (sigs : List IoRet) : Bool :=
  if st.expectedSources = [] then decide (st.signalsPerWorker ≤ sigs.length)
  else st.expectedSources.all fun source => sigs.any fun sig => sig.source == some source

/-- The warnings of `try_advance`: the worker's signals leave no room for this one. -/
def drops (sigs : List IoRet) (ioret : IoRet) : Bool :=
  if st.expectedSources = [] then decide (st.signalsPerWorker ≤ sigs.length)
  else match ioret.source with
    | none => true
    | some source =>
      decide (source ∉ st.expectedSources) || sigs.any fun sig => sig.source == ioret.source

/-- `ready_workers_count`. -/
def readyWorkersCount : ℕ := st.workerSignals.values.countP st.ready

/-- `worker_signals[rank] = sigs`. -/
def file (rank : ℕ) (sigs : List IoRet) : IoState :=
  { st with workerSignals := st.workerSignals.set rank sigs }

/-- The group is ready: every worker below `tpsize` is. -/
def AllReady (tpsize : ℕ) : Prop := ∀ rank < tpsize, st.ready (st.signals rank) = true

/-- The ranks that have signalled belong to the group. -/
def RanksBelow (tpsize : ℕ) : Prop := ∀ rank ∈ st.workerSignals.keys, rank < tpsize

end IoState

/-- What `try_advance` made of a signal. -/
inductive Advance
  /-- returned `None` after a warning -/
  | dropped
  /-- filed; some worker is not ready yet: returned `None` -/
  | pending
  /-- filed, and now the whole group is ready: returned the state -/
  | done
  deriving DecidableEq, Repr

/-- `try_advance`, for the state found under the request's id. -/
def IoState.tryAdvance (st : IoState) (ioret : IoRet) (workerTprank tpsize : ℕ) :
    IoState × Advance :=
  let sigs := st.signals workerTprank
  if st.drops sigs ioret then (st.file workerTprank sigs, .dropped)
  else
    let st' := st.file workerTprank (sigs ++ [ioret])
    (st', if st'.readyWorkersCount < tpsize then .pending else .done)

/-- The loop of `merge` over the results after the first; `break` at the first exception found. -/
def mergeLoop (ret : IoRet) : List IoRet → IoRet
  | [] => ret
  | wio :: rest =>
    if wio.ex.isSome ∧ ret.ex.isNone then { ret with ex := wio.ex }
    else match ret.n, wio.n with
      | none, _ => mergeLoop ret rest
      | some _, none => mergeLoop { ret with n := none } rest
      | some a, some b => mergeLoop (if a > b then { ret with n := some b } else ret) rest

/-- `IoState.merge`; `none` is the failed assertion that there is a result. -/
def IoState.merge (st : IoState) : Option IoRet :=
  match (st.workerSignals.values.filter fun sigs => st.signalsPerWorker ≤ sigs.length).flatten with
  | [] => none
  | ret :: rest => some (mergeLoop ret rest)

/-! ## Filing -/

namespace IoState

variable {st : IoState} {rank tpsize : ℕ} {sigs : List IoRet} {ioret : IoRet}

@[simp] theorem file_signalsPerWorker :
    (st.file rank sigs).signalsPerWorker = st.signalsPerWorker := rfl

@[simp] theorem file_expectedSources :
    (st.file rank sigs).expectedSources = st.expectedSources := rfl

@[simp] theorem file_ready : (st.file rank sigs).ready = st.ready := rfl

theorem signals_file (r : ℕ) :
    (st.file rank sigs).signals r = if r = rank then sigs else st.signals r := by
  rw [signals, file, Dict.get?_set]
  split
  · rfl
  · rfl

/-- Filing what was there leaves every worker's signals alone. -/
theorem signals_file_self (r : ℕ) : (st.file rank (st.signals rank)).signals r = st.signals r := by
  rw [signals_file]
  split
  · next h => rw [h]
  · rfl

theorem RanksBelow.file (h : st.RanksBelow tpsize) (hrank : rank < tpsize) (sigs : List IoRet) :
    (st.file rank sigs).RanksBelow tpsize := by
  intro r hr
  rcases (Dict.mem_keys_setEntry _).mp hr with rfl | hr'
  · exact hrank
  · exact h r hr'

/-- **The count of ready workers reaches the size of the group when all of it is ready.** -/
theorem RanksBelow.le_readyWorkersCount_iff (h : st.RanksBelow tpsize)
    (hempty : st.ready [] = false) : tpsize ≤ st.readyWorkersCount ↔ st.AllReady tpsize := by
  rw [readyWorkersCount, Dict.le_countP_values_iff h]
  refine forall₂_congr fun r _ => ?_
  rw [signals]
  cases st.workerSignals.get? r with
  | none => simp [hempty]
  | some sigs => simp

/-! ## What one signal does -/

theorem tryAdvance_of_drops (h : st.drops (st.signals rank) ioret = true) :
    st.tryAdvance ioret rank tpsize = (st.file rank (st.signals rank), .dropped) := if_pos h

theorem tryAdvance_of_not_drops (h : st.drops (st.signals rank) ioret = false) :
    st.tryAdvance ioret rank tpsize =
      (st.file rank (st.signals rank ++ [ioret]),
        if (st.file rank (st.signals rank ++ [ioret])).readyWorkersCount < tpsize then .pending
        else .done) :=
  if_neg (by rw [h]; exact Bool.false_ne_true)

/-- The state after a signal files it, or leaves the worker's signals as they were. -/
theorem tryAdvance_fst (st : IoState) (ioret : IoRet) (rank tpsize : ℕ) :
    (st.tryAdvance ioret rank tpsize).1 =
      st.file rank (if st.drops (st.signals rank) ioret then st.signals rank
        else st.signals rank ++ [ioret]) := by
  cases hd : st.drops (st.signals rank) ioret with
  | true => exact congrArg Prod.fst (tryAdvance_of_drops hd)
  | false => exact congrArg Prod.fst (tryAdvance_of_not_drops hd)

theorem RanksBelow.tryAdvance (h : st.RanksBelow tpsize) (hrank : rank < tpsize) :
    (st.tryAdvance ioret rank tpsize).1.RanksBelow tpsize := by
  rw [tryAdvance_fst]
  exact h.file hrank _

/-- **A signal completes the group if it counts and leaves every worker ready.** -/
theorem tryAdvance_snd_eq_done (ioret : IoRet) (h : st.RanksBelow tpsize) (hrank : rank < tpsize)
    (hempty : st.ready [] = false) :
    (st.tryAdvance ioret rank tpsize).2 = .done ↔
      st.drops (st.signals rank) ioret = false ∧
      (st.tryAdvance ioret rank tpsize).1.AllReady tpsize := by
  cases hd : st.drops (st.signals rank) ioret with
  | true => simp [tryAdvance_of_drops hd]
  | false =>
    rw [tryAdvance_of_not_drops hd]
    have hcount := (h.file hrank (st.signals rank ++ [ioret])).le_readyWorkersCount_iff hempty
    rw [← hcount]
    dsimp only
    split
    · next hlt => simpa using hlt
    · next hlt => simpa using hlt

/-! ## By number -/

theorem drops_of_count (h : st.expectedSources = []) :
    st.drops sigs ioret = decide (st.signalsPerWorker ≤ sigs.length) := if_pos h

theorem ready_of_count (h : st.expectedSources = []) :
    st.ready sigs = decide (st.signalsPerWorker ≤ sigs.length) := if_pos h

theorem flatten_file_perm (st : IoState) (rank : ℕ) (ioret : IoRet) :
    (st.file rank (st.signals rank ++ [ioret])).workerSignals.values.flatten.Perm
      (ioret :: st.workerSignals.values.flatten) :=
  Dict.flatten_values_set_perm st.workerSignals rank ioret

/-- Where every worker is ready, each has sent its number of signals. -/
theorem AllReady.le_length (h : st.AllReady tpsize) (hsources : st.expectedSources = [])
    (hbelow : st.RanksBelow tpsize) :
    ∀ sigs ∈ st.workerSignals.values, st.signalsPerWorker ≤ sigs.length := by
  intro sigs hsigs
  obtain ⟨⟨rank, sigs⟩, hmem, rfl⟩ := mem_map.mp hsigs
  have hready := h rank (hbelow rank (mem_map_of_mem hmem))
  rw [signals, Dict.get?_eq_some.mpr hmem, Option.getD_some, ready_of_count hsources] at hready
  exact of_decide_eq_true hready

/-! ## By source -/

/-- The worker has signalled the source. -/
def Reports (st : IoState) (rank : ℕ) (source : String) : Prop :=
  ∃ sig ∈ st.signals rank, sig.source = some source

theorem ready_nil_of_sources (h : st.expectedSources ≠ []) : st.ready [] = false := by
  obtain ⟨source, rest, hs⟩ := exists_cons_of_ne_nil h
  rw [ready, if_neg h, hs]
  rfl

theorem allReady_iff_reports (h : st.expectedSources ≠ []) :
    st.AllReady tpsize ↔ ∀ rank < tpsize, ∀ source ∈ st.expectedSources, st.Reports rank source := by
  simp [AllReady, ready, h, Reports]

/-- Where a signal of an expected source is dropped, the worker has signalled it before. -/
theorem drops_iff_reports {source : String} (hmem : source ∈ st.expectedSources)
    (hsource : ioret.source = some source) :
    st.drops (st.signals rank) ioret = true ↔ st.Reports rank source := by
  have hne : st.expectedSources ≠ [] := ne_nil_of_mem hmem
  simp [drops, hne, hsource, hmem, Reports]

/-- **Every expected source a worker signals is remembered, and nothing else.** -/
theorem reports_tryAdvance {source : String} (hmem : source ∈ st.expectedSources) (r : ℕ) :
    (st.tryAdvance ioret rank tpsize).1.Reports r source ↔
      st.Reports r source ∨ (r = rank ∧ ioret.source = some source) := by
  rw [tryAdvance_fst, Reports, signals_file]
  by_cases hr : r = rank
  · subst hr
    rw [if_pos rfl]
    cases hd : st.drops (st.signals r) ioret with
    | true =>
      rw [if_pos rfl]
      exact ⟨.inl, fun h => h.elim id fun h => (drops_iff_reports hmem h.2).mp hd⟩
    | false => simp [Reports, or_and_right, exists_or]
  · rw [if_neg hr]
    exact ⟨.inl, fun h => h.elim id fun h => absurd h.1 hr⟩

/-! ## The signal that completes the group -/

/-- A worker that is ready has no room for another signal. -/
theorem drops_of_ready (h : st.ready sigs = true) : st.drops sigs ioret = true := by
  rw [drops]
  rw [ready] at h
  split at h
  · next hsources => rwa [if_pos hsources]
  · next hsources =>
    rw [if_neg hsources]
    split
    · rfl
    · next source hsource =>
      by_cases hmem : source ∈ st.expectedSources
      · rw [hsource, all_eq_true.mp h source hmem, Bool.or_true]
      · rw [decide_eq_true hmem, Bool.true_or]

/-- A signal that is dropped makes no worker ready. -/
theorem allReady_of_drops (h : st.drops (st.signals rank) ioret = true) :
    (st.tryAdvance ioret rank tpsize).1.AllReady tpsize ↔ st.AllReady tpsize := by
  rw [tryAdvance_of_drops h]
  refine forall₂_congr fun r _ => ?_
  rw [file_ready, signals_file_self]

/-- Where no signal is asked for, every worker is ready. -/
theorem ready_of_nil (h : st.ready [] = true) (sigs : List IoRet) : st.ready sigs = true := by
  by_cases hsources : st.expectedSources = []
  · rw [ready_of_count hsources, decide_eq_true_eq] at h ⊢
    exact Nat.le_trans h (Nat.zero_le _)
  · rw [ready_nil_of_sources hsources] at h
    exact Bool.noConfusion h

/-- **The signal that completes the group is the one that makes it ready.** -/
theorem tryAdvance_done_iff (ioret : IoRet) (h : st.RanksBelow tpsize) (hrank : rank < tpsize) :
    (st.tryAdvance ioret rank tpsize).2 = .done ↔
      ¬st.AllReady tpsize ∧ (st.tryAdvance ioret rank tpsize).1.AllReady tpsize := by
  cases hempty : st.ready [] with
  | true =>
    rw [tryAdvance_of_drops (drops_of_ready (ready_of_nil hempty _))]
    exact ⟨nofun, fun hmore => absurd (fun r _ => ready_of_nil hempty _) hmore.1⟩
  | false =>
    rw [tryAdvance_snd_eq_done ioret h hrank hempty]
    refine and_congr_left fun hafter => ⟨fun hd hall => ?_, fun hbefore => ?_⟩
    · rw [drops_of_ready (hall rank hrank)] at hd
      exact Bool.noConfusion hd
    · exact Bool.eq_false_iff.mpr fun hd => hbefore ((allReady_of_drops hd).mp hafter)

end IoState

/-! ## Merging -/

/-- What the loop does with one result: it ends at the first exception, and else takes the lesser
count. -/
theorem mergeLoop_cons (ret wio : IoRet) (rest : List IoRet) :
    mergeLoop ret (wio :: rest) =
      if wio.ex.isSome ∧ ret.ex.isNone then { ret with ex := wio.ex }
      else mergeLoop { ret with n := Option.map₂ min ret.n wio.n } rest := by
  rw [mergeLoop]
  split
  · rfl
  · obtain ⟨reqid, ex, n, source⟩ := ret
    cases n with
    | none => rfl
    | some a =>
      cases hb : wio.n with
      | none => rfl
      | some b =>
        dsimp only [Option.map₂_some_some]
        split
        · next hab => rw [min_eq_right (le_of_lt hab)]
        · next hab => rw [min_eq_left (not_lt.mp hab)]

/-- **What merging comes to**: an exception where one of the results has one, and else the least of
the counts, or `none` where one of them is. -/
structure IoRet.Merges (ret : IoRet) (l : List IoRet) : Prop where
  ex : ret.ex = none ↔ ∀ wio ∈ l, wio.ex = none
  mem : ∃ wio ∈ l, ret.ex = wio.ex
  n : ret.ex = none → (ret.n = none ↔ ∃ wio ∈ l, wio.n = none)
  le : ret.ex = none → ∀ n, ret.n = some n →
    ∀ b, b ≤ n ↔ ∀ wio ∈ l, ∀ c, wio.n = some c → b ≤ c

theorem merges_mergeLoop : ∀ (ret : IoRet) (rest : List IoRet),
    (mergeLoop ret rest).Merges (ret :: rest)
  | ret, [] => by constructor <;> simp +contextual [mergeLoop]
  | ret, wio :: rest => by
      rw [mergeLoop_cons]
      split
      · next h =>
        obtain ⟨ex, hex⟩ := Option.isSome_iff_exists.mp h.1
        constructor <;> simp [hex]
      · next h =>
        have ih := merges_mergeLoop { ret with n := Option.map₂ min ret.n wio.n } rest
        have hwio : ret.ex = none → wio.ex = none := fun hret =>
          Option.not_isSome_iff_eq_none.mp fun hsome => h ⟨hsome, Option.isNone_iff_eq_none.mpr hret⟩
        refine ⟨?_, ?_, fun hex => ?_, fun hex n hn b => ?_⟩
        · rw [ih.ex]
          simp +contextual [hwio]
        · obtain ⟨w, hw, hex⟩ := ih.mem
          rcases mem_cons.mp hw with rfl | hw
          · exact ⟨ret, mem_cons_self, hex⟩
          · exact ⟨w, mem_cons_of_mem _ (mem_cons_of_mem _ hw), hex⟩
        · rw [ih.n hex]
          simp [or_assoc]
        · -- no count is missing, so the first two have a lesser one
          have hsome := mt (ih.n hex).mpr (by rw [hn]; exact nofun)
          obtain ⟨c, hc⟩ := Option.ne_none_iff_exists'.mp fun h => hsome ⟨_, mem_cons_self, h⟩
          obtain ⟨x, y, hx, hy, -⟩ := Option.map₂_eq_some_iff.mp hc
          rw [Option.mem_def] at hx hy
          rw [ih.le hex n hn]
          simp [hx, hy, and_assoc]

namespace IoRet.Merges

variable {ret ret' : IoRet} {l l' : List IoRet}

/-- The order of the results does not count. -/
theorem perm (h : ret.Merges l) (hl : l.Perm l') : ret.Merges l' where
  ex := by simpa only [hl.mem_iff] using h.ex
  mem := by simpa only [hl.mem_iff] using h.mem
  n := by simpa only [hl.mem_iff] using h.n
  le := by simpa only [hl.mem_iff] using h.le

/-- Where every result has a count, so has what they are merged to. -/
theorem exists_n (h : ret.Merges l) (hex : ret.ex = none) (hsome : ∀ wio ∈ l, wio.n ≠ none) :
    ∃ n, ret.n = some n ∧ ∀ b, b ≤ n ↔ ∀ wio ∈ l, ∀ c, wio.n = some c → b ≤ c := by
  obtain ⟨n, hn⟩ := Option.ne_none_iff_exists'.mp
    (mt (h.n hex).mp fun ⟨wio, hwio, hnone⟩ => hsome wio hwio hnone)
  exact ⟨n, hn, h.le hex n hn⟩

/-- Without an exception the results determine the count. -/
theorem n_unique (h : ret.Merges l) (h' : ret'.Merges l) (hex : ret.ex = none) :
    ret'.ex = ret.ex ∧ ret'.n = ret.n := by
  have hex' := h'.ex.mpr (h.ex.mp hex)
  refine ⟨hex'.trans hex.symm, ?_⟩
  cases hn : ret.n with
  | none => exact (h'.n hex').mpr ((h.n hex).mp hn)
  | some n =>
    obtain ⟨n', hn', hle'⟩ := h'.exists_n hex' fun wio hwio hnone =>
      by cases hn.symm.trans ((h.n hex).mpr ⟨wio, hwio, hnone⟩)
    have hle := h.le hex n hn
    have := (hle n').mpr ((hle' n').mp le_rfl)
    have := (hle' n).mpr ((hle n).mp le_rfl)
    rw [hn', le_antisymm ‹n' ≤ n› ‹n ≤ n'›]

/-- The least count is one of the counts. -/
theorem isLeast (h : ret.Merges l) (hex : ret.ex = none) {n : ℤ} (hn : ret.n = some n) :
    IsLeast {c | ∃ wio ∈ l, wio.n = some c} n := by
  have hle := h.le hex n hn
  refine ⟨?_, fun c ⟨wio, hwio, hc⟩ => (hle n).mp le_rfl wio hwio c hc⟩
  by_contra hnot
  refine absurd ((hle (n + 1)).mpr fun wio hwio c hc => ?_) (by omega)
  have := (hle n).mp le_rfl wio hwio c hc
  exact lt_of_le_of_ne this fun heq => hnot ⟨wio, hwio, heq ▸ hc⟩

end IoRet.Merges

namespace IoState

/-- Where the workers have sent their number of signals, all signals are merged. -/
theorem exists_merge {st : IoState}
    (hready : ∀ sigs ∈ st.workerSignals.values, st.signalsPerWorker ≤ sigs.length)
    (hsome : st.workerSignals.values.flatten ≠ []) :
    ∃ ret rest, st.merge = some (mergeLoop ret rest) ∧
      st.workerSignals.values.flatten = ret :: rest := by
  rw [merge, filter_eq_self.mpr fun sigs hsigs => decide_eq_true (hready sigs hsigs)]
  split
  · next hnil => exact absurd hnil hsome
  · next ret rest hflat => exact ⟨ret, rest, rfl, hflat⟩

/-- **Merging the results of a group that is ready**, however many signals a rank has sent and in
whatever order: there is an exception where a signal has one, and else the least count, or `none`
where a signal has none; and then the same signals in another order give the same. -/
theorem merge_leastCount {st : IoState}
    (hready : ∀ sigs ∈ st.workerSignals.values, st.signalsPerWorker ≤ sigs.length)
    (hsome : st.workerSignals.values.flatten ≠ []) :
    ∃ ret, st.merge = some ret ∧
      (ret.ex.isSome = true ↔ ∃ sig ∈ st.workerSignals.values.flatten, sig.ex.isSome = true) ∧
      (ret.ex = none →
        (ret.n = none ↔ ∃ sig ∈ st.workerSignals.values.flatten, sig.n = none) ∧
        (∀ n, ret.n = some n →
          IsLeast {c | ∃ sig ∈ st.workerSignals.values.flatten, sig.n = some c} n) ∧
        ∀ st' : IoState,
          (∀ sigs ∈ st'.workerSignals.values, st'.signalsPerWorker ≤ sigs.length) →
          st'.workerSignals.values.flatten.Perm st.workerSignals.values.flatten →
          ∃ ret', st'.merge = some ret' ∧ ret'.ex = ret.ex ∧ ret'.n = ret.n) := by
  obtain ⟨ret, rest, hmerge, hflat⟩ := exists_merge hready hsome
  have h := hflat ▸ merges_mergeLoop ret rest
  refine ⟨_, hmerge, ?_, fun hex => ⟨h.n hex, fun n hn => h.isLeast hex hn, ?_⟩⟩
  · rw [← not_iff_not]
    simpa using h.ex
  · intro st' hready' hperm
    obtain ⟨ret', rest', hmerge', hflat'⟩ := exists_merge hready' fun hnil =>
      hsome (hnil ▸ hperm).nil_eq.symm
    exact ⟨_, hmerge', h.n_unique ((hflat' ▸ merges_mergeLoop ret' rest').perm hperm) hex⟩

/-- Rank `1` has signalled before rank `0`. -/
def lastRankFirst : IoState where
  workerSignals := (Dict.empty.set 1 [{ n := some 3 }]).set 0 [{ n := some 2 }]

theorem merge_leastCount_lastRankFirst : ∃ ret, lastRankFirst.merge = some ret ∧ ret.n ≠ none := by
  obtain ⟨ret, hmerge, hex, hrest⟩ := merge_leastCount
    (show ∀ sigs ∈ lastRankFirst.workerSignals.values, _ from by decide) (by decide)
  have hnone := Option.not_isSome_iff_eq_none.mp (mt hex.mp (by decide))
  exact ⟨ret, hmerge, mt (hrest hnone).1.mp (by decide)⟩

end IoState

end LlumnixKv
