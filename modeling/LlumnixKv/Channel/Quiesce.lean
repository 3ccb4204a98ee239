import LlumnixKv.Channel.Rdma

/-!
# Channel/Quiesce — which reports are quiet

`flush` waits for the write batches in order and rethrows at the first that failed; those behind it
may be in flight, and `do_task` reports all the same.  No other write is in flight at a report
(`Tx.Inv`), so a report is quiet exactly when the write batches behind a failed one that have records of
the requests it names have completed (`quiet_iff_complete_behind`).
-/

open List Machinery

namespace LlumnixKv

/-! ## Quiet reports -/

/-- The write batch was not posted for a request this batch finishes. -/
def Posted.Harmless (tasks : List ReqSendTask) (p : Posted) : Prop :=
  ∀ task ∈ finishedReq tasks, task.req.key ∉ p.reqs

namespace Tx

/-- The report of the batch `tasks` is sent now. -/
def Reports (stub : Stub) (t : Tx) (tasks : List ReqSendTask) : Prop :=
  ∃ o rest t', t.todo = (o, tasks) :: rest ∧ t.report stub = some (.ok t')

/-- **If a report is sent now, no write of a request it names is in flight.** -/
def Quiet (stub : Stub) (t : Tx) : Prop :=
  ∀ tasks, t.Reports stub tasks → ∀ p ∈ t.posted, p.fut = .pending → p.Harmless tasks

/-- The `j`-th write batch was posted behind one of its round that has failed. -/
def BehindFailed (t : Tx) (j : ℕ) : Prop :=
  ∃ (i : ℕ) (q p : Posted) (msg : String), i < j ∧ t.posted[i]? = some q ∧ t.posted[j]? = some p ∧
    q.round = p.round ∧ q.fut = .failed msg

/-- If a report is sent now, the writes behind a failed one that carry records of the requests it names
have completed. -/
def CompleteBehind (stub : Stub) (t : Tx) : Prop :=
  ∀ tasks, t.Reports stub tasks → ∀ (j : ℕ) (p : Posted), t.posted[j]? = some p → t.BehindFailed j →
    (∃ task ∈ finishedReq tasks, task.req.key ∈ p.reqs) → p.fut ≠ .pending

/-- The futures `flush` has yet to wait for. -/
def awaited (t : Tx) : List ℕ :=
  match t.phase with
  | .posting _ => t.writeFuts
  | .flushing left => left
  | _ => []

/-! ## What is in flight -/

/-- **What holds along every run.** -/
structure Inv (t : Tx) : Prop where
  /-- the futures of the round, in the order they were posted in -/
  sorted : t.awaited.Pairwise (· < ·)
  current : ∀ i ∈ t.awaited, ∃ p, t.posted[i]? = some p ∧ p.round = t.logs.length
  pending : ∀ (j : ℕ) (p : Posted), t.posted[j]? = some p → p.fut = .pending →
    j ∈ t.awaited ∨ t.BehindFailed j

/-- The write batches of `t` are there in `t'`, and only those in flight may have changed. -/
def Kept (t t' : Tx) : Prop :=
  ∀ (i : ℕ) (p : Posted), t.posted[i]? = some p →
    ∃ p', t'.posted[i]? = some p' ∧ p'.round = p.round ∧ (p.fut = .pending ∨ p' = p)

variable {stub : Stub} {sort : BlockSort} {chs : ℕ} {t t' : Tx}

theorem Kept.of_eq (h : t'.posted = t.posted) : t.Kept t' := fun _ p hp => ⟨p, h ▸ hp, rfl, .inr rfl⟩

theorem BehindFailed.kept {j : ℕ} (h : t.BehindFailed j) (hkept : t.Kept t') : t'.BehindFailed j := by
  obtain ⟨i, q, p, msg, hlt, hq, hp, hround, hfailed⟩ := h
  obtain ⟨q', hq', -, hsame⟩ := hkept i q hq
  obtain ⟨p', hp', hround', -⟩ := hkept j p hp
  obtain rfl : q' = q := hsame.resolve_left (by rw [hfailed]; exact nofun)
  exact ⟨i, q', p', msg, hlt, hq', hp', hround.trans hround'.symm, hfailed⟩

/-- A state with the write batches of `t`, all of which `t` had awaited or left behind a failed one. -/
theorem Inv.of_kept (h : t.Inv) (hposted : t'.posted = t.posted) (hawaited : t'.awaited = []) :
    (∀ (j : ℕ) (p : Posted), j ∈ t.awaited → t.posted[j]? = some p → p.fut = .pending →
      t.BehindFailed j) → t'.Inv := fun hleft => by
  refine ⟨hawaited ▸ .nil, fun i hi => absurd (hawaited ▸ hi) not_mem_nil, fun j p hp hpending => ?_⟩
  rw [hposted] at hp
  refine .inr (BehindFailed.kept ?_ (.of_eq hposted))
  exact (h.pending j p hp hpending).elim (fun hj => hleft j p hj hp hpending) id

theorem startPhase_ne_flushing {o : Outside} {tasks : List ReqSendTask} {s : StubState} {phase : TxPhase}
    (h : startPhase stub sort chs o tasks s = .ok phase) (left : List ℕ) : phase ≠ .flushing left := by
  rintro rfl
  rw [startPhase] at h
  split at h
  · split at h <;> cases h
  · split at h <;> cases h

/-- A write is posted. -/
theorem Inv.post {w : WriteBatch} {reqs : List ℕ} {left : List (WriteBatch × List ℕ)}
    (h : Inv { t with phase := .posting ((w, reqs) :: left) }) (conn : ℕ) (fut : Fut) :
    Inv { t with
      phase := .posting left
      posted := t.posted ++ [⟨w, conn, t.logs.length, reqs, fut⟩]
      writeFuts := t.writeFuts ++ [t.posted.length] } := by
  have hlt : ∀ i ∈ t.writeFuts, i < t.posted.length := fun i hi => by
    obtain ⟨p, hp, -⟩ := h.current i hi
    exact (List.getElem?_eq_some_iff.mp hp).1
  have hkept : Kept { t with phase := .posting ((w, reqs) :: left) } { t with
      phase := .posting left
      posted := t.posted ++ [⟨w, conn, t.logs.length, reqs, fut⟩]
      writeFuts := t.writeFuts ++ [t.posted.length] } := fun i p hp =>
    ⟨p, by rw [getElem?_append_left (List.getElem?_eq_some_iff.mp hp).1]; exact hp, rfl, .inr rfl⟩
  refine ⟨pairwise_append.mpr ⟨h.sorted, pairwise_singleton _ _, ?_⟩, ?_, fun j p hp hpending => ?_⟩
  · exact fun i hi j hj => mem_singleton.mp hj ▸ hlt i hi
  · refine forall_mem_append.mpr ⟨fun i hi => ?_, forall_mem_singleton.mpr ?_⟩
    · obtain ⟨p, hp, hround⟩ := h.current i hi
      exact ⟨p, by rw [getElem?_append_left (hlt i hi)]; exact hp, hround⟩
    · exact ⟨_, getElem?_concat_length, rfl⟩
  · have hj := (List.getElem?_eq_some_iff.mp hp).1
    rw [length_append, length_singleton] at hj
    rcases Nat.lt_succ_iff_lt_or_eq.mp hj with hj | rfl
    · dsimp only at hp
      rw [getElem?_append_left hj] at hp
      exact (h.pending j p hp hpending).imp (mem_append_left _) fun hb => hb.kept hkept
    · exact .inl (mem_append_right _ (mem_singleton_self _))

/-- A write completes. -/
theorem Inv.complete {i : ℕ} {p : Posted} (h : t.Inv) (hp : t.posted[i]? = some p)
    (hpending : p.fut = .pending) (status : Call) :
    Inv { t with posted := t.posted.set i { p with fut := completedFut status } } := by
  have hkept : t.Kept { t with posted := t.posted.set i { p with fut := completedFut status } } := by
    intro k q hq
    dsimp only
    rw [getElem?_set]
    split
    · next hk =>
      obtain rfl := Option.some.inj (hp.symm.trans (hk ▸ hq))
      rw [if_pos (List.getElem?_eq_some_iff.mp (hk ▸ hq)).1]
      exact ⟨_, rfl, rfl, .inl hpending⟩
    · exact ⟨q, hq, rfl, .inr rfl⟩
  refine ⟨h.sorted, fun k hk => ?_, fun k q hq hq' => ?_⟩
  · obtain ⟨q, hq, hround⟩ := h.current k hk
    obtain ⟨q', hq', hround', -⟩ := hkept k q hq
    exact ⟨q', hq', hround'.trans hround⟩
  · dsimp only at hq
    rw [getElem?_set] at hq
    split at hq
    · split at hq
      · rw [← Option.some.inj hq] at hq'
        exact absurd hq' (completedFut_ne_pending status)
      · cases hq
    · exact (h.pending k q hq hq').imp_right fun hb => hb.kept hkept

/-- **One action.** -/
theorem Inv.moves (hrel : stub.env.ndebug = true) (h : t.Inv) (hm : TxMoves stub sort chs t t') :
    t'.Inv := by
  have hsorted := h.sorted
  cases hm with
  | @start t o tasks rest phase hstart =>
    refine h.of_kept rfl ?_ fun j p hj => absurd hj not_mem_nil
    rw [awaited]
    split
    · rfl
    · next left hphase => exact absurd hphase (startPhase_ne_flushing hstart left)
    · rfl
  | post => exact h.post _ _
  | flush => exact ⟨hsorted, h.current, h.pending⟩
  | inject hinject =>
    rw [Outside.injects, hrel] at hinject
    cases hinject
  | complete hp hpending => exact h.complete hp hpending _
  | flushed => exact h.of_kept rfl rfl fun j p hj => absurd hj not_mem_nil
  | @got t i left q hq hready =>
    refine ⟨hsorted.of_cons, fun k hk => h.current k (mem_cons_of_mem i hk), fun j p hp hpending => ?_⟩
    refine (h.pending j p hp hpending).imp_left fun hj => (mem_cons.mp hj).resolve_left ?_
    rintro rfl
    rw [Option.some.inj (hp.symm.trans hq), hready] at hpending
    cases hpending
  | @threw t i left q msg hq hfailed =>
    refine h.of_kept rfl rfl fun j p hj hp hpending => ?_
    rcases mem_cons.mp hj with rfl | hj'
    · rw [Option.some.inj (hp.symm.trans hq), hfailed] at hpending
      cases hpending
    · -- the rest of the round is behind the one that failed
      obtain ⟨q', hq', hround⟩ := h.current i mem_cons_self
      obtain ⟨p', hp', hround'⟩ := h.current j hj
      obtain rfl := Option.some.inj (hq.symm.trans hq')
      obtain rfl := Option.some.inj (hp.symm.trans hp')
      exact ⟨i, q, p, msg, (pairwise_cons.mp hsorted).1 j hj', hq, hp, hround.trans hround'.symm,
        hfailed⟩
  | report => exact h.of_kept rfl rfl fun j p hj => absurd hj not_mem_nil

theorem Inv.reach (hrel : stub.env.ndebug = true) {batches : List (Outside × List ReqSendTask)}
    (hreach : Reachable (Tx.step stub sort chs) { todo := batches } t) : t.Inv :=
  hreach.invariant (P := Inv) ⟨.nil, fun _ h => absurd h not_mem_nil, fun _ _ h => by cases h⟩
    fun _ _ _ h hstep => h.moves hrel (txMoves_of_step hstep)

end Tx

/-- **A report is quiet exactly when the writes of its requests behind a failed one have completed.**
In every run of a stub, over any connections and in whatever order the writes complete or fail, those
are the only writes that can be in flight when `rpc_send_done` is called. -/
theorem quiet_iff_complete_behind {stub : Stub} (hrel : stub.env.ndebug = true) (sort : BlockSort)
    (chs : ℕ) {batches : List (Outside × List ReqSendTask)} {t : Tx}
    (hreach : Reachable (Tx.step stub sort chs) { todo := batches } t) :
    t.Quiet stub ↔ t.CompleteBehind stub := by
  constructor
  · intro hquiet tasks hreports j p hp _ ⟨task, htask, hkey⟩ hpending
    exact hquiet tasks hreports p (mem_of_getElem? hp) hpending task htask hkey
  · intro hcomplete tasks hreports p hp hpending task htask hkey
    obtain ⟨j, hj⟩ := getElem?_of_mem hp
    refine hcomplete tasks hreports j p hj ?_ ⟨task, htask, hkey⟩ hpending
    refine ((Tx.Inv.reach hrel hreach).pending j p hj hpending).resolve_left fun hawaited => ?_
    -- the report is enabled only after `flush`
    obtain ⟨o, rest, t', htodo, hreport⟩ := hreports
    rw [Tx.report] at hreport
    split at hreport
    · next hphase =>
      rw [Tx.awaited, hphase] at hawaited
      exact absurd hawaited not_mem_nil
    · cases hreport

/-! ### Two layers over one connection -/

/-- A stub that sends two layers. -/
def twoLayers : Stub := { src := { engineTpSize := 1 }, numLayers := 2 }

/-- Three tokens of one request, its last ones. -/
def lastTokens : ReqSendTask := .first ⟨0, "a", [], []⟩ 3 true

/-- The destination is there, and the parse function emits one record. -/
def oneRecord : Outside where
  getWorkerInfo := .ok (some { engineTpSize := 1 })
  parse := fun _ _ _ _ _ _ _ => .ok [[⟨0, 0, 1⟩]]

/-- Both writes are posted. -/
def bothPosted : List TxAct := [.start, .post 0 (.ok ()), .post 0 (.ok ())]

/-- The first write fails, and the second completes before the report. -/
theorem quiet_after_completion : ∃ t,
    Reachable (Tx.step twoLayers stableSort 1) { todo := [(oneRecord, [lastTokens])] } t ∧
    (t.report twoLayers).any (·.isOk) = true ∧ t.Quiet twoLayers := by
  obtain ⟨t, hreach, ht⟩ := exists_reachable_of_runActs (Tx.step twoLayers stableSort 1)
    { todo := [(oneRecord, [lastTokens])] }
    (bothPosted ++ [.complete 0 (.error ""), .complete 1 (.ok ()), .flush, .get])
    (fun t => (t.report twoLayers).any (·.isOk) && t.posted.all fun p => decide (p.fut ≠ .pending))
    (by decide +kernel)
  rw [Bool.and_eq_true, all_eq_true] at ht
  refine ⟨t, hreach, ht.1, (quiet_iff_complete_behind rfl stableSort 1 hreach).mpr ?_⟩
  exact fun tasks _ j p hp _ _ => of_decide_eq_true (ht.2 p (mem_of_getElem? hp))

/-- **The first write fails while the second is in flight, and the request is reported.** -/
theorem reported_in_flight : ∃ t,
    Reachable (Tx.step twoLayers stableSort 1) { todo := [(oneRecord, [lastTokens])] } t ∧
    ¬t.Quiet twoLayers := by
  obtain ⟨t, hreach, ht⟩ := exists_reachable_of_runActs (Tx.step twoLayers stableSort 1)
    { todo := [(oneRecord, [lastTokens])] }
    (bothPosted ++ [.complete 0 (.error ""), .flush, .get])
    (fun t => (t.report twoLayers).any (·.isOk) && decide (t.todo.map Prod.snd = [[lastTokens]]) &&
      t.posted.any fun p => decide (p.fut = .pending ∧ 0 ∈ p.reqs))
    (by decide +kernel)
  rw [Bool.and_eq_true, Bool.and_eq_true] at ht
  obtain ⟨⟨hreport, htodo⟩, hposted⟩ := ht
  obtain ⟨p, hp, hpending⟩ := any_eq_true.mp hposted
  obtain ⟨hfut, hkey⟩ := of_decide_eq_true hpending
  refine ⟨t, hreach, fun hquiet => ?_⟩
  obtain ⟨⟨o, tasks⟩, htodo, rfl⟩ := map_eq_singleton_iff.mp (of_decide_eq_true htodo)
  cases hr : t.report twoLayers with
  | none =>
    rw [hr] at hreport
    cases hreport
  | some r =>
    cases r with
    | error f =>
      rw [hr] at hreport
      cases hreport
    | ok t' =>
      exact hquiet _ ⟨o, [], t', htodo, hr⟩ p hp hfut lastTokens mem_cons_self hkey

end LlumnixKv
