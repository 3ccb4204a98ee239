import LlumnixKv.Client.Layers
import LlumnixKv.Client.Routing

/-!
# Client/ExactlyOnce — every task reaches the target manager once, on the right step

Under the invariant of `Client/Routing` no check fails, no thread blocks for good (`Inv.progress`:
some action lowers `Client.work` until both programs are over), and once they are over nothing is
left on its way.  `exactlyOnce` puts these together for every interleaving of the whole system.
-/

open List Machinery

namespace LlumnixKv

variable {a : ClientAct}

namespace Inv

variable {c c' : Client}

/-! ## No check fails -/

theorem checkGuard_ok (h : Inv c) {k : ℕ} (hk : c.current = some k) : c.checkGuard k = .ok () :=
  if_pos (h.guard.trans hk)

/-- A substep behind another one has its step and a larger number. -/
theorem checkPending_ok (h : Inv c) {m : StepMetas} (hm : c.bpc = .called m)
    (hlt : c.coordStepId < m.stepid) : checkPending c.pendingStepMetas m = .ok () := by
  unfold checkPending
  split
  · rfl
  · next r hr =>
    have hmem : r ∈ c.pendingStepMetas := mem_of_getLast? hr
    obtain ⟨st, hst, hid⟩ : c.NextIs m.stepid :=
      (h.called m hm).resolve_left fun hk => absurd (h.started_le _ hk) (by omega)
    obtain ⟨st', hst', hid'⟩ := (h.pending r hmem).2
    have hstep : r.call.stepid = m.stepid := by
      rw [← hid, ← hid', Option.some.inj (hst.symm.trans hst')]
    have hbefore : r.call.Before m := by
      have hord := h.order
      rw [hm, append_assoc] at hord
      exact (pairwise_append.mp hord).2.2 _ (mem_map_of_mem hmem) _ mem_cons_self
    have hsub : r.call.substepid < m.substepid := by
      rcases hbefore with hlt' | ⟨-, hsub⟩
      · omega
      · exact hsub
    rw [rtassert, if_pos hstep, rtassert, if_pos hsub]
    rfl

/-- **No action fails a check.** -/
theorem ok_of_act (h : Inv c) {r : Except Fault Client} (hr : c.act a = some r) :
    ∃ c', r = .ok c' := by
  cases a with
  | submit =>
    rw [Client.act, Client.submit] at hr
    split at hr
    · next st rest x left htodo hpc =>
      rw [submitSend_ok (h.left_submits x (by rw [hpc]; exact mem_cons_self))
        (h.buf_claimed st rest htodo)] at hr
      exact ⟨_, (Option.some.inj hr).symm⟩
    · cases hr
  | startSend =>
    rw [Client.act, Client.startSend] at hr
    split at hr
    · split at hr
      · exact ⟨_, (Option.some.inj hr).symm⟩
      · exact ⟨_, (Option.some.inj hr).symm⟩
    · cases hr
  | submitBuf | coordinate | clear =>
    simp only [Client.act, Client.submitBuf, Client.coordinate, Client.clear] at hr
    split at hr
    · exact ⟨_, (Option.some.inj hr).symm⟩
    · cases hr
  | drain =>
    rw [Client.act, Client.drain] at hr
    split at hr
    · next st rest r' left htodo hpc =>
      obtain ⟨tasks, hok, -⟩ := createStepTasks_ok
        (h.positive_of_taken (r := r') (by rw [hpc]; exact mem_cons_self))
      rw [hok] at hr
      exact ⟨_, (Option.some.inj hr).symm⟩
    · cases hr
  | record | flush =>
    simp only [Client.act, Client.record, Client.flush] at hr
    split at hr
    · next st rest htodo hpc =>
      rw [h.checkGuard_ok (k := st.stepid) (by rw [Client.current, htodo, hpc])] at hr
      exact ⟨_, (Option.some.inj hr).symm⟩
    · cases hr
  | call =>
    rw [Client.act, Client.call] at hr
    split at hr
    · split at hr
      · exact ⟨_, (Option.some.inj hr).symm⟩
      · cases hr
    · cases hr
  | route =>
    rw [Client.act, Client.route] at hr
    split at hr
    · next m hbpc =>
      dsimp only at hr
      split at hr
      · exact ⟨_, (Option.some.inj hr).symm⟩
      · split at hr
        · next hlt =>
          rw [h.checkPending_ok hbpc hlt] at hr
          exact ⟨_, (Option.some.inj hr).symm⟩
        · split at hr
          · exact ⟨_, (Option.some.inj hr).symm⟩
          · exact ⟨_, (Option.some.inj hr).symm⟩
    · cases hr
  | attach =>
    rw [Client.act, Client.attach] at hr
    split at hr
    · next step r' hbpc =>
      obtain ⟨tasks, hok, -⟩ := createStepTasks_ok
        (h.positive_of_bypass (m := r'.call) (by rw [hbpc]; exact mem_cons_self))
      rw [hok] at hr
      exact ⟨_, (Option.some.inj hr).symm⟩
    · cases hr
  | startReqSend =>
    rw [Client.act, Client.startReqSend] at hr
    split at hr
    · next r' hbpc =>
      obtain ⟨tasks, hok, -⟩ := createStepTasks_ok
        (h.positive_of_bypass (m := r'.call) (by rw [hbpc]; exact mem_cons_self))
      rw [hok] at hr
      exact ⟨_, (Option.some.inj hr).symm⟩
    · cases hr

end Inv

/-! ## Both programs come to their end -/

/-- Both threads are done with what they started. -/
def Client.Finished (c : Client) : Prop := c.todo = [] ∧ c.bpc = .idle

/-- A bound on the actions left in the current step. -/
def MainPc.work : MainPc → ℕ
  | .submitting left => left.length + 9
  | .starting => 8
  | .coordinating => 7
  | .draining left => left.length + 2
  | .flushing => 1

/-- A bound on the main thread's actions. -/
def mainWork (pc : MainPc) : List MainStep → ℕ
  | [] => 0
  | _ :: rest => (rest.map fun st => st.submits.length + 10).sum + pc.work

/-- A bound on the actions left in the current call. -/
def BypassPc.work : BypassPc → ℕ
  | .idle => 0
  | .called _ => 3
  | .attach _ _ => 1
  | .freeze _ => 1

/-- A bound on the actions left, for a client that is given no more calls. -/
def Client.work (c : Client) : ℕ :=
  mainWork c.pc c.todo + c.pendingStepMetas.length + c.bpc.work

/-- A step is more work than what its start leaves behind. -/
theorem mainWork_submitsOf (rest : List MainStep) :
    mainWork (.submitting (submitsOf rest)) rest ≤
      (rest.map fun st => st.submits.length + 10).sum := by
  cases rest with
  | nil => exact le_rfl
  | cons st rest =>
    rw [mainWork, submitsOf, MainPc.work, map_cons, sum_cons]
    omega

/-- The actions that end after finitely many turns: all but a new call and a recorded layer. -/
def ClientAct.Finite (a : ClientAct) : Prop := a ≠ .record ∧ a ≠ .call

section Work

variable {c c' : Client}

/-- **Each of them lowers the bound.** -/
theorem work_lt (ha : a.Finite) (hm : Moves a c c') : c'.work < c.work := by
  cases hm with
  | submit | start | noBuf | submitBuf | coordinate | drain | flush =>
    simp only [Client.work, mainWork, MainPc.work, length_cons, length_nil]
    omega
  | @skip _ _ rest =>
    have hrest := mainWork_submitsOf rest
    simp only [Client.work, mainWork, MainPc.work] at hrest ⊢
    omega
  | @clear _ _ rest =>
    have hrest := mainWork_submitsOf rest
    simp only [Client.work, mainWork, MainPc.work] at hrest ⊢
    omega
  | record => exact absurd rfl ha.1
  | noCall | call => exact absurd rfl ha.2
  | past | wait | join | late | attach | noReq | startReqSend =>
    simp only [Client.work, BypassPc.work, length_append, length_cons, length_nil]
    omega

/-- **Short of the end, one of them can happen.** -/
theorem exists_act (hn : ¬c.Finished) : ∃ a, ClientAct.Finite a ∧ (c.act a).isSome = true := by
  obtain ⟨todo, pc, buf, reqs, coord, guard, pending, calls, bpc, submitted, fresh, started, cleared,
    offered⟩ := c
  cases bpc with
  | called m =>
    refine ⟨.route, ⟨by simp, by simp⟩, ?_⟩
    rw [Client.act, Client.route]
    dsimp only
    split
    · rfl
    · split
      · rfl
      · cases guard with
        | none => rfl
        | some k => rfl
  | attach step r => exact ⟨.attach, ⟨by simp, by simp⟩, rfl⟩
  | freeze r => exact ⟨.startReqSend, ⟨by simp, by simp⟩, rfl⟩
  | idle =>
    cases todo with
    | nil => exact absurd ⟨rfl, rfl⟩ hn
    | cons st rest =>
      cases pc with
      | submitting left =>
        cases left with
        | nil =>
          refine ⟨.startSend, ⟨by simp, by simp⟩, ?_⟩
          rw [Client.act, Client.startSend]
          dsimp only
          split
          · rfl
          · rfl
        | cons x left => exact ⟨.submit, ⟨by simp, by simp⟩, rfl⟩
      | starting => exact ⟨.submitBuf, ⟨by simp, by simp⟩, rfl⟩
      | coordinating => exact ⟨.coordinate, ⟨by simp, by simp⟩, rfl⟩
      | draining left =>
        cases left with
        | nil => exact ⟨.flush, ⟨by simp, by simp⟩, rfl⟩
        | cons r left => exact ⟨.drain, ⟨by simp, by simp⟩, rfl⟩
      | flushing => exact ⟨.clear, ⟨by simp, by simp⟩, rfl⟩

end Work

/-! ## At the end -/

/-- A task that is handed over is what was offered: the task put into the buffer, or the tokens of the
meta, for its destination and as the last of its request — and it is on a `Step` of the offer's step. -/
def Offer.Done (x : ℕ × Offer) (y : ℕ × SendTask) : Prop :=
  y.1 = x.1 ∧ match x.2 with
    | .task t => y.2 = t
    | .reqMeta q => y.2 = ⟨q.dst, q.reqid, q.seenTokens, q.newTokens, true⟩

/-- Each offer is one of the tasks, and each task one of the offers. -/
def DoneOnce (offered : List (ℕ × Offer)) (tasks : List (ℕ × SendTask)) : Prop :=
  ∃ l : List (ℕ × SendTask), l.Perm tasks ∧ Forall₂ Offer.Done offered l

theorem done_asked : ∀ x : ℕ × Offer, Offer.Done x (Offer.asked x)
  | (_, .task _) => ⟨rfl, rfl⟩
  | (_, .reqMeta _) => ⟨rfl, rfl⟩

namespace Inv

variable {c c' : Client}

theorem progress (h : Inv c) (hn : ¬c.Finished) : ∃ a c',
    ClientAct.Finite a ∧ c.act a = some (.ok c') ∧ c'.work < c.work := by
  obtain ⟨a, ha, hsome⟩ := exists_act hn
  obtain ⟨r, hr⟩ := Option.isSome_iff_exists.mp hsome
  obtain ⟨c', rfl⟩ := h.ok_of_act hr
  exact ⟨a, c', ha, hr, work_lt ha (moves_of_act hr)⟩

/-- **At the end nothing is pending, and nothing else is on its way.** -/
theorem onTheWay_of_finished (h : Inv c) (hf : c.Finished) :
    c.pendingStepMetas = [] ∧ c.onTheWay = [] := by
  obtain ⟨htodo, hbpc⟩ := hf
  have hpending : c.pendingStepMetas = [] := eq_nil_iff_forall_not_mem.mpr fun r hr => by
    obtain ⟨st, hst, -⟩ := (h.pending r hr).2
    rw [Client.next, htodo] at hst
    cases hst
  have htaken : c.pc.taken = [] := eq_nil_iff_forall_not_mem.mpr fun r hr => by
    have hcur := (h.taken r hr).2
    rw [Client.current, htodo] at hcur
    cases hcur
  refine ⟨hpending, ?_⟩
  rw [Client.onTheWay, StepTasks.asked_of_empty (h.buf_empty (.inr htodo)), hpending, htaken, hbpc]
  rfl

/-- **What the target manager was handed and what is on its way is what was offered.** -/
theorem doneOnce (h : Inv c) : DoneOnce c.offered (c.handed ++ c.onTheWay) := by
  refine ⟨c.offered.map Offer.asked, perm_iff_count.mpr fun t => ?_, ?_⟩
  · rw [count_append, h.account]
  · rw [forall₂_map_right_iff, forall₂_same]
    exact fun x _ => done_asked x

end Inv

/-! ## The system -/

/-- What an action hands over: nothing, or one submission, on a step's own object or, from
`start_req_send`, on a new one. -/
theorem submitted_of_moves {c c' : Client} (h : Inv c) (hm : Moves a c c') :
    c'.submitted = c.submitted ∨ ∃ sub, c'.submitted = c.submitted ++ [sub] ∧
      ((∃ k, sub.step = .own k) ∨ (a = .startReqSend ∧ c'.freshSteps ≠ c.freshSteps ∧
        ∃ r, c.bpc = .freeze r ∧ sub.step = .fresh c.freshSteps r.call.stepid)) := by
  cases hm with
  | submitBuf | drain => exact .inr ⟨_, rfl, .inl ⟨_, rfl⟩⟩
  | attach => exact .inr ⟨_, rfl, .inl ⟨_, (h.attach _ _ rfl).1⟩⟩
  | startReqSend =>
    exact .inr ⟨_, rfl, .inr ⟨rfl, Nat.succ_ne_self _, _, rfl, rfl⟩⟩
  | _ => exact .inl rfl

section System

variable {numLayers : ℕ} {s s' : System}

/-- The client's invariant, and every layer of a fresh step that was handed over is ready. -/
structure Coordinated (numLayers : ℕ) (s : System) : Prop where
  inv : Inv s.c
  ready : ∀ sub ∈ s.c.submitted, ∀ n k, sub.step = .fresh n k →
    s.d.dataSignal (.fresh n k) = numLayers

theorem Coordinated.client {c' : Client} (h : Coordinated numLayers s) (hm : Moves a s.c c') :
    Coordinated numLayers ⟨c', s.d.after numLayers s.c c' a⟩ := by
  have hold : ∀ sub ∈ s.c.submitted, ∀ n k, sub.step = .fresh n k →
      (s.d.after numLayers s.c c' a).dataSignal (.fresh n k) = numLayers := by
    intro sub hsub n k hstep
    rcases (effect_after s.d s.c c' a).dataSignal (.fresh n k) with hsame | hready
    · exact hsame.trans (h.ready sub hsub n k hstep)
    · exact hready
  refine ⟨h.inv.moves hm, ?_⟩
  rcases submitted_of_moves h.inv hm with hsame | ⟨new, happ, hnew⟩
  · dsimp only
    rw [hsame]
    exact hold
  · dsimp only
    rw [happ]
    refine forall_mem_append.mpr ⟨hold, forall_mem_singleton.mpr fun n k hstep => ?_⟩
    rcases hnew with ⟨k', hown⟩ | ⟨rfl, hne, r, hr, hfresh⟩
    · cases hown.symm.trans hstep
    · rw [← hstep, hfresh, after_startReqSend hr hne]
      exact Function.update_self _ _ _

theorem Coordinated.moves (h : Coordinated numLayers s) (hm : SystemMoves numLayers s s') :
    Coordinated numLayers s' := by
  cases hm with
  | client _ hm => exact h.client hm
  | waitLayers hd =>
    exact ⟨h.inv, fun sub hsub n k hstep =>
      (waitLayers_dataSignal hd StepObj.noConfusion).trans (h.ready sub hsub n k hstep)⟩
  | compute => exact ⟨h.inv, h.ready⟩
  | doSend _ hd =>
    refine ⟨h.inv, fun sub hsub n k hstep => ?_⟩
    rw [doSend_dataSignal hd]
    exact h.ready sub hsub n k hstep

theorem coordinated_of_reachable {todo : List MainStep} {calls : List StepMetas}
    (h : Contract todo calls) (hs : Reachable (System.step numLayers) (System.init todo calls) s) :
    Coordinated numLayers s :=
  hs.invariant ⟨Inv.init h, nofun⟩ fun _ _ _ hc hstep => hc.moves (systemMoves_of_step hstep)

/-- The device may complete the layers of a step at any time. -/
theorem exists_complete (numLayers : ℕ) (s : System) (k : ℕ) : ∀ m : ℕ, ∃ d,
    Reachable (System.step numLayers) s ⟨s.c, d⟩ ∧ ∀ i < m, d.complete k i = true
  | 0 => ⟨s.d, Relation.ReflTransGen.refl, nofun⟩
  | m + 1 => by
      obtain ⟨d, hreach, hd⟩ := exists_complete numLayers s k m
      refine ⟨d.compute k m, hreach.next (a := .compute k m) rfl, fun i hi => ?_⟩
      rw [Device.compute]
      dsimp only
      rw [Function.update_self]
      by_cases him : i = m
      · rw [him, Function.update_self]
      · rw [Function.update_of_ne him]
        exact hd i (by omega)

/-- An action of the client can happen in the system, once the device has caught up. -/
theorem exists_reachable_act (numLayers : ℕ) {c' : Client} (ha : a ≠ .record)
    (hact : s.c.act a = some (.ok c')) : ∃ d, Reachable (System.step numLayers) s ⟨c', d⟩ := by
  obtain ⟨d, hreach, hd⟩ := exists_complete numLayers s (s.c.mainStep.getD 0) numLayers
  have hallows : System.allows numLayers ⟨s.c, d⟩ a = true := by
    unfold System.allows
    split
    · exact absurd rfl ha
    · split
      · next k hk =>
        rw [all_eq_true]
        intro i hi
        have := hd i (mem_range.mp hi)
        rw [hk] at this
        exact this
      · rfl
    · rfl
  refine ⟨d.after numLayers s.c c' a, hreach.next (a := .client a) ?_⟩
  rw [System.step, if_pos hallows]
  dsimp only
  rw [hact]
  rfl

/-- **The system can always be run to the end of both programs.** -/
theorem Coordinated.exists_finished (h : Coordinated numLayers s) :
    ∃ s', Reachable (System.step numLayers) s s' ∧ s'.c.Finished := by
  refine Reachable.exists_goal (fun s' => Inv s'.c) (fun s' => s'.c.Finished) (fun s' => s'.c.work)
    (fun s₁ hinv hn => ?_) s h.inv
  obtain ⟨a, c', ha, hact, hlt⟩ := hinv.progress hn
  obtain ⟨d, hd⟩ := exists_reachable_act numLayers ha.1 hact
  exact ⟨⟨c', d⟩, hd, hinv.moves (moves_of_act hact), hlt⟩

/-- **Every meta and every buffered task is handed over exactly once, on the right step.**  In every
state that any interleaving of the threads reaches, no check fails; what was handed over and what is on
its way is what was offered, each on a `Step` of its own step; a submission sits on its step's own
object if it went through the lock before the guard was cleared, and on a fresh, all-ready one made
after that otherwise; and both programs can be run to their end, where nothing is pending and everything
offered has been handed over. -/
theorem exactlyOnce {todo : List MainStep} {calls : List StepMetas} (h : Contract todo calls)
    (hs : Reachable (System.step numLayers) (System.init todo calls) s) :
    (∀ a e, s.step numLayers a ≠ some (.error e)) ∧
    DoneOnce s.c.offered (s.c.handed ++ s.c.onTheWay) ∧
    (∀ sub ∈ s.c.submitted, sub.Right s.c.cleared ∧
      ∀ n k, sub.step = .fresh n k → s.d.dataSignal sub.step = numLayers) ∧
    (∃ s', Reachable (System.step numLayers) s s' ∧ s'.c.Finished) ∧
    (s.c.Finished → s.c.pendingStepMetas = [] ∧ DoneOnce s.c.offered s.c.handed) := by
  have hc := coordinated_of_reachable h hs
  refine ⟨fun a e he => ?_, hc.inv.doneOnce, fun sub hsub => ⟨hc.inv.right sub hsub, ?_⟩,
    hc.exists_finished, fun hf => ?_⟩
  · obtain ⟨b, hb⟩ := error_of_step he
    obtain ⟨c', hc'⟩ := hc.inv.ok_of_act hb
    cases hc'
  · intro n k hstep
    rw [hstep]
    exact hc.ready sub hsub n k hstep
  · obtain ⟨hpending, hway⟩ := hc.inv.onTheWay_of_finished hf
    refine ⟨hpending, ?_⟩
    have hdone := hc.inv.doneOnce
    rwa [hway, append_nil] at hdone

/-- Two steps, and four substeps: one before its step, one during it, one after it, and one before
the next. -/
theorem exactlyOnce_two_steps : ∃ s, Reachable (System.step 2)
      (System.init [⟨1024, 1, [.req ("D", 0) "a" 0 4 true]⟩, ⟨1025, 1, []⟩]
        [⟨1024, 1, [⟨("D", 0), "b", 0, 4⟩]⟩, ⟨1024, 2, [⟨("D", 1), "c", 0, 4⟩]⟩,
          ⟨1024, 3, [⟨("D", 0), "d", 0, 4⟩]⟩, ⟨1025, 1, [⟨("D", 0), "e", 0, 4⟩]⟩]) s ∧
    s.c.submitted.map (·.step) = [.own 1024, .own 1024, .own 1024, .fresh 0 1024, .own 1025] ∧
    s.c.offered.length = 5 ∧ DoneOnce s.c.offered s.c.handed := by
  obtain ⟨s, hs, hp⟩ := exists_reachable_of_runActs (System.step 2)
    (System.init [⟨1024, 1, [.req ("D", 0) "a" 0 4 true]⟩, ⟨1025, 1, []⟩]
      [⟨1024, 1, [⟨("D", 0), "b", 0, 4⟩]⟩, ⟨1024, 2, [⟨("D", 1), "c", 0, 4⟩]⟩,
        ⟨1024, 3, [⟨("D", 0), "d", 0, 4⟩]⟩, ⟨1025, 1, [⟨("D", 0), "e", 0, 4⟩]⟩])
    [.client .submit, .client .call, .client .route, .client .startSend, .client .submitBuf,
      .client .coordinate, .client .drain, .client .call, .client .route, .client .attach,
      .compute 1024 0, .compute 1024 1, .client .flush, .client .clear, .client .call,
      .client .route, .client .startReqSend, .client .call, .client .route, .client .startSend,
      .client .submitBuf, .client .coordinate, .client .drain, .compute 1025 0, .compute 1025 1,
      .client .flush, .client .clear]
    (fun s => s.c.todo = [] ∧ s.c.bpc = .idle ∧ s.c.offered.length = 5 ∧
      s.c.submitted.map (·.step) = [.own 1024, .own 1024, .own 1024, .fresh 0 1024, .own 1025])
    (by decide +kernel)
  obtain ⟨htodo, hbpc, hlen, hsteps⟩ := of_decide_eq_true hp
  exact ⟨s, hs, hsteps, hlen, ((exactlyOnce ⟨by decide, by decide, by decide, by decide, by decide⟩
    hs).2.2.2.2 ⟨htodo, hbpc⟩).2⟩

end System

end LlumnixKv
