import LlumnixKv.Client.ExactlyOnce

/-!
# Client/Ready — no layer is sent before it is complete

What each signal promises (`Ready`).  Every layer below a step's own data signal is complete; below
its record signal it is recorded, unless the whole step is complete; `wait_layers` has seen complete
every layer it passed; and the steps that are flushed are complete.  A fresh step is all-ready from
the start, but it carries a step that was flushed before it was made.
-/

open Function Machinery

namespace LlumnixKv

/-- The layers `wait_layers` has seen complete. -/
def WaiterPc.reached : WaiterPc → ℕ
  | .record i => i
  | .cuda i => i
  | .notify i => i + 1
  | _ => 0

/-- The steps for which `flush_send` was called. -/
def Client.flushed (c : Client) : List ℕ :=
  match c.pc, c.todo with
  | .flushing, st :: _ => st.stepid :: c.cleared
  | _, _ => c.cleared

/-- All layers of a step are complete. -/
def Device.Complete (numLayers : ℕ) (d : Device) (k : ℕ) : Prop :=
  ∀ i < numLayers, d.complete k i = true

/-- What the signals promise. -/
structure Ready (numLayers : ℕ) (s : System) : Prop where
  data : ∀ k, ∀ i < s.d.dataSignal (.own k), s.d.complete k i = true
  signal : ∀ k, s.d.recordSignal k = s.d.recorded k ∨ s.d.Complete numLayers k
  reached : ∀ k, ∀ i < (s.d.waiter k).reached, s.d.complete k i = true
  record : ∀ k i, s.d.waiter k = .record i → i < numLayers
  cuda : ∀ k i, s.d.waiter k = .cuda i → i < s.d.recorded k ∨ s.d.complete k i = true
  flushed : ∀ k ∈ s.c.flushed, s.d.Complete numLayers k
  sending : ∀ j g i, s.d.stub j g = .sending i → ∃ sub, s.c.submitted[j]? = some sub ∧
    i < numLayers ∧ i < s.d.dataSignal sub.step

variable {sub : Submission} {k : ℕ} {c : Client}

namespace Ready

variable {numLayers : ℕ} {s : System}

/-! ## The waiting thread -/

section Kept

variable (h : Ready numLayers s)
include h

/-- The waiting thread of a step moves on. -/
theorem setWaiter {w : WaiterPc} (hreached : ∀ i < w.reached, s.d.complete k i = true)
    (hrecord : ∀ i, w = .record i → i < numLayers)
    (hcuda : ∀ i, w = .cuda i → i < s.d.recorded k ∨ s.d.complete k i = true) :
    Ready numLayers ⟨s.c, { s.d with waiter := Function.update s.d.waiter k w }⟩ :=
  { h with
    reached := (Function.forall_update_iff s.d.waiter fun k (w : WaiterPc) =>
        ∀ i < w.reached, s.d.complete k i = true).mpr
      ⟨hreached, fun k' _ => h.reached k'⟩
    record := (Function.forall_update_iff s.d.waiter fun _ (w : WaiterPc) =>
        ∀ i, w = .record i → i < numLayers).mpr
      ⟨hrecord, fun k' _ => h.record k'⟩
    cuda := (Function.forall_update_iff s.d.waiter fun k (w : WaiterPc) => ∀ i, w = .cuda i →
        i < s.d.recorded k ∨ s.d.complete k i = true).mpr
      ⟨hcuda, fun k' _ => h.cuda k'⟩ }

/-- The data signal of a step's own object grows. -/
theorem setData {k v : ℕ} (hle : s.d.dataSignal (.own k) ≤ v)
    (hv : ∀ i < v, s.d.complete k i = true) : Ready numLayers ⟨s.c, { s.d with
      dataSignal := Function.update s.d.dataSignal (.own k) v }⟩ :=
  { h with
    data := fun k' => by
      by_cases hk : k' = k
      · obtain rfl := hk
        simp only [update_self]
        exact hv
      · simp only [update_of_ne (fun h => hk (StepObj.own.inj h))]
        exact h.data k'
    sending := fun j g i hi => by
      obtain ⟨sub, hsub, hn, hlt⟩ := h.sending j g i hi
      refine ⟨sub, hsub, hn, ?_⟩
      by_cases ho : sub.step = .own k
      · simp only [ho, update_self]
        rw [ho] at hlt
        omega
      · simp only [update_of_ne ho]
        exact hlt }

/-- The loop ends, or goes on with the next layer. -/
theorem nextTurn {k m : ℕ} (hm : ∀ i < m, s.d.complete k i = true) (early : Prop) [Decidable early] :
    Ready numLayers ⟨s.c, { s.d with
      waiter := Function.update s.d.waiter k (if early then .done else nextLayer numLayers m) }⟩ := by
  unfold nextLayer
  split
  · exact h.setWaiter nofun nofun nofun
  · split
    · next hlt => exact h.setWaiter hm (fun i hi => WaiterPc.record.inj hi ▸ hlt) nofun
    · exact h.setWaiter nofun nofun nofun

variable {d' : Device} {a : ClientAct}

theorem waitLayers (hd : s.d.waitLayers numLayers k = some d') : Ready numLayers ⟨s.c, d'⟩ := by
  unfold Device.waitLayers at hd
  split at hd
  · -- nothing is signalled yet
    cases hd
    simp only [semRelease_eq_max, Nat.max_zero]
    exact (h.setData le_rfl (h.data k)).nextTurn (fun i hi => absurd hi (Nat.not_lt_zero i)) _
  · next i hw =>
    split at hd
    · next hpass =>
      cases hd
      have hlt : i < s.d.recordSignal k := of_decide_eq_true hpass
      refine h.setWaiter (by have := h.reached k; rw [hw] at this; exact this) nofun fun i' hi' => ?_
      obtain rfl := WaiterPc.cuda.inj hi'
      rcases h.signal k with hrec | hall
      · exact .inl (hrec ▸ hlt)
      · exact .inr (hall i (h.record k i hw))
    · cases hd
  · next i hw =>
    split at hd
    · next hcuda =>
      cases hd
      have hi : s.d.complete k i = true := (h.cuda k i hw).elim hcuda id
      refine h.setWaiter (fun i' hi' => ?_) nofun nofun
      rcases Nat.lt_succ_iff_lt_or_eq.mp hi' with hlt | rfl
      · exact h.reached k i' (by rw [hw]; exact hlt)
      · exact hi
    · cases hd
  · next i hw =>
    cases hd
    have hreached : ∀ i' < i + 1, s.d.complete k i' = true := by
      have := h.reached k
      rw [hw] at this
      exact this
    refine (h.setData ?_ fun i' hi' => ?_).nextTurn hreached _
    · rw [semRelease_eq_max]
      exact le_max_left _ _
    · rw [semRelease_eq_max] at hi'
      rcases lt_max_iff.mp hi' with hold | hnew
      · exact h.data k i' hold
      · exact hreached i' hnew
  · cases hd
  · cases hd

/-! ## The device and the stubs -/

omit h in
theorem compute_complete {d : Device} {k' i' : ℕ} (k i : ℕ) (h : d.complete k' i' = true) :
    (d.compute k i).complete k' i' = true := by
  rw [Device.compute]
  dsimp only
  by_cases hk : k' = k
  · rw [hk, update_self]
    by_cases hi : i' = i
    · rw [hi, update_self]
    · rw [update_of_ne hi, ← hk]
      exact h
  · rw [update_of_ne hk]
    exact h

theorem compute (k i : ℕ) : Ready numLayers ⟨s.c, s.d.compute k i⟩ :=
  { h with
    data := fun k' i' hi' => compute_complete k i (h.data k' i' hi')
    signal := fun k' => (h.signal k').imp_right fun hall i' hi' => compute_complete k i (hall i' hi')
    reached := fun k' i' hi' => compute_complete k i (h.reached k' i' hi')
    cuda := fun k' i' hw => (h.cuda k' i' hw).imp_right (compute_complete k i)
    flushed := fun k' hk' i' hi' => compute_complete k i (h.flushed k' hk' i' hi') }

/-- A stub moves on. -/
theorem setStub {j g : ℕ} {pc : StubPc} (hpc : ∀ i, pc = .sending i → ∃ sub, s.c.submitted[j]? =
      some sub ∧ i < numLayers ∧ i < s.d.dataSignal sub.step) : Ready numLayers ⟨s.c, { s.d with
      stub := Function.update s.d.stub j (Function.update (s.d.stub j) g pc) }⟩ :=
  { h with
    sending := (Function.forall_update_iff s.d.stub fun j (p : ℕ → StubPc) => ∀ g i, p g = .sending i →
        ∃ sub, s.c.submitted[j]? = some sub ∧ i < numLayers ∧ i < s.d.dataSignal sub.step).mpr
      ⟨(Function.forall_update_iff (s.d.stub j) fun _ (p : StubPc) => ∀ i, p = .sending i →
          ∃ sub, s.c.submitted[j]? = some sub ∧ i < numLayers ∧ i < s.d.dataSignal sub.step).mpr
        ⟨hpc, fun g' _ => h.sending j g'⟩, fun j' _ => h.sending j'⟩ }

theorem doSend {j g : ℕ} (hsub : s.c.submitted[j]? = some sub)
    (hd : s.d.doSend numLayers sub.step j g = some d') : Ready numLayers ⟨s.c, d'⟩ := by
  unfold Device.doSend at hd
  dsimp only at hd
  split at hd
  · next i hi =>
    split at hd
    · next hpass =>
      cases hd
      refine h.setStub fun i' hi' => ?_
      obtain rfl := StubPc.sending.inj hi'
      exact ⟨sub, hsub, hpass.1, of_decide_eq_true hpass.2⟩
    · cases hd
  · cases hd
    exact h.setStub nofun

end Kept

/-! ## The client -/

/-- A step is flushed by `flush_send`, in which the main thread is in it. -/
theorem flushed_of_moves {c c' : Client} (hm : Moves a c c') :
    ∀ k ∈ c'.flushed, k ∈ c.flushed ∨ (a = .flush ∧ c.mainStep = some k) := by
  intro k hk
  cases hm with
  | flush =>
    rcases List.mem_cons.mp hk with rfl | hold
    · exact .inr ⟨rfl, rfl⟩
    · exact .inl hold
  | _ => exact .inl hk

/-- The submissions made stay. -/
theorem submitted_stays {c c' : Client} (hinv : Inv c) (hm : Moves a c c') {j : ℕ}
    (hj : c.submitted[j]? = some sub) : c'.submitted[j]? = some sub := by
  rcases submitted_of_moves hinv hm with hsame | ⟨new, happ, -⟩
  · rw [hsame]
    exact hj
  · rw [happ, List.getElem?_append_left (List.getElem?_eq_some_iff.mp hj).1]
    exact hj

/-- The effect of an action of the client on the device. -/
theorem effect (h : Ready numLayers s) (heff : Effect numLayers c a s.d d')
    (hflush : ∀ k, a = .flush → c.mainStep = some k → s.d.Complete numLayers k) :
    Ready numLayers ⟨s.c, d'⟩ := by
  cases heff with
  | none => exact h
  | spawn k => exact h.setWaiter nofun nofun nofun
  | @record _ k hk =>
    exact { h with
      signal := fun k' => by
        by_cases hk' : k' = k
        · obtain rfl := hk'
          simp only [update_self]
          exact (h.signal k').imp_left (congrArg (· + 1))
        · simp only [update_of_ne hk']
          exact h.signal k'
      cuda := fun k' i hw => by
        refine (h.cuda k' i hw).imp_left fun hlt => ?_
        by_cases hk' : k' = k
        · obtain rfl := hk'
          simp only [update_self]
          omega
        · simp only [update_of_ne hk']
          exact hlt }
  | @flush _ k hk =>
    exact { h with
      signal := fun k' => by
        by_cases hk' : k' = k
        · obtain rfl := hk'
          exact .inr (hflush k' rfl hk)
        · simp only [update_of_ne hk']
          exact h.signal k' }
  | fresh n k =>
    exact { h with
      data := fun k' => by
        simp only [update_of_ne (show StepObj.own k' ≠ .fresh n k from nofun)]
        exact h.data k'
      sending := fun j g i hi => by
        obtain ⟨sub, hsub, hn, hlt⟩ := h.sending j g i hi
        refine ⟨sub, hsub, hn, ?_⟩
        rcases (Effect.fresh (c := c) (d := s.d) n k).dataSignal sub.step with hsame | hready
        · exact hsame.symm ▸ hlt
        · exact hready.symm ▸ hn }

theorem client {c' : Client} (h : Ready numLayers s) (hinv : Inv s.c)
    (hallows : s.allows numLayers a = true) (hm : Moves a s.c c') :
    Ready numLayers ⟨c', s.d.after numLayers s.c c' a⟩ := by
  have hflush : ∀ k, a = .flush → s.c.mainStep = some k → s.d.Complete numLayers k := by
    rintro k rfl hk i hi
    rw [System.allows, hk] at hallows
    exact List.all_eq_true.mp hallows i (List.mem_range.mpr hi)
  have hclient : Ready numLayers ⟨c', s.d⟩ := { h with
    flushed := fun k hk => (flushed_of_moves hm k hk).elim (h.flushed k) fun hnew =>
      hflush k hnew.1 hnew.2
    sending := fun j g i hi => by
      obtain ⟨sub, hsub, hlt⟩ := h.sending j g i hi
      exact ⟨sub, submitted_stays hinv hm hsub, hlt⟩ }
  exact hclient.effect (effect_after s.d s.c c' a) hflush

/-- **Every action of the system keeps the promises.** -/
theorem moves {s' : System} (h : Ready numLayers s) (hinv : Inv s.c)
    (hm : SystemMoves numLayers s s') : Ready numLayers s' := by
  cases hm with
  | client hallows hm => exact h.client hinv hallows hm
  | waitLayers hd => exact h.waitLayers hd
  | compute => exact h.compute _ _
  | doSend hsub hd => exact h.doSend hsub hd

end Ready

section Send

variable {numLayers : ℕ} {todo : List MainStep} {calls : List StepMetas} {s : System}

/-- They hold at the start. -/
theorem Ready.init : Ready numLayers (System.init todo calls) where
  data := fun _ i hi => absurd hi (Nat.not_lt_zero i)
  signal := fun _ => .inl rfl
  reached := fun _ i hi => absurd hi (Nat.not_lt_zero i)
  record := nofun
  cuda := nofun
  flushed := nofun
  sending := nofun

theorem ready_of_reachable (h : Contract todo calls)
    (hs : Reachable (System.step numLayers) (System.init todo calls) s) : Ready numLayers s := by
  refine (hs.invariant (P := fun s => Coordinated numLayers s ∧ Ready numLayers s)
    ⟨⟨Inv.init h, nofun⟩, Ready.init⟩ fun s a s' hc hstep => ?_).2
  have hm := systemMoves_of_step hstep
  exact ⟨hc.1.moves hm, hc.2.moves hc.1.inv hm⟩

/-- The steps published before a submission's own are over. -/
theorem cleared_of_started (h : Inv c) (hsub : sub ∈ c.submitted) (hk : k ∈ c.started)
    (hlt : k < sub.tasks.stepid) : k ∈ c.cleared := by
  refine (h.started_cases k hk).resolve_right fun hcur => ?_
  have hcoord := (h.current k hcur).1
  rcases h.early sub hsub with hle | hpub
  · omega
  · rw [Client.current] at hcur
    rw [Client.publishing] at hpub
    split at hpub
    · next heq _ =>
      rw [heq] at hcur
      split at hcur
      · next hpc => cases hpc
      · next hpc => cases hpc
      · cases hcur
    · cases hpub

theorem mem_flushed_of_cleared (h : k ∈ c.cleared) : k ∈ c.flushed := by
  unfold Client.flushed
  split
  · exact List.mem_cons_of_mem _ h
  · exact h

/-- **A layer is sent only when it is complete.**  When a stub is about to send layer `i` of a batch,
layer `i` of the batch's own step is complete, and so it is of every step published before. -/
theorem complete_of_sending (h : Contract todo calls)
    (hs : Reachable (System.step numLayers) (System.init todo calls) s) {j g i : ℕ}
    {sub : Submission} (hsub : s.c.submitted[j]? = some sub) (hsend : s.d.stub j g = .sending i)
    {k : ℕ} (hk : k = sub.tasks.stepid ∨ (k ∈ s.c.started ∧ k < sub.tasks.stepid)) :
    s.d.complete k i = true := by
  have hinv : Inv s.c := (coordinated_of_reachable h hs).inv
  have hready : Ready numLayers s := ready_of_reachable h hs
  have hmem : sub ∈ s.c.submitted := List.mem_of_getElem? hsub
  obtain ⟨sub', hsub', hn, hlt⟩ := hready.sending j g i hsend
  cases hsub.symm.trans hsub'
  have hover : k ∈ s.c.cleared → s.d.complete k i = true := fun hcl =>
    hready.flushed k (mem_flushed_of_cleared hcl) i hn
  rcases hk with rfl | ⟨hstarted, hbefore⟩
  · rcases hinv.right sub hmem with ⟨hown, -⟩ | ⟨n, -, -, hcl⟩
    · exact hready.data _ i (hown ▸ hlt)
    · exact hover hcl
  · exact hover (cleared_of_started hinv hmem hstarted hbefore)

/-- A stub about to send layer 0 while layer 1 is still computed. -/
theorem complete_of_sending_first : ∃ s, Reachable (System.step 2)
      (System.init [⟨1024, 1, [.req ("D", 0) "a" 0 4 true]⟩] []) s ∧
    s.d.stub 0 0 = .sending 0 ∧ s.d.complete 1024 1 = false ∧ s.d.complete 1024 0 = true := by
  obtain ⟨s, hs, hp⟩ := exists_reachable_of_runActs (System.step 2)
    (System.init [⟨1024, 1, [.req ("D", 0) "a" 0 4 true]⟩] [])
    [.client .submit, .client .startSend, .client .submitBuf, .client .coordinate, .client .record,
      .waitLayers 1024, .waitLayers 1024, .compute 1024 0, .waitLayers 1024, .waitLayers 1024,
      .doSend 0 0]
    (fun s => s.c.submitted.map (·.tasks.stepid) = [1024] ∧ s.d.stub 0 0 = .sending 0 ∧
      s.d.complete 1024 1 = false) (by decide +kernel)
  obtain ⟨hsub, hsend, hlate⟩ := of_decide_eq_true hp
  obtain ⟨sub, hsub₀, hid⟩ : ∃ sub, s.c.submitted[0]? = some sub ∧ sub.tasks.stepid = 1024 := by
    obtain ⟨sub, hsubmitted, hid⟩ := List.map_eq_singleton_iff.mp hsub
    exact ⟨sub, by rw [hsubmitted]; rfl, hid⟩
  exact ⟨s, hs, hsend, hlate, complete_of_sending ⟨by decide, by decide, by decide, by decide,
    by decide⟩ hs hsub₀ hsend (.inl hid.symm)⟩

end Send

end LlumnixKv
