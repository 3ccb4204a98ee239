import LlumnixKv.Client.Coord

/-!
# Client/Layers — how readiness travels from the device to a stub

    record_event ─▶ record_signal ─▶ wait_layers: wait(i), cuda wait(i), notify(i + 1)
    flush_send   ─▶      ┘                                                   │
    start_req_send: notify(num_layers) ───────────────────────▶ data_signal ─▶ wait(i), send_data(i)

The rest of the system around the client: the semaphores of a step and its guard, the thread that
waits for a step's layers, the device that completes them, and the stubs that send.  Step ids are
not reused, so a step's own semaphores are kept under its id.

Three contracts limit when an action may happen.  Layers are recorded once each, in order; the CUDA
wait of a recorded layer returns only once its work is complete; and `flush_send` is called once the
forward pass is complete.  The device completes layers as it likes.
-/

open Machinery

namespace LlumnixKv

/-! ## Semaphores -/

variable (ready cond : ℕ)

/-- `SyncSemaphore::wait(cond)` returns. -/
def semPasses : Bool := cond < ready

/-- `SyncSemaphore::release(cond)`: the new value. -/
def semRelease : ℕ := if ready < cond then cond else ready

theorem semRelease_eq_max : semRelease ready cond = max ready cond := by
  unfold semRelease
  split
  · omega
  · omega

/-! ## The state -/

/-- Where `wait_layers` of a step is. -/
inductive WaiterPc
  /-- not spawned -/
  | absent
  /-- before `notify_layer_ready(0)` -/
  | start
  /-- before `record_signal_.wait(i)` -/
  | record (i : ℕ)
  /-- before `cu_barrier_->wait(i)` -/
  | cuda (i : ℕ)
  /-- before `notify_layer_ready(i + 1)` -/
  | notify (i : ℕ)
  | done
  deriving DecidableEq, Repr

/-- Where `do_send` of a batch is. -/
inductive StubPc
  /-- before `wait_layer_ready(i)` -/
  | waiting (i : ℕ)
  /-- before `ch->send_data(i)` -/
  | sending (i : ℕ)
  deriving DecidableEq, Repr

/-- The semaphores, the waiting threads, the device and the stubs. -/
structure Device where
  /-- `record_signal_` of a step's guard -/
  recordSignal : ℕ → ℕ := fun _ => 0
  /-- `data_signal_` of a `Step` -/
  dataSignal : StepObj → ℕ := fun _ => 0
  waiter : ℕ → WaiterPc := fun _ => .absent
  /-- how many layers of a step are recorded -/
  recorded : ℕ → ℕ := fun _ => 0
  /-- `complete k i`: layer `i` of step `k` is complete -/
  complete : ℕ → ℕ → Bool := fun _ _ => false
  /-- the batch of the `g`-th destination of the `j`-th submission -/
  stub : ℕ → ℕ → StubPc := fun _ _ => .waiting 0

/-- The client and what is around it. -/
structure System where
  c : Client
  d : Device

/-- The system at the start of two programs. -/
def System.init (todo : List MainStep) (calls : List StepMetas) : System :=
  ⟨Client.init todo calls, {}⟩

/-! ## What the client's actions do to the semaphores -/

/-- The step the main thread is in. -/
def Client.mainStep (c : Client) : Option ℕ := c.todo.head?.map (·.stepid)

section Effects

variable (numLayers : ℕ)

/-- The contracts of `record_event` and `flush_send`. -/
def System.allows (s : System) : ClientAct → Bool
  | .record => match s.c.mainStep with
    | some k => s.d.recorded k < numLayers
    | none => true
  | .flush => match s.c.mainStep with
    | some k => (List.range numLayers).all (s.d.complete k)
    | none => true
  | _ => true

/-- The device after an action that takes the client from `c` to `c'`. -/
def Device.after (d : Device) (c c' : Client) : ClientAct → Device
  | .startSend => match c.mainStep, c'.pc with
    | some k, .starting => { d with waiter := Function.update d.waiter k .start }
    | _, _ => d
  | .record => match c.mainStep with
    | some k => { d with
        recorded := Function.update d.recorded k (d.recorded k + 1)
        recordSignal := Function.update d.recordSignal k (d.recordSignal k + 1) }
    | none => d
  | .flush => match c.mainStep with
    | some k => { d with
        recordSignal := Function.update d.recordSignal k (semRelease (d.recordSignal k) numLayers) }
    | none => d
  | .startReqSend => match c.bpc with
    | .freeze r =>
      if c'.freshSteps = c.freshSteps then d
      else { d with
        dataSignal := Function.update d.dataSignal (.fresh c.freshSteps r.call.stepid)
          (semRelease 0 numLayers) }
    | _ => d
  | _ => d

/-! ## The other threads -/

/-- The next turn of the loop of `wait_layers`. -/
def nextLayer (i : ℕ) : WaiterPc := if i < numLayers then .record i else .done

/-- `wait_layers` of step `k`, up to the next point where it may block. -/
def Device.waitLayers (d : Device) (k : ℕ) : Option Device :=
  match d.waiter k with
  | .start =>
    let val := semRelease (d.dataSignal (.own k)) 0
    some { d with
      dataSignal := Function.update d.dataSignal (.own k) val
      waiter := Function.update d.waiter k (if 0 < val then .done else nextLayer numLayers 0) }
  | .record i =>
    if semPasses (d.recordSignal k) i then
      some { d with waiter := Function.update d.waiter k (.cuda i) }
    else none
  | .cuda i =>
    if i < d.recorded k → d.complete k i = true then
      some { d with waiter := Function.update d.waiter k (.notify i) }
    else none
  | .notify i =>
    let val := semRelease (d.dataSignal (.own k)) (i + 1)
    some { d with
      dataSignal := Function.update d.dataSignal (.own k) val
      waiter := Function.update d.waiter k
        (if i + 1 < val then .done else nextLayer numLayers (i + 1)) }
  | .absent => none
  | .done => none

/-- Layer `i` of step `k` is complete. -/
def Device.compute (d : Device) (k i : ℕ) : Device :=
  { d with complete := Function.update d.complete k (Function.update (d.complete k) i true) }

/-- `do_send` of a batch on `step`. -/
def Device.doSend (d : Device) (step : StepObj) (j g : ℕ) : Option Device :=
  let move (pc : StubPc) : Device :=
    { d with stub := Function.update d.stub j (Function.update (d.stub j) g pc) }
  match d.stub j g with
  | .waiting i =>
    if i < numLayers ∧ semPasses (d.dataSignal step) i then some (move (.sending i)) else none
  | .sending i => some (move (.waiting (i + 1)))

/-! ## One action of the system -/

/-- The actions of all threads and of the device. -/
inductive Act
  | client (a : ClientAct)
  | waitLayers (k : ℕ)
  | compute (k i : ℕ)
  | doSend (j g : ℕ)
  deriving DecidableEq, Repr

/-- **One action.** -/
def System.step (s : System) : Act → Option (Except Fault System)
  | .client a =>
    if s.allows numLayers a then
      (s.c.act a).map fun r => r.map fun c' => ⟨c', s.d.after numLayers s.c c' a⟩
    else none
  | .waitLayers k => (s.d.waitLayers numLayers k).map fun d => .ok { s with d := d }
  | .compute k i => some (.ok { s with d := s.d.compute k i })
  | .doSend j g => match s.c.submitted[j]? with
    | some sub =>
      if g < sub.tasks.groups.length then
        (s.d.doSend numLayers sub.step j g).map fun d => .ok { s with d := d }
      else none
    | none => none

/-- `SystemMoves s s'`: some action takes `s` to `s'`. -/
inductive SystemMoves : System → System → Prop
  | client {s a c'} (hallows : s.allows numLayers a = true) (hm : Moves a s.c c') :
      SystemMoves s ⟨c', s.d.after numLayers s.c c' a⟩
  | waitLayers {s k d} (hd : s.d.waitLayers numLayers k = some d) : SystemMoves s ⟨s.c, d⟩
  | compute {s k i} : SystemMoves s ⟨s.c, s.d.compute k i⟩
  | doSend {s j g sub d} (hsub : s.c.submitted[j]? = some sub)
      (hd : s.d.doSend numLayers sub.step j g = some d) : SystemMoves s ⟨s.c, d⟩

variable {numLayers : ℕ} {s s' : System}

/-- **An action that returns moves the system.** -/
theorem systemMoves_of_step {a : Act} (hs : s.step numLayers a = some (.ok s')) :
    SystemMoves numLayers s s' := by
  cases a with
  | client a =>
    rw [System.step] at hs
    split at hs
    · next hallows =>
      obtain ⟨r, hr, hs'⟩ := Option.map_eq_some_iff.mp hs
      cases r with
      | ok c' =>
        cases hs'
        exact .client hallows (moves_of_act hr)
      | error e => cases hs'
    · cases hs
  | waitLayers k =>
    obtain ⟨d, hd, hs'⟩ := Option.map_eq_some_iff.mp hs
    cases hs'
    exact .waitLayers hd
  | compute k i =>
    cases hs
    exact .compute
  | doSend j g =>
    rw [System.step] at hs
    split at hs
    · next sub hsub =>
      split at hs
      · obtain ⟨d, hd, hs'⟩ := Option.map_eq_some_iff.mp hs
        cases hs'
        exact .doSend hsub hd
      · cases hs
    · cases hs

/-- Only the client's actions make checks. -/
theorem error_of_step {a : Act} {e : Fault} (hs : s.step numLayers a = some (.error e)) :
    ∃ b, s.c.act b = some (.error e) := by
  cases a with
  | client b =>
    rw [System.step] at hs
    split at hs
    · obtain ⟨r, hr, hs'⟩ := Option.map_eq_some_iff.mp hs
      cases r with
      | ok c' => cases hs'
      | error e' => exact ⟨b, hr.trans (congrArg some (congrArg _ (Except.error.inj hs')))⟩
    · cases hs
  | waitLayers k =>
    obtain ⟨d, -, hs'⟩ := Option.map_eq_some_iff.mp hs
    cases hs'
  | compute k i => cases hs
  | doSend j g =>
    rw [System.step] at hs
    split at hs
    · split at hs
      · obtain ⟨d, -, hs'⟩ := Option.map_eq_some_iff.mp hs
        cases hs'
      · cases hs
    · cases hs

/-! ## What it does to the signals -/

/-- `Effect c a d d'`: what the action `a` of the client `c` can do to the device. -/
inductive Effect (numLayers : ℕ) (c : Client) : ClientAct → Device → Device → Prop
  | none {a d} : Effect numLayers c a d d
  | spawn {d} (k : ℕ) : Effect numLayers c .startSend d
      { d with waiter := Function.update d.waiter k .start }
  | record {d k} (hk : c.mainStep = some k) : Effect numLayers c .record d
      { d with
        recorded := Function.update d.recorded k (d.recorded k + 1)
        recordSignal := Function.update d.recordSignal k (d.recordSignal k + 1) }
  | flush {d k} (hk : c.mainStep = some k) : Effect numLayers c .flush d
      { d with
        recordSignal := Function.update d.recordSignal k (semRelease (d.recordSignal k) numLayers) }
  | fresh {d} (n k : ℕ) : Effect numLayers c .startReqSend d
      { d with dataSignal := Function.update d.dataSignal (.fresh n k) numLayers }

/-- **An action of the client has one of these effects.** -/
theorem effect_after (d : Device) (c c' : Client) (a : ClientAct) :
    Effect numLayers c a d (d.after numLayers c c' a) := by
  unfold Device.after
  split
  · split
    · exact .spawn _
    · exact .none
  · split
    · next hk => exact .record hk
    · exact .none
  · split
    · next hk => exact .flush hk
    · exact .none
  · split
    · split
      · exact .none
      · rw [semRelease_eq_max, Nat.zero_max]
        exact .fresh _ _
    · exact .none
  · exact .none

/-- `start_req_send` signals every layer of the `Step` it makes. -/
theorem after_startReqSend {d : Device} {c c' : Client} {r : Routed} (hr : c.bpc = .freeze r)
    (hne : c'.freshSteps ≠ c.freshSteps) :
    d.after numLayers c c' .startReqSend = { d with
      dataSignal := Function.update d.dataSignal (.fresh c.freshSteps r.call.stepid) numLayers } := by
  rw [Device.after, hr]
  dsimp only
  rw [if_neg hne, semRelease_eq_max, Nat.zero_max]

/-- …and nothing the client does signals fewer. -/
theorem Effect.dataSignal {c : Client} {a : ClientAct} {d d' : Device}
    (h : Effect numLayers c a d d') (o : StepObj) :
    d'.dataSignal o = d.dataSignal o ∨ d'.dataSignal o = numLayers := by
  cases h with
  | fresh n k =>
    by_cases ho : o = .fresh n k
    · rw [ho]
      exact .inr (Function.update_self _ _ _)
    · exact .inl (Function.update_of_ne ho _ _)
  | _ => exact .inl rfl

/-- `wait_layers` of a step signals data on that step's own object. -/
theorem waitLayers_dataSignal {d d' : Device} {k : ℕ} (h : d.waitLayers numLayers k = some d')
    {o : StepObj} (ho : o ≠ .own k) : d'.dataSignal o = d.dataSignal o := by
  unfold Device.waitLayers at h
  split at h
  · cases h
    exact Function.update_of_ne ho _ _
  · split at h
    · exact Option.some.inj h ▸ rfl
    · cases h
  · split at h
    · exact Option.some.inj h ▸ rfl
    · cases h
  · cases h
    exact Function.update_of_ne ho _ _
  · cases h
  · cases h

theorem doSend_dataSignal {d d' : Device} {step : StepObj} {j g : ℕ}
    (h : d.doSend numLayers step j g = some d') : d'.dataSignal = d.dataSignal := by
  unfold Device.doSend at h
  dsimp only at h
  split at h
  · split at h
    · exact Option.some.inj h ▸ rfl
    · cases h
  · exact Option.some.inj h ▸ rfl

end Effects

end LlumnixKv
