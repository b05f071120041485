import CommuteSim.Proofs.Controller.Account

/-!
# What listeners do at the shutdown

The listeners of a session are exchanged for others that differ from them at the shutdown only. Up
to the shutdown the session goes on as before, with the other listeners in the place of its own; the
result of a run is settled by then.

Main statement: the exchange does not change the result of a run (`run_exchange`).
-/

namespace CommuteSim

variable {σ α β : Type}

/-! ## Listeners -/

/-- Two listeners that differ only in whether they want to be told of the shutdown, and in what they
do then. -/
structure Listener.AlikeBeforeShutdown (a b : Listener σ) : Prop where
  name : b.name = a.name
  wants : ∀ kind, kind ≠ .shutdown → b.wants kind = a.wants kind
  notify : ∀ e : Event, e.kind ≠ .shutdown → b.notify e = a.notify e

/-- A bus with other listeners. -/
def ListenerBus.exchange (g : Listener σ → Listener σ) (b : ListenerBus σ) : ListenerBus σ :=
  { core := b.core.map g, user := b.user.map g }

/-- A session with other listeners; those that the simulation brings along are exchanged too. -/
def Session.exchange (g : Listener σ → Listener σ) (s : Session σ) : Session σ :=
  { s with controller := { s.controller with
      bus := s.controller.bus.exchange g
      simulation := { s.controller.simulation with
        listeners := fun k => (s.controller.simulation.listeners k).bind fun ls =>
          .done (ls.map g) } } }

section Exchange

variable {g : Listener σ → Listener σ}

theorem ListenerBus.registrations_exchange (b : ListenerBus σ) (t : Tier) :
    (b.exchange g).registrations t =
      (b.registrations t).map fun r => { r with listener := g r.listener } := by
  unfold registrations
  have htier : (b.exchange g).tier t = (b.tier t).map g := by cases t <;> rfl
  rw [htier, List.zipIdx_map, List.map_map, List.map_map]
  rfl

theorem ListenerBus.order_exchange (hg : ∀ a, Listener.AlikeBeforeShutdown a (g a))
    (b : ListenerBus σ) {kind : EventKind} (h : kind ≠ .shutdown) :
    (b.exchange g).order kind =
      (b.order kind).map fun r => { r with listener := g r.listener } := by
  unfold order
  rw [registrations_exchange, registrations_exchange, ← List.map_append, List.filter_map]
  congr 2
  funext r
  exact (hg r.listener).wants kind h

theorem ListenerBus.tellAll_exchange (hg : ∀ a, Listener.AlikeBeforeShutdown a (g a)) {e : Event}
    (h : e.kind ≠ .shutdown) (rs : List (Registration σ)) :
    tellAll e (rs.map fun r => { r with listener := g r.listener }) = tellAll e rs := by
  induction rs with
  | nil => rfl
  | cons r rest ih =>
      have htell : tell e { r with listener := g r.listener } = tell e r := by
        unfold tell
        rw [(hg r.listener).name, (hg r.listener).notify e h]
      rw [List.map_cons, tellAll, tellAll, htell, ih]

/-- A round before the shutdown goes as with the listeners that were there. -/
theorem ListenerBus.notify_exchange (hg : ∀ a, Listener.AlikeBeforeShutdown a (g a)) {e : Event}
    (h : e.kind ≠ .shutdown) (b : ListenerBus σ) : (b.exchange g).notify e = b.notify e := by
  unfold notify
  rw [order_exchange hg b h]
  dsimp only
  rw [tellAll_exchange hg h, List.length_map]

theorem ListenerBus.exchange_register (b : ListenerBus σ) (ls : List (Listener σ)) :
    (ls.map g).foldl (fun b l => b.register l .core) (b.exchange g) =
      (ls.foldl (fun b l => b.register l .core) b).exchange g := by
  induction ls generalizing b with
  | nil => rfl
  | cons l rest ih =>
      have hone : (b.exchange g).register (g l) .core = (b.register l .core).exchange g := by
        unfold register exchange
        rw [List.map_append]
        rfl
      rw [List.map_cons, List.foldl_cons, List.foldl_cons, hone, ih]

/-! ## Rules -/

/-- Work that goes the same way after the exchange. -/
def Commutes (g : Listener σ → Listener σ) (work : Driven σ α) : Prop :=
  ∀ s : Session σ, work (s.exchange g) = ((work s).1, (work s).2.exchange g)

theorem commutes_pure (a : α) : Commutes g (pure a) := fun _ => rfl

theorem commutes_bind {work : Driven σ α} {next : α → Driven σ β} (h : Commutes g work)
    (h' : ∀ a, Commutes g (next a)) : Commutes g (work >>= next) := by
  intro s
  change next (work (s.exchange g)).1 (work (s.exchange g)).2 = _
  rw [h s]
  exact h' _ _

theorem commutes_onWorld (work : StateM (World σ) α) : Commutes g (onWorld work) := fun _ => rfl

theorem commutes_modify {f : Session σ → Session σ}
    (h : ∀ s, f (s.exchange g) = (f s).exchange g) : Commutes g (modify f : Driven σ PUnit) :=
  fun s => congrArg (Prod.mk PUnit.unit) (h s)

theorem commutes_get {next : Session σ → Driven σ β} (h : ∀ s, next (s.exchange g) = next s)
    (h' : ∀ s, Commutes g (next s)) : Commutes g (get >>= next) := by
  intro s
  change next (s.exchange g) (s.exchange g) = _
  rw [h s]
  exact h' s s

theorem commutes_ite {p : Prop} [Decidable p] {work other : Driven σ α} (h : Commutes g work)
    (h' : Commutes g other) : Commutes g (if p then work else other) := by
  split
  · exact h
  · exact h'

theorem commutes_bind_run {work : Guarded σ α} {next : α → Guarded σ β}
    (h : Commutes g work.run) (h' : ∀ a, Commutes g (next a).run) :
    Commutes g (work >>= next).run := by
  intro s
  rw [run_bind_except, run_bind_except, h s]
  cases (work.run s).1 with
  | ok a => exact h' a _
  | error e => rfl

theorem commutes_get_run {next : Session σ → Guarded σ β} (h : ∀ s, next (s.exchange g) = next s)
    (h' : ∀ s, Commutes g (next s).run) : Commutes g (getThe (Session σ) >>= next).run := by
  intro s
  change (next (s.exchange g)).run (s.exchange g) = _
  rw [h s]
  exact h' s s

/-! ## Up to the shutdown -/

namespace Controller

theorem commutes_enter (stage : Stage) : Commutes g (enter stage) :=
  commutes_modify fun _ => rfl

theorem commutes_time (f : TimingLedger → Instant → TimingLedger) : Commutes g (time f) :=
  commutes_modify fun _ => rfl

theorem commutes_seedAfresh (i : IterationIndex) : Commutes g (seedAfresh i) :=
  commutes_modify fun _ => rfl

theorem commutes_collaborate (fault : Cause → Fault) (p : Program σ Cause α) :
    Commutes g (collaborate fault p).run := fun _ => rfl

theorem commutes_reportPanic (origin : String) (x : Panic) :
    Commutes g (reportPanic origin x) := by
  refine commutes_get (fun _ => rfl) fun s => ?_
  refine commutes_ite ?_ fun _ => rfl
  exact commutes_bind (commutes_onWorld _) fun c => commutes_ite (commutes_pure _) fun _ => rfl

theorem commutes_settle (step : Step) (result : Outcome Fault Unit) :
    Commutes g (settle step result) := by
  have hdisclose : Commutes g (disclose step.origin result) := by
    cases result with
    | ok _ => exact commutes_pure _
    | error a =>
        cases a with
        | failure f => exact fun _ => rfl
        | panic x => exact commutes_reportPanic _ x
  refine commutes_bind hdisclose fun _ => commutes_bind (commutes_onWorld _) fun flag => ?_
  exact commutes_bind (commutes_onWorld _) fun _ => commutes_pure _

theorem commutes_attempt {step : Step} {work : Guarded σ Unit} (h : Commutes g work.run) :
    Commutes g (attempt step work) :=
  commutes_bind (commutes_onWorld _) fun _ => commutes_bind h fun result =>
    commutes_settle step result

theorem commutes_announce (hg : ∀ a, Listener.AlikeBeforeShutdown a (g a)) {e : Event}
    (h : e.kind ≠ .shutdown) : Commutes g (announce e).run := by
  refine commutes_bind (commutes_onWorld _) fun _ => ?_
  refine commutes_get (fun s => ?_) fun s => ?_
  · change (do
      let told ← onWorld ((s.controller.bus.exchange g).notify e)
      return (told.mapError (Abort.map Fault.listener)).map fun _ => ()) = _
    rw [ListenerBus.notify_exchange hg h]
  · exact commutes_bind (commutes_onWorld _) fun _ => commutes_pure _

theorem commutes_phaseStep {p : Phase} {i : IterationIndex} {work : Guarded σ Unit}
    (h : Commutes g work.run) : Commutes g (phaseStep p i work) :=
  commutes_bind (commutes_time _) fun _ => commutes_bind (commutes_attempt h) fun _ =>
    commutes_bind (commutes_time _) fun _ => commutes_pure _

theorem commutes_listenerStep (hg : ∀ a, Listener.AlikeBeforeShutdown a (g a)) (p : Phase)
    (i : IterationIndex) : Commutes g (listenerStep p i) := by
  refine commutes_phaseStep ?_
  cases p with
  | mobsim => exact commutes_pure _
  | _ => exact commutes_announce hg nofun

/-- Steps in a row go the same way if each does. -/
theorem commutes_andThen {first rest : Driven σ Progress} (h : Commutes g first)
    (h' : Commutes g rest) :
    Commutes g (do
      if (← first) = .aborted then return .aborted
      rest) :=
  commutes_bind h fun _ => commutes_ite (commutes_pure _) h'

theorem commutes_of {work : Driven σ α} (h : Commutes g work) :
    Commutes g (Guarded.of work).run := by
  have hrun : ∀ s, (Guarded.of work).run s = (.ok (work s).1, (work s).2) := fun _ => rfl
  intro s
  rw [hrun, hrun, h s]

/-- Only the value of a program changes if it is changed at the end. -/
theorem run_bind_done {ε : Type} (p : Program σ ε α) (f : α → β) (w : World σ) :
    (p.bind fun a => .done (f a)).run w = ((p.run w).1.map f, (p.run w).2) := by
  induction p generalizing w with
  | done a => rfl
  | fail e => rfl
  | panic x => rfl
  | act d next ih => exact ih _ _

theorem collaborate_bind_done (fault : Cause → Fault) (p : Program σ Cause α) (f : α → β)
    (s : Session σ) :
    (collaborate fault (p.bind fun a => .done (f a))).run s =
      (((collaborate fault p).run s).1.map f, ((collaborate fault p).run s).2) := by
  rw [collaborate_run, collaborate_run, run_bind_done]
  cases (p.run s.world).1 with
  | ok a => rfl
  | error e => rfl

/-- Listeners that are loaded after the exchange are exchanged too. -/
theorem commutes_loadListeners : Commutes g (loadListeners (σ := σ)).run := by
  intro s
  let load : Guarded σ Unit := collaborate (.setup Step.load.origin)
    (s.controller.simulation.load s.controller.context)
  let rest : List (Listener σ) → Guarded σ Unit := fun ls => do
    Guarded.of (registerCore ls)
    load
  have hrest : ∀ ls t, (rest (ls.map g)).run (t.exchange g) =
      (((rest ls).run t).1, ((rest ls).run t).2.exchange g) := by
    intro ls t
    have hregister : registerCore (ls.map g) (t.exchange g) =
        ((), (registerCore ls t).2.exchange g) := by
      change ((), { (t.exchange g) with controller := { (t.exchange g).controller with
        bus := (ls.map g).foldl (fun b l => b.register l .core) (t.controller.bus.exchange g) } })
          = _
      rw [ListenerBus.exchange_register]
      rfl
    change load.run (registerCore (ls.map g) (t.exchange g)).2 = _
    rw [hregister]
    exact commutes_collaborate _ _ _
  change (collaborate _ ((s.controller.simulation.listeners s.controller.context).bind
    fun ls => .done (ls.map g)) >>= rest).run (s.exchange g) =
      (((collaborate _ (s.controller.simulation.listeners s.controller.context) >>= rest).run s).1,
        ((collaborate _ (s.controller.simulation.listeners s.controller.context) >>=
          rest).run s).2.exchange g)
  rw [run_bind_except, run_bind_except, collaborate_bind_done, commutes_collaborate]
  cases ((collaborate (Fault.setup Step.load.origin)
    (s.controller.simulation.listeners s.controller.context)).run s).1 with
  | ok ls => exact hrest ls _
  | error e => rfl

theorem commutes_writeConfiguration : Commutes g (writeConfiguration (σ := σ)).run := by
  refine commutes_get_run (fun _ => rfl) fun s => ?_
  refine commutes_bind_run (commutes_of (commutes_onWorld _)) fun _ => ?_
  refine commutes_bind_run (commutes_of (commutes_onWorld _)) fun written => ?_
  cases written with
  | ok _ => exact commutes_pure _
  | error reason => exact commutes_pure _

theorem commutes_checkConfiguration : Commutes g (checkConfiguration (σ := σ)).run := by
  refine commutes_get_run (fun _ => rfl) fun s => ?_
  cases s.controller.context.configuration.check with
  | error i => exact commutes_pure _
  | ok warnings =>
      induction warnings with
      | nil => exact commutes_pure _
      | cons w rest ih => exact commutes_bind_run (commutes_of (commutes_onWorld _)) fun _ => ih

theorem commutes_startUp (hg : ∀ a, Listener.AlikeBeforeShutdown a (g a)) :
    Commutes g (startUp (σ := σ)) := by
  refine commutes_bind (commutes_onWorld _) fun _ => ?_
  refine commutes_andThen (commutes_attempt commutes_loadListeners) ?_
  refine commutes_bind (commutes_onWorld _) fun _ => ?_
  refine commutes_andThen (commutes_attempt (commutes_announce hg nofun)) ?_
  refine commutes_andThen (commutes_attempt ?_) (commutes_attempt ?_)
  · exact commutes_bind_run commutes_writeConfiguration fun _ => commutes_checkConfiguration
  · exact commutes_get_run (fun _ => rfl) fun _ => commutes_collaborate _ _

/-! ## Iterations -/

theorem commutes_beginIteration (hg : ∀ a, Listener.AlikeBeforeShutdown a (g a))
    (i : IterationIndex) : Commutes g (beginIteration (σ := σ) i) := by
  refine commutes_phaseStep (commutes_bind_run ?_ fun _ => ?_)
  · refine commutes_get_run (fun _ => rfl) fun s => ?_
    dsimp only
    split
    · refine commutes_bind_run (commutes_of (commutes_onWorld _)) fun made => ?_
      cases made with
      | ok _ => exact commutes_pure _
      | error f => exact commutes_pure _
    · exact commutes_pure _
  · exact commutes_bind_run (commutes_of (commutes_seedAfresh i)) fun _ =>
      commutes_announce hg nofun

theorem commutes_mobsimStep (i : IterationIndex) : Commutes g (mobsimStep (σ := σ) i) := by
  refine commutes_phaseStep (commutes_bind_run (commutes_of (commutes_seedAfresh i)) fun _ => ?_)
  refine commutes_get_run (fun _ => rfl) fun s => ?_
  exact commutes_bind_run (commutes_of (commutes_onWorld _)) fun _ => commutes_collaborate _ _

theorem commutes_mobsimSteps (hg : ∀ a, Listener.AlikeBeforeShutdown a (g a))
    (i : IterationIndex) : Commutes g (mobsimSteps (σ := σ) i) := by
  refine commutes_bind (commutes_listenerStep hg _ i) fun before => ?_
  have hafter : ∀ mobsim : Progress, Commutes g (do
      let after ← listenerStep (σ := σ) .afterMobsim i
      return if mobsim = .aborted then .aborted else after) := fun mobsim =>
    commutes_bind (commutes_listenerStep hg _ i) fun _ => commutes_pure _
  cases before with
  | proceed => exact commutes_bind (commutes_mobsimStep i) hafter
  | aborted => exact commutes_bind (commutes_pure _) hafter

theorem commutes_phases (hg : ∀ a, Listener.AlikeBeforeShutdown a (g a)) (i : IterationIndex) :
    Commutes g (phases (σ := σ) i) := by
  refine commutes_get (fun _ => rfl) fun s => ?_
  refine commutes_andThen (commutes_beginIteration hg i) ?_
  have hrest := commutes_andThen (commutes_mobsimSteps hg i)
    (commutes_andThen (commutes_listenerStep hg .scoring i)
      (commutes_listenerStep hg .iterationEnd i))
  dsimp only
  split
  · exact commutes_andThen (commutes_listenerStep hg .replanning i) hrest
  · exact hrest

theorem commutes_writeOrWarn (name text message : String) :
    Commutes g (writeOrWarn (σ := σ) name text message) := by
  refine commutes_get (fun _ => rfl) fun s => commutes_bind (commutes_onWorld _) fun written => ?_
  cases written with
  | ok _ => exact commutes_pure _
  | error _ => exact commutes_onWorld _

theorem commutes_writeTimes : Commutes g (writeTimes (σ := σ)) := by
  refine commutes_get (fun _ => rfl) fun s => commutes_bind (commutes_onWorld _) fun _ => ?_
  refine commutes_bind (commutes_writeOrWarn _ _ _) fun _ => ?_
  exact commutes_ite (commutes_writeOrWarn _ _ _) (commutes_pure _)

theorem commutes_runThrough (hg : ∀ a, Listener.AlikeBeforeShutdown a (g a))
    (i : IterationIndex) : Commutes g (runThrough (σ := σ) i) := by
  refine commutes_bind (commutes_onWorld _) fun _ => commutes_bind (commutes_onWorld _) fun _ => ?_
  refine commutes_bind (commutes_time _) fun _ => ?_
  refine commutes_bind (commutes_phases hg i) fun outcome => ?_
  refine commutes_bind (commutes_time _) fun _ => ?_
  cases outcome with
  | proceed =>
      refine commutes_bind commutes_writeTimes fun _ => ?_
      exact commutes_bind (commutes_onWorld _) fun _ => commutes_bind (commutes_onWorld _)
        fun _ => commutes_pure _
  | aborted => exact commutes_pure _

theorem commutes_wantsIteration (i : IterationIndex) :
    Commutes g (wantsIteration (σ := σ) i) := by
  refine commutes_bind (commutes_onWorld _) fun flag => ?_
  cases flag with
  | true => exact commutes_pure _
  | false =>
      refine commutes_get (fun _ => rfl) fun s => commutes_bind (commutes_onWorld _) fun _ => ?_
      refine commutes_bind (commutes_onWorld _) fun answer => ?_
      cases answer with
      | ok b => exact commutes_bind (commutes_onWorld _) fun _ => commutes_pure _
      | error a =>
          cases a with
          | failure e => exact nomatch e
          | panic x =>
              exact commutes_bind (commutes_reportPanic _ x) fun _ =>
                commutes_bind (commutes_onWorld _) fun _ => commutes_pure _

theorem commutes_iterateFrom (hg : ∀ a, Listener.AlikeBeforeShutdown a (g a)) (room : Nat)
    (i : IterationIndex) : Commutes g (iterateFrom (σ := σ) room i) := by
  induction room generalizing i with
  | zero => exact commutes_pure _
  | succ room ih =>
      refine commutes_bind (commutes_wantsIteration i) fun wanted => ?_
      cases wanted with
      | false =>
          refine commutes_bind (commutes_onWorld _) fun flag => ?_
          exact commutes_ite (commutes_onWorld _) (commutes_onWorld _)
      | true =>
          refine commutes_bind (commutes_modify fun _ => rfl) fun _ => ?_
          refine commutes_bind (commutes_runThrough hg i) fun outcome => ?_
          cases outcome with
          | aborted => exact commutes_pure _
          | proceed =>
              refine commutes_bind (commutes_modify fun _ => rfl) fun _ => ?_
              cases i.next? with
              | none => exact commutes_onWorld _
              | some j => exact ih j

/-- All that comes before the teardown goes the same way after the exchange. -/
theorem commutes_runToTeardown (hg : ∀ a, Listener.AlikeBeforeShutdown a (g a)) :
    Commutes g (runToTeardown (σ := σ)) := by
  refine commutes_bind (commutes_enter _) fun _ => commutes_bind (commutes_startUp hg) fun p => ?_
  cases p with
  | aborted => exact commutes_enter _
  | proceed =>
      refine commutes_bind (commutes_enter _) fun _ => ?_
      refine commutes_bind (commutes_get (fun _ => rfl) fun _ => ?_) fun _ => commutes_enter _
      exact commutes_iterateFrom hg _ _

/-! ## The result -/

/-- Work that gives the same after the exchange, wherever it leads. -/
def GivesAlike (g : Listener σ → Listener σ) (work : Driven σ α) : Prop :=
  ∀ s : Session σ, (work (s.exchange g)).1 = (work s).1

theorem givesAlike_bind {work : Driven σ α} {next : α → Driven σ β} (h : Commutes g work)
    (h' : ∀ a, GivesAlike g (next a)) : GivesAlike g (work >>= next) := by
  intro s
  change (next (work (s.exchange g)).1 (work (s.exchange g)).2).1 = _
  rw [h s]
  exact h' _ _

/-- What comes behind the result does not change it. -/
theorem givesAlike_then {work : Driven σ α} {rest : α → Driven σ α} (h : GivesAlike g work)
    (h' : ∀ a s, (rest a s).1 = a) : GivesAlike g (work >>= rest) := by
  intro s
  change (rest (work (s.exchange g)).1 _).1 = (rest (work s).1 _).1
  rw [h', h', h s]

/-- Work that leaves the controller as it is. -/
def KeepsController (work : Driven σ α) : Prop :=
  ∀ s : Session σ, (work s).2.controller = s.controller

theorem keepsController_bind {work : Driven σ α} {next : α → Driven σ β}
    (h : KeepsController work) (h' : ∀ a, KeepsController (next a)) :
    KeepsController (work >>= next) :=
  fun s => (h' _ _).trans (h s)

theorem keepsController_onWorld (work : StateM (World σ) α) : KeepsController (onWorld work) :=
  fun _ => rfl

theorem keepsController_sayLine (line : LogLine) : KeepsController (σ := σ) (sayLine line) :=
  keepsController_onWorld _

theorem keepsController_notifyShutdown (unexpected : Bool) :
    KeepsController (notifyShutdown (σ := σ) unexpected) := by
  refine keepsController_bind (fun _ => rfl) fun s => ?_
  refine keepsController_bind (keepsController_onWorld _) fun _ => ?_
  refine keepsController_bind (keepsController_onWorld _) fun told => ?_
  cases told with
  | ok _ => exact fun _ => rfl
  | error a =>
      cases a with
      | failure _ => exact keepsController_onWorld _
      | panic x => exact keepsController_onWorld _

theorem keepsController_sayStarted (unexpected : Bool) :
    KeepsController (sayStarted (σ := σ) unexpected) := by
  refine keepsController_bind (keepsController_onWorld _) fun _ => ?_
  cases unexpected with
  | true => exact keepsController_sayLine _
  | false => exact fun _ => rfl

theorem keepsController_sayEnded (unexpected faulty : Bool) :
    KeepsController (sayEnded (σ := σ) unexpected faulty) := by
  have hlines : KeepsController (sayEnded (σ := σ) unexpected false) := by
    cases unexpected with
    | true =>
        exact keepsController_bind (keepsController_sayLine _) fun _ => keepsController_sayLine _
    | false => exact keepsController_sayLine _
  cases faulty with
  | true => exact keepsController_bind (keepsController_onWorld _) fun _ => hlines
  | false => exact hlines

/-- The result is settled before listeners are told of the shutdown. -/
theorem conclude_result (unexpected : Bool) (fault : Option FaultRecord) (s : Session σ) :
    (conclude unexpected fault s).1 = result s.controller unexpected fault := by
  let ended : Driven σ Unit := do
    sayStarted unexpected
    notifyShutdown unexpected
    sayEnded unexpected fault.isSome
  have hended : KeepsController ended :=
    keepsController_bind (keepsController_sayStarted _) fun _ =>
      keepsController_bind (keepsController_notifyShutdown _) fun _ => keepsController_sayEnded _ _
  change result (ended s).2.controller unexpected fault = _
  rw [hended s]

theorem givesAlike_conclude (unexpected : Bool) (fault : Option FaultRecord) :
    GivesAlike g (conclude (σ := σ) unexpected fault) := by
  intro s
  rw [conclude_result, conclude_result]
  cases fault <;> rfl

theorem givesAlike_tearDown : GivesAlike g (tearDown (σ := σ)) := by
  refine givesAlike_bind (commutes_onWorld _) fun first => ?_
  refine givesAlike_bind (commutes_ite (commutes_onWorld _) (commutes_pure _)) fun _ => ?_
  refine givesAlike_bind (commutes_onWorld _) fun c => ?_
  exact givesAlike_bind (commutes_onWorld _) fun flag => givesAlike_conclude _ _

theorem givesAlike_runToRelease (hg : ∀ a, Listener.AlikeBeforeShutdown a (g a)) :
    GivesAlike g (runToRelease (σ := σ)) := by
  refine givesAlike_bind (commutes_runToTeardown hg) fun _ => ?_
  exact givesAlike_then givesAlike_tearDown fun _ _ => rfl

theorem givesAlike_runOnce (hg : ∀ a, Listener.AlikeBeforeShutdown a (g a)) (watching : Bool) :
    GivesAlike g (runOnce (σ := σ) watching) := by
  refine givesAlike_bind (commutes_onWorld _) fun _ => ?_
  cases watching with
  | true =>
      refine givesAlike_bind (commutes_onWorld _) fun previous => ?_
      exact givesAlike_then (givesAlike_runToRelease hg) fun _ _ => rfl
  | false => exact givesAlike_runToRelease hg

/-- Whatever listeners do at the shutdown, the result of a run is the same. -/
theorem run_exchange (hg : ∀ a, Listener.AlikeBeforeShutdown a (g a)) (s : Session σ) :
    (run (s.exchange g)).1 = (run s).1 := by
  by_cases h : s.controller.stage = .idle
  · have h' : (s.exchange g).controller.stage = .idle := h
    rw [run_of_idle h, run_of_idle h']
    exact givesAlike_runOnce hg s.watches s
  · have h' : (s.exchange g).controller.stage ≠ .idle := h
    rw [run_of_not_idle h, run_of_not_idle h']

end Controller

end Exchange

end CommuteSim
