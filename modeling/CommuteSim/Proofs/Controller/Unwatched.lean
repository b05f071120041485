import CommuteSim.Proofs.Controller.Follows
import CommuteSim.Proofs.World.Impartial

/-!
# A controller that watches for panics, and one that does not

Two controllers that differ in whether they watch for panics drive collaborators that are alike,
each in its own world. Wherever a panic gets to the controller, one of the two records has been made
already, by the handler, and the controller makes the other. So the two sessions go on side by side
up to the teardown.

Main statements: `twin_reportPanic` for the records of a panic, `tallies_attempt` for a step, and
`tallies_runToTeardown` for all that comes before the teardown.
-/

namespace CommuteSim

variable {σ α β : Type}

/-- What collaborators are given in a run that does not watch for panics. -/
def Context.unwatched (k : Context) : Context :=
  { k with configuration := { k.configuration with
      controller := { k.configuration.controller with capturePanics := false } } }

/-- Two controllers, the first of which watches for panics, with collaborators that are alike. -/
structure Controller.Twin (g : ByteArray → ByteArray) (c d : Controller σ) : Prop where
  watches : c.context.watches = true
  context : d.context = c.context.unwatched
  text : g c.context.configuration.text.toUTF8 = g c.context.unwatched.configuration.text.toUTF8
  listeners : Program.Alike g false (List.Forall₂ (Listener.Alike g))
    (c.simulation.listeners c.context) (d.simulation.listeners d.context)
  load : Program.Alike g false Eq (c.simulation.load c.context) (d.simulation.load d.context)
  prepare : Program.Alike g false Eq (c.simulation.prepare c.context)
    (d.simulation.prepare d.context)
  mobsim : ∀ i, Program.Alike g false Eq (c.simulation.mobsim c.context i)
    (d.simulation.mobsim d.context i)
  question : ∀ i, Program.Alike g false Eq (c.question i) (d.question i)
  bus : c.bus.Alike g d.bus
  ledger : c.ledger = d.ledger
  seeding : c.seeding = d.seeding
  completed : c.completed = d.completed
  last : c.last = d.last

/-- Two sessions, the first of which watches for panics, with the record that the second owes. -/
structure Session.Twin (g : ByteArray → ByteArray) (late : Bool) (owed : Option FaultRecord)
    (s t : Session σ) : Prop where
  controller : s.controller.Twin g t.controller
  world : World.Twin g late owed s.world t.world

/-- Guarded work ends alike in two sessions, of which the second owes the record of a panic. -/
structure Session.EndsAlike (g : ByteArray → ByteArray) (V : α → α → Prop)
    (x y : Outcome Fault α × Session σ) : Prop where
  value : Outcome.Alike V x.1 y.1
  session : x.2.Twin g false (Outcome.owed y.2.world.clock y.1) y.2

section Rules

variable {g : ByteArray → ByteArray} {late : Bool} {owed : Option FaultRecord}

/-! ## Rules -/

/-- Work that gives the same in both sessions and leads to twins. -/
def Tallies (g : ByteArray → ByteArray) (late : Bool) (owed : Option FaultRecord)
    (work work' : Driven σ α) : Prop :=
  ∀ s t : Session σ, s.Twin g late owed t →
    (work s).1 = (work' t).1 ∧ (work s).2.Twin g late owed (work' t).2

/-- Guarded work that ends alike in both sessions. -/
def TalliesRun (g : ByteArray → ByteArray) (V : α → α → Prop) (work work' : Guarded σ α) : Prop :=
  ∀ s t : Session σ, s.Twin g false none t →
    Session.EndsAlike g V (work.run s) (work'.run t)

theorem tallies_pure (a : α) : Tallies (σ := σ) g late owed (pure a) (pure a) :=
  fun _ _ h => ⟨rfl, h⟩

theorem tallies_bind {work work' : Driven σ α} {next next' : α → Driven σ β}
    (h : Tallies g late owed work work') (h' : ∀ a, Tallies g late owed (next a) (next' a)) :
    Tallies g late owed (work >>= next) (work' >>= next') := by
  intro s t hst
  obtain ⟨hvalue, htwin⟩ := h s t hst
  change (next (work s).1 (work s).2).1 = (next' (work' t).1 (work' t).2).1 ∧
    (next (work s).1 (work s).2).2.Twin g late owed (next' (work' t).1 (work' t).2).2
  rw [hvalue]
  exact h' _ _ _ htwin

theorem tallies_onWorld {work work' : StateM (World σ) α}
    (h : ∀ w v, World.Twin g late owed w v →
      (work w).1 = (work' v).1 ∧ World.Twin g late owed (work w).2 (work' v).2) :
    Tallies g late owed (onWorld work) (onWorld work') := by
  intro s t hst
  obtain ⟨hvalue, htwin⟩ := h _ _ hst.world
  exact ⟨hvalue, hst.controller, htwin⟩

theorem tallies_modify {f f' : Session σ → Session σ}
    (h : ∀ s t : Session σ, s.Twin g late owed t → (f s).Twin g late owed (f' t)) :
    Tallies g late owed (modify f : Driven σ PUnit) (modify f') :=
  fun s t hst => ⟨rfl, h s t hst⟩

theorem tallies_get {next next' : Session σ → Driven σ β}
    (h : ∀ s t : Session σ, s.Twin g late owed t → Tallies g late owed (next s) (next' t)) :
    Tallies g late owed (get >>= next) (get >>= next') :=
  fun s t hst => h s t hst s t hst

/-- Something happens in both sessions. -/
theorem tallies_note (m : Moment σ) :
    Tallies g late owed (onWorld (World.note m)) (onWorld (World.note m)) :=
  tallies_onWorld fun _ _ h => ⟨rfl, h.noted m⟩

theorem tallies_say (level : LogLevel) (message message' : String) :
    Tallies (σ := σ) g late owed (onWorld (World.say level message))
      (onWorld (World.say level message')) :=
  tallies_onWorld fun _ _ h => ⟨rfl, h.remark rfl rfl⟩

theorem tallies_flag :
    Tallies (σ := σ) g late none (onWorld World.flag) (onWorld World.flag) :=
  tallies_onWorld fun _ _ h => World.twin_flag h

/-- A branch that both sessions take. -/
theorem tallies_ite {p : Prop} [Decidable p] {work other work' other' : Driven σ α}
    (h : Tallies g late owed work work') (h' : Tallies g late owed other other') :
    Tallies g late owed (if p then work else other) (if p then work' else other') := by
  split
  · exact h
  · exact h'

/-! ## Rules for work that can fail -/

variable {V : α → α → Prop}

theorem talliesRun_pure (a : α) : TalliesRun (σ := σ) g Eq (pure a) (pure a) :=
  fun _ _ h => ⟨.ok rfl, h⟩

theorem talliesRun_failure (f : Fault) :
    TalliesRun (σ := σ) (α := α) g V (throw (.failure f)) (throw (.failure f)) :=
  fun _ _ h => ⟨.error _, h⟩

theorem talliesRun_bind {V : α → α → Prop} {W : β → β → Prop} {work work' : Guarded σ α}
    {next next' : α → Guarded σ β} (h : TalliesRun g V work work')
    (h' : ∀ a b, V a b → TalliesRun g W (next a) (next' b)) :
    TalliesRun g W (work >>= next) (work' >>= next') := by
  intro s t hst
  obtain ⟨hvalue, htwin⟩ := h s t hst
  rw [run_bind_except, run_bind_except]
  revert hvalue htwin
  cases work.run s with
  | mk x s' =>
      cases work'.run t with
      | mk y t' =>
          intro hvalue htwin
          cases hvalue with
          | ok hab => exact h' _ _ hab _ _ htwin
          | error e =>
              cases e with
              | failure f => exact ⟨.error _, htwin⟩
              | panic x => exact ⟨.error _, htwin⟩

/-- Work that gives the same in both sessions comes before other work. -/
theorem talliesRun_then {W : β → β → Prop} {work work' : Guarded σ α}
    {next next' : α → Guarded σ β} (h : TalliesRun g Eq work work')
    (h' : ∀ a, TalliesRun g W (next a) (next' a)) :
    TalliesRun g W (work >>= next) (work' >>= next') := by
  refine talliesRun_bind h ?_
  rintro a - rfl
  exact h' a

theorem talliesRun_of {work work' : Driven σ α} (h : Tallies g false none work work') :
    TalliesRun g Eq (Guarded.of work) (Guarded.of work') := by
  intro s t hst
  obtain ⟨hvalue, htwin⟩ := h s t hst
  exact ⟨.ok hvalue, htwin⟩

theorem talliesRun_ite {p : Prop} [Decidable p] {work other work' other' : Guarded σ α}
    (h : TalliesRun g V work work') (h' : TalliesRun g V other other') :
    TalliesRun g V (if p then work else other) (if p then work' else other') := by
  split
  · exact h
  · exact h'

theorem talliesRun_get {next next' : Session σ → Guarded σ β} {W : β → β → Prop}
    (h : ∀ s t : Session σ, s.Twin g false none t → TalliesRun g W (next s) (next' t)) :
    TalliesRun g W (getThe (Session σ) >>= next) (getThe (Session σ) >>= next') :=
  fun s t hst => h s t hst s t hst

end Rules

namespace Controller

variable {g : ByteArray → ByteArray} {late : Bool} {owed : Option FaultRecord}

/-! ## What a step is made of -/

theorem tallies_enter (stage : Stage) : Tallies (σ := σ) g late owed (enter stage) (enter stage) :=
  tallies_modify fun _ _ h => ⟨{ h.controller with }, h.world⟩

theorem tallies_time (f : TimingLedger → Instant → TimingLedger) :
    Tallies (σ := σ) g late owed (time f) (time f) := by
  refine tallies_modify fun s t h => ⟨{ h.controller with ledger := ?_ }, h.world⟩
  rw [h.controller.ledger, h.world.clock]

theorem tallies_seedAfresh (i : IterationIndex) :
    Tallies (σ := σ) g late owed (seedAfresh i) (seedAfresh i) := by
  refine tallies_modify fun s t h => ⟨{ h.controller with seeding := ?_ },
    { h.world with generator := ?_ }⟩
  · rw [h.controller.seeding]
  · rw [h.controller.seeding]

theorem talliesRun_collaborate {V : α → α → Prop} (fault : Cause → Fault)
    {p q : Program σ Cause α} (h : Program.Alike g false V p q) :
    TalliesRun g V (collaborate fault p) (collaborate fault q) := by
  intro s t hst
  obtain ⟨hvalue, htwin⟩ := (World.endsAlike_run h hst.world).mapError fault
  exact ⟨hvalue, hst.controller, htwin⟩

theorem talliesRun_announce {e : Event} (he : e.late = false) :
    TalliesRun (σ := σ) g Eq (announce e) (announce e) := by
  intro s t hst
  have hround : World.Twin g e.late none (s.world.noted (.round e)) (t.world.noted (.round e)) := by
    rw [he]
    exact hst.world.noted _
  have hnotify := ListenerBus.endsAlike_notify hst.controller.bus hround
  rw [he] at hnotify
  obtain ⟨hvalue, htwin⟩ := (hnotify.mapError Fault.listener).map fun _ _ _ => (rfl : () = ())
  exact ⟨hvalue, hst.controller, htwin⟩

/-! ## Guards -/

/-- Where a panic gets to the controller, the first session has a record of it, so it is not
reported there; the second session pays what it owes. -/
theorem twin_reportPanic {s t : Session σ} {x : Panic}
    (h : s.Twin g false (some (x.record t.world.clock)) t) (origin : String) :
    (reportPanic origin x s).2.Twin g false none (reportPanic origin x t).2 := by
  have hfaulty : (World.look s.world).1.fault.isSome = true := (World.twin_yield h.world).faulty
  have hnot : ¬ t.watches = true := by
    rw [Session.watches, h.controller.context]
    exact Bool.false_ne_true
  rw [reportPanic_of_fault h.controller.watches hfaulty, reportPanic_of_not_watches hnot]
  exact ⟨h.controller, h.world.repay origin⟩

/-- How work failed becomes known in both sessions, and nothing is owed any more. -/
theorem twin_disclose {s t : Session σ} {result : Outcome Fault Unit}
    (h : s.Twin g false (Outcome.owed t.world.clock result) t) (origin : String) :
    (disclose origin result s).2.Twin g false none (disclose origin result t).2 := by
  cases result with
  | ok _ => exact h
  | error a =>
      cases a with
      | failure f => exact ⟨h.controller, (World.twin_report h.world origin f).2⟩
      | panic x => exact twin_reportPanic h origin

theorem twin_settle {s t : Session σ} {result : Outcome Fault Unit}
    (h : s.Twin g false (Outcome.owed t.world.clock result) t) (step : Step) :
    (settle step result s).1 = (settle step result t).1 ∧
      (settle step result s).2.Twin g false none (settle step result t).2 := by
  have htwin := twin_disclose h step.origin
  obtain ⟨hfound, hlook⟩ := World.twin_look htwin.world
  have hprogress : (World.look (disclose step.origin result s).2.world).1.progress =
      (World.look (disclose step.origin result t).2.world).1.progress := by
    have hsame := congrArg Coordinator.progress hfound
    exact hsame
  rw [settle_of_disclose rfl, settle_of_disclose rfl, hprogress]
  exact ⟨rfl, htwin.controller, hlook.noted _⟩

theorem tallies_attempt {work work' : Guarded σ Unit} (h : TalliesRun g Eq work work')
    (step : Step) : Tallies g false none (attempt step work) (attempt step work') := by
  refine tallies_bind (tallies_note _) fun _ s t hst => ?_
  obtain ⟨hvalue, htwin⟩ := h s t hst
  change (settle step (work.run s).1 (work.run s).2).1 =
      (settle step (work'.run t).1 (work'.run t).2).1 ∧
    (settle step (work.run s).1 (work.run s).2).2.Twin g false none
      (settle step (work'.run t).1 (work'.run t).2).2
  rw [hvalue.eq]
  exact twin_settle htwin step

theorem tallies_phaseStep {work work' : Guarded σ Unit} (h : TalliesRun g Eq work work') (p : Phase)
    (i : IterationIndex) : Tallies g false none (phaseStep p i work) (phaseStep p i work') :=
  tallies_bind (tallies_time _) fun _ => tallies_bind (tallies_attempt h _) fun _ =>
    tallies_bind (tallies_time _) fun _ => tallies_pure _

theorem tallies_listenerStep (p : Phase) (i : IterationIndex) :
    Tallies (σ := σ) g false none (listenerStep p i) (listenerStep p i) := by
  refine tallies_phaseStep ?_ p i
  cases p with
  | mobsim => exact talliesRun_pure _
  | _ => exact talliesRun_announce rfl

/-- Steps in a row. -/
theorem tallies_andThen {first first' rest rest' : Driven σ Progress}
    (h : Tallies g late owed first first') (h' : Tallies g late owed rest rest') :
    Tallies g late owed (do
        if (← first) = .aborted then return .aborted
        rest) (do
        if (← first') = .aborted then return .aborted
        rest') :=
  tallies_bind h fun _ => tallies_ite (tallies_pure _) h'

/-! ## Startup -/

theorem talliesRun_loadListeners :
    TalliesRun (σ := σ) g Eq loadListeners loadListeners := by
  refine talliesRun_get fun s t h => ?_
  refine talliesRun_bind (talliesRun_collaborate _ h.controller.listeners) fun ls ms hls => ?_
  have hregister : Tallies (σ := σ) g false none (registerCore ls) (registerCore ms) :=
    tallies_modify fun s t h => ⟨{ h.controller with
      bus := ListenerBus.alike_register_all h.controller.bus hls .core }, h.world⟩
  exact talliesRun_then (talliesRun_of hregister) fun _ =>
    talliesRun_collaborate _ h.controller.load

/-- The configuration is written, with and without the watch in it. -/
theorem talliesRun_writeConfiguration :
    TalliesRun (σ := σ) g Eq writeConfiguration writeConfiguration := by
  refine talliesRun_get fun s t h => ?_
  have htext := h.controller.text
  rw [h.controller.context]
  refine talliesRun_then (talliesRun_of (tallies_say _ _ _)) fun _ => ?_
  refine talliesRun_then (talliesRun_of (tallies_onWorld fun w v hw =>
    World.twin_writeText hw _ htext)) fun written => ?_
  cases written with
  | ok _ => exact talliesRun_pure _
  | error reason => exact talliesRun_failure _

theorem talliesRun_checkConfiguration :
    TalliesRun (σ := σ) g Eq checkConfiguration checkConfiguration := by
  refine talliesRun_get fun s t h => ?_
  have hcheck : s.controller.context.unwatched.configuration.check =
      s.controller.context.configuration.check := rfl
  rw [h.controller.context, hcheck]
  cases s.controller.context.configuration.check with
  | error i => exact talliesRun_failure _
  | ok warnings =>
      induction warnings with
      | nil => exact talliesRun_pure _
      | cons w rest ih => exact talliesRun_then (talliesRun_of (tallies_say _ _ _)) fun _ => ih

theorem tallies_startUp : Tallies (σ := σ) g false none startUp startUp := by
  refine tallies_bind (tallies_say _ _ _) fun _ => ?_
  refine tallies_andThen (tallies_attempt talliesRun_loadListeners _) ?_
  refine tallies_bind (tallies_say _ _ _) fun _ => ?_
  refine tallies_andThen (tallies_attempt (talliesRun_announce rfl) _) ?_
  refine tallies_andThen (tallies_attempt ?_ _) (tallies_attempt ?_ _)
  · exact talliesRun_then talliesRun_writeConfiguration fun _ => talliesRun_checkConfiguration
  · exact talliesRun_get fun s t h => talliesRun_collaborate _ h.controller.prepare

/-! ## Iterations -/

theorem tallies_beginIteration (i : IterationIndex) :
    Tallies (σ := σ) g false none (beginIteration i) (beginIteration i) := by
  refine tallies_phaseStep (talliesRun_then (talliesRun_get fun s t h => ?_) fun _ => ?_) _ i
  · rw [h.controller.context]
    refine talliesRun_ite (talliesRun_then (talliesRun_of (tallies_onWorld fun w v hw =>
      World.twin_onFiles hw (FileWork.blind_createIteration _ i))) fun made => ?_)
      (talliesRun_pure _)
    cases made with
    | ok _ => exact talliesRun_pure _
    | error f => exact talliesRun_failure _
  · exact talliesRun_then (talliesRun_of (tallies_seedAfresh i)) fun _ => talliesRun_announce rfl

theorem tallies_mobsimStep (i : IterationIndex) :
    Tallies (σ := σ) g false none (mobsimStep i) (mobsimStep i) := by
  refine tallies_phaseStep (talliesRun_then (talliesRun_of (tallies_seedAfresh i)) fun _ => ?_) _ i
  refine talliesRun_get fun s t h => ?_
  rw [h.world.generator]
  exact talliesRun_then (talliesRun_of (tallies_note _)) fun _ =>
    talliesRun_collaborate _ (h.controller.mobsim i)

theorem tallies_mobsimSteps (i : IterationIndex) :
    Tallies (σ := σ) g false none (mobsimSteps i) (mobsimSteps i) := by
  have hafter : ∀ mobsim : Progress, Tallies (σ := σ) g false none
      (do
        let after ← listenerStep .afterMobsim i
        return if mobsim = .aborted then .aborted else after)
      (do
        let after ← listenerStep .afterMobsim i
        return if mobsim = .aborted then .aborted else after) := fun mobsim =>
    tallies_bind (tallies_listenerStep _ i) fun _ => tallies_pure _
  refine tallies_bind (tallies_listenerStep _ i) fun before => ?_
  cases before with
  | proceed => exact tallies_bind (tallies_mobsimStep i) hafter
  | aborted => exact tallies_bind (tallies_pure _) hafter

theorem tallies_phases (i : IterationIndex) :
    Tallies (σ := σ) g false none (phases i) (phases i) := by
  refine tallies_get fun s t h => ?_
  rw [h.controller.context]
  refine tallies_andThen (tallies_beginIteration i) ?_
  have hrest := tallies_andThen (tallies_mobsimSteps (σ := σ) (g := g) i)
    (tallies_andThen (tallies_listenerStep .scoring i) (tallies_listenerStep .iterationEnd i))
  exact tallies_ite (tallies_andThen (tallies_listenerStep .replanning i) hrest) hrest

theorem tallies_writeOrWarn (name text warning : String) :
    Tallies (σ := σ) g late owed (writeOrWarn name text warning)
      (writeOrWarn name text warning) := by
  refine tallies_get fun s t h => ?_
  rw [h.controller.context]
  refine tallies_bind (tallies_onWorld fun w v hw => World.twin_writeText hw _ rfl)
    fun written => ?_
  cases written with
  | ok _ => exact tallies_pure _
  | error _ => exact tallies_say _ _ _

theorem tallies_writeTimes : Tallies (σ := σ) g late owed writeTimes writeTimes := by
  refine tallies_get fun s t h => ?_
  dsimp only
  rw [h.controller.context, h.controller.ledger]
  refine tallies_bind (tallies_note _) fun _ => tallies_bind (tallies_writeOrWarn _ _ _) fun _ => ?_
  exact tallies_ite (tallies_writeOrWarn _ _ _) (tallies_pure _)

theorem tallies_runThrough (i : IterationIndex) :
    Tallies (σ := σ) g false none (runThrough i) (runThrough i) := by
  refine tallies_bind (tallies_say _ _ _) fun _ => tallies_bind (tallies_say _ _ _) fun _ => ?_
  refine tallies_bind (tallies_time _) fun _ => tallies_bind (tallies_phases i) fun outcome => ?_
  refine tallies_bind (tallies_time _) fun _ => ?_
  cases outcome with
  | proceed =>
      refine tallies_bind tallies_writeTimes fun _ => ?_
      exact tallies_bind (tallies_say _ _ _) fun _ => tallies_bind (tallies_say _ _ _) fun _ =>
        tallies_pure _
  | aborted => exact tallies_pure _

/-- The answer to the question whether an iteration is to run is heeded alike, a panic too. -/
theorem twin_heed {s t : Session σ} {answer : Outcome Empty Bool}
    (h : s.Twin g false (Outcome.owed t.world.clock answer) t) (i : IterationIndex) :
    (heed i answer s).1 = (heed i answer t).1 ∧
      (heed i answer s).2.Twin g false none (heed i answer t).2 := by
  cases answer with
  | ok b => exact ⟨rfl, h.controller, h.world.noted _⟩
  | error a =>
      cases a with
      | failure e => exact nomatch e
      | panic x =>
          have htwin := twin_reportPanic h criterionOrigin
          rw [heed_run, heed_run]
          exact ⟨rfl, htwin.controller, htwin.world.noted _⟩

theorem tallies_heed {p q : Program σ Empty Bool} (h : Program.Alike g false Eq p q)
    (i : IterationIndex) :
    Tallies g false none (do heed i (← onWorld p.run)) (do heed i (← onWorld q.run)) := by
  intro s t hst
  obtain ⟨hvalue, htwin⟩ := World.endsAlike_run h hst.world
  have hanswered : Session.Twin g false
      (Outcome.owed (q.run t.world).2.clock (q.run t.world).1)
      (s.inWorld (p.run s.world).2) (t.inWorld (q.run t.world).2) := ⟨hst.controller, htwin⟩
  change (heed i (p.run s.world).1 _).1 = (heed i (q.run t.world).1 _).1 ∧
    (heed i (p.run s.world).1 (s.inWorld _)).2.Twin g false none
      (heed i (q.run t.world).1 (t.inWorld _)).2
  rw [hvalue.eq]
  exact twin_heed hanswered i

theorem tallies_wantsIteration (i : IterationIndex) :
    Tallies (σ := σ) g false none (wantsIteration i) (wantsIteration i) := by
  refine tallies_bind tallies_flag fun flag => ?_
  cases flag with
  | true => exact tallies_pure _
  | false =>
      exact tallies_get fun s t h => tallies_bind (tallies_note _) fun _ =>
        tallies_heed (h.controller.question i) i

/-- By induction on the number of indices that are left. -/
theorem tallies_iterateFrom (room : Nat) (i : IterationIndex) :
    Tallies (σ := σ) g false none (iterateFrom room i) (iterateFrom room i) := by
  induction room generalizing i with
  | zero => exact tallies_pure _
  | succ room ih =>
      refine tallies_bind (tallies_wantsIteration i) fun wanted => ?_
      cases wanted with
      | false =>
          refine tallies_bind tallies_flag fun flag => ?_
          exact tallies_ite (tallies_say _ _ _) (tallies_say _ _ _)
      | true =>
          have hlast : Tallies (σ := σ) g false none (setLast i) (setLast i) :=
            tallies_modify fun s t h => ⟨{ h.controller with last := rfl }, h.world⟩
          have hcount : Tallies (σ := σ) g false none countCompleted countCompleted :=
            tallies_modify fun s t h => ⟨{ h.controller with
              completed := by rw [h.controller.completed] }, h.world⟩
          refine tallies_bind hlast fun _ => tallies_bind (tallies_runThrough i) fun outcome => ?_
          cases outcome with
          | aborted => exact tallies_pure _
          | proceed =>
              refine tallies_bind hcount fun _ => ?_
              cases i.next? with
              | none => exact tallies_say _ _ _
              | some j => exact ih j

/-- All that comes before the teardown goes the same way with and without the watch. -/
theorem tallies_runToTeardown :
    Tallies (σ := σ) g false none runToTeardown runToTeardown := by
  refine tallies_bind (tallies_enter _) fun _ => tallies_bind tallies_startUp fun p => ?_
  cases p with
  | aborted => exact tallies_enter _
  | proceed =>
      refine tallies_bind (tallies_enter _) fun _ => ?_
      refine tallies_bind (tallies_get fun s t h => ?_) fun _ => tallies_enter _
      rw [h.controller.context]
      exact tallies_iterateFrom _ _

end Controller

end CommuteSim
