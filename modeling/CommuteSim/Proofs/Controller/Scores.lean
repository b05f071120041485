import CommuteSim.Proofs.Commute.Freshness
import CommuteSim.Proofs.Controller.Claims
import CommuteSim.Proofs.Controller.Upkeep

/-!
# Scores are never stale

A mobsim that discards its trips reports success all the same. What keeps stale trips from being
scored is that it discards them only where a shutdown was requested, that a step which finds the
flag raised aborts the run, and that the flag is never lowered. A mobsim that fails because one of
its workers got no thread raises the flag itself. The one way around that is a claim to the teardown
by someone else, after which faults no longer raise the flag.

Main statements: `does_mobsimStep` and `does_mobsimSteps` for the mobsim of an iteration,
`does_phases` for an iteration, `does_opening` for all up to the teardown, and `scores_fresh` for
runs.
-/

namespace CommuteSim

variable {σ : Type}

namespace Controller

open Session (Aside Still Kept)
open World (Fresh Arrived round busOf)

variable {s : PopulationSettings} {launch : IterationIndex → Launch}
  {part : Part σ CommuteMemory} {i : IterationIndex} {c d : Controller σ} {w₀ : World σ}

/-- A controller drives the simulation of commuters. Who else works in the run leaves the population
alone. -/
structure Hosts (s : PopulationSettings) (launch : IterationIndex → Launch)
    (part : Part σ CommuteMemory) (c : Controller σ) : Prop where
  simulation : c.simulation = CommuterSimulation.simulation s launch part
  users : ∀ l ∈ c.bus.user, ∀ e, (l.notify e).Spares part
  criterion : ∀ q ∈ c.criterion, ∀ i, (q i).Spares part

/-- A controller once the listeners of its simulation are loaded. -/
def loaded (s : PopulationSettings) (part : Part σ CommuteMemory) (c : Controller σ) :
    Controller σ :=
  { c with bus := busOf s part c.context c.bus.user }

/-! ## What is kept -/

/-- Unless the teardown was claimed, the history is fresh. -/
def Unstale (s : PopulationSettings) (part : Part σ CommuteMemory) (w₀ w : World σ) : Prop :=
  w.Present ∧ (w.coordinator.teardown = true ∨ Fresh s part w₀ w)

/-- A session of a controller that resembles `d`, in a world of a kind. -/
def Holds (d : Controller σ) (P : World σ → Prop) (t : Session σ) : Prop :=
  d.Resembles t.controller ∧ P t.world

section Kept

variable {w u : World σ}

theorem Unstale.spared (h : Unstale s part w₀ w) (h' : World.Spared part w u) :
    Unstale s part w₀ u := by
  obtain ⟨hpresent, hfresh⟩ := h
  exact ⟨h'.present hpresent, hfresh.imp h'.later.teardown fun hfresh => hfresh.spared h'⟩

theorem kept_holds {P : World σ → Prop} (h : ∀ w u, World.Aside w u → P w → P u) :
    Kept (Holds d P) :=
  fun _ _ haside hP => ⟨hP.1.trans haside.controller, h _ _ haside.world hP.2⟩

theorem kept_unstale : Kept (Holds d (Unstale s part w₀)) :=
  kept_holds fun _ _ haside h => h.spared haside.untouched.toSpared

theorem kept_fresh : Kept (Holds d (Fresh s part w₀)) :=
  kept_holds fun _ _ haside h => h.spared haside.untouched.toSpared

theorem does_announce {e : Event} {P Q : World σ → Prop}
    (h : ∀ w, P w → Q (round d.bus e w)) :
    Does (Holds d P) (announce e).run fun _ => Holds d Q := by
  rintro t ⟨hd, ht⟩
  rw [announce_run]
  refine ⟨hd, ?_⟩
  change Q (round t.controller.bus e t.world)
  rw [hd.bus]
  exact h _ ht

end Kept

/-! ## Loading -/

section Loading

theorem run_loadListeners {t : Session σ}
    (h : t.controller.simulation = CommuterSimulation.simulation s launch part) :
    loadListeners.run t = (.ok (), { t with controller := { t.controller with
      bus := (CommuterSimulation.listeners s part t.controller.context).foldl
        (fun b l => b.register l .core) t.controller.bus } }) := by
  let load (m : Simulation σ) : Guarded σ Unit := do
    let listeners ← collaborate (.setup Step.load.origin) (m.listeners t.controller.context)
    Guarded.of (registerCore listeners)
    collaborate (.setup Step.load.origin) (m.load t.controller.context)
  have hload : loadListeners.run t = (load t.controller.simulation).run t := rfl
  rw [hload, h]
  rfl

/-- The listeners of the simulation come to be the core listeners. -/
theorem register_listeners {b : ListenerBus σ} {k : Context} (h : b.core = []) :
    (CommuterSimulation.listeners s part k).foldl (fun b l => b.register l .core) b =
      busOf s part k b.user := by
  cases b with
  | mk core user =>
      obtain rfl : core = [] := h
      rfl

/-- Once the listeners of the simulation are loaded they are the core listeners. -/
theorem does_loadListeners {P : World σ → Prop}
    (hc : c.simulation = CommuterSimulation.simulation s launch part)
    (hcore : c.bus.core = []) :
    Does (Holds c P) loadListeners.run fun _ => Holds (loaded s part c) P := by
  rintro t ⟨hd, ht⟩
  rw [run_loadListeners (hd.simulation.trans hc)]
  refine ⟨⟨hd.context, hd.simulation, hd.criterion, ?_, hd.base⟩, ht⟩
  dsimp only
  rw [hd.bus, hd.context, register_listeners hcore]
  rfl

end Loading

/-! ## Iterations -/

section Iterations

variable (hd : Hosts s launch part d) (hbus : d.bus = busOf s part d.context d.bus.user)
include hd hbus

/-- A round that scores nothing. -/
theorem does_announce_unstale {e : Event} (h : ∀ i, e ≠ .scoring i) :
    Does (Holds d (Unstale s part w₀)) (announce e).run fun _ => Holds d (Unstale s part w₀) := by
  refine does_announce fun w hw => hw.spared ?_
  rw [hbus]
  by_cases hreplanning : ∃ i, e = .replanning i
  · obtain ⟨i, rfl⟩ := hreplanning
    exact World.spared_replanning hd.users
  · exact (World.untouched_round hd.users (fun i he => hreplanning ⟨i, he⟩) h).toSpared

/-- A phase that only tells listeners, and scores nothing. -/
theorem does_listenerStep {p : Phase} (hp : p ≠ .scoring) :
    Does (Holds d (Unstale s part w₀)) (listenerStep p i) fun _ => Holds d (Unstale s part w₀) := by
  refine does_mono (does_phaseStep kept_unstale kept_unstale ?_) (fun _ h => h) fun _ _ h => h.1
  cases p with
  | mobsim => exact does_pure fun _ h => h
  | scoring => exact absurd rfl hp
  | _ => exact does_announce_unstale hd hbus nofun

theorem does_beginIteration (i : IterationIndex) :
    Does (Holds d (Unstale s part w₀)) (beginIteration i) fun _ =>
      Holds d (Unstale s part w₀) := by
  refine does_mono (does_phaseStep kept_unstale kept_unstale ?_) (fun _ h => h) fun _ _ h => h.1
  refine does_bind_run (does_of_upholds (aside_makeDirectory i) kept_unstale) (fun _ => ?_)
    fun _ _ h => h
  refine does_bind_lift (Q := fun _ => Holds d (Unstale s part w₀)) ?_ fun _ =>
    does_announce_unstale hd hbus nofun
  -- seeding the generator leaves no trace in the history
  rintro t ⟨hresembles, ht⟩
  have hseeded := t.world.becomes_update t.world.memory (t.controller.seeding.generator i)
    t.world.files
  exact ⟨hresembles.trans ⟨rfl, rfl, rfl, rfl, rfl⟩, ht.spared (hseeded.toOnward.spared rfl)⟩

/-- Unless a shutdown was requested or the teardown claimed, all trips have been made. -/
def Simulated (s : PopulationSettings) (part : Part σ CommuteMemory) (i : IterationIndex)
    (w₀ w : World σ) : Prop :=
  Unstale s part w₀ w ∧ (w.coordinator.flag = false → w.coordinator.teardown = false →
    Arrived s part i w₀ w)

omit hd hbus in
theorem Simulated.untouched {w u : World σ} (h : Simulated s part i w₀ w)
    (h' : World.Untouched part w u) : Simulated s part i w₀ u := by
  refine ⟨h.1.spared h'.toSpared, fun hflag hopen => ?_⟩
  refine Arrived.untouched (h.2 ?_ ?_) h'
  · exact Bool.eq_false_iff.mpr fun hw => Bool.false_ne_true (hflag.symm.trans (h'.later.flag hw))
  · exact Bool.eq_false_iff.mpr fun hw =>
      Bool.false_ne_true (hopen.symm.trans (h'.later.teardown hw))

/-- What the work of the mobsim leaves: the trips have been made as far as that can be told, or the
work has failed. -/
def Attempted (s : PopulationSettings) (part : Part σ CommuteMemory) (i : IterationIndex)
    (w₀ : World σ) (result : Outcome Fault Unit) (w : World σ) : Prop :=
  result = .ok () ∧ Simulated s part i w₀ w ∨
    (∃ f, result = .error (.failure f)) ∧ Unstale s part w₀ w

omit hbus in
theorem does_simulate (i : IterationIndex) :
    Does (Holds d (Unstale s part w₀)) (simulate i).run fun result =>
      Holds d (Attempted s part i w₀ result) := by
  rintro t ⟨hresembles, ht⟩
  -- the mobsim runs in the world `w`, whose generator is noted
  let g := (t.seeded i).world.generator
  let w := ((t.seeded i).noted (.mobsim i g)).world
  have hp : t.controller.simulation.mobsim t.controller.context i =
      CommuterSimulation.mobsim s (launch i) part i := by
    rw [hresembles.simulation, hd.simulation]
    rfl
  have hseeded : World.Untouched part t.world (t.seeded i).world :=
    (t.world.becomes_update t.world.memory g t.world.files).toOnward.untouched rfl
  have hnoted : World.Untouched part (t.seeded i).world w :=
    World.untouched_noted rfl fun _ _ _ _ _ hx => nomatch hx
  have hw : Unstale s part w₀ w := ht.spared (hseeded.trans hnoted).toSpared
  have hspared := Mobsim.spared_mobsim s (launch i) part i w
  rw [(simulate_run i t).1, hp, collaborate_run]
  refine ⟨hresembles.trans ⟨rfl, rfl, rfl, rfl, rfl⟩, ?_⟩
  obtain ⟨f, hfails⟩ | hok := Mobsim.mobsim_ends s (launch i) part i w
  · exact .inr ⟨⟨_, congrArg (Except.mapError _) hfails⟩, hw.spared hspared⟩
  · refine .inl ⟨congrArg (Except.mapError _) hok, hw.spared hspared, fun hflag hopen => ?_⟩
    have hfresh : Fresh s part w₀ t.world := by
      refine ht.2.resolve_left fun h => ?_
      have hclaimed := ((hseeded.trans hnoted).toSpared.trans hspared).later.teardown h
      exact Bool.false_ne_true (hopen.symm.trans hclaimed)
    obtain ⟨l, hl, -⟩ := hfresh
    refine Mobsim.arrives_mobsim (l := l ++ [.mobsim i g]) hw.1 ?_ ?_ hok hflag hopen
    · change ((t.seeded i).world.noted (.mobsim i g)).past = _
      rw [World.past_noted, ← List.append_assoc, ← hl]
      rfl
    · exact List.mem_append_right l List.mem_cons_self

omit hbus in
/-- Unless a shutdown was requested or the teardown claimed by the end of the step of the mobsim,
all trips have been made: if the mobsim has failed, its fault was reported. -/
theorem does_mobsimStep (i : IterationIndex) :
    Does (Holds d (Unstale s part w₀)) (mobsimStep i) fun p t =>
      Holds d (Simulated s part i w₀) t ∧ (p = .proceed → t.world.coordinator.flag = false) := by
  have hkept : Kept (Holds d (Simulated s part i w₀)) :=
    kept_holds fun _ _ haside h => h.untouched haside.untouched
  refine does_phaseStep_of kept_unstale hkept (does_simulate hd i) ?_
  rintro result t ⟨hresembles, ⟨rfl, hsimulated⟩ | ⟨⟨f, rfl⟩, hunstale⟩⟩
  · exact hkept _ _ (aside_settle _ _ t) ⟨hresembles, hsimulated⟩
  · obtain ⟨hresembles', hunstale'⟩ :=
      kept_unstale _ _ (aside_settle (.phase .mobsim i) (.error (.failure f)) t)
        ⟨hresembles, hunstale⟩
    refine ⟨hresembles', hunstale', fun hflag hopen => ?_⟩
    rcases raised_settle (.phase .mobsim i) f t with h | h
    · exact absurd (hflag.symm.trans h) Bool.false_ne_true
    · exact absurd (hopen.symm.trans h) Bool.false_ne_true

/-- The trips have been made, unless the teardown was claimed. -/
def Scorable (s : PopulationSettings) (part : Part σ CommuteMemory) (i : IterationIndex)
    (w₀ w : World σ) : Prop :=
  Unstale s part w₀ w ∧ (w.coordinator.teardown = true ∨ Arrived s part i w₀ w)

omit hd hbus in
theorem Scorable.untouched {w u : World σ} (h : Scorable s part i w₀ w)
    (h' : World.Untouched part w u) : Scorable s part i w₀ u :=
  ⟨h.1.spared h'.toSpared, h.2.imp h'.later.teardown fun harrived => harrived.untouched h'⟩

/-- If the run goes on after the mobsim and the rounds around it, the trips have been made. -/
theorem does_mobsimSteps (i : IterationIndex) :
    Does (Holds d (Unstale s part w₀)) (mobsimSteps i) fun p t =>
      Holds d (Unstale s part w₀) t ∧ (p = .proceed → Holds d (Scorable s part i w₀) t) := by
  have hkeptScorable : Kept (Holds d (Scorable s part i w₀)) :=
    kept_holds fun _ _ haside h => h.untouched haside.untouched
  have haborted : Does (Holds d (Unstale s part w₀)) (do
      let after ← listenerStep .afterMobsim i
      return if Progress.aborted = .aborted then .aborted else after) fun p t =>
      Holds d (Unstale s part w₀) t ∧ (p = .proceed → Holds d (Scorable s part i w₀) t) := by
    refine does_bind (does_listenerStep hd hbus nofun) fun _ => does_pure fun t ht => ⟨ht, nofun⟩
  have hafter : Does (Holds d (Scorable s part i w₀)) (listenerStep .afterMobsim i) fun _ =>
      Holds d (Scorable s part i w₀) := by
    refine does_mono (does_phaseStep hkeptScorable hkeptScorable ?_) (fun _ h => h) fun _ _ h => h.1
    refine does_announce fun w hw => hw.untouched ?_
    rw [hbus]
    exact World.untouched_round hd.users nofun nofun
  refine does_bind (does_listenerStep hd hbus nofun) fun before => ?_
  cases before with
  | aborted => exact haborted
  | proceed =>
      refine does_bind (does_mobsimStep hd i) fun mobsim => ?_
      cases mobsim with
      | aborted => exact does_mono haborted (fun t ht => ⟨ht.1.1, ht.1.2.1⟩) fun _ _ h => h
      | proceed =>
          -- the step saw the flag down at its end
          have hsettled : ∀ t : Session σ, (Holds d (Simulated s part i w₀) t ∧
              (Progress.proceed = .proceed → t.world.coordinator.flag = false)) →
              Holds d (Scorable s part i w₀) t := by
            rintro t ⟨⟨hresembles, hunstale, harrived⟩, hflag⟩
            refine ⟨hresembles, hunstale, ?_⟩
            cases hopen : t.world.coordinator.teardown with
            | true => exact .inl rfl
            | false => exact .inr (harrived (hflag rfl) hopen)
          refine does_mono (does_bind hafter fun after => does_pure fun t ht => ?_) hsettled
            fun _ _ h => h
          exact ⟨⟨ht.1, ht.2.1⟩, fun _ => ht⟩

/-- The scoring of an iteration whose trips have been made. -/
theorem does_scoring (i : IterationIndex) :
    Does (Holds d (Scorable s part i w₀)) (listenerStep .scoring i) fun _ =>
      Holds d (Unstale s part w₀) := by
  have hkeptScorable : Kept (Holds d (Scorable s part i w₀)) :=
    kept_holds fun _ _ haside h => h.untouched haside.untouched
  refine does_mono (does_phaseStep hkeptScorable kept_unstale ?_) (fun _ h => h) fun _ _ h => h.1
  refine does_announce fun w hw => ?_
  obtain ⟨⟨hpresent, hfresh⟩, harrived⟩ := hw
  obtain ⟨hlater, hstays⟩ := World.later_round d.bus (.scoring i) w
  refine ⟨hstays hpresent, ?_⟩
  rcases hfresh with hclaimed | hfresh
  · exact .inl (hlater.teardown hclaimed)
  · rcases harrived with hclaimed | harrived
    · exact .inl (hlater.teardown hclaimed)
    · right
      rw [hbus]
      exact hfresh.scoring_round hd.users harrived

/-- An iteration scores its own trips, if any. -/
theorem does_phases (i : IterationIndex) :
    Does (Holds d (Unstale s part w₀)) (phases i) fun _ => Holds d (Unstale s part w₀) := by
  have hrest : Does (Holds d (Unstale s part w₀)) (do
      if (← mobsimSteps i) = .aborted then return .aborted
      if (← listenerStep .scoring i) = .aborted then return .aborted
      listenerStep .iterationEnd i) fun _ => Holds d (Unstale s part w₀) := by
    refine does_andThen (does_mobsimSteps hd hbus i) (fun _ h => h.1) ?_
    have hend : Does (Holds d (Unstale s part w₀)) (listenerStep .iterationEnd i) fun _ =>
        Holds d (Unstale s part w₀) :=
      does_listenerStep hd hbus nofun
    have hscoring := does_andThen (does_scoring hd hbus i) (fun _ h => h) hend
    exact does_mono hscoring (fun _ h => h.2 rfl) fun _ _ h => h
  refine does_look fun t => does_andThen (does_beginIteration hd hbus i) (fun _ h => h) ?_
  by_cases hfirst : t.controller.context.configuration.controller.firstIteration < i
  · simp only [if_pos hfirst]
    exact does_andThen (does_listenerStep hd hbus nofun) (fun _ h => h) hrest
  · simp only [if_neg hfirst]
    exact hrest

end Iterations

/-! ## Runs -/

section Runs

theorem does_prepare (hd : Hosts s launch part d) :
    Does (Holds d (Unstale s part w₀)) prepare.run fun _ => Holds d (Unstale s part w₀) := by
  rintro t ⟨hresembles, ht⟩
  have hp : t.controller.simulation.prepare t.controller.context =
      CommuterSimulation.prepare s part := by
    rw [hresembles.simulation, hd.simulation]
    rfl
  obtain ⟨-, hprepared⟩ := CommuterSimulation.becomes_prepare s part t.world
  rw [prepare_run, hp, collaborate_run]
  refine ⟨hresembles, ht.spared (hprepared.toOnward.spared ?_)⟩
  rw [hprepared.memory]
  exact scoresIn_repopulated (Population.map_assignRoutes (·.score) (fun _ _ => rfl) _ _ _)

/-- Who is asked whether an iteration is to run leaves the population alone. -/
theorem Hosts.question (hd : Hosts s launch part d) {t : Session σ}
    (ht : d.Resembles t.controller) (i : IterationIndex) :
    (t.controller.question i).Spares part := by
  intro w
  unfold Controller.question
  rw [ht.criterion, ht.simulation]
  cases hcriterion : d.criterion with
  | some q => exact hd.criterion q hcriterion i w
  | none =>
      dsimp only
      rw [hd.simulation]
      rfl

/-- All up to the teardown. -/
theorem does_opening (hc : Hosts s launch part c) (hcore : c.bus.core = []) :
    Does (Holds c (Unstale s part w₀)) runToTeardown fun _ =>
      Holds (loaded s part c) (Unstale s part w₀) := by
  have hd : Hosts s launch part (loaded s part c) := ⟨hc.simulation, hc.users, hc.criterion⟩
  refine does_runToTeardown kept_unstale kept_unstale (does_loadListeners hc.simulation hcore)
    (does_announce_unstale hd rfl nofun) (does_prepare hd) (fun i t ht => ?_) (does_phases hd rfl)
  have honward := World.onward_run (t.controller.question i) t.world
  exact ⟨ht.1, ht.2.spared (honward.untouched (hd.question ht.1 i t.world)).toSpared⟩

/-- The teardown scores nothing. -/
theorem does_closing (hd : Hosts s launch part d)
    (hbus : d.bus = busOf s part d.context d.bus.user) :
    Does (Holds d (Fresh s part w₀)) tearDown fun _ => Holds d (Fresh s part w₀) := by
  refine does_tearDown kept_fresh fun unexpected => does_announce fun w hw => hw.spared ?_
  have hround : World.Untouched part w
      (round (busOf s part d.context d.bus.user) (.shutdown unexpected) w) :=
    World.untouched_round hd.users nofun nofun
  rw [hbus]
  exact hround.toSpared

/-- Whatever other threads do but claim the teardown, in a run of the simulation only trips of the
iteration itself are scored: the mobsim of the iteration has made them for all commuters. The scores
that they earn stay until the next scoring. -/
theorem scores_fresh {p : Plan σ} {t : Session σ} (ht : BuiltFrom p t.controller)
    (hp : p.simulation = some (CommuterSimulation.simulation s launch part))
    (husers : ∀ l ∈ t.controller.bus.user, ∀ e, (l.notify e).Spares part)
    (hcriterion : ∀ q ∈ t.controller.criterion, ∀ i, (q i).Spares part)
    (hopen : t.world.coordinator.teardown = false)
    (hunclaimed : World.Unclaimed (runHistory t)) :
    let start := scoresIn part t.world.memory
    ScoredFresh s part start (runHistory t) ∧
      scoresIn part (run t).2.world.memory =
        lastScores s.utilityPerHour part start (runHistory t) := by
  have hsimulation := ht.simulation hp
  have hhosts : Hosts s launch part t.controller := ⟨hsimulation, husers, hcriterion⟩
  obtain ⟨hready, -, hend⟩ := run_parts ht.idle
  obtain ⟨l, n, hjourney, hhistory⟩ := opening_run ht.idle
  have hbound : (bound t).world.Present := World.present_setCoordinator _ _
  have hpresent : (ready t).world.Present := by
    unfold ready
    split
    · exact (still_watch (bound t)).world.present hbound
    · exact hbound
  have hfirst : Holds t.controller (Unstale s part t.world) (ready t) :=
    ⟨hready.controller, hpresent,
      .inr ((Fresh.refl s part t.world).spared hready.world.aside.untouched.toSpared)⟩
  obtain ⟨hresembles, -, hfresh⟩ := does_opening hhosts ht.core (ready t) hfirst
  have hfree : (upToTeardown t).world.coordinator.teardown = false := by
    rw [Session.teardown_journey hjourney fun h => hunclaimed ?_, hopen]
    rw [hhistory]
    exact List.mem_append_left n h
  have hloaded : Hosts s launch part (loaded s part t.controller) :=
    ⟨hsimulation, husers, hcriterion⟩
  have hclosed := does_closing hloaded rfl (upToTeardown t)
    ⟨hresembles, hfresh.resolve_left fun h => Bool.false_ne_true (hfree.symm.trans h)⟩
  obtain ⟨history, hpast, hscored, hlast⟩ := hclosed.2.spared hend.world.aside.untouched.toSpared
  have hrun : runHistory t = history := by rw [runHistory, hpast, List.drop_left]
  rw [hrun]
  exact ⟨hscored, hlast⟩

/-- The simulation of three commuters with two workers. -/
def threeCommuting : Simulation CommuteMemory :=
  CommuterSimulation.simulation { agentCount := 3, mobsimWorkers := 2 } (fun _ => .all id) .whole

/-- A plan for these commuters. -/
def threeCommuters : Plan CommuteMemory where
  configuration := { controller := { lastIteration := 2 } }
  simulation := some threeCommuting

/-- A session of these commuters that another thread interrupts once the first iteration is scored,
and in which it reports a fault later. -/
def disturbed : Session CommuteMemory where
  controller := ofPlan threeCommuters threeCommuting
  world :=
    { memory := CommuterSimulation.memory { agentCount := 3 }
      files := { entries := [(["output"], .directory)] }
      others := fun n =>
        if n = 20 then [.interrupt]
        else if n = 21 then [.report "monitor" (.worker "monitor" ⟨"late", []⟩)]
        else [] }

/-- The scores at the end of that run are those that the trips of its first iteration earned. -/
theorem scores_fresh_disturbed :
    BuiltFrom threeCommuters disturbed.controller ∧ World.Unclaimed (runHistory disturbed) ∧
      events (runHistory disturbed) =
        [.startup, .iterationStart 0, .beforeMobsim 0, .afterMobsim 0, .scoring 0, .iterationEnd 0,
          .iterationStart 1, .shutdown true] ∧
      acts (runHistory disturbed) =
        [.interrupt, .report "monitor" (.worker "monitor" ⟨"late", []⟩)] ∧
      ScoredFresh { agentCount := 3, mobsimWorkers := 2 } .whole [none, none, none]
        (runHistory disturbed) ∧
      (∃ m g, .told .core 1 (.scoring 0) m g ∈ runHistory disturbed ∧ Travelled .whole 0 m) ∧
      scoresIn .whole (run disturbed).2.world.memory =
        lastScores defaultUtilityPerHour .whole [none, none, none] (runHistory disturbed) := by
  have hbuilt : BuiltFrom threeCommuters disturbed.controller :=
    builtFrom_ofPlan rfl { memory := {} } (by decide +kernel)
  have hconfined : disturbed.controller.Confined Deed.Claimless :=
    ⟨claimless_simulation _ _ _, nofun, fun t _ h => by cases t <;> exact nomatch h⟩
  have hothers : disturbed.world.Claimless := by
    intro n h
    change .claimTeardown ∈ (if n = 20 then _ else if n = 21 then _ else _ : List ThreadAct) at h
    split at h
    · cases List.mem_singleton.mp h
    · split at h
      · cases List.mem_singleton.mp h
      · cases h
  have hunclaimed := unclaimed_run hconfined hothers
  obtain ⟨hfresh, hlast⟩ := scores_fresh hbuilt rfl nofun nofun rfl hunclaimed
  obtain ⟨hevents, hacts⟩ : events (runHistory disturbed) =
        [.startup, .iterationStart 0, .beforeMobsim 0, .afterMobsim 0, .scoring 0, .iterationEnd 0,
          .iterationStart 1, .shutdown true] ∧
      acts (runHistory disturbed) =
        [.interrupt, .report "monitor" (.worker "monitor" ⟨"late", []⟩)] := by
    decide +kernel
  have hround : .round (.scoring 0) ∈ runHistory disturbed :=
    mem_of_events (hevents ▸ by decide)
  obtain ⟨a, b, hsplit⟩ := List.append_of_mem hround
  obtain ⟨m, g, c, rfl⟩ := hfresh.round a 0 b hsplit
  rw [← List.singleton_append, ← List.append_assoc] at hsplit
  have htold : .told .core 1 (.scoring 0) m g ∈ runHistory disturbed := by
    rw [hsplit]
    exact List.mem_append_right _ List.mem_cons_self
  exact ⟨hbuilt, hunclaimed, hevents, hacts, hfresh,
    ⟨m, g, htold, (hfresh.told _ _ _ _ _ _ hsplit).1⟩, hlast⟩

end Runs

end Controller

end CommuteSim
