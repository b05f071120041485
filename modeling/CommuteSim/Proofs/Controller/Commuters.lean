import CommuteSim.Proofs.Commute.Headcount
import CommuteSim.Proofs.Controller.Scores

/-!
# Commuters of a run

In a run of the commuter simulation the population is complete from the beginning to the end,
whether or not the run is aborted and whatever other threads do. Every state that the population is
ever in is complete, so all that is said of complete populations holds throughout: the loads of all
routes account for every commuter, and no worker of a mobsim meets a route that it does not know.

Main statements: `does_steadily` for all that a run is made of, and `commuters_kept` for runs.
-/

namespace CommuteSim

variable {σ : Type}

namespace Controller

open Session (Aside Still Kept)
open World (Keeps round busOf)

variable {s : PopulationSettings} {launch : IterationIndex → Launch}
  {part : Part σ CommuteMemory} {J : σ → Prop} {i : IterationIndex} {c d : Controller σ}
  {w₀ : World σ}

/-- A controller drives the simulation of commuters. Who else works in the run keeps a property that
the simulation keeps. -/
structure Shelters (s : PopulationSettings) (launch : IterationIndex → Launch)
    (part : Part σ CommuteMemory) (J : σ → Prop) (c : Controller σ) : Prop where
  valid : s.problem? = none
  steady : Steady s part J
  simulation : c.simulation = CommuterSimulation.simulation s launch part
  users : ∀ l ∈ c.bus.user, ∀ e, (l.notify e).Keeps J
  criterion : ∀ q ∈ c.criterion, ∀ i, (q i).Keeps J

/-- Since the world `w₀` the memory has had a property, as far as anyone was told. -/
def Sheltered (J : σ → Prop) (w₀ w : World σ) : Prop := J w.memory ∧ Keeps J w₀ w

theorem Sheltered.keeps {w u : World σ} (h : Sheltered J w₀ w) (h' : Keeps J w u) :
    Sheltered J w₀ u :=
  ⟨h'.memory h.1, h.2.trans h'⟩

theorem kept_sheltered : Kept (Holds d (Sheltered J w₀)) :=
  kept_holds fun _ _ haside h => h.keeps haside.keeps

/-! ## Parts of a run -/

section Parts

variable (hd : Shelters s launch part J d)
include hd

theorem does_announce_sheltered (hbus : d.bus = busOf s part d.context d.bus.user) (e : Event) :
    Does (Holds d (Sheltered J w₀)) (announce e).run fun _ => Holds d (Sheltered J w₀) := by
  refine does_announce fun w hw => hw.keeps ?_
  rw [hbus]
  exact keeps_round hd.steady hd.users e w

omit hd in
/-- The generator is no part of the memory. -/
theorem does_seedAfresh_sheltered (i : IterationIndex) :
    Does (Holds d (Sheltered J w₀)) (seedAfresh i) fun _ => Holds d (Sheltered J w₀) := by
  rintro t ⟨hresembles, ht⟩
  have hseeded := t.world.becomes_update t.world.memory (t.controller.seeding.generator i)
    t.world.files
  exact ⟨hresembles.trans ⟨rfl, rfl, rfl, rfl, rfl⟩, ht.keeps (hseeded.toOnward.keeps id)⟩

theorem does_simulate_sheltered (i : IterationIndex) :
    Does (Holds d (Sheltered J w₀)) (simulate i).run fun _ => Holds d (Sheltered J w₀) := by
  rintro t ⟨hresembles, ht⟩
  let g := (t.seeded i).world.generator
  have hp : t.controller.simulation.mobsim t.controller.context i =
      CommuterSimulation.mobsim s (launch i) part i := by
    rw [hresembles.simulation, hd.simulation]
    rfl
  have hseeded : Keeps J t.world (t.seeded i).world :=
    (t.world.becomes_update t.world.memory g t.world.files).toOnward.keeps id
  have hnoted : Keeps J (t.seeded i).world ((t.seeded i).noted (.mobsim i g)).world :=
    World.keeps_noted fun _ _ _ _ _ hx => nomatch hx
  rw [(simulate_run i t).1, hp, collaborate_run]
  refine ⟨hresembles.trans ⟨rfl, rfl, rfl, rfl, rfl⟩, ?_⟩
  exact ((ht.keeps hseeded).keeps hnoted).keeps (World.keeps_run (keeps_mobsim hd.steady) _)

theorem does_prepare_sheltered :
    Does (Holds d (Sheltered J w₀)) prepare.run fun _ => Holds d (Sheltered J w₀) := by
  rintro t ⟨hresembles, ht⟩
  have hp : t.controller.simulation.prepare t.controller.context =
      CommuterSimulation.prepare s part := by
    rw [hresembles.simulation, hd.simulation]
    rfl
  rw [prepare_run, hp, collaborate_run]
  exact ⟨hresembles, ht.keeps (World.keeps_run (keeps_prepare hd.steady hd.valid) _)⟩

/-- Who is asked whether an iteration is to run keeps the property. -/
theorem Shelters.question {t : Session σ} (ht : d.Resembles t.controller) (i : IterationIndex) :
    (t.controller.question i).Keeps J := by
  intro w hw
  unfold Controller.question
  rw [ht.criterion, ht.simulation]
  cases hcriterion : d.criterion with
  | some q => exact hd.criterion q hcriterion i w hw
  | none =>
      dsimp only
      rw [hd.simulation]
      exact hw

end Parts

/-! ## Runs -/

section Runs

theorem Shelters.loaded (hc : Shelters s launch part J c) :
    Shelters s launch part J (loaded s part c) :=
  ⟨hc.valid, hc.steady, hc.simulation, hc.users, hc.criterion⟩

/-- All up to the teardown. -/
theorem does_opening_sheltered (hc : Shelters s launch part J c) (hcore : c.bus.core = []) :
    Does (Holds c (Sheltered J w₀)) runToTeardown fun _ =>
      Holds (loaded s part c) (Sheltered J w₀) := by
  have hround : ∀ e, Does (Holds (loaded s part c) (Sheltered J w₀)) (announce e).run fun _ =>
      Holds (loaded s part c) (Sheltered J w₀) := does_announce_sheltered hc.loaded rfl
  refine does_runToTeardown kept_sheltered kept_sheltered (does_loadListeners hc.simulation hcore)
    (hround _) (does_prepare_sheltered hc.loaded) (fun i t ht => ?_)
    (does_phases_of_rounds kept_sheltered hround does_seedAfresh_sheltered
      (does_simulate_sheltered hc.loaded))
  exact ⟨ht.1, ht.2.keeps (World.keeps_run (hc.loaded.question ht.1 i) t.world)⟩

/-- Whatever becomes of a run, a property that the simulation and all others keep is kept in it. -/
theorem sheltered_run {t : Session σ} (ht : Shelters s launch part J t.controller)
    (hidle : t.controller.stage = .idle) (hcore : t.controller.bus.core = [])
    (hfirst : J t.world.memory) : Sheltered J t.world (run t).2.world := by
  obtain ⟨hready, -, hend⟩ := run_parts hidle
  have hkeeps : Keeps J t.world (ready t).world := hready.world.aside.keeps
  have hopened : Holds (loaded s part t.controller) (Sheltered J t.world) (upToTeardown t) :=
    does_opening_sheltered ht hcore (ready t) ⟨hready.controller, hkeeps.memory hfirst, hkeeps⟩
  have hclosed := does_tearDown kept_sheltered
    (fun unexpected => does_announce_sheltered ht.loaded rfl (.shutdown unexpected))
    (upToTeardown t) hopened
  exact hclosed.2.keeps hend.world.aside.keeps

/-- What is kept of the commuters in a session: whoever is told of something, and whoever looks at
the end, finds that in all states so far every commuter was accounted for. -/
structure CommutersKept (s : PopulationSettings) (part : Part σ (Journal CommuteMemory))
    (l : List (Moment σ)) (m : σ) : Prop where
  told : ∀ tier k e m g, .told tier k e m g ∈ l →
    ∀ x ∈ (part.get m).states, Accounted s x.population
  last : ∀ x ∈ (part.get m).states, Accounted s x.population

/-- Whatever other threads do, and whether or not a run is aborted, in every state that the
population of the simulation is in all commuters are accounted for. -/
theorem commuters_kept {part : Part σ (Journal CommuteMemory)} {p : Plan σ} {t : Session σ}
    (hs : s.problem? = none) (ht : BuiltFrom p t.controller)
    (hp : p.simulation = some (CommuterSimulation.simulation s launch part.journaled))
    (husers : ∀ l ∈ t.controller.bus.user, ∀ e, (l.notify e).Leaves part)
    (hcriterion : ∀ q ∈ t.controller.criterion, ∀ i, (q i).Leaves part)
    (hmemory : part.get t.world.memory = ⟨CommuterSimulation.memory s, []⟩) :
    CommutersKept s part (runHistory t) (run t).2.world.memory := by
  let J : σ → Prop := fun m => ∀ x ∈ (part.get m).states, x.population.Complete s
  have hshelters : Shelters s launch part.journaled J t.controller :=
    { valid := hs
      steady := steady_journaled s part
      simulation := ht.simulation hp
      users := fun l hl e =>
        (husers l hl e).keeps fun j => ∀ x ∈ j.states, x.population.Complete s
      criterion := fun q hq i =>
        (hcriterion q hq i).keeps fun j => ∀ x ∈ j.states, x.population.Complete s }
  have hfirst : J t.world.memory := by
    intro x hx
    rw [hmemory] at hx
    rw [List.mem_singleton.mp hx]
    exact Population.complete_ofSize hs
  obtain ⟨hlast, hkeeps⟩ := sheltered_run hshelters ht.idle ht.core hfirst
  obtain ⟨l, hl, htold⟩ := hkeeps.past
  have hrun : runHistory t = l := by rw [runHistory, hl, List.drop_left]
  constructor
  · intro tier k e m g hm x hx
    rw [hrun] at hm
    exact accounted_of_complete (htold hfirst tier k e m g hm x hx)
  · exact fun x hx => accounted_of_complete (hlast x hx)

/-- Settings of three commuters; the mobsim of the first iteration is made to fail. -/
def threeFailing : PopulationSettings where
  agentCount := 3
  mobsimWorkers := 2
  failMobsimAt := some 0

/-- A plan for these commuters that keeps a journal of their states. -/
def journaledPlan : Plan (Journal CommuteMemory) where
  configuration := { controller := { lastIteration := 2 } }
  simulation := some
    (CommuterSimulation.simulation threeFailing (fun _ => .all id) Part.whole.journaled)

/-- A session of these commuters, in which another thread claims the teardown before the mobsim, and
interrupts the run when the first iteration is scored. -/
def journaledSession : Session (Journal CommuteMemory) where
  controller := ofPlan journaledPlan
    (CommuterSimulation.simulation threeFailing (fun _ => .all id) Part.whole.journaled)
  world :=
    { memory := ⟨CommuterSimulation.memory threeFailing, []⟩
      files := { entries := [(["output"], .directory)] }
      others := fun n => if n = 8 then [.claimTeardown] else if n = 16 then [.interrupt] else [] }

/-- The mobsim of that run fails where nobody hears of it, and still scores are given. In none of
the four states of the population a commuter is missing. -/
theorem commuters_kept_journaled :
    BuiltFrom journaledPlan journaledSession.controller ∧
      acts (runHistory journaledSession) =
        [.claimTeardown,
          .report "mobsim-worker-0" (.worker "mobsim-worker-0" (Mobsim.injected 0)), .interrupt] ∧
      .scoring 0 ∈ events (runHistory journaledSession) ∧
      (run journaledSession).2.world.memory.states.length = 4 ∧
      ∀ x ∈ (run journaledSession).2.world.memory.states,
        ((x.population.loads threeFailing.routes.length).map UInt32.toNat).sum = 3 := by
  have hbuilt : BuiltFrom journaledPlan journaledSession.controller :=
    builtFrom_ofPlan rfl { memory := ⟨{}, []⟩ } (by decide +kernel)
  have hkept : CommutersKept threeFailing .whole (runHistory journaledSession)
      (run journaledSession).2.world.memory :=
    commuters_kept (by decide +kernel) hbuilt rfl nofun nofun rfl
  have hran : acts (runHistory journaledSession) =
        [.claimTeardown,
          .report "mobsim-worker-0" (.worker "mobsim-worker-0" (Mobsim.injected 0)), .interrupt] ∧
      .scoring 0 ∈ events (runHistory journaledSession) ∧
      (run journaledSession).2.world.memory.states.length = 4 := by
    decide +kernel
  refine ⟨hbuilt, hran.1, hran.2.1, hran.2.2, fun x hx => ?_⟩
  have haccounted := hkept.last x hx
  rw [haccounted.loads]
  exact haccounted.total

end Runs

end Controller

end CommuteSim
