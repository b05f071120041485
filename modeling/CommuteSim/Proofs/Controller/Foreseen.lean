import CommuteSim.Proofs.Commute.Situations
import CommuteSim.Proofs.Controller.Scores

/-!
# Runs that go as foreseen

A run of the simulation that nobody disturbs goes as the forecast says. Each part of the run leads
from one situation to the next, so that the parts can be put together as the program does it. Only
the answers to the question whether an iteration is to run cannot be foreseen: they are known from
the history of the whole run, which holds all that was answered at any time.

Main statements: `comes_runThrough` for an iteration, `foresees_iterateFrom` for the loop,
`comes_tearDown` for the teardown, and `Undisturbed.foreseen` for runs.
-/

namespace CommuteSim

variable {σ α β : Type}

open World (busOf telling)

/-! ## Scenes -/

/-- What stays the same while a run goes from one situation to the next: the settings of the
population, its place in the memory, the controller but for its books, the world before the run, and
what files are to be like. -/
structure Scene (σ : Type) where
  settings : PopulationSettings
  part : Part σ CommuteMemory
  controller : Controller σ
  start : World σ
  course : FileCourse

namespace Scene

/-- What the run depends on. -/
def scenario (c : Scene σ) : Scenario := .of c.settings c.controller.context.configuration

/-- A session of a scene stands as a situation says. -/
structure Stands (c : Scene σ) (x : Situation) (t : Session σ) : Prop where
  controller : c.controller.Resembles t.controller
  completed : t.controller.completed = x.completed
  last : t.controller.last = x.last
  world : World.Matches c.part c.start c.course x t.world

/-- The scene of a simulation of commuters that nobody disturbs. -/
structure Peaceful (c : Scene σ) (schedule : IterationIndex → Schedule)
    (wanted : IterationIndex → Prop) : Prop where
  simulation :
    c.controller.simulation =
      CommuterSimulation.simulation c.settings (fun i => .all (schedule i)) c.part
  bus : c.controller.bus =
    busOf c.settings c.part c.controller.context c.controller.bus.user
  users : ∀ l ∈ c.controller.bus.user, ∀ e, (l.notify e).Observes c.part
  criterion : ∀ q ∈ c.controller.criterion, ∀ i, (q i).Discreet c.part
  base : c.controller.seeding.base = c.controller.context.configuration.global.randomSeed
  files : Accommodates c.settings c.controller.context wanted c.course

section Rules

variable {c : Scene σ} {x y : Situation} {t u : Session σ}

theorem Stands.still (h : c.Stands x t) (h' : Session.Still t u) : c.Stands x u :=
  ⟨h.controller.trans h'.controller, h'.completed.trans h.completed, h'.last.trans h.last,
    h.world.still h'.world⟩

/-- Work that is seen by nobody. -/
theorem comes_still {work : Driven σ Unit} (h : Upholds Session.Still work) :
    Comes (c.Stands x) work () (c.Stands x) :=
  fun t ht => ⟨rfl, ht.still (h t)⟩

/-- Work on the world alone. -/
theorem comes_onWorld {work : StateM (World σ) α} {v : α}
    (h : Comes (World.Matches c.part c.start c.course x) work v
      (World.Matches c.part c.start c.course y))
    (hcompleted : y.completed = x.completed) (hlast : y.last = x.last) :
    Comes (c.Stands x) (onWorld work) v (c.Stands y) := by
  intro t ht
  obtain ⟨hv, hworld⟩ := h t.world ht.world
  exact ⟨hv, ht.controller, ht.completed.trans hcompleted.symm, ht.last.trans hlast.symm, hworld⟩

theorem comes_flag :
    Comes (c.Stands x) (onWorld World.flag) x.trouble.isSome (c.Stands x) := by
  intro t ht
  have hstands := ht.still (Controller.still_onWorld World.still_flag t)
  exact ⟨hstands.world.flag, hstands⟩

/-! ## Guarded steps -/

/-- Whether the run goes on in a situation. -/
def progress (x : Situation) : Progress := if x.trouble.isSome then .aborted else .proceed

theorem progress_of_calm (h : x.trouble = none) : progress x = .proceed := by
  rw [progress, h]
  rfl

theorem progress_of_trouble (h : x.trouble.isSome = true) : progress x = .aborted := if_pos h

/-- After its work a step looks at the flag. -/
theorem comes_settle (step : Step) (result : Outcome Fault Unit)
    (h : Comes (c.Stands x) (Controller.disclose step.origin result) () (c.Stands y)) :
    Comes (c.Stands x) (Controller.settle step result) (progress y) (c.Stands y) := by
  refine comes_bind h (comes_bind comes_flag ?_)
  exact comes_bind (comes_still (Controller.still_note rfl)) (comes_pure _)

theorem comes_attempt {step : Step} {work : Guarded σ Unit}
    (h : Comes (c.Stands x) work.run (.ok ()) (c.Stands y)) :
    Comes (c.Stands x) (Controller.attempt step work) (progress y) (c.Stands y) :=
  comes_bind (comes_still (Controller.still_note rfl))
    (comes_bind h (comes_settle step (.ok ()) (comes_pure ())))

theorem comes_phaseStep {p : Phase} {i : IterationIndex} {work : Guarded σ Unit}
    (h : Comes (c.Stands x) work.run (.ok ()) (c.Stands y)) :
    Comes (c.Stands x) (Controller.phaseStep p i work) (progress y) (c.Stands y) :=
  comes_bind (comes_still (Controller.still_time _)) (comes_bind (comes_attempt h)
    (comes_bind (comes_still (Controller.still_time _)) (comes_pure _)))

/-- Steps in a row go on where the first one is over without trouble. -/
theorem comes_proceed {first rest : Driven σ Progress} {v : Progress} {Q : Session σ → Prop}
    (h : Comes (c.Stands x) first (progress y) (c.Stands y)) (hy : y.trouble = none)
    (h' : Comes (c.Stands y) rest v Q) :
    Comes (c.Stands x) (do
      if (← first) = .aborted then return .aborted
      rest) v Q := by
  rw [progress_of_calm hy] at h
  exact comes_bind h h'

theorem comes_aborted {first rest : Driven σ Progress}
    (h : Comes (c.Stands x) first (progress y) (c.Stands y)) (hy : y.trouble.isSome = true) :
    Comes (c.Stands x) (do
      if (← first) = .aborted then return .aborted
      rest) .aborted (c.Stands y) := by
  rw [progress_of_trouble hy] at h
  exact comes_bind h (comes_pure _)

/-- The first fault that is reported is the trouble from then on. -/
theorem comes_disclose_failure {origin : String} {f : Fault} (hx : x.trouble = none)
    (hopen : x.claimed = false) :
    Comes (c.Stands x) (Controller.disclose origin (.error (.failure f))) ()
      (c.Stands { x with trouble := some (origin, f) }) := by
  intro t ht
  let w := t.world
  have hyield := World.still_yield w
  have hmatches := ht.world.still hyield
  have hrecord := (hx ▸ hmatches.bears hopen).record ⟨f, origin, w.clock⟩
  have haside := World.aside_report origin f w
  have hreport := World.report_world origin f w
  have hcoordinator : (World.report origin f w).2.coordinator =
      ((World.yield w).2.coordinator.record ⟨f, origin, w.clock⟩).2 := by
    rw [hreport]
    exact World.coordinator_setCoordinator _ _
  have hdisclose : Controller.disclose origin (.error (.failure f)) t =
      ((), (onWorld (World.report origin f) t).2) := rfl
  rw [hdisclose, Controller.onWorld_apply]
  refine ⟨rfl, ht.controller, ht.completed, ht.last, ?_⟩
  change World.Matches c.part c.start c.course _ (World.report origin f w).2
  refine
    { present := haside.present ht.world.present
      alone := hmatches.alone
      flag := by rw [hcoordinator, hrecord.flag]; rfl
      teardown := by rw [hcoordinator, hrecord.teardown, hopen]
      fault := by rw [hcoordinator, hrecord.fault]; rfl
      memory := by rw [haside.memory]; exact ht.world.memory
      generator := by rw [haside.generator]; exact ht.world.generator
      files := hmatches.files
      past := ?_ }
  obtain ⟨l, hl, hasides⟩ := haside.past
  exact ht.world.past_append hl hasides

/-- A step that fails ends the run. -/
theorem comes_attempt_failure {step : Step} {work : Guarded σ Unit} {f : Fault}
    (hx : x.trouble = none) (hopen : x.claimed = false)
    (h : Comes (c.Stands x) work.run (.error (.failure f)) (c.Stands x)) :
    Comes (c.Stands x) (Controller.attempt step work) .aborted
      (c.Stands { x with trouble := some (step.origin, f) }) :=
  comes_bind (comes_still (Controller.still_note rfl))
    (comes_bind h (comes_settle step _ (comes_disclose_failure hx hopen)))

/-! ## Work of collaborators -/

/-- If no listener fails, then a session that notes a round tells all listeners of it. -/
theorem notify_of_telling {e : Event} {t : Session σ} (ht : c.Stands x t)
    (hok : (telling c.controller.bus e t.world).1 = .ok ()) :
    t.controller.bus.notify e (t.noted (.round e)).world =
      (.ok (c.controller.bus.order e.kind).length, (telling c.controller.bus e t.world).2) := by
  refine (World.notify_noted _ e _).trans ?_
  rw [ht.controller.bus, hok]
  rfl

theorem comes_announce {e : Event}
    (h : Comes (World.Matches c.part c.start c.course x) (telling c.controller.bus e) (.ok ())
      (World.Matches c.part c.start c.course y))
    (hcompleted : y.completed = x.completed) (hlast : y.last = x.last) :
    Comes (c.Stands x) (Controller.announce e).run (.ok ()) (c.Stands y) := by
  intro t ht
  obtain ⟨hok, hworld⟩ := h t.world ht.world
  rw [Controller.announce_run, notify_of_telling ht hok]
  exact ⟨rfl, ht.controller, ht.completed.trans hcompleted.symm, ht.last.trans hlast.symm, hworld⟩

theorem comes_collaborate {fault : Cause → Fault} {p : Program σ Cause Unit}
    (h : Comes (World.Matches c.part c.start c.course x) p.run (.ok ())
      (World.Matches c.part c.start c.course y))
    (hcompleted : y.completed = x.completed) (hlast : y.last = x.last) :
    Comes (c.Stands x) (Controller.collaborate fault p).run (.ok ()) (c.Stands y) := by
  intro t ht
  obtain ⟨hok, hworld⟩ := h t.world ht.world
  rw [Controller.collaborate_run, hok]
  exact ⟨rfl, ht.controller, ht.completed.trans hcompleted.symm, ht.last.trans hlast.symm, hworld⟩

/-! ## Files of the controller -/

/-- A file that can be written is written. -/
theorem comes_writeText {path text : String}
    (h : ∀ files, c.course x.scored x.begun files → ∃ files',
      files.writeText path text = .ok files' ∧ c.course x.scored x.begun files') :
    Comes (c.Stands x) (onWorld (World.writeText path text)) (.ok ()) (c.Stands x) := by
  refine comes_onWorld (fun w hw => ?_) rfl rfl
  obtain ⟨files', hwritten, hfiles⟩ := h w.files hw.files
  rw [World.run_writeText, hwritten]
  have hbecomes := w.becomes_update w.memory w.generator files'
  exact ⟨rfl, hw.becomes hbecomes hw.memory hw.generator hfiles (fun _ hs => hs) rfl rfl rfl⟩

/-- A file of the run may be written, or not; nothing else comes of it. -/
theorem comes_writeOrWarn {name text warning : String}
    (h : ∀ files files', c.course x.scored x.begun files →
      files.writeText (c.controller.context.output.file name) text = .ok files' →
        c.course x.scored x.begun files') :
    Comes (c.Stands x) (Controller.writeOrWarn name text warning) () (c.Stands x) := by
  refine comes_get fun t ht => ?_
  have hwrite : Does (c.Stands x)
      (onWorld (World.writeText (t.controller.context.output.file name) text)) fun _ =>
        c.Stands x := by
    intro u hu
    rw [Controller.onWorld_apply, ht.controller.context, World.run_writeText]
    cases hwritten : u.world.files.writeText (c.controller.context.output.file name) text with
    | ok files' =>
        have hbecomes := u.world.becomes_update u.world.memory u.world.generator files'
        have hfiles := h u.world.files files' hu.world.files hwritten
        exact ⟨hu.controller, hu.completed, hu.last, hu.world.becomes hbecomes hu.world.memory
          hu.world.generator hfiles (fun _ hs => hs) rfl rfl rfl⟩
    | error reason => exact hu
  refine does_bind hwrite fun written => ?_
  cases written with
  | ok _ => exact comes_pure ()
  | error _ => exact comes_still (Controller.still_say .warning warning)

end Rules

/-! ## Parts of a run -/

section Parts

variable {c : Scene σ} {x y : Situation} {schedule : IterationIndex → Schedule}
  {wanted : IterationIndex → Prop} {i : IterationIndex}

/-! ### Before the first iteration -/

/-- The configuration is written. -/
theorem comes_writeConfiguration (hc : c.Peaceful schedule wanted) (hscored : x.scored = [])
    (hbegun : x.begun = none) :
    Comes (c.Stands x) Controller.writeConfiguration.run (.ok ()) (c.Stands x) := by
  refine comes_get_run fun t ht => ?_
  refine comes_bind_lift (comes_still (Controller.still_say _ _)) ?_
  refine comes_bind_lift (comes_writeText fun files hfiles => ?_) (comes_pure _)
  rw [hscored, hbegun] at hfiles ⊢
  rw [ht.controller.context]
  exact hc.files.dumps files _ hfiles

theorem comes_checkConfiguration
    (h : c.controller.context.configuration.inconsistency? = none) :
    Comes (c.Stands x) Controller.checkConfiguration.run (.ok ()) (c.Stands x) := by
  refine comes_get_run fun t ht => ?_
  have hcheck : t.controller.context.configuration.check =
      .ok t.controller.context.configuration.warnings := by
    rw [Configuration.check, ht.controller.context, h]
  rw [hcheck]
  dsimp only
  induction t.controller.context.configuration.warnings with
  | nil => exact comes_pure _
  | cons w rest ih => exact comes_bind_lift (comes_still (Controller.still_say _ _)) ih

/-- A configuration that is inconsistent is refused. -/
theorem comes_checkConfiguration_of_inconsistent {p : Inconsistency}
    (h : c.controller.context.configuration.inconsistency? = some p) :
    Comes (c.Stands x) Controller.checkConfiguration.run
      (.error (.failure (.setup Step.check.origin ⟨p.message, []⟩))) (c.Stands x) := by
  refine comes_get_run fun t ht => ?_
  have hcheck : t.controller.context.configuration.check = .error p := by
    rw [Configuration.check, ht.controller.context, h]
  rw [hcheck]
  exact comes_pure _

/-- All commuters are given routes. -/
theorem comes_prepare (hc : c.Peaceful schedule wanted)
    (hg : x.generator = some (.ofSeed c.scenario.seed)) :
    Comes (c.Stands x) Controller.prepare.run (.ok ()) (c.Stands (x.prepares c.scenario)) := by
  refine comes_get_run fun t ht => ?_
  dsimp only
  rw [ht.controller.simulation, hc.simulation]
  exact comes_collaborate (fun w hw => World.matches_prepare rfl hg hw) rfl rfl

/-! ### Rounds -/

/-- A round in which no listener of the simulation is told. -/
theorem comes_rounds (hc : c.Peaceful schedule wanted) {e : Event}
    (hnobody : ∀ k, CommuterSimulation.told c.settings c.part k e.kind = [])
    (hend : ∀ i, e = .iterationEnd i → (i, x.memory) ∈ x.scored) :
    Comes (c.Stands x) (Controller.announce e).run (.ok ()) (c.Stands (x.rounds e)) := by
  refine comes_announce (fun w hw => ?_) rfl rfl
  rw [hc.bus]
  exact World.matches_rounds hc.users (hnobody _) hend hw

theorem comes_replanning (hc : c.Peaceful schedule wanted)
    (hg : x.generator = some (c.scenario.generator i)) :
    Comes (c.Stands x) (Controller.announce (.replanning i)).run (.ok ())
      (c.Stands (x.replans c.scenario i)) := by
  refine comes_announce (fun w hw => ?_) rfl rfl
  rw [hc.bus]
  exact World.matches_replanning hc.users rfl hg hw

theorem comes_scoring (hc : c.Peaceful schedule wanted) (hi : wanted i)
    (hnew : ∀ a ∈ x.scored, a.1 ≠ i) (hbegun : x.begun = some i) :
    Comes (c.Stands x) (Controller.announce (.scoring i)).run (.ok ())
      (c.Stands (x.scores c.scenario i)) := by
  refine comes_announce (fun w hw => ?_) rfl rfl
  rw [hc.bus]
  exact World.matches_scoring hc.users rfl hc.files hi hnew hbegun hw

/-! ### Iterations -/

/-- The directory of an iteration is made if it is to have one. -/
theorem comes_makeDirectory (hc : c.Peaceful schedule wanted) (hi : wanted i)
    (hnew : ∀ a ∈ x.scored, a.1 ≠ i) :
    Comes (c.Stands x) (Controller.makeDirectory i).run (.ok ())
      (c.Stands { x with begun := some i }) := by
  refine comes_get_run fun t ht => ?_
  rw [ht.controller.context]
  dsimp only
  split
  · rename_i hdirectories
    refine comes_bind_lift (v := .ok ()) (Q := c.Stands { x with begun := some i })
      (comes_onWorld (fun w hw => ?_) rfl rfl) (comes_pure _)
    have hbegins := hc.files.begins x.scored x.begun i w.files hi hnew hw.files
    rw [if_pos hdirectories] at hbegins
    obtain ⟨j, hj, hfiles⟩ := hbegins
    have hbecomes := World.becomes_onFiles (c.controller.context.output.createIteration i) w
    have hresult : (World.onFiles (c.controller.context.output.createIteration i) w).1 =
        ((c.controller.context.output.createIteration i).run.run { files := w.files }).1 := rfl
    rw [hj] at hbecomes hresult
    exact ⟨hresult, hw.becomes hbecomes hw.memory hw.generator hfiles (fun _ hs => hs) rfl rfl rfl⟩
  · rename_i hdirectories
    intro u hu
    have hbegins := hc.files.begins x.scored x.begun i u.world.files hi hnew hu.world.files
    rw [if_neg hdirectories] at hbegins
    have hbecomes := World.Still.refl u.world
    exact ⟨rfl, hu.controller, hu.completed, hu.last, hu.world.becomes hbecomes hu.world.memory
      hu.world.generator hbegins (fun _ hs => hs) rfl rfl rfl⟩

/-- The generator is seeded for an iteration. -/
theorem comes_seedAfresh (hc : c.Peaceful schedule wanted) (i : IterationIndex) :
    Comes (c.Stands x) (Controller.seedAfresh i) ()
      (c.Stands { x with generator := some (c.scenario.generator i) }) := by
  intro t ht
  let g := t.controller.seeding.generator i
  have hg : g = c.scenario.generator i := by
    change Generator.reseeded (iterationSeed t.controller.seeding.base i) = _
    rw [ht.controller.base, hc.base]
    rfl
  have hbecomes := t.world.becomes_update t.world.memory g t.world.files
  refine ⟨rfl, ht.controller.trans ⟨rfl, rfl, rfl, rfl, rfl⟩, ht.completed, ht.last, ?_⟩
  exact ht.world.becomes hbecomes ht.world.memory (fun _ h => hg.trans (Option.some.inj h))
    ht.world.files (fun _ hs => hs) rfl rfl rfl

theorem comes_beginIteration (hc : c.Peaceful schedule wanted) (hi : wanted i)
    (hnew : ∀ a ∈ x.scored, a.1 ≠ i) :
    Comes (c.Stands x) (Controller.beginIteration i) (progress (x.begins c.scenario i))
      (c.Stands (x.begins c.scenario i)) := by
  refine comes_phaseStep ?_
  refine comes_bind_run (comes_makeDirectory hc hi hnew) ?_
  exact comes_bind_lift (comes_seedAfresh hc i) (comes_rounds hc (fun _ => rfl) nofun)

/-- The mobsim comes to what is foreseen. -/
theorem comes_simulate (hc : c.Peaceful schedule wanted) (hcalm : x.trouble = none)
    (hopen : x.claimed = false)
    (hknown : ∀ d ∈ x.memory.population, d.route < c.settings.routes.length) :
    Comes (c.Stands x) (Controller.simulate i).run (.ok ())
      (c.Stands (x.simulates c.scenario i)) := by
  let y : Situation := { x with generator := some (c.scenario.generator i) }
  refine comes_bind_lift (comes_seedAfresh hc i) (comes_get_run fun t ht => ?_)
  have hnote : Comes (c.Stands y) (onWorld (World.note (.mobsim i t.world.generator))) ()
      (c.Stands y) := by
    refine comes_onWorld (fun w hw => ⟨rfl, ?_⟩) rfl rfl
    have hnoted := hw.noted (m := .mobsim i t.world.generator) fun _ _ _ _ hm => nomatch hm
    have hunseen : (Moment.mobsim i t.world.generator).sight? c.part = none := rfl
    rwa [hunseen, Option.toList_none, List.append_nil] at hnoted
  refine comes_bind_lift hnote ?_
  rw [ht.controller.simulation, hc.simulation]
  refine comes_collaborate (fun w hw => ?_) rfl rfl
  exact World.matches_mobsim (x := y) (schedule i) rfl rfl hcalm hopen hknown hw

/-- The mobsim with the rounds before and after it. -/
theorem comes_mobsimSteps (hc : c.Peaceful schedule wanted) (hcalm : x.trouble = none)
    (hopen : x.claimed = false)
    (hknown : ∀ d ∈ x.memory.population, d.route < c.settings.routes.length) :
    Comes (c.Stands x) (Controller.mobsimSteps i) (progress (x.travels c.scenario i))
      (c.Stands (x.travels c.scenario i)) := by
  let before := x.rounds (.beforeMobsim i)
  let simulated := before.simulates c.scenario i
  have hbefore : Comes (c.Stands x) (Controller.listenerStep .beforeMobsim i) (progress before)
      (c.Stands before) :=
    comes_phaseStep (comes_rounds (e := .beforeMobsim i) hc (fun _ => rfl) nofun)
  have hmobsim : Comes (c.Stands before) (Controller.mobsimStep i) (progress simulated)
      (c.Stands simulated) :=
    comes_phaseStep (comes_simulate hc hcalm hopen hknown)
  have hafter : Comes (c.Stands simulated) (Controller.listenerStep .afterMobsim i)
      (progress simulated) (c.Stands (x.travels c.scenario i)) :=
    comes_phaseStep (comes_rounds (e := .afterMobsim i) hc (fun _ => rfl) nofun)
  have hproceed : progress before = .proceed := progress_of_calm hcalm
  have hend : (if progress simulated = .aborted then .aborted else progress simulated) =
      progress simulated := by
    split
    · rename_i h
      exact h.symm
    · rfl
  rw [hproceed] at hbefore
  refine comes_bind hbefore (comes_bind hmobsim (comes_bind hafter ?_))
  rw [hend]
  exact comes_pure _

/-- An iteration whose mobsim was without trouble is scored and ends. -/
theorem comes_scored (hc : c.Peaceful schedule wanted) (hi : wanted i)
    (hcalm : x.trouble = none) (hnew : ∀ a ∈ x.scored, a.1 ≠ i) (hbegun : x.begun = some i) :
    let scored := x.scores c.scenario i
    Comes (c.Stands x) (do
      if (← Controller.listenerStep .scoring i) = .aborted then return .aborted
      Controller.listenerStep .iterationEnd i) (progress (scored.rounds (.iterationEnd i)))
      (c.Stands (scored.rounds (.iterationEnd i))) := by
  intro scored
  have hscoring : Comes (c.Stands x) (Controller.listenerStep .scoring i) (progress scored)
      (c.Stands scored) :=
    comes_phaseStep (comes_scoring hc hi hnew hbegun)
  refine comes_proceed hscoring hcalm
    (comes_phaseStep (comes_rounds hc (fun _ => rfl) fun j hj => ?_))
  rw [← Event.iterationEnd.inj hj]
  exact List.mem_append_right _ (List.mem_singleton.mpr rfl)

/-- An iteration from its mobsim on, which is the end of it if it comes to trouble. -/
theorem comes_fromMobsim (hc : c.Peaceful schedule wanted) (hi : wanted i)
    (hsound : x.Sound c.scenario i) (hopen : x.claimed = false) :
    Comes (c.Stands (x.opens c.scenario i)) (do
      if (← Controller.mobsimSteps i) = .aborted then return .aborted
      if (← Controller.listenerStep .scoring i) = .aborted then return .aborted
      Controller.listenerStep .iterationEnd i) (progress (x.iterates c.scenario i))
      (c.Stands (x.iterates c.scenario i)) := by
  have hopens := Situation.undecided_opens c.scenario i x
  let travelled := (x.opens c.scenario i).travels c.scenario i
  have hmobsim : Comes (c.Stands (x.opens c.scenario i)) (Controller.mobsimSteps i)
      (progress travelled) (c.Stands travelled) :=
    comes_mobsimSteps hc (hopens.trouble.trans hsound.calm) (hopens.claimed.trans hopen)
      (Situation.known_opens hsound.known)
  cases htrouble : travelled.trouble with
  | some f =>
      have hsome : travelled.trouble.isSome = true := by rw [htrouble]; rfl
      have hiterates : x.iterates c.scenario i = travelled := if_pos hsome
      rw [hiterates, progress_of_trouble hsome]
      exact comes_aborted hmobsim hsome
  | none =>
      have hnone : ¬ travelled.trouble.isSome = true := by
        rw [htrouble]
        exact Bool.false_ne_true
      have hiterates : x.iterates c.scenario i =
          (travelled.scores c.scenario i).rounds (.iterationEnd i) := if_neg hnone
      have hnew : ∀ a ∈ travelled.scored, a.1 ≠ i := fun a ha =>
        UInt32.ne_of_lt (hsound.earlier a (hopens.scored ▸ ha))
      rw [hiterates]
      exact comes_proceed hmobsim htrouble
        (comes_scored hc hi htrouble hnew (Situation.begun_opens c.scenario i x))

/-- An iteration goes through its phases. -/
theorem comes_phases (hc : c.Peaceful schedule wanted) (hi : wanted i)
    (hsound : x.Sound c.scenario i) (hopen : x.claimed = false) :
    Comes (c.Stands x) (Controller.phases i) (progress (x.iterates c.scenario i))
      (c.Stands (x.iterates c.scenario i)) := by
  let opened := x.opens c.scenario i
  have hcalm : opened.trouble = none :=
    (Situation.undecided_opens c.scenario i x).trouble.trans hsound.calm
  have hrest := comes_fromMobsim hc hi hsound hopen
  refine comes_get fun t ht => ?_
  have hfirst : t.controller.context.configuration.controller.firstIteration =
      c.scenario.first := by
    rw [ht.controller.context]
    rfl
  have hnew : ∀ a ∈ x.scored, a.1 ≠ i := fun a ha => UInt32.ne_of_lt (hsound.earlier a ha)
  rw [hfirst]
  refine comes_proceed (comes_beginIteration hc hi hnew) hsound.calm ?_
  by_cases hlater : c.scenario.first < i
  · have hopened : opened = (x.begins c.scenario i).replans c.scenario i := if_pos hlater
    have hreplanning : Comes (c.Stands (x.begins c.scenario i))
        (Controller.listenerStep .replanning i) (progress opened) (c.Stands opened) := by
      rw [hopened]
      exact comes_phaseStep (comes_replanning hc rfl)
    simp only [if_pos hlater]
    exact comes_proceed hreplanning hcalm hrest
  · have hopened : opened = x.begins c.scenario i := if_neg hlater
    rw [show x.opens c.scenario i = _ from hopened] at hrest
    simp only [if_neg hlater]
    exact hrest

/-- The operation times are written, or not. -/
theorem comes_writeTimes (hc : c.Peaceful schedule wanted) (y : Situation) :
    Comes (c.Stands y) Controller.writeTimes () (c.Stands y) := by
  refine comes_get fun t ht => comes_bind (comes_still (Controller.still_note rfl)) ?_
  have hwrite : ∀ name ∈ Controller.timesFiles c.controller.context.configuration,
      ∀ text warning,
        Comes (c.Stands y) (Controller.writeOrWarn name text warning) () (c.Stands y) :=
    fun name hname text warning => comes_writeOrWarn fun files files' hfiles hwritten =>
      hc.files.times name hname _ _ files files' text hfiles hwritten
  refine comes_bind (hwrite _ List.mem_cons_self _ _) ?_
  split
  · rename_i hgraphs
    rw [ht.controller.context] at hgraphs
    refine hwrite _ (List.mem_cons_of_mem _ ?_) _ _
    rw [if_pos hgraphs]
    exact List.mem_singleton.mpr rfl
  · exact comes_pure ()

/-- An iteration. -/
theorem comes_runThrough (hc : c.Peaceful schedule wanted) (hi : wanted i)
    (hsound : x.Sound c.scenario i) (hopen : x.claimed = false) :
    Comes (c.Stands x) (Controller.runThrough i) (progress (x.iterates c.scenario i))
      (c.Stands (x.iterates c.scenario i)) := by
  have hsay : ∀ (y : Situation) (level : LogLevel) (message : String),
      Comes (c.Stands y) (onWorld (World.say level message)) () (c.Stands y) :=
    fun _ level message => comes_still (Controller.still_say level message)
  refine comes_bind (hsay x _ _) (comes_bind (hsay x _ _) ?_)
  refine comes_bind (comes_still (Controller.still_time _)) ?_
  refine comes_bind (comes_phases hc hi hsound hopen) ?_
  refine comes_bind (comes_still (Controller.still_time _)) ?_
  split
  · refine comes_bind (comes_writeTimes hc _) (comes_bind (hsay _ _ _) (comes_bind (hsay _ _ _) ?_))
    exact comes_pure _
  · exact comes_pure _

/-- An iteration is noted as the last one before it is begun. -/
theorem comes_setLast (i : IterationIndex) :
    Comes (c.Stands x) (Controller.setLast i) () (c.Stands { x with last := some i }) :=
  fun u hu => ⟨rfl, hu.controller.trans ⟨rfl, rfl, rfl, rfl, rfl⟩, hu.completed, rfl,
    hu.world.becomes (World.Still.refl u.world) hu.world.memory hu.world.generator hu.world.files
      (fun _ hs => hs) rfl rfl rfl⟩

/-- An iteration that is over is counted. -/
theorem comes_countCompleted :
    Comes (c.Stands x) Controller.countCompleted () (c.Stands x.counts) :=
  fun u hu => ⟨rfl, hu.controller.trans ⟨rfl, rfl, rfl, rfl, rfl⟩,
    congrArg (fun n => min (n + 1) 0xFFFFFFFF) hu.completed, hu.last,
    hu.world.becomes (World.Still.refl u.world) hu.world.memory hu.world.generator hu.world.files
      (fun _ hs => hs) rfl rfl rfl⟩

end Parts

end Scene

/-! ## Questions and their answers -/

/-- A session that has gone on keeps its history. -/
def Session.Grows (s u : Session σ) : Prop := ∃ l, u.world.past = s.world.past ++ l

namespace Session

theorem Grows.refl (s : Session σ) : Grows s s := ⟨[], (List.append_nil _).symm⟩

theorem Grows.trans {s t u : Session σ} (h : Grows s t) (h' : Grows t u) : Grows s u := by
  obtain ⟨l, hl⟩ := h
  obtain ⟨m, hm⟩ := h'
  exact ⟨l ++ m, by rw [hm, hl, List.append_assoc]⟩

instance : Std.Refl (Grows (σ := σ)) := ⟨Grows.refl⟩

instance : Trans (Grows (σ := σ)) Grows Grows := ⟨Grows.trans⟩

end Session

namespace Controller

theorem grows_of_follows {stretch : Stretch} {work : Driven σ α}
    {L : Context → α → List (Moment σ) → Prop} (h : ∀ k, Follows stretch k work (L k)) :
    Upholds Session.Grows work := by
  intro s
  obtain ⟨l, hl, -⟩ := h s.controller.context s rfl
  exact ⟨l, Session.past_journey hl⟩

theorem grows_of_still {work : Driven σ α} (h : Upholds Session.Still work) :
    Upholds Session.Grows work := by
  intro s
  obtain ⟨l, hl, -⟩ := (h s).world.past
  exact ⟨l, hl⟩

end Controller

namespace Scene

open Session (Grows)

/-- Work that goes as foreseen if all that has happened up to its end is part of a history. -/
def Foresees (c : Scene σ) (H : List (Moment σ)) (x : Situation) (work : Driven σ α) (v : α)
    (y : Situation) : Prop :=
  ∀ t, c.Stands x t → (work t).2.world.past.drop c.start.past.length ⊆ H →
    (work t).1 = v ∧ c.Stands y (work t).2

section Questions

variable {c : Scene σ} {H : List (Moment σ)} {x y z : Situation}
  {schedule : IterationIndex → Schedule} {wanted : IterationIndex → Prop} {i : IterationIndex}

theorem foresees_of_comes {work : Driven σ α} {v : α}
    (h : Comes (c.Stands x) work v (c.Stands y)) : c.Foresees H x work v y :=
  fun t ht _ => h t ht

theorem foresees_after {work : Driven σ α} {next : α → Driven σ β} {v : α} {r : β}
    (h : Comes (c.Stands x) work v (c.Stands y)) (h' : c.Foresees H y (next v) r z) :
    c.Foresees H x (work >>= next) r z := by
  intro t ht hpast
  obtain ⟨hv, hy⟩ := h t ht
  rw [Controller.apply_bind, hv] at hpast ⊢
  exact h' _ hy hpast

/-- What has happened up to some time is part of a history that holds all that happens later. -/
theorem subset_of_grows {t u : Session σ} (h : Grows t u) {n : Nat}
    (hu : u.world.past.drop n ⊆ H) : t.world.past.drop n ⊆ H := by
  obtain ⟨l, hl⟩ := h
  rw [hl, List.drop_append] at hu
  exact fun m hm => hu (List.mem_append_left _ hm)

theorem foresees_before {work : Driven σ α} {next : α → Driven σ β} {v : α} {r : β}
    (h : c.Foresees H x work v y) (hnext : ∀ a, Upholds Grows (next a))
    (h' : Comes (c.Stands y) (next v) r (c.Stands z)) : c.Foresees H x (work >>= next) r z := by
  intro t ht hpast
  rw [Controller.apply_bind] at hpast ⊢
  obtain ⟨hv, hy⟩ := h t ht (subset_of_grows (hnext (work t).1 (work t).2) hpast)
  rw [hv]
  exact h' _ hy

theorem question_of_resembles {d : Controller σ} (h : c.controller.Resembles d)
    (i : IterationIndex) : d.question i = c.controller.question i := by
  unfold Controller.question
  rw [h.criterion, h.simulation, h.context]

/-- Whoever is asked changes nothing that can be foreseen. -/
theorem stands_asked (hc : c.Peaceful schedule wanted) {u : Session σ} (hu : c.Stands x u)
    (i : IterationIndex) : c.Stands x.asks (onWorld (c.controller.question i).run u).2 := by
  have hdiscreet : (c.controller.question i).Discreet c.part := by
    unfold Controller.question
    rw [hc.simulation]
    cases hcriterion : c.controller.criterion with
    | some q => exact hc.criterion q hcriterion i
    | none => exact fun w _ => ⟨w.memory, w.generator, rfl, World.Still.refl w⟩
  obtain ⟨m, g, hm, hbecomes⟩ := hdiscreet u.world hu.world.alone
  exact ⟨hu.controller, hu.completed, hu.last, hu.world.becomes hbecomes (hm.trans hu.world.memory)
    nofun hu.world.files (fun _ hs => hs) rfl rfl rfl⟩

/-- It is asked whether an iteration is to run; the history knows the answer. -/
theorem stands_wantsIteration {answers : IterationIndex → Bool} (hc : c.Peaceful schedule wanted)
    (hcalm : x.trouble = none)
    (hanswers : ∀ w a, ((c.controller.question i).run w).1 = a → .answered i a ∈ H →
      a = .ok (answers i)) {t : Session σ} (ht : c.Stands x t)
    (hpast : (Controller.wantsIteration i t).2.world.past.drop c.start.past.length ⊆ H) :
    (Controller.wantsIteration i t).1 = answers i ∧
      c.Stands x.asks (Controller.wantsIteration i t).2 ∧ .answered i (.ok (answers i)) ∈ H := by
  obtain ⟨hflag, hs⟩ := comes_flag t ht
  rw [hcalm] at hflag
  let s := (onWorld World.flag t).2
  let v := s.noted (.asked i)
  let a := (onWorld (c.controller.question i).run v).1
  let u := (onWorld (c.controller.question i).run v).2
  have hflag : (World.flag t.world).1 = false := hflag
  have hrun : Controller.wantsIteration i t = Controller.heed i a u := by
    rw [Controller.wantsIteration_run, hflag, if_neg Bool.false_ne_true,
      question_of_resembles ht.controller i]
    rfl
  have hu : c.Stands x.asks u := stands_asked hc (hs.still (Controller.still_note rfl s)) i
  rw [hrun] at hpast ⊢
  -- the answer is in the history, so it is the one that is known
  obtain ⟨l, hl, -, hm⟩ := Controller.follows_heed i a u rfl
  have hanswered : .answered i a ∈ H := by
    obtain ⟨l', hl', -⟩ := hu.world.past
    refine hpast ?_
    rw [Session.past_journey hl, hl', List.append_assoc, List.drop_left]
    refine List.mem_append_right _ ((mem_milestones rfl).mp ?_)
    rw [hm]
    exact List.mem_singleton.mpr rfl
  have ha : a = .ok (answers i) := hanswers v.world a rfl hanswered
  rw [ha] at hanswered ⊢
  exact ⟨rfl, hu.still (Controller.still_note rfl u), hanswered⟩

theorem comes_sayStopped : Comes (c.Stands x) Controller.sayStopped () (c.Stands x) := by
  refine comes_bind comes_flag ?_
  split
  · exact comes_still (Controller.still_say _ _)
  · exact comes_still (Controller.still_say _ _)

/-- What the loop does once it is answered whether an iteration is to run. -/
def onAnswer (room : Nat) (i : IterationIndex) (wanted : Bool) : Driven σ Unit := do
  if wanted then
    Controller.setLast i
    if (← Controller.runThrough i) = .proceed then
      Controller.countCompleted
      match i.next? with
      | some j => Controller.iterateFrom room j
      | none => onWorld (World.say .warning "iteration index space exhausted")
  else Controller.sayStopped

theorem iterateFrom_apply (room : Nat) (i : IterationIndex) (t : Session σ) :
    Controller.iterateFrom (room + 1) i t =
      onAnswer room i (Controller.wantsIteration i t).1 (Controller.wantsIteration i t).2 := rfl

theorem grows_onAnswer (room : Nat) (i : IterationIndex) (wanted : Bool) :
    Upholds Grows (onAnswer (σ := σ) room i wanted) := by
  refine upholds_ite ?_ (Controller.grows_of_follows fun _ => Controller.follows_sayStopped)
  refine upholds_bind
    (Controller.grows_of_follows fun _ => Controller.follows_setLast i) fun _ => ?_
  refine upholds_bind
    (Controller.grows_of_follows fun _ => Controller.follows_runThrough i) fun _ => ?_
  refine upholds_ite (upholds_bind
    (Controller.grows_of_follows fun _ => Controller.follows_countCompleted) fun _ => ?_)
    (upholds_pure _)
  cases i.next? with
  | none => exact Controller.grows_of_still (Controller.still_say _ _)
  | some j => exact Controller.grows_of_follows fun _ => Controller.follows_iterateFrom room j

/-- An iteration that is wanted goes as foreseen, and so does the rest of the loop behind it, unless
trouble ends it. -/
theorem foresees_onAnswer {answers : IterationIndex → Bool} (hc : c.Peaceful schedule wanted)
    (hwant : wanted i) {room : Nat} (hsound : x.Sound c.scenario i) (hopen : x.claimed = false)
    (hrest : ∀ j y, y.Sound c.scenario j → y.claimed = false →
      c.Foresees H y (Controller.iterateFrom room j) ()
        (Situation.forecast c.scenario answers room j y)) :
    let y : Situation := { x.asks with last := some i }
    c.Foresees H x.asks (onAnswer room i true) ()
      (if (y.iterates c.scenario i).trouble.isSome then y.iterates c.scenario i
      else i.next?.elim (y.iterates c.scenario i).counts fun j =>
        Situation.forecast c.scenario answers room j (y.iterates c.scenario i).counts) := by
  intro y
  have hstart : Comes (c.Stands x.asks) (Controller.setLast i) () (c.Stands y) := comes_setLast i
  have hthrough := comes_runThrough hc hwant hsound.starts hopen
  refine foresees_after hstart (foresees_after hthrough ?_)
  cases htrouble : (y.iterates c.scenario i).trouble with
  | some f =>
      have haborted : progress (y.iterates c.scenario i) = .aborted :=
        progress_of_trouble (by rw [htrouble]; rfl)
      rw [haborted]
      exact foresees_of_comes (comes_pure ())
  | none =>
      rw [progress_of_calm htrouble]
      refine foresees_after comes_countCompleted ?_
      cases hj : i.next? with
      | none => exact foresees_of_comes (comes_still (Controller.still_say _ _))
      | some j =>
          exact hrest j _ (hsound.starts.next htrouble hj)
            ((Situation.claimed_iterates c.scenario i y).trans hopen)

/-- The loop goes through the iterations of the forecast. By induction on the indices that are
left. -/
theorem foresees_iterateFrom {answers : IterationIndex → Bool} (hc : c.Peaceful schedule wanted)
    (hanswers : ∀ j w a, ((c.controller.question j).run w).1 = a → .answered j a ∈ H →
      a = .ok (answers j))
    (hwanted : ∀ j, .answered j (.ok true) ∈ H → wanted j) {room : Nat}
    (hsound : x.Sound c.scenario i) (hopen : x.claimed = false) :
    c.Foresees H x (Controller.iterateFrom room i) ()
      (Situation.forecast c.scenario answers room i x) := by
  induction room generalizing i x with
  | zero => exact foresees_of_comes (comes_pure ())
  | succ room ih =>
      intro t ht hpast
      rw [iterateFrom_apply] at hpast ⊢
      obtain ⟨hv, hy, hanswered⟩ := stands_wantsIteration hc hsound.calm (hanswers i) ht
        (subset_of_grows (grows_onAnswer room i _ _) hpast)
      rw [hv] at hpast ⊢
      cases hi : answers i with
      | false =>
          rw [hi] at hpast
          rw [Situation.forecast, hi]
          exact comes_sayStopped _ hy
      | true =>
          rw [hi] at hanswered hpast
          rw [Situation.forecast_of_wanted hi]
          exact foresees_onAnswer hc (hwanted i hanswered) hsound hopen
            (fun j y hy hclaimed => ih hy hclaimed) _ hy hpast

end Questions

/-! ## Before the teardown -/

section Opening

variable {c : Scene σ} {H : List (Moment σ)} {x : Situation}
  {schedule : IterationIndex → Schedule} {wanted : IterationIndex → Prop} {d : Controller σ}

/-- The listeners of the simulation are loaded. -/
theorem comes_loadListeners
    (hd : d.simulation =
      CommuterSimulation.simulation c.settings (fun i => .all (schedule i)) c.part)
    (hcore : d.bus.core = []) (hc : c.controller = Controller.loaded c.settings c.part d) :
    Comes ({ c with controller := d }.Stands x) Controller.loadListeners.run (.ok ())
      (c.Stands x) := by
  intro t ht
  rw [Controller.run_loadListeners (ht.controller.simulation.trans hd)]
  refine ⟨rfl, ?_, ht.completed, ht.last, ht.world⟩
  rw [hc]
  refine ⟨ht.controller.context, ht.controller.simulation, ht.controller.criterion, ?_,
    ht.controller.base⟩
  dsimp only
  rw [ht.controller.bus, ht.controller.context, Controller.register_listeners hcore]
  rfl

/-- The situation in which the startup ends, and whether the run goes on. -/
theorem comes_startUp (hc : c.Peaceful schedule wanted)
    (hd : d.simulation =
      CommuterSimulation.simulation c.settings (fun i => .all (schedule i)) c.part)
    (hcore : d.bus.core = []) (hloaded : c.controller = Controller.loaded c.settings c.part d) :
    Comes ({ c with controller := d }.Stands (Situation.initially c.scenario)) Controller.startUp
      (match c.controller.context.configuration.inconsistency? with
        | some _ => .aborted
        | none => .proceed)
      (c.Stands (match c.controller.context.configuration.inconsistency? with
        | some p => ((Situation.initially c.scenario).rounds .startup).refused p
        | none => Situation.prepared c.scenario)) := by
  let x := Situation.initially c.scenario
  have hload : Comes ({ c with controller := d }.Stands x)
      (Controller.attempt .load Controller.loadListeners) (progress x) (c.Stands x) :=
    comes_bind (comes_still (Controller.still_note rfl))
      (comes_bind (comes_loadListeners hd hcore hloaded)
        (comes_settle .load (.ok ()) (comes_pure ())))
  have hstartup : Comes (c.Stands x) (Controller.attempt .startup (Controller.announce .startup))
      (progress (x.rounds .startup)) (c.Stands (x.rounds .startup)) :=
    comes_attempt (comes_rounds hc (fun _ => rfl) nofun)
  refine comes_bind (comes_still (Controller.still_say _ _)) ?_
  refine comes_bind hload (comes_bind (comes_still (Controller.still_say _ _)) ?_)
  refine comes_bind hstartup ?_
  have hwrite : Comes (c.Stands (x.rounds .startup)) Controller.writeConfiguration.run (.ok ())
      (c.Stands (x.rounds .startup)) :=
    comes_writeConfiguration hc rfl rfl
  have hcheck : ∀ r, Comes (c.Stands (x.rounds .startup)) Controller.checkConfiguration.run r
      (c.Stands (x.rounds .startup)) →
      Comes (c.Stands (x.rounds .startup)) (do
        Controller.writeConfiguration
        Controller.checkConfiguration : Guarded σ Unit).run r (c.Stands (x.rounds .startup)) :=
    fun r h => comes_bind_run hwrite h
  cases hconsistent : c.controller.context.configuration.inconsistency? with
  | some p =>
      have hcheck := hcheck _ (comes_checkConfiguration_of_inconsistent hconsistent)
      exact comes_bind (comes_attempt_failure rfl rfl hcheck) (comes_pure _)
  | none =>
      have hcheck := hcheck _ (comes_checkConfiguration hconsistent)
      exact comes_bind (comes_attempt hcheck) (comes_attempt (comes_prepare hc rfl))

/-- All commuters of a valid population are on known routes before the first iteration. -/
theorem sound_prepared {s : PopulationSettings} {k : Configuration} (h : s.problem? = none) :
    (Situation.prepared (.of s k)).Sound (.of s k) k.controller.firstIteration := by
  have hroutes : 0 < s.routes.length := by
    refine List.length_pos_iff.mpr fun hnil => ?_
    rw [PopulationSettings.problem?, hnil] at h
    cases h
  exact ⟨Population.routes_assignRoutes hroutes _, rfl, nofun, List.nodup_nil⟩

/-- The iterations of a run go as foreseen, from the first on. -/
theorem foresees_runIterations {answers : IterationIndex → Bool} (hc : c.Peaceful schedule wanted)
    (hvalid : c.settings.problem? = none)
    (hanswers : ∀ j w a, ((c.controller.question j).run w).1 = a → .answered j a ∈ H →
      a = .ok (answers j))
    (hwanted : ∀ j, .answered j (.ok true) ∈ H → wanted j) :
    c.Foresees H (Situation.prepared c.scenario) Controller.runIterations ()
      (Situation.opening c.scenario answers none) := by
  intro u hu
  have hfirst : u.controller.context.configuration.controller.firstIteration =
      c.scenario.first := by
    rw [hu.controller.context]
    rfl
  have hiterations : Controller.runIterations u =
      Controller.iterateFrom (UInt32.size - c.scenario.first.toNat) c.scenario.first u := by
    rw [← hfirst]
    rfl
  rw [hiterations]
  exact foresees_iterateFrom hc hanswers hwanted (sound_prepared hvalid) rfl u hu

/-- All of a run up to its teardown goes as foreseen. -/
theorem foresees_runToTeardown {answers : IterationIndex → Bool} (hc : c.Peaceful schedule wanted)
    (hd : d.simulation =
      CommuterSimulation.simulation c.settings (fun i => .all (schedule i)) c.part)
    (hcore : d.bus.core = []) (hloaded : c.controller = Controller.loaded c.settings c.part d)
    (hvalid : c.settings.problem? = none)
    (hanswers : ∀ j w a, ((c.controller.question j).run w).1 = a → .answered j a ∈ H →
      a = .ok (answers j))
    (hwanted : ∀ j, .answered j (.ok true) ∈ H → wanted j) {t : Session σ}
    (ht : { c with controller := d }.Stands (Situation.initially c.scenario) t)
    (hpast : (Controller.runToTeardown t).2.world.past.drop c.start.past.length ⊆ H) :
    c.Stands (Situation.opening c.scenario answers
      c.controller.context.configuration.inconsistency?) (Controller.runToTeardown t).2 := by
  let next (p : Progress) : Driven σ Unit := do
    if p = .proceed then
      Controller.enter .running
      Controller.runIterations
    Controller.enter .terminating
  have hrun : Controller.runToTeardown t =
      (Controller.startUp >>= next) (Controller.enter .starting t).2 := rfl
  have hentered := ht.still (Controller.still_enter .starting t)
  obtain ⟨hv, hstands⟩ := comes_startUp hc hd hcore hloaded _ hentered
  rw [hrun, Controller.apply_bind, hv] at hpast ⊢
  cases hconsistent : c.controller.context.configuration.inconsistency? with
  | some p =>
      rw [hconsistent] at hstands
      exact hstands.still (Controller.still_enter .terminating _)
  | none =>
      rw [hconsistent] at hstands hpast
      have hloop := foresees_runIterations hc hvalid hanswers hwanted
      have hrest : c.Foresees H (Situation.prepared c.scenario) (next .proceed) ()
          (Situation.opening c.scenario answers none) :=
        foresees_after (comes_still (Controller.still_enter .running))
          (foresees_before hloop (fun _ => Controller.grows_of_still (Controller.still_enter _))
            (comes_still (Controller.still_enter .terminating)))
      exact (hrest _ hstands hpast).2

end Opening

/-! ## The teardown -/

section Closing

variable {c : Scene σ} {x : Situation} {schedule : IterationIndex → Schedule}
  {wanted : IterationIndex → Prop}

/-- The controller claims the teardown before anyone else does. -/
theorem comes_openTeardown (hopen : x.claimed = false) :
    Comes (c.Stands x) (onWorld World.openTeardown) true
      (c.Stands { x with claimed := true }) := by
  refine comes_onWorld (fun w hw => ?_) rfl rfl
  let v := (World.yield w).2
  have hv : World.Matches c.part c.start c.course x v := hw.still (World.still_yield w)
  have hrun : World.openTeardown w = (v.coordinator.claim.1,
      (v.setCoordinator v.coordinator.claim.2).noted (.claimed v.coordinator)) := rfl
  have haside := World.aside_openTeardown w
  have hcoordinator : ((v.setCoordinator v.coordinator.claim.2).noted
      (.claimed v.coordinator)).coordinator = { v.coordinator with teardown := true } :=
    World.coordinator_setCoordinator v _
  rw [hrun] at haside ⊢
  constructor
  · change (!v.coordinator.teardown) = true
    rw [hv.teardown, hopen]
    rfl
  · refine
      { present := haside.present hw.present
        alone := hv.alone
        flag := by rw [hcoordinator]; exact hv.flag
        teardown := by rw [hcoordinator]
        fault := by rw [hcoordinator]; exact hv.fault
        memory := hv.memory
        generator := hv.generator
        files := hv.files
        past := ?_ }
    obtain ⟨l, hl, hasides⟩ := haside.past
    exact hw.past_append hl hasides

/-- The listeners are told of the shutdown. -/
theorem comes_notifyShutdown (hc : c.Peaceful schedule wanted) (unexpected : Bool) :
    Comes (c.Stands x) (Controller.notifyShutdown unexpected) ()
      (c.Stands (x.shows (.shutdown unexpected))) := by
  intro t ht
  have hround : Comes (World.Matches c.part c.start c.course x)
      (telling c.controller.bus (.shutdown unexpected)) (.ok ())
      (World.Matches c.part c.start c.course (x.shows (.shutdown unexpected))) := by
    intro w hw
    rw [hc.bus]
    exact World.matches_shutdown hc.users unexpected hw
  obtain ⟨hok, hworld⟩ := hround t.world ht.world
  rw [Controller.notifyShutdown_run, notify_of_telling ht hok]
  exact ⟨rfl, ht.controller, ht.completed, ht.last, hworld⟩

/-- How the run ends is told, and its result given. -/
theorem comes_conclude (hc : c.Peaceful schedule wanted) {fault : Option FaultRecord}
    (hfault : fault.map (fun r => (r.origin, r.fault)) = x.trouble) :
    Comes (c.Stands x) (Controller.conclude x.trouble.isSome fault) x.outcome
      (c.Stands (x.shows (.shutdown x.trouble.isSome))) := by
  have hline : ∀ (y : Situation) (l : LogLine),
      Comes (c.Stands y) (Controller.sayLine l) () (c.Stands y) :=
    fun _ _ => comes_still (Controller.still_note rfl)
  have hstarted : ∀ u, Comes (c.Stands x) (Controller.sayStarted u) () (c.Stands x) := by
    intro u
    refine comes_bind (comes_still (Controller.still_say _ _)) ?_
    cases u with
    | true => exact hline x _
    | false => exact comes_pure ()
  have hended : ∀ (y : Situation) u f,
      Comes (c.Stands y) (Controller.sayEnded u f) () (c.Stands y) := by
    intro y u f
    have hlines : Comes (c.Stands y) (Controller.sayEnded u false) () (c.Stands y) := by
      cases u with
      | true => exact comes_bind (hline y _) (hline y _)
      | false => exact hline y _
    cases f with
    | true => exact comes_bind (comes_still (Controller.still_say _ _)) hlines
    | false => exact hlines
  refine comes_bind (hstarted _) (comes_bind (comes_notifyShutdown hc _) ?_)
  refine comes_bind (hended _ _ _) (comes_get fun t ht => ?_)
  have hresult : Controller.result t.controller x.trouble.isSome fault = x.outcome := by
    have hcompleted : t.controller.completed = x.completed := ht.completed
    have hlast : t.controller.last = x.last := ht.last
    rw [Situation.outcome, ← hfault]
    cases fault with
    | some r => rfl
    | none =>
        rw [Option.map_none, Option.isSome_none, Controller.result, hcompleted, hlast]
        rfl
  rw [hresult]
  exact comes_pure _

/-- The teardown ends the run with the outcome of its situation. -/
theorem comes_tearDown (hc : c.Peaceful schedule wanted) (hopen : x.claimed = false) :
    Comes (c.Stands x) Controller.tearDown x.outcome (c.Stands x.finishes) := by
  let y : Situation := { x with claimed := true }
  refine comes_bind (comes_openTeardown hopen) (comes_bind (comes_pure ()) ?_)
  have hlook : Does (c.Stands y) (onWorld World.look) fun found t =>
      found.fault.map (fun r => (r.origin, r.fault)) = x.trouble ∧ c.Stands y t := by
    intro t ht
    have hstands := ht.still (Controller.still_onWorld World.still_look t)
    exact ⟨hstands.world.fault, hstands⟩
  refine does_bind hlook fun found => ?_
  rintro t ⟨hfault, ht⟩
  refine comes_bind comes_flag ?_ t ht
  have hunexpected : (x.trouble.isSome || found.fault.isSome) = x.trouble.isSome := by
    rw [← hfault, Option.isSome_map, Bool.or_self]
  change Comes _ (Controller.conclude (x.trouble.isSome || found.fault.isSome) found.fault) _ _
  rw [hunexpected]
  exact comes_conclude (x := y) hc hfault

end Closing

end Scene

/-! ## Runs -/

namespace Controller

/-- A run of the simulation that nobody disturbs: no other thread acts, all workers get their
threads, what the users of the controller bring along leaves the simulation alone, and the
population is valid. The controller was
built, and the simulation has not begun. -/
structure Undisturbed (s : PopulationSettings) (schedule : IterationIndex → Schedule)
    (part : Part σ CommuteMemory) (p : Plan σ) (t : Session σ) : Prop where
  built : BuiltFrom p t.controller
  simulation :
    p.simulation = some (CommuterSimulation.simulation s (fun i => .all (schedule i)) part)
  valid : s.problem? = none
  users : ∀ l ∈ t.controller.bus.user, ∀ e, (l.notify e).Observes part
  criterion : ∀ q ∈ t.controller.criterion, ∀ i, (q i).Discreet part
  alone : t.world.Alone
  fresh : t.world.coordinator.Bears none
  generator : t.world.generator = .ofSeed p.configuration.global.randomSeed
  memory : part.get t.world.memory = CommuterSimulation.memory s

/-- The iterations that are wanted in a run, as its history tells. -/
def Wanted (t : Session σ) (i : IterationIndex) : Prop := .answered i (.ok true) ∈ runHistory t

/-- Whenever it is asked in a run whether an iteration is to run, this is the answer: of all that
who is asked can say, nothing else is in the history. -/
def Answers (answers : IterationIndex → Bool) (t : Session σ) : Prop :=
  ∀ i w a, ((t.controller.question i).run w).1 = a → .answered i a ∈ runHistory t →
    a = .ok (answers i)

section Runs

variable {s : PopulationSettings} {schedule : IterationIndex → Schedule}
  {part : Part σ CommuteMemory} {p : Plan σ} {t : Session σ}

theorem Undisturbed.idle (h : Undisturbed s schedule part p t) : t.controller.stage = .idle :=
  h.built.idle

/-- By default an iteration is to run if it is not behind the last one. -/
theorem Undisturbed.answers_by_default (h : Undisturbed s schedule part p t)
    (hcriterion : p.criterion = none) :
    Answers (Situation.upTo p.configuration.controller.lastIteration) t := by
  obtain ⟨m, ls, hm, hcontroller⟩ := h.built.fields
  have hsimulation : m = CommuterSimulation.simulation s (fun i => .all (schedule i)) part :=
    Option.some.inj (hm.symm.trans h.simulation)
  intro i w a ha _
  rw [← ha, hcontroller, question, ofPlan, hcriterion, hsimulation]
  rfl

/-- The situation before a run. -/
theorem Undisturbed.matches_ready (h : Undisturbed s schedule part p t) {F : FileCourse}
    (hF : F [] none t.world.files) :
    World.Matches part t.world F (Situation.initially (.of s p.configuration))
      (ready t).world := by
  obtain ⟨hready, -, -⟩ := run_parts h.idle
  have hbound : (bound t).world.Present := World.present_setCoordinator _ _
  have hpresent : (ready t).world.Present := by
    unfold ready
    split
    · exact (still_watch (bound t)).world.present hbound
    · exact hbound
  have hresembles := hready.world.resembles h.alone
  obtain ⟨l, hl, haside⟩ := hready.world.past
  exact
    { present := hpresent
      alone := hready.world.alone h.alone
      flag := hresembles.flag.trans h.fresh.flag
      teardown := hresembles.teardown.trans h.fresh.teardown
      fault := by
        rw [hresembles.fault]
        exact h.fresh.fault
      memory := by
        rw [hready.world.memory]
        exact h.memory
      generator := fun g hg => by
        rw [hready.world.generator, h.generator]
        exact Option.some.inj hg
      files := by
        rw [hready.world.files]
        exact hF
      past := ⟨l, hl, World.sights_of_aside haside, fun _ _ _ _ hm => nomatch haside _ hm⟩ }

/-- What a run that nobody disturbs is watched in: its simulation is loaded. -/
def scene (s : PopulationSettings) (part : Part σ CommuteMemory) (t : Session σ) (F : FileCourse) :
    Scene σ :=
  ⟨s, part, loaded s part t.controller, t.world, F⟩

theorem Undisturbed.configuration (h : Undisturbed s schedule part p t) :
    t.controller.context.configuration = p.configuration := by
  obtain ⟨m, ls, hm, hcontroller⟩ := h.built.fields
  rw [hcontroller]
  rfl

theorem Undisturbed.peaceful (h : Undisturbed s schedule part p t) {F : FileCourse}
    (hF : Accommodates s t.controller.context (Wanted t) F) :
    (scene s part t F).Peaceful schedule (Wanted t) where
  simulation := h.built.simulation h.simulation
  bus := rfl
  users := h.users
  criterion := h.criterion
  base := by
    obtain ⟨m, ls, hm, hcontroller⟩ := h.built.fields
    change t.controller.seeding.base = t.controller.context.configuration.global.randomSeed
    rw [hcontroller]
    rfl
  files := hF

/-- Such a run begins as foreseen. -/
theorem Undisturbed.stands_ready (h : Undisturbed s schedule part p t) {F : FileCourse}
    (hfiles : F [] none t.world.files) :
    { scene s part t F with controller := t.controller }.Stands
      (.initially (.of s p.configuration)) (ready t) := by
  obtain ⟨m, ls, hm, hcontroller⟩ := h.built.fields
  obtain ⟨hready, -, -⟩ := run_parts h.idle
  refine ⟨hready.controller, ?_, ?_, h.matches_ready hfiles⟩
  · rw [hready.completed, hcontroller]
    rfl
  · rw [hready.last, hcontroller]
    rfl

/-- A run that nobody disturbs goes as foreseen: it ends with the outcome of the forecast, in a
world that matches it. -/
theorem Undisturbed.foreseen (h : Undisturbed s schedule part p t) {F : FileCourse}
    {answers : IterationIndex → Bool}
    (hanswers : Answers answers t) (hF : Accommodates s t.controller.context (Wanted t) F)
    (hfiles : F [] none t.world.files) :
    let x := Situation.opening (.of s p.configuration) answers p.configuration.inconsistency?
    (run t).1 = x.outcome ∧ World.Matches part t.world F x.finishes (run t).2.world := by
  intro x
  let c := scene s part t F
  have hc : c.Peaceful schedule (Wanted t) := h.peaceful hF
  have hscenario : c.scenario = .of s p.configuration := congrArg (Scenario.of s) h.configuration
  have hcore : t.controller.bus.core = [] := by
    obtain ⟨m, ls, hm, hcontroller⟩ := h.built.fields
    rw [hcontroller]
  obtain ⟨-, hresult, hend⟩ := run_parts h.idle
  obtain ⟨l, n, hjourney, hhistory⟩ := opening_run h.idle
  have hpast : (upToTeardown t).world.past.drop t.world.past.length ⊆ runHistory t := by
    rw [Session.past_journey hjourney, List.drop_left, hhistory]
    exact List.subset_append_left l n
  have hfirst : { c with controller := t.controller }.Stands (.initially c.scenario) (ready t) :=
    hscenario ▸ h.stands_ready hfiles
  have hopening : c.Stands x (upToTeardown t) := by
    have hstands := Scene.foresees_runToTeardown hc (h.built.simulation h.simulation) hcore rfl
      h.valid hanswers (fun _ hj => hj) hfirst hpast
    rw [hscenario] at hstands
    change c.Stands
      (Situation.opening _ answers t.controller.context.configuration.inconsistency?) _ at hstands
    rwa [h.configuration] at hstands
  obtain ⟨hv, hfinished⟩ :=
    Scene.comes_tearDown hc (Situation.claimed_opening _ _ _) _ hopening
  exact ⟨hresult.trans hv, hfinished.world.still hend.world⟩

end Runs

end Controller

end CommuteSim
