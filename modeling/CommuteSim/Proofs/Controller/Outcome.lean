import CommuteSim.Proofs.Commute.Delivery
import CommuteSim.Proofs.Controller.Foreseen

/-!
# Outcomes of runs

A run of the simulation that nobody disturbs, over an output directory that can be written, ends in
one of two ways. Either all iterations are run and scored, each for the whole population, or some
commuter travels in an iteration whose mobsim is made to fail. Then the run ends with the fault of
the first worker, after the iterations before that one have been scored. There is no third way.

Main statement: `commuter_outcome`.
-/

namespace CommuteSim

variable {σ : Type}

/-! ## What was seen -/

section Sights

variable {part : Part σ CommuteMemory} {t : Session σ} {F : FileCourse} {x : Situation}

/-- The sights of a run are those of its situation at the end. -/
theorem World.Matches.sights
    (h : World.Matches part t.world F x (Controller.run t).2.world) :
    (Controller.runHistory t).filterMap (Moment.sight? part) = x.sights := by
  obtain ⟨l, hl, hseen, -⟩ := h.past
  rw [Controller.runHistory, hl, List.drop_left]
  exact hseen

theorem sight?_eq_round {m : Moment σ} {e : Event} :
    m.sight? part = some (.round e) ↔ m = .round e := by
  cases m with
  | round d => simp [Moment.sight?]
  | told tier n d m g => cases tier <;> simp [Moment.sight?]
  | _ => simp [Moment.sight?]

/-- A round was held in a run if it is one of the sights at the end. -/
theorem World.Matches.round_mem
    (h : World.Matches part t.world F x (Controller.run t).2.world) (e : Event) :
    .round e ∈ Controller.runHistory t ↔ Sight.round e ∈ x.sights := by
  rw [← h.sights, List.mem_filterMap]
  constructor
  · exact fun hm => ⟨_, hm, sight?_eq_round.mpr rfl⟩
  · rintro ⟨m, hm, hround⟩
    rwa [← sight?_eq_round.mp hround]

/-- Who was told at the end of an iteration found what the iteration had left. -/
theorem World.Matches.told_end {n : Nat} {i : IterationIndex} {m : σ} {g : Generator}
    (h : World.Matches part t.world F x (Controller.run t).2.world)
    (hm : .told .user n (.iterationEnd i) m g ∈ Controller.runHistory t) :
    (i, part.get m) ∈ x.scored := by
  obtain ⟨l, hl, -, hends⟩ := h.past
  rw [Controller.runHistory, hl, List.drop_left] at hm
  exact hends n i m g hm

/-- At the end of a run the shutdown was announced. -/
theorem Situation.mem_finishes {e : Event} :
    Sight.round e ∈ x.finishes.sights ↔
      Sight.round e ∈ x.sights ∨ e = .shutdown x.trouble.isSome := by
  simp [finishes, shows]

end Sights

/-! ## Forecasts by default -/

namespace Situation

section Default

variable {s : PopulationSettings} {k : Configuration}

/-- Before the first iteration nothing was scored. -/
theorem through_prepared (s : PopulationSettings) (k : Configuration) :
    (prepared (.of s k)).Through (.of s k) s.agentCount.toNat 0 := by
  have hsize : (CommuterSimulation.memory s).population.length = s.agentCount.toNat := by
    rw [CommuterSimulation.memory, Population.ofSize]
    simp
  refine ⟨?_, rfl, nofun, nofun, fun j hj => ?_, rfl⟩
  · rw [← hsize]
    exact length_of_map (Population.map_assignRoutes (·.score) (fun _ _ => rfl) _ _ _)
  · have hround : Sight.round (.scoring j) ∈ [Sight.round .startup] := hj
    simp at hround

theorem room_first (i : IterationIndex) : i.toNat + (UInt32.size - i.toNat) = UInt32.size := by
  have := i.toNat_lt
  simp only [UInt32.size]
  omega

/-- In the forecast of a whole run all iterations of the configuration are run and scored unless a
mobsim is made to fail for some commuter. -/
theorem opening_completes (hvalid : s.problem? = none)
    (hbounds : k.controller.firstIteration ≤ k.controller.lastIteration)
    (hwell : ∀ j, s.failMobsimAt = some j → k.controller.firstIteration ≤ j →
      j ≤ k.controller.lastIteration → s.agentCount = 0) :
    let x := opening (.of s k) (upTo k.controller.lastIteration) none
    x.trouble = none ∧ x.last = some k.controller.lastIteration ∧
      x.Through (.of s k) s.agentCount.toNat
        (k.controller.lastIteration.toNat - k.controller.firstIteration.toNat + 1) := by
  have hend := forecast_completes (room_first _) rfl hbounds (Scene.sound_prepared hvalid)
    (through_prepared s k)
    fun j hj hle hfail => congrArg UInt32.toNat (hwell j hfail hj hle)
  rw [UInt32.le_iff_toNat_le] at hbounds
  have hnumber : k.controller.lastIteration.toNat + 1 - k.controller.firstIteration.toNat =
      k.controller.lastIteration.toNat - k.controller.firstIteration.toNat + 1 := by
    omega
  rw [← hnumber]
  exact hend

/-- In the forecast of a whole run the first mobsim that is made to fail for some commuter is the
end of it. -/
theorem opening_fails {f : IterationIndex} (hvalid : s.problem? = none)
    (hfail : s.failMobsimAt = some f) (hfirst : k.controller.firstIteration ≤ f)
    (hlast : f ≤ k.controller.lastIteration) (hsome : s.agentCount ≠ 0) :
    let x := opening (.of s k) (upTo k.controller.lastIteration) none
    x.trouble = some ("mobsim-worker-0", .worker "mobsim-worker-0" (Mobsim.injected f)) ∧
      x.memory.history.map (·.iteration.toNat) =
        List.range' k.controller.firstIteration.toNat
          (f.toNat - k.controller.firstIteration.toNat) ∧
      (∀ e ∈ x.memory.history, e.scored = s.agentCount.toNat) ∧
      .round (.afterMobsim f) ∈ x.sights ∧ .round (.scoring f) ∉ x.sights :=
  forecast_fails (room_first _) rfl hfirst hlast (Scene.sound_prepared hvalid)
    (through_prepared s k) hfail fun h => hsome (UInt32.toNat_inj.mp h)

end Default

end Situation

theorem Configuration.ordered {k : Configuration} (h : k.inconsistency? = none) :
    k.controller.firstIteration ≤ k.controller.lastIteration := by
  unfold inconsistency? at h
  dsimp only at h
  split at h
  · cases h
  · rename_i hordered
    exact UInt32.not_lt.mp hordered

/-! ## Runs -/

namespace Controller

section Runs

variable {s : PopulationSettings} {schedule : IterationIndex → Schedule}
  {part : Part σ CommuteMemory} {p : Plan σ} {t : Session σ} {F : FileCourse}

/-- For a consistent configuration, a valid population, the default criterion, and nobody who
disturbs the run: unless the mobsim of an iteration within the bounds is made to fail for some
commuter, all iterations from the first to the last are scored, each for all commuters, and the run
completes. If one is, the run fails with the fault of the first worker; exactly the iterations
before that one are scored. -/
theorem commuter_outcome (h : Undisturbed s schedule part p t)
    (hconsistent : p.configuration.inconsistency? = none) (hcriterion : p.criterion = none)
    (hF : Accommodates s t.controller.context (Wanted t) F) (hfiles : F [] none t.world.files) :
    let first := p.configuration.controller.firstIteration
    let last := p.configuration.controller.lastIteration
    let memory := part.get (run t).2.world.memory
    let scored := memory.history.map (·.iteration.toNat)
    let Fails k := s.failMobsimAt = some k ∧ first ≤ k ∧ k ≤ last ∧ s.agentCount ≠ 0
    (∀ e ∈ memory.history, e.scored = s.agentCount.toNat) ∧
    ((∀ k, ¬ Fails k) →
      (run t).1 =
          .ok ⟨.completed, min (last.toNat - first.toNat + 1) 0xFFFFFFFF, some last⟩ ∧
        scored = List.range' first.toNat (last.toNat - first.toNat + 1) ∧
        memory.population.length = s.agentCount.toNat ∧
        ∀ c ∈ memory.population, c.score.isSome = true) ∧
    ∀ k, Fails k →
      (∃ cause,
        (run t).1 = .error (.fault "mobsim-worker-0" (.worker "mobsim-worker-0" cause))) ∧
        scored = List.range' first.toNat (k.toNat - first.toNat) ∧
        .round (.afterMobsim k) ∈ runHistory t ∧ (∃ u, .round (.shutdown u) ∈ runHistory t) ∧
        .round (.scoring k) ∉ runHistory t := by
  intro first last memory scored Fails
  let x := Situation.opening (.of s p.configuration) (Situation.upTo last) none
  have hforeseen := h.foreseen (h.answers_by_default hcriterion) hF hfiles
  rw [hconsistent] at hforeseen
  obtain ⟨hresult, hmatches⟩ : (run t).1 = x.outcome ∧
      World.Matches part t.world F x.finishes (run t).2.world := hforeseen
  have hmemory : memory = x.memory := hmatches.memory
  have hround : ∀ e, .round e ∈ runHistory t ↔
      Sight.round e ∈ x.sights ∨ e = .shutdown x.trouble.isSome :=
    fun e => (hmatches.round_mem e).trans Situation.mem_finishes
  have hscored : scored = x.memory.history.map (·.iteration.toNat) := by
    rw [← hmemory]
  have hcompletes (hnone : ∀ k, ¬ Fails k) :=
    Situation.opening_completes h.valid (Configuration.ordered hconsistent) fun j hfail hj hle =>
      Decidable.not_not.mp fun hsome => hnone j ⟨hfail, hj, hle, hsome⟩
  have hfails k (hk : Fails k) :=
    Situation.opening_fails h.valid hk.1 hk.2.1 hk.2.2.1 hk.2.2.2
  refine ⟨?_, fun hnone => ?_, fun k hk => ?_⟩
  · rw [hmemory]
    by_cases hsome : ∃ k, Fails k
    · obtain ⟨k, hk⟩ := hsome
      exact (hfails k hk).2.2.1
    · exact (hcompletes fun k hk => hsome ⟨k, hk⟩).2.2.whole
  · obtain ⟨hcalm, hlast, hend⟩ := hcompletes hnone
    refine ⟨?_, hscored.trans hend.history, ?_, ?_⟩
    · rw [hresult, Situation.outcome, hcalm, hend.completed, hlast]
    · rw [hmemory]
      exact hend.size
    · rw [hmemory]
      exact hend.scored (Nat.succ_pos _)
  · obtain ⟨htrouble, hhistory, -, hafter, hscoring⟩ := hfails k hk
    refine ⟨⟨Mobsim.injected k, ?_⟩, hscored.trans hhistory, (hround _).mpr (.inl hafter),
      ⟨_, (hround _).mpr (.inr rfl)⟩, ?_⟩
    · rw [hresult, Situation.outcome, htrouble]
    · rw [hround]
      rintro (hmem | heq)
      · exact hscoring hmem
      · cases heq

end Runs

/-! ## Commuters on the default routes -/

/-- A plan for commuters who travel in the iterations from 1 to 5. -/
def commuting (s : PopulationSettings) (schedule : IterationIndex → Schedule) :
    Plan CommuteMemory where
  configuration :=
    { controller := { firstIteration := 1, lastIteration := 5, outputDirectory := "out" } }
  simulation := some (CommuterSimulation.simulation s (fun i => .all (schedule i)) .whole)

/-- The files before such a run: the output directory, and nothing in it. -/
def emptyOutput : FileSystem where
  entries := [(["out"], .directory)]

/-- A session of these commuters over an output directory that is empty. -/
def commutingSession (s : PopulationSettings) (schedule : IterationIndex → Schedule) :
    Session CommuteMemory where
  controller := ofPlan (commuting s schedule)
    (CommuterSimulation.simulation s (fun i => .all (schedule i)) .whole)
  world :=
    { memory := CommuterSimulation.memory s
      generator := .ofSeed 4711
      files := emptyOutput }

theorem undisturbed_commuting {s : PopulationSettings} (schedule : IterationIndex → Schedule)
    (hvalid : s.problem? = none)
    (hbuilt : (build (commuting s schedule) { memory := {} }).1.toOption.isSome = true) :
    Undisturbed s schedule .whole (commuting s schedule) (commutingSession s schedule) where
  built := builtFrom_ofPlan rfl { memory := {} } hbuilt
  simulation := rfl
  valid := hvalid
  users := nofun
  criterion := nofun
  alone := fun _ => rfl
  fresh := ⟨rfl, rfl, rfl⟩
  generator := rfl
  memory := rfl

theorem fit_out : OutputDirectory.Fit ⟨"out", none⟩ :=
  ⟨⟨by decide, by decide, by decide⟩, nofun⟩

/-- The output directory of these commuters can be written. -/
theorem provided_emptyOutput :
    OutputDirectory.Provided ⟨"out", none⟩ rootFiles loadsFile none emptyOutput := by
  have hordinary : FileSystem.Ordinary "out" := ⟨by decide, by decide⟩
  have hnames : (PathParts.ofText "out").names = ["out"] := by decide +kernel
  have hstart : emptyOutput.start (.ofText "out") = [] := by
    unfold FileSystem.start
    split <;> rfl
  have hroot : emptyOutput.locate "out" = ["out"] := by
    rw [FileSystem.locate, hnames, hstart, FileSystem.follow_of_ordinary (by simpa using hordinary)]
    rfl
  refine OutputDirectory.provided_of_empty fit_out filename_rootFiles filename_loadsFile ?_ ?_ ?_
  · rw [hnames, hstart, hroot]
    have hroot : emptyOutput.walk [] [] = .ok [] := rfl
    exact FileSystem.walk_concat hroot hordinary (by decide) rfl
  · intro a b hab
    rw [hnames] at hab
    rw [hstart, hroot]
    rcases a with - | ⟨first, - | ⟨second, a⟩⟩
    · rfl
    · rw [← (List.cons.inj hab).1, FileSystem.follow_of_ordinary (by simpa using hordinary)]
      rfl
    · cases (List.cons.inj hab).2
  · intro l hl
    rw [hroot] at hl
    obtain ⟨rest, hrest, rfl⟩ := FileSystem.isBelow_iff.mp hl
    have hne : "out" :: rest ≠ ["out"] := fun h => hrest (List.cons.inj h).2
    change List.lookup ("out" :: rest) [(["out"], FileEntry.directory)] = none
    rw [List.lookup_cons, beq_eq_false_iff_ne.mpr hne]
    rfl

theorem accommodates_commuting (s : PopulationSettings) (schedule : IterationIndex → Schedule) :
    let t := commutingSession s schedule
    Accommodates s t.controller.context (Wanted t) (fun _ o => t.controller.context.Provided o) ∧
      t.controller.context.Provided none t.world.files :=
  ⟨accommodates_provided s fit_out _, provided_emptyOutput⟩

/-- Six commuters complete all iterations, unless their mobsim is made to fail in iteration 3. -/
theorem commuter_outcome_of_six :
    let failing : PopulationSettings := { agentCount := 6, failMobsimAt := some 3 }
    let well : PopulationSettings := { agentCount := 6, failMobsimAt := some 7 }
    (∃ cause, (run (commutingSession failing fun _ => id)).1 =
      .error (.fault "mobsim-worker-0" (.worker "mobsim-worker-0" cause))) ∧
    (Part.whole.get (run (commutingSession failing fun _ => id)).2.world.memory).history.map
      (·.iteration.toNat) = [1, 2] ∧
    (run (commutingSession well fun _ => id)).1 = .ok ⟨.completed, 5, some 5⟩ := by
  intro failing well
  obtain ⟨hF, hfiles⟩ := accommodates_commuting failing fun _ => id
  obtain ⟨hG, hfiles'⟩ := accommodates_commuting well fun _ => id
  have hfailing := undisturbed_commuting (s := failing) (fun _ => id) (by decide +kernel)
    (by decide +kernel)
  have hwell := undisturbed_commuting (s := well) (fun _ => id) (by decide +kernel)
    (by decide +kernel)
  obtain ⟨-, -, hfails⟩ := commuter_outcome hfailing (by decide +kernel) rfl hF hfiles
  obtain ⟨-, hcompletes, -⟩ := commuter_outcome hwell (by decide +kernel) rfl hG hfiles'
  have hfalls : failing.failMobsimAt = some 3 ∧ (1 : IterationIndex) ≤ 3 ∧
      (3 : IterationIndex) ≤ 5 ∧ failing.agentCount ≠ 0 := ⟨rfl, by decide, by decide, by decide⟩
  have hstands : ∀ k, ¬ (well.failMobsimAt = some k ∧ (1 : IterationIndex) ≤ k ∧
      k ≤ (5 : IterationIndex) ∧ well.agentCount ≠ 0) := by
    rintro k ⟨hk, -, hlast, -⟩
    obtain rfl : 7 = k := Option.some.inj hk
    exact absurd hlast (by decide)
  obtain ⟨hfault, hscored, -⟩ := hfails 3 hfalls
  have hnumbers : List.range' (1 : IterationIndex).toNat
      ((3 : IterationIndex).toNat - (1 : IterationIndex).toNat) = [1, 2] := by decide
  exact ⟨hfault, hscored.trans hnumbers, (hcompletes hstands).1⟩

end Controller

end CommuteSim
