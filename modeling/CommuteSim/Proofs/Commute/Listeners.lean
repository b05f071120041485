import CommuteSim.Commute.Simulation
import CommuteSim.Proofs.Commute.Routes
import CommuteSim.Proofs.Commute.Travel

/-!
# What the parts of the simulation do

Replanning changes the routes of commuters, scoring their scores and the history, and neither
changes their trips. The listeners of users do not touch any of these, and are told behind the
listeners of the simulation.

Main statements: `run_drawPopulation`, `becomes_prepare` and `becomes_scoreIteration` for the parts,
`order_listeners` for the order in which they are told.
-/

namespace CommuteSim

variable {σ ε : Type}

/-! ## Programs -/

/-- The memory, the generator and the files are changed, and nothing else happens. -/
theorem World.becomes_update (w : World σ) (m : σ) (g : Generator) (f : FileSystem) :
    w.Becomes m g f { w with memory := m, generator := g, files := f } :=
  ⟨onward_of_eq rfl rfl rfl, rfl, rfl, rfl, rfl, fun _ => .refl _⟩

namespace Program

open Mobsim (found repopulated)

theorem run_memoryOf_bind {α τ : Type} (part : Part σ τ) (next : τ → Program σ ε α) (w : World σ) :
    (memoryOf part >>= next).run w = (next (part.get w.memory)).run w := rfl

theorem run_memorize_bind {α : Type} (f : σ → σ) (p : Program σ ε α) (w : World σ) :
    (memorize f >>= fun _ => p).run w = p.run { w with memory := f w.memory } := rfl

theorem run_say_bind {α : Type} (level : LogLevel) (message : String) (p : Program σ ε α)
    (w : World σ) :
    (say level message >>= fun _ => p).run w =
      p.run (w.noted (.said .collaborator ⟨level, message⟩)) := rfl

theorem run_attempt_bind {α : Type}
    (operation : FileSystem → FileSystem.FileResult Unit × FileSystem)
    (next : FileSystem.FileResult Unit → Program σ ε α) (w : World σ) :
    (attempt operation >>= next).run w =
      (next (operation w.files).1).run { w with files := (operation w.files).2 } := rfl

theorem becomes_drawPopulation (part : Part σ CommuteMemory)
    (f : Population → Generator → Population × Generator) (w : World σ) :
    w.Becomes (repopulated part (f (found part w) w.generator).1 w.memory)
      (f (found part w) w.generator).2 w.files ((drawPopulation (ε := ε) part f).run w).2 :=
  w.becomes_update _ _ _

end Program

/-! ## Scoring -/

/-- The memory once an iteration is scored. -/
def scored (utilityPerHour : Float) (i : IterationIndex) (m : CommuteMemory) : CommuteMemory where
  population := m.population.scored utilityPerHour
  history := m.history ++
    [.ofScores i ((m.population.scored utilityPerHour).filterMap (·.score))]

namespace Scoring

/-- What the load file of an iteration holds. -/
def loadsOf (s : Scoring σ) (m : CommuteMemory) : String :=
  loadsText s.routes (m.population.loads s.routes.length)

/-- The world once an iteration is scored, before anything is written. -/
def noted (s : Scoring σ) (i : IterationIndex) (w : World σ) : World σ :=
  { w with memory := s.part.set (scored s.utilityPerHour i (s.part.get w.memory)) w.memory }.noted
    (.said .collaborator ⟨.info, "iteration scored"⟩)

/-- What is written once an iteration is scored. -/
def writeAll (s : Scoring σ) (i : IterationIndex) (m : CommuteMemory) : Program σ Cause Unit :=
  (write (s.output.file scoresFile) (scoresText m.history)).bind fun _ =>
    if s.iterationFiles then write (s.output.iterationFile i loadsFile) (s.loadsOf m) else .done ()

theorem run_scoreIteration (s : Scoring σ) (i : IterationIndex) (w : World σ) :
    (s.scoreIteration i).run w =
      (s.writeAll i (scored s.utilityPerHour i (s.part.get w.memory))).run (s.noted i w) := by
  unfold scoreIteration
  rw [Program.run_memoryOf_bind]
  dsimp only
  rw [Program.run_memorize_bind, Program.run_say_bind]
  rfl

theorem becomes_noted (s : Scoring σ) (i : IterationIndex) (w : World σ) :
    w.Becomes (s.part.set (scored s.utilityPerHour i (s.part.get w.memory)) w.memory) w.generator
      w.files (s.noted i w) :=
  (w.becomes_update _ w.generator w.files).still (World.still_note rfl _)

theorem run_write (path text : String) (w : World σ) :
    (write path text).run w = match w.files.writeText path text with
      | .ok files => (.ok (), { w with files := files })
      | .error reason =>
        (.error (.failure (Cause.within s!"failed to write {path}" ⟨reason.text, []⟩)), w) := by
  refine (Program.run_attempt_bind _ _ w).trans ?_
  cases w.files.writeText path text <;> rfl

theorem becomes_write (path text : String) (w : World σ) :
    ∃ files, w.Becomes w.memory w.generator files ((write path text).run w).2 := by
  rw [run_write]
  cases w.files.writeText path text with
  | ok files => exact ⟨files, w.becomes_update w.memory w.generator files⟩
  | error reason => exact ⟨w.files, World.Still.refl w⟩

/-- Whatever becomes of the files that are written, nothing else changes. -/
theorem becomes_writeAll (s : Scoring σ) (i : IterationIndex) (m : CommuteMemory) (w : World σ) :
    ∃ files, w.Becomes w.memory w.generator files ((s.writeAll i m).run w).2 := by
  obtain ⟨files, hfirst⟩ := becomes_write (s.output.file scoresFile) (scoresText m.history) w
  rw [writeAll, Program.run_bind]
  cases hwrite : (write (s.output.file scoresFile) (scoresText m.history)).run w with
  | mk result u =>
      rw [hwrite] at hfirst
      simp only [bind, StateT.bind, hwrite]
      cases result with
      | error e => exact ⟨files, hfirst⟩
      | ok _ =>
          cases s.iterationFiles with
          | false => exact ⟨files, hfirst⟩
          | true =>
              obtain ⟨files', hsecond⟩ := becomes_write (s.output.iterationFile i loadsFile)
                (s.loadsOf m) u
              rw [hfirst.memory, hfirst.generator] at hsecond
              exact ⟨files', hfirst.trans hsecond⟩

/-- An iteration is scored once, whatever becomes of the files that are written. -/
theorem becomes_scoreIteration (s : Scoring σ) (i : IterationIndex) (w : World σ) :
    ∃ files, w.Becomes (s.part.set (scored s.utilityPerHour i (s.part.get w.memory)) w.memory)
      w.generator files ((s.scoreIteration i).run w).2 := by
  obtain ⟨files, hwritten⟩ :=
    becomes_writeAll s i (scored s.utilityPerHour i (s.part.get w.memory)) (s.noted i w)
  refine ⟨files, ?_⟩
  rw [run_scoreIteration]
  exact (becomes_noted s i w).trans hwritten

/-- Where the files can be written, the scoring ends well. -/
theorem scoreIteration_of_written {s : Scoring σ} {i : IterationIndex} {w : World σ}
    {m : CommuteMemory} {files files' : FileSystem}
    (hm : m = scored s.utilityPerHour i (s.part.get w.memory))
    (hscores : w.files.writeText (s.output.file scoresFile) (scoresText m.history) = .ok files)
    (hloads : if s.iterationFiles then
        files.writeText (s.output.iterationFile i loadsFile) (s.loadsOf m) = .ok files'
      else files = files') :
    ((s.scoreIteration i).run w).1 = .ok () ∧
      w.Becomes (s.part.set m w.memory) w.generator files' ((s.scoreIteration i).run w).2 := by
  subst hm
  let m := scored s.utilityPerHour i (s.part.get w.memory)
  have hfirst : (write (s.output.file scoresFile) (scoresText m.history)).run (s.noted i w) =
      (.ok (), { s.noted i w with files := files }) := by
    have hfound : (s.noted i w).files = w.files := rfl
    rw [run_write, hfound, hscores]
  have hrun : (s.scoreIteration i).run w =
      (if s.iterationFiles then write (s.output.iterationFile i loadsFile) (s.loadsOf m)
        else .done ()).run { s.noted i w with files := files } := by
    rw [run_scoreIteration, writeAll, Program.run_bind]
    simp only [bind, StateT.bind, m, hfirst]
  have hnoted : w.Becomes (s.part.set m w.memory) w.generator files
      { s.noted i w with files := files } :=
    (becomes_noted s i w).trans ((s.noted i w).becomes_update _ _ files)
  rw [hrun]
  cases hfiles : s.iterationFiles with
  | false =>
      rw [hfiles, if_neg Bool.false_ne_true] at hloads
      exact ⟨rfl, hloads ▸ hnoted⟩
  | true =>
      rw [hfiles, if_pos rfl] at hloads
      rw [if_pos rfl, run_write]
      dsimp only
      rw [hloads]
      exact ⟨rfl, (becomes_noted s i w).trans ((s.noted i w).becomes_update _ _ files')⟩

/-- The end of the history is only logged. -/
theorem close_still (s : Scoring σ) (w : World σ) :
    (s.close.run w).1 = .ok () ∧ World.Still w (s.close.run w).2 := by
  have hclose : s.close.run w = (if (s.part.get w.memory).history.isEmpty then
      Program.say .warning "run ended before any iteration was scored"
      else Program.say .info "score history closed" : Program σ Cause Unit).run w := rfl
  rw [hclose]
  split
  · exact ⟨rfl, World.still_note rfl w⟩
  · exact ⟨rfl, World.still_note rfl w⟩

end Scoring

namespace CommuterSimulation

open Mobsim (found repopulated)

variable {s : PopulationSettings} {part : Part σ CommuteMemory} {k : Context}

/-! ## Preparing -/

/-- Every commuter gets a route; all else is as before. -/
theorem becomes_prepare (s : PopulationSettings) (part : Part σ CommuteMemory) (w : World σ) :
    ((prepare s part).run w).1 = .ok () ∧
      w.Becomes
        (repopulated part
          ((found part w).assignRoutes s.routes.length w.generator).1 w.memory)
        ((found part w).assignRoutes s.routes.length w.generator).2 w.files
        ((prepare s part).run w).2 := by
  let rest : Program σ Cause Unit := do
    Program.drawPopulation part (Population.assignRoutes s.routes.length)
    Program.say .info "initial routes assigned"
  have hrest : ∀ u : World σ, (rest.run u).1 = .ok () ∧
      u.Becomes
        (repopulated part ((found part u).assignRoutes s.routes.length u.generator).1 u.memory)
        ((found part u).assignRoutes s.routes.length u.generator).2 u.files (rest.run u).2 := by
    intro u
    have hdrawn := Program.becomes_drawPopulation (ε := Cause) part
      (Population.assignRoutes s.routes.length) u
    exact ⟨rfl, hdrawn.still (World.still_note rfl _)⟩
  have hprepare : (prepare s part).run w = (if (found part w).isEmpty then
      (Program.say .warning
        "population is empty; iterations will not score anything").bind fun _ => rest
      else rest).run w := by
    change (if (found part w).isEmpty then _ else _ : Program σ Cause Unit).run w = _
    split <;> rfl
  rw [hprepare]
  split
  · -- the warning changes nothing that the rest finds
    obtain ⟨hok, hbecomes⟩ := hrest (w.noted (.said .collaborator
      ⟨.warning, "population is empty; iterations will not score anything"⟩))
    have hwarned : World.Still w (w.noted (.said .collaborator
      ⟨.warning, "population is empty; iterations will not score anything"⟩)) :=
      World.still_note rfl w
    exact ⟨hok, World.Becomes.trans hwarned hbecomes⟩
  · exact hrest w

/-! ## Who is told -/

/-- The scoring of a simulation. -/
def scoring (s : PopulationSettings) (part : Part σ CommuteMemory) (k : Context) : Scoring σ where
  part := part
  output := k.output
  routes := s.routes
  utilityPerHour := s.utilityPerHour
  iterationFiles := k.configuration.controller.iterationDirectories

/-- The listeners of the simulation that a kind of event goes to. -/
def told (s : PopulationSettings) (part : Part σ CommuteMemory) (k : Context) :
    EventKind → List (Registration σ)
  | .replanning => [⟨.core, 0, replanningListener part s.routes.length s.replanningShare⟩]
  | .scoring | .shutdown => [⟨.core, 1, (scoring s part k).listener⟩]
  | _ => []

/-- The listeners of the simulation are told before those of users. -/
theorem order_listeners (users : List (Listener σ)) (kind : EventKind) :
    ListenerBus.order { core := listeners s part k, user := users } kind =
      told s part k kind ++ ListenerBus.order { user := users } kind := by
  cases kind <;> rfl

/-- Registrations of users. -/
theorem user_of_mem_order {users : List (Listener σ)} {kind : EventKind} {r : Registration σ}
    (h : r ∈ ListenerBus.order { user := users } kind) : r.tier = .user ∧ r.listener ∈ users := by
  obtain ⟨hmem, -⟩ := List.mem_filter.mp h
  obtain ⟨⟨l, n⟩, hl, rfl⟩ := List.mem_map.mp (List.mem_append.mp hmem |>.resolve_left nofun)
  exact ⟨rfl, List.fst_mem_of_mem_zipIdx hl⟩

end CommuterSimulation

end CommuteSim
