import CommuteSim.Config.Yaml
import CommuteSim.Listener.Bus

/-!
# The controller of a run

A controller drives a simulation and tells listeners of events. It is built from a
configuration, and runs once. A session is a controller in its world.
-/

namespace CommuteSim

/-- What the collaborators of a run are given. -/
structure Context where
  configuration : Configuration
  output : OutputDirectory

/-- The simulation that a controller drives. -/
structure Simulation (σ : Type) where
  /-- The listeners that the simulation brings along. -/
  listeners : Context → Program σ Cause (List (Listener σ)) := fun _ => .done []
  /-- What else is done before the startup. -/
  load : Context → Program σ Cause Unit := fun _ => .done ()
  /-- What is done once the configuration has been checked. -/
  prepare : Context → Program σ Cause Unit := fun _ => .done ()
  /-- The simulation step of an iteration. -/
  mobsim : Context → IterationIndex → Program σ Cause Unit
  /-- Whether an iteration is to run. -/
  continues : Context → IterationIndex → Program σ Empty Bool :=
    fun c i => .done (i ≤ c.configuration.controller.lastIteration)

/-- Where a controller is in its life. -/
inductive Stage where
  | idle
  | starting
  | running
  | terminating
  | terminated
  deriving DecidableEq, Repr

def Stage.name : Stage → String
  | idle => "idle"
  | starting => "starting"
  | running => "running"
  | terminating => "terminating"
  | terminated => "terminated"

/-- The controller of a run. -/
structure Controller (σ : Type) where
  context : Context
  simulation : Simulation σ
  /-- Asked in the place of `Simulation.continues` if there is one. -/
  criterion : Option (IterationIndex → Program σ Empty Bool) := none
  bus : ListenerBus σ := {}
  ledger : TimingLedger := {}
  seeding : Seeding
  stage : Stage := .idle
  /-- The number of iterations that ended without an abort. -/
  completed : Nat := 0
  /-- The last iteration that was started. -/
  last : Option IterationIndex := none

/-- A controller in its world. -/
structure Session (σ : Type) where
  controller : Controller σ
  world : World σ

/-- Work of a controller. -/
abbrev Driven (σ α : Type) := StateM (Session σ) α

/-- Work of a controller that can fail or panic. -/
abbrev Guarded (σ α : Type) := ExceptT (Abort Fault) (StateM (Session σ)) α

/-- Work on the world alone. -/
def onWorld {σ α : Type} (work : StateM (World σ) α) : Driven σ α := fun s =>
  let (a, w) := work s.world
  (a, { s with world := w })

/-- Work that neither fails nor panics. -/
def Guarded.of {σ α : Type} (work : Driven σ α) : Guarded σ α := ExceptT.lift work

/-! ## Building -/

/-- Why a controller could not be built. -/
inductive BuildFailure where
  | missingSimulation
  | output (failure : OutputFailure)

def BuildFailure.message : BuildFailure → String
  | missingSimulation => "no simulation hooks supplied"
  | output f => s!"failed to prepare output directory: {f.message}"

/-- What a controller is built from. -/
structure Plan (σ : Type) where
  configuration : Configuration
  simulation : Option (Simulation σ)
  criterion : Option (IterationIndex → Program σ Empty Bool) := none
  listeners : List (Listener σ) := []

namespace Controller

variable {σ : Type}

/-- Registers a listener of a user. -/
def addUserListener (c : Controller σ) (l : Listener σ) : Controller σ :=
  { c with bus := c.bus.register l .user }

/-- Makes the output directory ready and builds a controller. The generator begins with the seed of
the configuration, the coordinator without a fault. -/
def build (p : Plan σ) : StateM (World σ) (Except BuildFailure (Controller σ)) := do
  match p.simulation with
  | none => return .error .missingSimulation
  | some simulation =>
    match ← World.onFiles (OutputDirectory.prepare p.configuration.controller) with
    | .error e => return .error (.output e)
    | .ok output =>
      let seed := p.configuration.global.randomSeed
      modify fun w => { w.setCoordinator {} with generator := .ofSeed seed }
      World.say .info "controller built"
      return .ok
        { context := ⟨p.configuration, output⟩
          simulation := simulation
          criterion := p.criterion
          bus := { user := p.listeners }
          seeding := { base := seed } }

end Controller

/-! ## Results -/

/-- Why a run without a fault ended. -/
inductive Reason where
  /-- No further iteration was wanted. -/
  | completed
  /-- A shutdown was requested. -/
  | interrupted
  deriving DecidableEq, Repr

def Reason.name : Reason → String
  | completed => "Completed"
  | interrupted => "Interrupted"

/-- A run that ended without a fault. -/
structure RunSummary where
  reason : Reason
  iterationsCompleted : Nat
  lastIteration : Option IterationIndex
  deriving DecidableEq, Repr

/-- Why a run gave no summary. -/
inductive RunFailure where
  | fault (origin : String) (fault : Fault)
  /-- The controller has run before. -/
  | alreadyRun
  deriving DecidableEq, Repr

namespace RunFailure

def message : RunFailure → String
  | fault origin f => s!"simulation aborted by error in {origin}: {f.message}"
  | alreadyRun => "controller has already run"

/-- The messages behind the message of a failure. -/
def sources : RunFailure → List String
  | fault _ f => f.message :: f.sources
  | alreadyRun => []

end RunFailure

end CommuteSim
