import CommuteSim.Coordinator.Process
import CommuteSim.Output.Directory
import CommuteSim.Random.Seeding
import CommuteSim.Timing.Ledger

/-!
# The world of a run

The world is what a controller and its collaborators act on: the memory of the collaborators, the
clock, the files, the shared generator, and the process with the coordinator of the run. The
history says what has happened, in order.

Other threads act on the process while the controller works. `others n` is what they do between the
`n`-th access of the controller's thread to the coordinator and the one before; `World.yield` lets
them. All that the controller's thread does between two accesses touches nothing that other threads
see, so no more moments need to be told apart.

What anyone but the controller does to the coordinator is in the history too, and so is every state
that the coordinator goes into.
-/

namespace CommuteSim

/-- A step that a controller guards. -/
inductive Step where
  | load
  | startup
  | check
  | prepare
  | phase (phase : Phase) (iteration : IterationIndex)
  deriving DecidableEq, Repr

/-- The origin of what goes wrong in a step. -/
def Step.origin : Step → String
  | load => "load_core_listeners"
  | startup => "startup listeners"
  | check => "check_consistency"
  | prepare => "prepare_for_sim"
  | phase p i => s!"{p.operation} in iteration {i}"

/-- Whether the run goes on after a step. -/
inductive Progress where
  | proceed
  | aborted
  deriving DecidableEq, Repr

/-- Whose words a line is that is logged on the controller's thread. -/
inductive Speaker where
  | controller
  | collaborator
  deriving DecidableEq, Repr

/-- What happens in a run. -/
inductive Moment (σ : Type) where
  /-- A line is logged on the controller's thread. -/
  | said (speaker : Speaker) (line : LogLine)
  /-- A guarded step begins. -/
  | began (step : Step)
  /-- A guarded step is over: how its work ended, and whether the run goes on. -/
  | ended (step : Step) (result : Outcome Fault Unit) (progress : Progress)
  /-- Listeners are about to be told of an event. -/
  | round (event : Event)
  /-- A listener is told of an event: its list, its place there, and what it finds. -/
  | told (tier : Tier) (place : Nat) (event : Event) (memory : σ) (generator : Generator)
  /-- The mobsim of an iteration begins; it finds the generator in this state. -/
  | mobsim (iteration : IterationIndex) (generator : Generator)
  /-- It is asked whether an iteration is to run. -/
  | asked (iteration : IterationIndex)
  /-- The question whether an iteration is to run is answered, or who was asked panics. -/
  | answered (iteration : IterationIndex) (answer : Outcome Empty Bool)
  /-- The table of operation times is written. -/
  | reported (ledger : TimingLedger)
  /-- Another thread or a collaborator does something to the coordinator. -/
  | acted (act : ThreadAct)
  /-- The controller claims the teardown, and finds the coordinator in this state. -/
  | claimed (found : Coordinator)
  /-- The coordinator goes into this state. -/
  | shared (coordinator : Coordinator)
  /-- A shutdown is requested that was not requested before, by whatever thread. -/
  | raised
  /-- Those who wait for the end of the teardown are released, while this handler of panics is in
  place. -/
  | released (handler : PanicHandler)

/-- What a controller and its collaborators act on. -/
structure World (σ : Type) where
  /-- The state of the collaborators. -/
  memory : σ
  clock : Instant := ⟨0⟩
  files : FileSystem := {}
  /-- The generator that all collaborators share. -/
  generator : Generator := .ofSeed 0
  process : Process := .ofCoordinator {}
  /-- The coordinator of the run. -/
  self : CoordinatorId := 0
  history : Array (Moment σ) := #[]
  others : Nat → List ThreadAct := fun _ => []
  /-- The number of accesses to the coordinator so far. -/
  turn : Nat := 0

/-- The name of the thread that a controller runs on. -/
def controllerThread : String := "main"

namespace World

variable {σ : Type}

/-- The coordinator of the run. -/
def coordinator (w : World σ) : Coordinator := (w.process.coordinators w.self).getD {}

/-- What is to be noted when the process goes from one state to another. -/
def changes (w : World σ) (p : Process) : Array (Moment σ) :=
  let after := (p.coordinators w.self).getD {}
  (if !w.coordinator.flag && after.flag then #[.raised] else #[]) ++
    (if !w.coordinator.terminated && after.terminated then #[.released p.handler] else #[]) ++
    #[.shared after]

/-- A world in whose history something has happened. -/
def noted (w : World σ) (m : Moment σ) : World σ := { w with history := w.history.push m }

/-- Puts the process in a new state. -/
def setProcess (w : World σ) (p : Process) : World σ :=
  { w with process := p, history := w.history ++ w.changes p }

/-- Puts the coordinator of the run in a new state. -/
def setCoordinator (w : World σ) (c : Coordinator) : World σ :=
  w.setProcess (w.process.put w.self (some c))

@[simp] theorem coordinator_setCoordinator (w : World σ) (c : Coordinator) :
    (w.setCoordinator c).coordinator = c := by
  simp [setCoordinator, setProcess, coordinator]

/-- Another thread acts. -/
def undergo (w : World σ) (a : ThreadAct) : World σ :=
  (w.noted (.acted a)).setProcess (w.process.act w.self w.clock a)

/-! ## History -/

/-- Notes that something happens. -/
def note (m : Moment σ) : StateM (World σ) Unit := modify fun w => w.noted m

/-- Logs a line. -/
def say (level : LogLevel) (message : String) : StateM (World σ) Unit :=
  note (.said .controller ⟨level, message⟩)

/-- The lines that were logged. -/
def lines (w : World σ) : List LogLine :=
  w.history.toList.filterMap fun
    | .said _ l => some l
    | _ => none

/-! ## Shared state -/

/-- Lets the other threads act before the next access to the coordinator. -/
def yield : StateM (World σ) Unit :=
  modify fun w => { (w.others w.turn).foldl undergo w with turn := w.turn + 1 }

/-- Looks at the coordinator. -/
def look : StateM (World σ) Coordinator := do
  yield
  return (← get).coordinator

/-- Changes the coordinator at once, which gives a value too. -/
def change {α : Type} (f : Coordinator → α × Coordinator) : StateM (World σ) α :=
  modifyGet fun w =>
    let (a, c) := f w.coordinator
    (a, w.setCoordinator c)

/-- Changes the coordinator in one step, which gives a value too. -/
def alter {α : Type} (f : Coordinator → α × Coordinator) : StateM (World σ) α := do
  yield
  change f

/-- A collaborator changes the coordinator in one step on the controller's thread. -/
def actHere {α : Type} (a : ThreadAct) (f : Coordinator → α × Coordinator) :
    StateM (World σ) α := do
  yield
  note (.acted a)
  change f

/-- Whether a shutdown was requested. -/
def flag : StateM (World σ) Bool := return (← look).flag

/-- Reports a fault through an access to the coordinator. True if it is kept. -/
def reportBy (access : (Coordinator → Capture × Coordinator) → StateM (World σ) Capture)
    (origin : String) (f : Fault) : StateM (World σ) Bool := do
  let now := (← get).clock
  let k ← access fun c => c.record ⟨f, origin, now⟩
  note (.said .controller k.line)
  return k = .kept

/-- Reports a fault on the controller's thread. True if it is kept. -/
def report (origin : String) (f : Fault) : StateM (World σ) Bool := reportBy alter origin f

/-- The controller's thread panics: the handler in place learns of it. -/
def panic (x : Panic) : StateM (World σ) Unit := do
  let w ← get
  let thread := some controllerThread
  if w.process.handler = .watching w.self then
    discard (report (x.origin thread) (Process.panicFault thread x))
  else
    yield
    modify fun w => w.setProcess (w.process.panic thread x w.clock)

/-- The controller's thread interrupts the run. It does not wait if it is known to be that
thread. -/
def interrupt : StateM (World σ) Unit := do
  say .error "received unexpected shutdown request"
  let c ← actHere .interrupt fun c => (c, c.raiseFlag)
  if c.bound then
    say .warning "shutdown requested from the controller thread; not waiting for teardown"

/-- Another thread acts, and is waited for. -/
def elsewhere (a : ThreadAct) : StateM (World σ) Unit := do
  yield
  modify fun w => w.undergo a

/-- A collaborator claims the teardown. True for the first claim only. -/
def claimTeardown : StateM (World σ) Bool := actHere .claimTeardown Coordinator.claim

/-- The controller claims the teardown, and the history keeps what it finds. True if its claim is
the first. -/
def openTeardown : StateM (World σ) Bool := do
  let found ← alter fun c => (c, c.claim.2)
  note (.claimed found)
  return found.claim.1

/-- Marks the teardown as over. -/
def terminate : StateM (World σ) Unit := alter fun c => ((), c.terminate)

/-! ## Files -/

/-- Does work on the files, and logs what it logs. -/
def onFiles {α : Type} (work : FileWork α) : StateM (World σ) (Except OutputFailure α) := do
  let (result, j) := work.run.run { files := (← get).files }
  modify fun w => { w with files := j.files }
  j.lines.forM fun l => note (.said .controller l)
  return result

/-- Writes a text into a file. -/
def writeText (path text : String) : StateM (World σ) (FileSystem.FileResult Unit) := do
  match (← get).files.writeText path text with
  | .ok files => do
    modify fun w => { w with files := files }
    return .ok ()
  | .error reason => return .error reason

end World

end CommuteSim
