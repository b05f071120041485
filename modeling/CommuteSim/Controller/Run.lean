import CommuteSim.Controller.Iteration
import CommuteSim.Controller.Startup
import CommuteSim.Controller.Teardown

/-!
# Runs

A controller runs once: it starts up, iterates and tears down. While it does, panics of the whole
process may be watched for; the handler that was there before is put back when the run is over.
-/

namespace CommuteSim

namespace Controller

variable {σ : Type}

def enter (stage : Stage) : Driven σ Unit :=
  modify fun s => { s with controller := { s.controller with stage := stage } }

/-- Makes the controller's thread known to the coordinator, if none is known. -/
def bindThread : StateM (World σ) Unit := World.alter fun c => ((), { c with bound := true })

/-- Puts in the handler that watches for panics; gives back the one before it. -/
def watch : StateM (World σ) PanicHandler := do
  World.yield
  let previous ← modifyGet fun w =>
    let (previous, process) := w.process.watch w.self
    (previous, w.setProcess process)
  World.say .info "panic hook installed"
  return previous

/-- Puts back a handler of panics. -/
def unwatch (previous : PanicHandler) : StateM (World σ) Unit := do
  World.yield
  modify fun w => w.setProcess (w.process.restore previous)

/-- All that comes before the teardown. -/
def runToTeardown : Driven σ Unit := do
  enter .starting
  if (← startUp) = .proceed then
    enter .running
    runIterations
  enter .terminating

/-- All of a run that the handler of panics, if there is one, watches over: it ends with the
release of those who wait for the end of the teardown. -/
def runToRelease : Driven σ (Except RunFailure RunSummary) := do
  runToTeardown
  let result ← tearDown
  enter .terminated
  onWorld World.terminate
  return result

/-- Runs the simulation of a controller that has not run before. -/
def runOnce (watching : Bool) : Driven σ (Except RunFailure RunSummary) := do
  onWorld bindThread
  if watching then
    let previous ← onWorld watch
    let result ← runToRelease
    onWorld (unwatch previous)
    return result
  else runToRelease

/-- Runs the simulation. -/
def run : Driven σ (Except RunFailure RunSummary) := do
  let c := (← get).controller
  if c.stage ≠ .idle then return .error .alreadyRun
  runOnce c.context.configuration.controller.capturePanics

/-- Lets a controller go. Those who wait for the end of its teardown are released. -/
def drop : StateM (World σ) Unit := World.terminate

end Controller

end CommuteSim
