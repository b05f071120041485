import CommuteSim.Controller.Step
import CommuteSim.Timing.Chart

/-!
# Iterations

An iteration goes through its phases in order. An abort ends it at once, with one exception: the
listeners are told of the end of the mobsim whenever they were told of its beginning. The table of
operation times is written after every iteration that ends without an abort.
-/

namespace CommuteSim

namespace Controller

variable {σ : Type}

/-! ## Phases -/

/-- Makes the directory of an iteration if iterations have directories. -/
def makeDirectory (i : IterationIndex) : Guarded σ Unit := do
  let context := (← getThe (Session σ)).controller.context
  if context.configuration.controller.iterationDirectories then
    match ← Guarded.of (onWorld (World.onFiles (context.output.createIteration i))) with
    | .ok () => return
    | .error f => throw (.failure (.phase .iterationStart i f.cause))

/-- The step that begins an iteration. -/
def beginIteration (i : IterationIndex) : Driven σ Progress :=
  phaseStep .iterationStart i do
    makeDirectory i
    Guarded.of (seedAfresh i)
    announce (.iterationStart i)

/-- Runs the mobsim of an iteration. It finds a generator that is seeded afresh. -/
def simulate (i : IterationIndex) : Guarded σ Unit := do
  Guarded.of (seedAfresh i)
  let s ← getThe (Session σ)
  Guarded.of (onWorld (World.note (.mobsim i s.world.generator)))
  collaborate (.phase .mobsim i) (s.controller.simulation.mobsim s.controller.context i)

/-- The step of the mobsim. -/
def mobsimStep (i : IterationIndex) : Driven σ Progress := phaseStep .mobsim i (simulate i)

/-- The mobsim with the rounds before and after it. The one after it is never left out. -/
def mobsimSteps (i : IterationIndex) : Driven σ Progress := do
  let before ← listenerStep .beforeMobsim i
  let mobsim ← if before = .proceed then mobsimStep i else pure .aborted
  let after ← listenerStep .afterMobsim i
  return if mobsim = .aborted then .aborted else after

/-- Goes through the phases of an iteration. -/
def phases (i : IterationIndex) : Driven σ Progress := do
  let first := (← get).controller.context.configuration.controller.firstIteration
  if (← beginIteration i) = .aborted then return .aborted
  if first < i then
    if (← listenerStep .replanning i) = .aborted then return .aborted
  if (← mobsimSteps i) = .aborted then return .aborted
  if (← listenerStep .scoring i) = .aborted then return .aborted
  listenerStep .iterationEnd i

/-! ## Operation times -/

/-- The file that receives the table of operation times. -/
def reportFile : String := "stopwatch.txt"

/-- The file that receives the chart of operation times. -/
def chartFile : String := "stopwatch.svg"

/-- Writes a file of the run; where that fails it is only logged. -/
def writeOrWarn (name text warning : String) : Driven σ Unit := do
  let path := (← get).controller.context.output.file name
  match ← onWorld (World.writeText path text) with
  | .ok () => return
  | .error _ => onWorld (World.say .warning warning)

/-- Writes the operation times. -/
def writeTimes : Driven σ Unit := do
  let c := (← get).controller
  onWorld (World.note (.reported c.ledger))
  writeOrWarn reportFile c.ledger.reportText "failed to write stopwatch report"
  if c.context.configuration.controller.createGraphs then
    writeOrWarn chartFile c.ledger.chartText "failed to write stopwatch chart"

/-! ## Iterations -/

/-- The line between iterations in the log. -/
def divider : String := "###################################################"

/-- Runs an iteration. -/
def runThrough (i : IterationIndex) : Driven σ Progress := do
  onWorld (World.say .info divider)
  onWorld (World.say .info s!"### ITERATION {i} BEGINS")
  time fun l now => l.openIteration i now
  let outcome ← phases i
  time fun l now => l.closeIteration now
  if outcome = .proceed then
    writeTimes
    onWorld (World.say .info s!"### ITERATION {i} ENDS")
    onWorld (World.say .info divider)
  return outcome

/-- The origin of a panic while it is asked whether an iteration is to run. -/
def criterionOrigin : String := "continue_iterations"

/-- The question whether an iteration is to run. -/
def question (c : Controller σ) (i : IterationIndex) : Program σ Empty Bool :=
  match c.criterion with
  | some criterion => criterion i
  | none => c.simulation.continues c.context i

/-- What an answer to the question means. A panic is reported, and taken for a no. -/
def heed (i : IterationIndex) (answer : Outcome Empty Bool) : Driven σ Bool := do
  if let .error (.panic x) := answer then reportPanic criterionOrigin x
  onWorld (World.note (.answered i answer))
  return answer.toOption.getD false

/-- Whether an iteration is to run. Nobody is asked once a shutdown was requested. -/
def wantsIteration (i : IterationIndex) : Driven σ Bool := do
  if ← onWorld World.flag then return false
  let c := (← get).controller
  onWorld (World.note (.asked i))
  heed i (← onWorld (c.question i).run)

/-- Logs why no further iteration is run. -/
def sayStopped : Driven σ Unit := do
  if ← onWorld World.flag then
    onWorld (World.say .warning "shutdown requested; next iteration not started")
  else onWorld (World.say .info "stopping criterion reached")

/-- Notes that an iteration is started. -/
def setLast (i : IterationIndex) : Driven σ Unit :=
  modify fun s => { s with controller := { s.controller with last := some i } }

/-- Counts an iteration that ended without an abort; the count stays at the largest index. -/
def countCompleted : Driven σ Unit :=
  modify fun s => { s with
    controller := { s.controller with completed := min (s.controller.completed + 1) 0xFFFFFFFF } }

/-- Runs iterations from an index on. `room` is the number of indices from there to the largest. -/
def iterateFrom : (room : Nat) → IterationIndex → Driven σ Unit
  | 0, _ => return
  | room + 1, i => do
    if ← wantsIteration i then
      setLast i
      if (← runThrough i) = .proceed then
        countCompleted
        match i.next? with
        | some next => iterateFrom room next
        | none => onWorld (World.say .warning "iteration index space exhausted")
    else sayStopped

/-- Runs all iterations. -/
def runIterations : Driven σ Unit := do
  let first := (← get).controller.context.configuration.controller.firstIteration
  iterateFrom (UInt32.size - first.toNat) first

end Controller

end CommuteSim
