import CommuteSim.Controller.Step

/-!
# Teardown

The teardown begins with the claim to it. From then on the fault of the run is settled: what the
listeners do when they are told of the shutdown is logged and changes nothing.
-/

namespace CommuteSim

namespace Controller

variable {σ : Type}

/-! ## What is logged -/

/-- The lines by which an unexpected shutdown is known: the first comes before the listeners are
told, the others come when all is over. -/
def unexpectedLine : LogLine := ⟨.error, "ERROR --- This is an unexpected shutdown!"⟩
def endedUnexpectedlyLine : LogLine :=
  ⟨.error, "ERROR --- Shutdown completed, but the simulation was unexpectedly terminated."⟩
def unusableLine : LogLine :=
  ⟨.error, "ERROR --- The results should not be used for further analysis."⟩

/-- The line by which a shutdown as expected is known. -/
def completedLine : LogLine := ⟨.info, "S H U T D O W N   ---   shutdown completed"⟩

/-- Logs a line of the controller. -/
def sayLine (l : LogLine) : Driven σ Unit := onWorld (World.note (.said .controller l))

/-! ## The teardown -/

/-- Tells the listeners of the shutdown. Their failures and panics are only logged, a panic in the
words that it carries. -/
def notifyShutdown (unexpected : Bool) : Driven σ Unit := do
  let bus := (← get).controller.bus
  let e := Event.shutdown unexpected
  onWorld (World.note (.round e))
  match ← onWorld (bus.notify e) with
  | .ok _ => return
  | .error (.failure _) => onWorld (World.say .error "shutdown listener failed")
  | .error (.panic x) => onWorld (World.note (.said .collaborator ⟨.error, x.payload.message⟩))

/-- Logs if the claim to the teardown was not the first. -/
def sayClaimed (first : Bool) : Driven σ Unit := do
  if !first then
    onWorld (World.say .warning "teardown was already claimed")

/-- Logs that the shutdown starts. -/
def sayStarted (unexpected : Bool) : Driven σ Unit := do
  onWorld (World.say .info "S H U T D O W N   ---   start shutdown")
  if unexpected then sayLine unexpectedLine

/-- Logs how the run ended. -/
def sayEnded (unexpected faulty : Bool) : Driven σ Unit := do
  if faulty then
    onWorld (World.say .error "simulation terminated by error")
  if unexpected then
    sayLine endedUnexpectedlyLine
    sayLine unusableLine
  else sayLine completedLine

/-- The result of a run that ended with this fault, or with none. -/
def result (c : Controller σ) (unexpected : Bool) :
    Option FaultRecord → Except RunFailure RunSummary
  | some r => .error (.fault r.origin r.fault)
  | none => .ok
    { reason := if unexpected then .interrupted else .completed
      iterationsCompleted := c.completed
      lastIteration := c.last }

/-- Tells how the run ends, once that is settled, and gives its result. -/
def conclude (unexpected : Bool) (fault : Option FaultRecord) :
    Driven σ (Except RunFailure RunSummary) := do
  sayStarted unexpected
  notifyShutdown unexpected
  sayEnded unexpected fault.isSome
  return result (← get).controller unexpected fault

/-- Claims the teardown and ends the run. -/
def tearDown : Driven σ (Except RunFailure RunSummary) := do
  sayClaimed (← onWorld World.openTeardown)
  let fault := (← onWorld World.look).fault
  let unexpected := (← onWorld World.flag) || fault.isSome
  conclude unexpected fault

end Controller

end CommuteSim
