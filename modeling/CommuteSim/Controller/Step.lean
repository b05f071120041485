import CommuteSim.Controller.Basic

/-!
# Guarded steps

A step is guarded: its failure or panic is reported to the coordinator, and then the flag says
whether the run goes on. So a step that fails aborts the run, and one that ends well does so too
if someone else requested a shutdown meanwhile.
-/

namespace CommuteSim

namespace Controller

variable {σ α : Type}

/-! ## What a step is made of -/

/-- Runs the program of a collaborator; its failure becomes a fault. -/
def collaborate (fault : Cause → Fault) (p : Program σ Cause α) : Guarded σ α :=
  ExceptT.mk do return (← onWorld p.run).mapError (Abort.map fault)

/-- Tells the listeners of an event. -/
def announce (e : Event) : Guarded σ Unit := ExceptT.mk do
  onWorld (World.note (.round e))
  let s ← get
  let told ← onWorld (s.controller.bus.notify e)
  return (told.mapError (Abort.map Fault.listener)).map fun _ => ()

/-- Seeds the generator for an iteration. -/
def seedAfresh (i : IterationIndex) : Driven σ Unit :=
  modify fun s => { s with
    controller := { s.controller with seeding := s.controller.seeding.advance i }
    world := { s.world with generator := s.controller.seeding.generator i } }

/-- Changes the ledger of operation times. -/
def time (f : TimingLedger → Instant → TimingLedger) : Driven σ Unit :=
  modify fun s => { s with
    controller := { s.controller with ledger := f s.controller.ledger s.world.clock } }

/-! ## Guards -/

/-- Reports a panic that reached the controller, unless the handler has reported one already. -/
def reportPanic (origin : String) (x : Panic) : Driven σ Unit := do
  let watched := (← get).controller.context.configuration.controller.capturePanics
  if watched then
    if (← onWorld World.look).fault.isSome then return
  discard (onWorld (World.report origin (.panic origin x.payload.message)))

/-- Reports how work failed if it did. -/
def disclose (origin : String) : Outcome Fault Unit → Driven σ Unit
  | .ok () => return
  | .error (.failure f) => discard (onWorld (World.report origin f))
  | .error (.panic x) => reportPanic origin x

/-- Reports how the work of a step failed if it did, and looks at the flag. -/
def settle (step : Step) (result : Outcome Fault Unit) : Driven σ Progress := do
  disclose step.origin result
  let progress := if ← onWorld World.flag then .aborted else .proceed
  onWorld (World.note (.ended step result progress))
  return progress

/-- Does the work of a step. It does not fail: what went wrong is reported. -/
def attempt (step : Step) (work : Guarded σ Unit) : Driven σ Progress := do
  onWorld (World.note (.began step))
  settle step (← work.run)

/-- Does a guarded phase of an iteration as a timed operation. -/
def phaseStep (p : Phase) (i : IterationIndex) (work : Guarded σ Unit) : Driven σ Progress := do
  time fun l now => l.startOperation p.operation now
  let outcome ← attempt (.phase p i) work
  time fun l now => l.finishOperation p.operation now
  return outcome

/-- The step of a phase that only tells listeners. -/
def listenerStep (p : Phase) (i : IterationIndex) : Driven σ Progress :=
  phaseStep p i do
    match p.event? i with
    | some e => announce e
    | none => return

end Controller

end CommuteSim
