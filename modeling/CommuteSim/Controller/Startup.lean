import CommuteSim.Controller.Step

/-!
# Startup

Before the first iteration the listeners of the simulation are loaded, all listeners are told of the
startup, the configuration is written and checked, and the simulation prepares itself. The
configuration is written before it is checked, so the file is there for one that is refused too.
-/

namespace CommuteSim

namespace Controller

variable {σ : Type}

/-- The file that receives the complete configuration. -/
def configurationFile : String := "output_config.yaml"

/-- Registers listeners of the simulation. -/
def registerCore (ls : List (Listener σ)) : Driven σ Unit :=
  modify fun s => { s with
    controller := { s.controller with
      bus := ls.foldl (fun b l => b.register l .core) s.controller.bus } }

/-- Registers the listeners of the simulation and loads what else it needs. -/
def loadListeners : Guarded σ Unit := do
  let fault := Fault.setup Step.load.origin
  let c := (← getThe (Session σ)).controller
  let listeners ← collaborate fault (c.simulation.listeners c.context)
  Guarded.of (registerCore listeners)
  collaborate fault (c.simulation.load c.context)

/-- Logs the complete configuration and writes it into its file. -/
def writeConfiguration : Guarded σ Unit := do
  let context := (← getThe (Session σ)).controller.context
  let text := context.configuration.text
  let path := context.output.file configurationFile
  Guarded.of (onWorld (World.say .info ("complete configuration:\n" ++ text)))
  match ← Guarded.of (onWorld (World.writeText path text)) with
  | .ok () => return
  | .error reason =>
    throw (.failure (.setup "write_config_dump" (Cause.within path ⟨reason.text, []⟩)))

/-- Checks the configuration, and logs what is doubtful about it. -/
def checkConfiguration : Guarded σ Unit := do
  match (← getThe (Session σ)).controller.context.configuration.check with
  | .ok warnings => warnings.forM fun w => Guarded.of (onWorld (World.say .warning w))
  | .error i => throw (.failure (.setup Step.check.origin ⟨i.message, []⟩))

/-- Lets the simulation prepare itself. -/
def prepare : Guarded σ Unit := do
  let c := (← getThe (Session σ)).controller
  collaborate (.setup Step.prepare.origin) (c.simulation.prepare c.context)

/-- Does all that comes before the first iteration. -/
def startUp : Driven σ Progress := do
  onWorld (World.say .info "starting simulation run")
  if (← attempt .load loadListeners) = .aborted then return .aborted
  onWorld (World.say .info "listeners loaded")
  if (← attempt .startup (announce .startup)) = .aborted then return .aborted
  let writeAndCheck := do
    writeConfiguration
    checkConfiguration
  if (← attempt .check writeAndCheck) = .aborted then return .aborted
  attempt .prepare prepare

end Controller

end CommuteSim
