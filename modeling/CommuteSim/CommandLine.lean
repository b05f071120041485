import CommuteSim.Commute.Section
import CommuteSim.Commute.Simulation
import CommuteSim.Config.File
import CommuteSim.Controller.Run

/-!
# The command line

The first argument names a file with the configuration, which holds the population in a section.
Without the file all settings are the default ones. The commuter simulation then runs under a
controller.
-/

namespace CommuteSim.CommandLine

/-! ## Failures -/

/-- Why there is no population to simulate. -/
inductive PopulationFailure where
  | unreadable (reason : OsError)
  /-- The document does not hold a population in its section. -/
  | unusable
  | inconsistent (problem : PopulationProblem)

def PopulationFailure.message : PopulationFailure → String
  | unreadable reason => unreadableMessage reason
  | unusable => "failed to parse population config"
  | inconsistent problem => problem.message

/-- Why the program failed. -/
inductive CommandFailure where
  | configuration (failure : ConfigurationFailure)
  | population (failure : PopulationFailure)
  | build (failure : BuildFailure)
  | run (failure : RunFailure)

def CommandFailure.message : CommandFailure → String
  | configuration (.unreadable reason) => s!"config error: {unreadableMessage reason}"
  | configuration (.unusable failure) => s!"config error: {configurationFailureMessage failure}"
  | population failure => s!"population error: {failure.message}"
  | build failure => s!"controller error: {failure.message}"
  | run failure => s!"run error: {failure.message}"

/-- The exit code of the program. -/
def exitCode {α : Type} : Except CommandFailure α → UInt8
  | .ok _ => 0
  | .error _ => 1

/-! ## Settings -/

/-- The file that is read if no argument names one. -/
def defaultFile : String := "cyclesim-config.yaml"

def configurationFile (arguments : List String) : String := arguments.headD defaultFile

/-- The configuration in a file, or the default one if there is no file. -/
def loadConfiguration (files : FileSystem) (lookup : String → Option String) (path : String) :
    Except CommandFailure Configuration :=
  if files.pathExists path then
    (Configuration.ofFile files lookup path).mapError .configuration
  else .ok (({} : Configuration).overridden lookup)

/-- The population in a file, or the default one if there is no file. -/
def readPopulation (files : FileSystem) (path : String) :
    Except PopulationFailure PopulationSettings :=
  if files.pathExists path then
    match files.readText path with
    | .error reason => .error (.unreadable reason)
    | .ok text =>
      match PopulationSettings.ofSection? text with
      | some s => .ok s
      | none => .error .unusable
  else .ok {}

/-- The population in a file, if it can be simulated. -/
def loadPopulation (files : FileSystem) (path : String) :
    Except CommandFailure PopulationSettings := do
  let s ← (readPopulation files path).mapError .population
  match s.problem? with
  | some problem => .error (.population (.inconsistent problem))
  | none => .ok s

/-! ## The program -/

/-- Runs the commuter simulation with these settings. Its workers all get their threads, and take
their turns one after the other. -/
def simulate (c : Configuration) (s : PopulationSettings) :
    StateM (World CommuteMemory) (Except CommandFailure RunSummary) := do
  let simulation := CommuterSimulation.simulation s (fun _ => .all fun _ => 0) Part.whole
  match ← Controller.build { configuration := c, simulation := some simulation } with
  | .error e => return .error (.build e)
  | .ok controller =>
    let w ← get
    let (result, session) := Controller.run ⟨controller, w⟩
    set session.world
    Controller.drop
    return result.mapError .run

/-- Runs the program on files, at a time. -/
def run (arguments : List String) (lookup : String → Option String) (now : Instant)
    (files : FileSystem) : Except CommandFailure RunSummary × FileSystem :=
  let path := configurationFile arguments
  match loadConfiguration files lookup path, loadPopulation files path with
  | .error e, _ => (.error e, files)
  | .ok _, .error e => (.error e, files)
  | .ok c, .ok s =>
    let (result, w) :=
      simulate c s { memory := CommuterSimulation.memory s, clock := now, files := files }
    (result, w.files)

end CommuteSim.CommandLine
