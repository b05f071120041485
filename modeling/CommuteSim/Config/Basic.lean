import CommuteSim.Lifecycle.Event

/-!
# Configuration of a run

The configuration says which iterations run, where output goes and how faults are watched for.
The default configuration is what the fields below begin with. A configuration is checked once in a
run, by `Configuration.check`.
-/

namespace CommuteSim

/-- What to do with an output directory that exists already. -/
inductive OverwritePolicy where
  /-- Refuse to start unless the directory is empty. -/
  | failIfDirectoryExists
  /-- Keep what is there, and overwrite files as they are written. -/
  | overwriteExistingFiles
  /-- Remove the directory with all it holds. -/
  | deleteDirectoryIfExists
  deriving DecidableEq, Repr

namespace OverwritePolicy

def all : List OverwritePolicy :=
  [failIfDirectoryExists, overwriteExistingFiles, deleteDirectoryIfExists]

/-- The name of a policy in documents and messages. -/
def name : OverwritePolicy → String
  | failIfDirectoryExists => "fail_if_directory_exists"
  | overwriteExistingFiles => "overwrite_existing_files"
  | deleteDirectoryIfExists => "delete_directory_if_exists"

end OverwritePolicy

/-! ## Values that settings begin with -/

def defaultRandomSeed : UInt64 := 4711

def defaultLastIteration : IterationIndex := 10

def defaultOutputDirectory : String := "./output"

def defaultLogLevel : String := "info"

/-! ## Settings -/

/-- Settings of the whole process. -/
structure GlobalSettings where
  /-- Iteration `n` is seeded with this number plus `n`. -/
  randomSeed : UInt64 := defaultRandomSeed
  deriving DecidableEq, Repr

/-- Bounds of the iterations, and settings of the output. -/
structure ControllerSettings where
  firstIteration : IterationIndex := 0
  /-- The last iteration of a run whose stopping criterion is the default one. -/
  lastIteration : IterationIndex := defaultLastIteration
  /-- The directory that receives all output. -/
  outputDirectory : String := defaultOutputDirectory
  /-- A name to begin the names of output files with. -/
  runId : Option String := none
  /-- Whether the chart of operation times is written beside the table. -/
  createGraphs : Bool := true
  overwritePolicy : OverwritePolicy := .failIfDirectoryExists
  /-- Whether every iteration has a directory of its own. -/
  iterationDirectories : Bool := true
  /-- Whether panics on any thread of the process are recorded while the run lasts. -/
  capturePanics : Bool := true
  deriving DecidableEq, Repr

/-- Settings of the log. -/
structure LoggingSettings where
  level : String := defaultLogLevel
  deriving DecidableEq, Repr

/-- The configuration of a run. -/
structure Configuration where
  global : GlobalSettings := {}
  controller : ControllerSettings := {}
  logging : LoggingSettings := {}
  deriving DecidableEq, Repr

/-! ## Consistency -/

/-- Why a configuration cannot drive a run. -/
inductive Inconsistency where
  | reversedBounds (first last : IterationIndex)
  | noOutputDirectory
  | separatorInRunId (runId : String)
  deriving DecidableEq, Repr

def Inconsistency.reason : Inconsistency → String
  | reversedBounds first last =>
    s!"last_iteration ({last}) is smaller than first_iteration ({first})"
  | noOutputDirectory => "output_directory must not be empty"
  | separatorInRunId runId => s!"run_id must not contain path separators: {runId}"

def Inconsistency.message (i : Inconsistency) : String := s!"inconsistent configuration: {i.reason}"

/-- Whether a name holds a character that separates the parts of paths on some system. -/
def hasSeparator (name : String) : Bool := name.toList.any fun c => c = '/' || c = '\\'

/-- What is wrong with a configuration, if anything is. -/
def Configuration.inconsistency? (c : Configuration) : Option Inconsistency :=
  let s := c.controller
  if s.lastIteration < s.firstIteration then some (.reversedBounds s.firstIteration s.lastIteration)
  else if s.outputDirectory.isEmpty then some .noOutputDirectory
  else (s.runId.filter hasSeparator).map .separatorInRunId

/-- What is doubtful about a configuration that can be used. -/
def Configuration.warnings (c : Configuration) : List String :=
  let sharedSeed := "global.random_seed is 0; runs are reproducible but share the seed of " ++
    "unseeded setups"
  let fewCharts := "create_graphs is set while iteration directories are disabled; only the " ++
    "run-level chart is written"
  (if c.global.randomSeed = 0 then [sharedSeed] else []) ++
  (if !c.controller.iterationDirectories && c.controller.createGraphs then [fewCharts] else [])

/-- Checks a configuration: the warnings about it, or why it cannot be used. -/
def Configuration.check (c : Configuration) : Except Inconsistency (List String) :=
  match c.inconsistency? with
  | some i => .error i
  | none => .ok c.warnings

/-! ## The environment -/

/-- The environment variable that overrides the output directory. -/
def outputDirectoryVariable : String := "CYCLESIM_OUTPUT_DIR"

/-- The white space of Unicode. -/
def isWhiteSpace (c : Char) : Bool :=
  let n := c.toNat
  (0x9 ≤ n && n ≤ 0xD) || n = 0x20 || n = 0x85 || n = 0xA0 || n = 0x1680 ||
    (0x2000 ≤ n && n ≤ 0x200A) || n = 0x2028 || n = 0x2029 || n = 0x202F || n = 0x205F || n = 0x3000

/-- The configuration with the output directory of the environment, unless that is blank. -/
def Configuration.overridden (c : Configuration) (lookup : String → Option String) :
    Configuration :=
  match lookup outputDirectoryVariable with
  | some dir =>
    if dir.toList.all isWhiteSpace then c
    else { c with controller := { c.controller with outputDirectory := dir } }
  | none => c

end CommuteSim
