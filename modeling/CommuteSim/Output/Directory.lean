import CommuteSim.Config.Basic
import CommuteSim.Fault.Cause
import CommuteSim.Files.System
import CommuteSim.Log

/-!
# The output directory of a run

Files of the run as a whole lie in the root. An iteration has a directory of its own below `ITERS`.
All file names begin with the name of the run if it has one.
-/

namespace CommuteSim

/-- Why the output directory could not be used. -/
inductive OutputFailure where
  /-- The directory holds something already. -/
  | occupied (path : String)
  | refused (path : String) (reason : OsError)
  deriving DecidableEq, Repr

namespace OutputFailure

def message : OutputFailure → String
  | occupied path =>
    s!"output directory {path} already exists and is not empty " ++
      "(overwrite policy: fail_if_directory_exists)"
  | refused path reason => s!"output directory operation on {path} failed: {reason.text}"

/-- The failure as the cause of a fault. -/
def cause (f : OutputFailure) : Cause :=
  match f with
  | occupied _ => ⟨f.message, []⟩
  | refused _ reason => ⟨f.message, [reason.text]⟩

end OutputFailure

/-- A file system with the lines that were logged at work on it. -/
structure FileJournal where
  files : FileSystem
  lines : List LogLine := []

/-- Work on a file system that can fail. A failure keeps what was done before it. -/
abbrev FileWork (α : Type) := ExceptT OutputFailure (StateM FileJournal) α

namespace FileWork

/-- Logs a line. -/
def say (level : LogLevel) (message : String) : FileWork Unit :=
  modify fun j => { j with lines := j.lines ++ [⟨level, message⟩] }

/-- Tries an operation on a path. -/
def attempt (path : String) (operation : FileSystem → FileSystem.FileResult Unit × FileSystem) :
    FileWork Unit := do
  let (result, files) := operation (← getThe FileJournal).files
  modify fun j => { j with files := files }
  match result with
  | .ok () => return
  | .error reason => throw (.refused path reason)

end FileWork

/-- The place of a run's output. -/
structure OutputDirectory where
  root : String
  runId : Option String := none
  deriving DecidableEq, Repr

namespace OutputDirectory

open FileWork

/-! ## Paths -/

/-- The name of a file with the name of the run before it. -/
def named (d : OutputDirectory) (name : String) : String :=
  match d.runId with
  | some id => s!"{id}.{name}"
  | none => name

/-- The path of a file of the whole run. -/
def file (d : OutputDirectory) (name : String) : String := joinPath d.root (d.named name)

/-- The directory around those of the iterations. -/
def iterationsName : String := "ITERS"

/-- The directory of an iteration. -/
def iterationDirectory (d : OutputDirectory) (i : IterationIndex) : String :=
  joinPath (joinPath d.root iterationsName) s!"it.{i}"

/-- The path of a file of an iteration. -/
def iterationFile (d : OutputDirectory) (i : IterationIndex) (name : String) : String :=
  joinPath (d.iterationDirectory i) (d.named s!"{i}.{name}")

/-! ## Directories -/

/-- Deals with what stands at the root already. -/
def clearRoot (policy : OverwritePolicy) (root : String) : FileWork Unit :=
  match policy with
  | .failIfDirectoryExists => do
    match (← getThe FileJournal).files.list root with
    | .error reason => throw (.refused root reason)
    | .ok [] => return
    | .ok (_ :: _) => throw (.occupied root)
  | .overwriteExistingFiles =>
    say .warning "output directory exists; existing files will be overwritten"
  | .deleteDirectoryIfExists => do
    say .info "deleting existing output directory"
    attempt root (·.removeAll root)

/-- Makes the output directory of a run ready. -/
def prepare (s : ControllerSettings) : FileWork OutputDirectory := do
  let root := s.outputDirectory
  if (← getThe FileJournal).files.pathExists root then clearRoot s.overwritePolicy root
  attempt root (·.createAll root)
  say .info "output directory ready"
  return { root := root, runId := s.runId }

/-- Makes the directory of an iteration, empty even if one was there. -/
def createIteration (d : OutputDirectory) (i : IterationIndex) : FileWork Unit := do
  let path := d.iterationDirectory i
  if (← getThe FileJournal).files.pathExists path then
    say .warning "iteration directory exists; removing it"
    attempt path (·.removeAll path)
  attempt path (·.createAll path)

end OutputDirectory

end CommuteSim
