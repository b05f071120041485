import CommuteSim.CommandLine
import Std.Time.DateTime.Timestamp

/-!
# The program

The program reads what stands at the configuration file and in the output directory, runs on what it
has read, and then carries over what the run has changed.
-/

namespace CommuteSim.Main

/-- The absolute path of a location. -/
def absolutePath (l : Location) : String := "/" ++ "/".intercalate l

/-- Where a path leads from a directory. -/
def locate (here : Location) (path : String) : Location :=
  let p := PathParts.ofText path
  p.names.foldl (fun l name =>
    if name = "." then l else if name = ".." then l.dropLast else l ++ [name])
    (if p.absolute then [] else here)

/-! ## Reading -/

/-- Reads what stands at a location: a file with its content, a directory without its entries. -/
def readEntry (files : FileSystem) (l : Location) : IO FileSystem := do
  let path := (← IO.currentDir) / absolutePath l
  if !(← path.pathExists) then return files
  if ← path.isDir then return files.put l .directory
  return files.put l (.file (← IO.FS.readBinFile path))

/-- Reads all that stands on the way to a location, and there. -/
def readWay (files : FileSystem) (l : Location) : IO FileSystem :=
  (List.range l.length).foldlM (fun files n => readEntry files (l.take (n + 1))) files

/-- Reads all that stands below a location. -/
partial def readBelow (files : FileSystem) (l : Location) : IO FileSystem := do
  let path := (← IO.currentDir) / absolutePath l
  if !(← path.isDir) then return files
  (← path.readDir).foldlM (fun files entry => do
    let below := l ++ [entry.fileName]
    readBelow (← readEntry files below) below) files

/-! ## Carrying over -/

/-- Removes what stands in one state of the files and not in another. -/
def removeOld (before after : FileSystem) : IO Unit :=
  before.entries.forM fun (l, e) => do
    if (after.entry? l).isNone && (after.entry? l.dropLast).isSome then
      match e with
      | .directory => IO.FS.removeDirAll (absolutePath l)
      | .file _ => IO.FS.removeFile (absolutePath l)

/-- Writes what stands in one state of the files and not so in another. -/
def writeNew (before after : FileSystem) : IO Unit := do
  let new := after.entries.filter fun (l, e) => before.entry? l ≠ some e
  (new.mergeSort fun a b => a.1.length ≤ b.1.length).forM fun (l, e) => do
    match e with
    | .directory => IO.FS.createDirAll (absolutePath l)
    | .file content => IO.FS.writeBinFile (absolutePath l) content

end CommuteSim.Main

open CommuteSim CommuteSim.Main in
/-- Runs the commuter simulation. -/
def main (arguments : List String) : IO UInt32 := do
  let here := (PathParts.ofText (← IO.currentDir).toString).names
  let directory ← IO.getEnv outputDirectoryVariable
  let lookup := fun name => if name = outputDirectoryVariable then directory else none
  let path := CommandLine.configurationFile arguments
  let files ← readWay { workingDirectory := here } here
  let files ← readWay files (locate here path)
  let files ← match CommandLine.loadConfiguration files lookup path with
    | .ok c =>
      let output := locate here c.controller.outputDirectory
      readBelow (← readWay files output) output
    | .error _ => pure files
  let now : Instant := ⟨(← Std.Time.Timestamp.now).toNanosecondsSinceUnixEpoch.val⟩
  let (result, after) := CommandLine.run arguments lookup now files
  removeOld files after
  writeNew files after
  match result with
  | .ok _ => pure ()
  | .error failure => IO.eprintln s!"Error: {failure.message}"
  return (CommandLine.exitCode result).toUInt32
