import CommuteSim.Files.OsError
import CommuteSim.Files.Path

/-!
# A file system

Files and directories are found by their location, the names on the way from the root. Every
operation either fails and changes nothing, or changes the entries that it says; the only
operations that can fail halfway are `createAll`, which keeps the directories it has made, and
`removeAll`, which may have emptied a directory that it cannot remove. There are no links, and no
permissions that could be missing.
-/

namespace CommuteSim

/-- The names on the way from the root. -/
abbrev Location := List String

/-- What stands at a location. -/
inductive FileEntry where
  | directory
  | file (content : ByteArray)

instance : DecidableEq FileEntry
  | .directory, .directory => .isTrue rfl
  | .directory, .file _ => .isFalse nofun
  | .file _, .directory => .isFalse nofun
  | .file a, .file b =>
    match ByteArray.instDecidableEq a b with
    | .isTrue h => .isTrue (congrArg FileEntry.file h)
    | .isFalse h => .isFalse fun e => h (FileEntry.file.inj e)

/-- A file system, seen by a process that works in a directory. -/
structure FileSystem where
  entries : List (Location × FileEntry) := []
  workingDirectory : Location := []

namespace FileSystem

/-! ## Entries -/

/-- What stands at a location; at the root there is always a directory. -/
def entry? (s : FileSystem) (l : Location) : Option FileEntry :=
  if l.isEmpty then some .directory else s.entries.lookup l

/-- Whether a location lies below another one. -/
def isBelow (l above : Location) : Bool := above.length < l.length && above.isPrefixOf l

/-- Puts an entry at a location. -/
def put (s : FileSystem) (l : Location) (e : FileEntry) : FileSystem :=
  { s with entries := (l, e) :: s.entries.filter (·.1 ≠ l) }

/-- Removes all that lies below a location. -/
def clear (s : FileSystem) (l : Location) : FileSystem :=
  { s with entries := s.entries.filter fun e => !isBelow e.1 l }

/-- Removes the entry at a location. -/
def drop (s : FileSystem) (l : Location) : FileSystem :=
  { s with entries := s.entries.filter (·.1 ≠ l) }

/-! ## Following paths -/

/-- The outcome of a file operation. -/
abbrev FileResult := Except OsError

/-- The directory reached by names from a directory. -/
def walk (s : FileSystem) : Location → List String → FileResult Location
  | here, [] =>
    match s.entry? here with
    | some .directory => .ok here
    | some (.file _) => .error .notDirectory
    | none => .error .notFound
  | here, name :: rest =>
    match s.entry? here with
    | some .directory =>
      if name = "." then s.walk here rest
      else if name = ".." then s.walk here.dropLast rest
      else if name.utf8ByteSize > 255 then .error .nameTooLong
      else s.walk (here ++ [name]) rest
    | some (.file _) => .error .notDirectory
    | none => .error .notFound

/-- Where a path begins. -/
def start (s : FileSystem) (p : PathParts) : Location :=
  if p.absolute then [] else s.workingDirectory

/-- Refuses texts that are no paths. -/
def checked (path : String) : FileResult PathParts :=
  if path.toList.contains '\x00' then .error .nulInPath
  else if path.isEmpty then .error .notFound
  else if path.utf8ByteSize ≥ 4096 then .error .nameTooLong
  else .ok (.ofText path)

/-- The last step of a path. -/
inductive LastStep where
  /-- A name in a directory. -/
  | name (directory : Location) (name : String)
  | here (directory : Location)
  | up (directory : Location)
  | root

/-- Follows a path up to its last step. -/
def approach (s : FileSystem) (p : PathParts) : FileResult LastStep :=
  match p.names.getLast? with
  | none => .ok .root
  | some last => do
    let directory ← s.walk (s.start p) p.names.dropLast
    if last = "." then return .here directory
    else if last = ".." then return .up directory
    else if last.utf8ByteSize > 255 then .error .nameTooLong
    else return .name directory last

/-- The location of what a path leads to, with the entry there. -/
def find (s : FileSystem) (path : String) : FileResult (Location × FileEntry) := do
  let p ← checked path
  match ← s.approach p with
  | .root => return ([], .directory)
  | .here d => return (d, .directory)
  | .up d => return (d.dropLast, .directory)
  | .name d n =>
    match s.entry? (d ++ [n]) with
    | none => .error .notFound
    | some .directory => return (d ++ [n], .directory)
    | some (.file c) => if p.trailingSlash then .error .notDirectory else return (d ++ [n], .file c)

/-! ## Operations -/

/-- Whether a path leads to something. -/
def pathExists (s : FileSystem) (path : String) : Bool := (s.find path).isOk

def isDirectory (s : FileSystem) (path : String) : Bool :=
  match s.find path with
  | .ok (_, .directory) => true
  | _ => false

/-- The names of the entries of a directory. -/
def list (s : FileSystem) (path : String) : FileResult (List String) := do
  match ← s.find path with
  | (_, .file _) => .error .notDirectory
  | (l, .directory) =>
    return s.entries.filterMap fun e => if e.1.dropLast = l then e.1.getLast? else none

/-- The content of a file. -/
def read (s : FileSystem) (path : String) : FileResult ByteArray := do
  match ← s.find path with
  | (_, .file c) => return c
  | (_, .directory) => .error .isDirectory

/-- The text in a file. -/
def readText (s : FileSystem) (path : String) : FileResult String := do
  match String.fromUTF8? (← s.read path) with
  | some t => return t
  | none => .error .notText

/-- Writes a file, in the place of one that is there already. -/
def write (s : FileSystem) (path : String) (content : ByteArray) : FileResult FileSystem := do
  let p ← checked path
  match ← s.approach p with
  | .root | .here _ | .up _ => .error .isDirectory
  | .name d n =>
    if p.trailingSlash then .error .isDirectory
    else match s.entry? (d ++ [n]) with
      | some .directory => .error .isDirectory
      | _ => return s.put (d ++ [n]) (.file content)

def writeText (s : FileSystem) (path text : String) : FileResult FileSystem :=
  s.write path text.toUTF8

/-- Makes a directory out of the parts of a path. -/
def makeParts (s : FileSystem) (p : PathParts) : FileResult FileSystem := do
  match ← s.approach p with
  | .root | .here _ | .up _ => .error .alreadyExists
  | .name d n =>
    if (s.entry? (d ++ [n])).isSome then .error .alreadyExists
    else return s.put (d ++ [n]) .directory

/-- Whether the parts of a path lead to a directory. -/
def partsLeadToDirectory (s : FileSystem) (p : PathParts) : Bool :=
  match s.walk (s.start p) p.names with
  | .ok _ => true
  | .error _ => false

/-- Makes a directory unless it is there. Where the directory around it is missing, `around` is run
first. -/
def ensureParts (s : FileSystem) (p : PathParts)
    (around : FileSystem → FileResult Unit × FileSystem) : FileResult Unit × FileSystem :=
  let settle (s : FileSystem) (e : OsError) : FileResult Unit × FileSystem :=
    if s.partsLeadToDirectory p then (.ok (), s) else (.error e, s)
  match s.makeParts p with
  | .ok t => (.ok (), t)
  | .error .notFound =>
    match around s with
    | (.error e, t) => (.error e, t)
    | (.ok (), t) =>
      match t.makeParts p with
      | .ok u => (.ok (), u)
      | .error e => settle t e
  | .error e => settle s e

/-- Makes the directory of the first `count` names of a path and all directories around it. -/
def ensureNames (absolute : Bool) (names : List String) : (count : Nat) → FileSystem →
    FileResult Unit × FileSystem
  | 0, s => (.ok (), s)
  | count + 1, s =>
    s.ensureParts { absolute := absolute, names := names.take (count + 1) }
      (ensureNames absolute names count)

/-- Makes a directory and all directories around it, as far as they are missing. -/
def createAll (s : FileSystem) (path : String) : FileResult Unit × FileSystem :=
  if path.isEmpty then (.ok (), s)
  else match checked path with
    | .error e => (.error e, s)
    | .ok p =>
      let names := p.normal.names
      s.ensureParts p (ensureNames p.absolute names (names.length - 1))

/-- Writes a file after making the directories around it, as far as that succeeds. -/
def writeDeep (s : FileSystem) (path : String) (content : ByteArray) : FileSystem :=
  let s := (s.createAll (parentPath path)).2
  match s.write path content with
  | .ok t => t
  | .error _ => s

/-- Removes a directory with all that it holds. -/
def removeAll (s : FileSystem) (path : String) : FileResult Unit × FileSystem :=
  match s.find path with
  | .error e => (.error e, s)
  | .ok (_, .file _) => (.error .notDirectory, s)
  | .ok (l, .directory) =>
    let emptied := s.clear l
    match checked path >>= emptied.approach with
    | .ok (.name d n) => (.ok (), emptied.drop (d ++ [n]))
    | .ok (.here _) => (.error .invalid, emptied)
    | .ok (.up _) => (.error .notEmpty, emptied)
    | .ok .root => (.error .busy, emptied)
    | .error e => (.error e, emptied)

/-- Removes a file. -/
def removeFile (s : FileSystem) (path : String) : FileResult FileSystem := do
  match ← s.find path with
  | (_, .directory) => .error .isDirectory
  | (l, .file _) => return s.drop l

/-! ## Views -/

/-- The path of a location below the working directory. -/
def shown (s : FileSystem) (l : Location) : Option String :=
  if isBelow l s.workingDirectory then some ("/".intercalate (l.drop s.workingDirectory.length))
  else none

/-- The paths of all that lies below the working directory, those of directories with a slash
behind them. -/
def paths (s : FileSystem) : List String :=
  let all := s.entries.filterMap fun (l, e) =>
    (s.shown l).map fun p => match e with
      | .directory => p ++ "/"
      | .file _ => p
  all.mergeSort fun a b => !(b < a)

end FileSystem

end CommuteSim
