/-!
# Paths

A path is a text of names with slashes between them. It is taken apart into `PathParts` to be
followed in a file system.
-/

namespace CommuteSim

/-- Two paths put one behind the other; an absolute second one stands alone. -/
def joinPath (first second : String) : String :=
  if second.startsWith "/" || first.isEmpty then second
  else if first.endsWith "/" then first ++ second
  else first ++ "/" ++ second

/-- The path of what is around a path: all before its last slash. -/
def parentPath (path : String) : String :=
  String.ofList ((path.toList.reverse.dropWhile (· ≠ '/')).drop 1).reverse

/-- The text cut at each slash. -/
def splitAtSlash : List Char → List (List Char)
  | [] => [[]]
  | c :: rest =>
    if c = '/' then [] :: splitAtSlash rest
    else match splitAtSlash rest with
      | [] => [[c]]
      | part :: parts => (c :: part) :: parts

/-- A path taken apart. -/
structure PathParts where
  absolute : Bool
  /-- The names, `.` and `..` among them. -/
  names : List String
  /-- Whether a slash follows the last name. -/
  trailingSlash : Bool := false
  deriving DecidableEq, Repr

namespace PathParts

/-- The parts of a path. Several slashes are one. -/
def ofText (path : String) : PathParts :=
  let names := (splitAtSlash path.toList).filter (!·.isEmpty)
  { absolute := path.startsWith "/"
    names := names.map String.ofList
    trailingSlash := !names.isEmpty && path.endsWith "/" }

/-- Without the names that lead nowhere; a leading `.` stays. -/
def normal (p : PathParts) : PathParts :=
  let kept := match p.names with
    | "." :: rest => (if p.absolute then [] else ["."]) ++ rest.filter (· ≠ ".")
    | names => names.filter (· ≠ ".")
  { p with names := kept, trailingSlash := false }

end PathParts

end CommuteSim
