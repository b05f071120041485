import CommuteSim.Lifecycle.Event
import CommuteSim.SortedMap
import CommuteSim.Timing.Instant

/-!
# The ledger of operation times

Each iteration has a table of named operations with their start and their end. Operations are
recorded while an iteration is open, and only for that one. To begin an operation again forgets
what was recorded of it.
-/

namespace CommuteSim

/-- When an operation began, and when it ended if it has. -/
structure OperationTiming where
  start : Instant
  finish : Option Instant := none
  deriving DecidableEq, Repr

/-- How long an operation took, once it has ended. -/
def OperationTiming.duration? (t : OperationTiming) : Option Nanoseconds :=
  t.finish.map t.start.elapsed

/-- The operations of one iteration by name. -/
abbrev TimingTable := SortedMap String OperationTiming

/-- The times of all operations. -/
structure TimingLedger where
  tables : SortedMap IterationIndex TimingTable := []
  /-- The names of operations in the order in which they first began. -/
  names : List String := []
  /-- The iteration that is open. -/
  current : Option IterationIndex := none
  deriving DecidableEq

namespace TimingLedger

/-- The operation that covers a whole iteration. -/
def iterationOperation : String := "iteration"

/-- The table of an iteration, empty if it never began. -/
def table (l : TimingLedger) (i : IterationIndex) : TimingTable := (l.tables.get? i).getD []

def timing? (l : TimingLedger) (i : IterationIndex) (name : String) : Option OperationTiming :=
  (l.table i).get? name

/-- How long an operation took in an iteration, if it began there and ended. -/
def duration? (l : TimingLedger) (i : IterationIndex) (name : String) : Option Nanoseconds :=
  (l.timing? i name).bind OperationTiming.duration?

/-- Puts the timing of an operation into the table of an iteration. -/
def record (l : TimingLedger) (i : IterationIndex) (name : String) (t : OperationTiming) :
    TimingLedger :=
  { l with tables := l.tables.insert i ((l.table i).insert name t) }

/-- An operation begins. -/
def startOperation (l : TimingLedger) (name : String) (now : Instant) : TimingLedger :=
  match l.current with
  | none => l
  | some i =>
    let names := if l.names.contains name then l.names else l.names ++ [name]
    { l with names := names }.record i name { start := now }

/-- An operation ends. One that has not begun is left alone. -/
def finishOperation (l : TimingLedger) (name : String) (now : Instant) : TimingLedger :=
  match l.current with
  | none => l
  | some i =>
    match l.timing? i name with
    | none => l
    | some t => l.record i name { t with finish := some now }

/-- An iteration begins, and with it the operation that covers it. -/
def openIteration (l : TimingLedger) (i : IterationIndex) (now : Instant) : TimingLedger :=
  { l with current := some i }.startOperation iterationOperation now

/-- The open iteration ends. -/
def closeIteration (l : TimingLedger) (now : Instant) : TimingLedger :=
  { l.finishOperation iterationOperation now with current := none }

end TimingLedger

end CommuteSim
