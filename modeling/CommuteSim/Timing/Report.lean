import CommuteSim.Files.OsError
import CommuteSim.Number.Text
import CommuteSim.Timing.Ledger

/-!
# The table of operation times

The table has a row for each iteration. Its columns are the start and the end of each operation,
and then the durations. What was not recorded is an empty cell.
-/

namespace CommuteSim

/-- A row of the table: an iteration with the starts and ends of the operations, and the
durations. -/
structure TimingRow where
  iteration : IterationIndex
  /-- Start and end of each operation. -/
  spans : List (Option Instant × Option Instant)
  durations : List (Option Nanoseconds)

namespace TimingLedger

/-- The row of an iteration, with a column for each of the names. -/
def row (names : List String) (i : IterationIndex) (t : TimingTable) : TimingRow where
  iteration := i
  spans := names.map fun n => ((t.get? n).map (·.start), (t.get? n).bind (·.finish))
  durations := names.map fun n => (t.get? n).bind OperationTiming.duration?

/-- All rows in the order of iterations. -/
def rows (l : TimingLedger) : List TimingRow := l.tables.map fun (i, t) => row l.names i t

/-- A duration in seconds with three places. -/
def secondsText (d : Nanoseconds) : String := Decimal.fixed 3 d.seconds

/-- The heads of the columns. -/
def headCells (names : List String) : List String :=
  "Iteration" :: names.flatMap (fun n => [s!"BEGIN {n}", s!"END {n}"]) ++ names

/-- The texts of a row's cells. -/
def rowCells (r : TimingRow) : List String :=
  let time (t : Option Instant) := (t.map Instant.timeOfDay).getD ""
  toString r.iteration :: r.spans.flatMap (fun (s, f) => [time s, time f]) ++
    r.durations.map fun d => (d.map secondsText).getD ""

/-- A line of cells with tabs between them. -/
def line (cells : List String) : String := "\t".intercalate cells ++ "\n"

/-- The text of the table. -/
def reportText (l : TimingLedger) : String :=
  String.join (line (headCells l.names) :: l.rows.map fun r => line (rowCells r))

/-- The message of a table or chart that could not be written. -/
def unwrittenMessage (path : String) (reason : OsError) : String :=
  s!"failed to write stopwatch report {path}: {reason.text}"

end TimingLedger

end CommuteSim
