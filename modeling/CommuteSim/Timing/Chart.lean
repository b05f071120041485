import CommuteSim.Timing.Report

/-!
# The chart of operation times

Each iteration is a column of stacked bars, one for each operation that ended, with a dashed outline
for the iteration as a whole. A legend names the colours.
-/

namespace CommuteSim

/-- A bar of the chart. -/
structure ChartBar where
  operation : String
  duration : Nanoseconds
  colour : String

/-- A column of the chart. -/
structure ChartColumn where
  iteration : IterationIndex
  /-- The bars from bottom to top. -/
  bars : List ChartBar
  /-- How long the whole iteration took. -/
  outline : Option Nanoseconds

/-- What the chart shows. -/
structure Chart where
  columns : List ChartColumn
  /-- The operations with their colours. -/
  legend : List (String × String)

namespace Chart

/-! ## What is shown -/

/-- The colours, used one after the other and then again. -/
def colours : List String :=
  ["#4e79a7", "#f28e2b", "#e15759", "#76b7b2", "#59a14f", "#edc948", "#b07aa1", "#9c755f"]

def colour (n : Nat) : String := colours.getD (n % colours.length) "#888888"

/-- The operations with their colours: all but the one that covers the iteration. -/
def coloured (names : List String) : List (String × String) :=
  (names.filter (· ≠ TimingLedger.iterationOperation)).zipIdx.map fun (n, k) => (n, colour k)

/-- The column of an iteration. -/
def column (legend : List (String × String)) (i : IterationIndex) (t : TimingTable) :
    ChartColumn where
  iteration := i
  bars := legend.filterMap fun (n, c) =>
    ((t.get? n).bind OperationTiming.duration?).map fun d => ⟨n, d, c⟩
  outline := (t.get? TimingLedger.iterationOperation).bind OperationTiming.duration?

/-- The chart of a ledger. -/
def ofLedger (l : TimingLedger) : Chart :=
  let legend := coloured l.names
  { columns := l.tables.map fun (i, t) => column legend i t, legend := legend }

/-! ## How it is drawn -/

def barWidth : Float := 24.0
def gap : Float := 8.0
def plotHeight : Float := 300.0
def margin : Float := 50.0
def legendWidth : Float := 220.0
def baseline : Float := margin + plotHeight

def count (n : Nat) : Float := Binary64.ofInt (min n 4294967295 : Nat)

/-- With one decimal place. -/
def tenths (x : Float) : String := Decimal.fixed 1 x

/-- The seconds that the height of the plot stands for. -/
def maxSeconds (c : Chart) : Float :=
  let longest := (c.columns.filterMap (·.outline)).foldl
    (fun m d => Binary64.greater m d.seconds) 0.0
  Binary64.greater longest 0.001

/-- Draws the bars of a column one on top of the other, from `top` on. -/
def barLines (x scale : Float) (i : IterationIndex) : (top : Float) → List ChartBar → List String
  | _, [] => []
  | top, b :: rest =>
    let height := b.duration.seconds * scale
    let top := top - height
    let xText := tenths x
    let topText := tenths top
    let width := Decimal.plain.text barWidth
    let heightText := tenths height
    let seconds := TimingLedger.secondsText b.duration
    let frame := s!"x=\"{xText}\" y=\"{topText}\" width=\"{width}\" height=\"{heightText}\""
    let title := s!"{b.operation} [{i}]: {seconds}s"
    s!"<rect {frame} fill=\"{b.colour}\"><title>{title}</title></rect>" ::
      barLines x scale i top rest

/-- Draws the column at a slot. -/
def columnLines (scale : Float) (c : ChartColumn) (slot : Nat) : List String :=
  let x := margin + count slot * (barWidth + gap)
  let xText := tenths x
  let width := Decimal.plain.text barWidth
  let outline := match c.outline with
    | none => []
    | some d =>
      let height := d.seconds * scale
      let top := tenths (baseline - height)
      let heightText := tenths height
      let frame := s!"x=\"{xText}\" y=\"{top}\" width=\"{width}\" height=\"{heightText}\""
      [s!"<rect {frame} fill=\"none\" stroke=\"black\" stroke-dasharray=\"2,2\"/>"]
  let middle := tenths (x + barWidth / 2.0)
  let foot := tenths (baseline + 14.0)
  barLines x scale c.iteration baseline c.bars ++ outline ++
    [s!"<text x=\"{middle}\" y=\"{foot}\" text-anchor=\"middle\">{c.iteration}</text>"]

/-- Draws an entry of the legend. -/
def legendLine (x : Float) (entry : String × String) (k : Nat) : String :=
  let (name, colour) := entry
  let y := margin + count k * 16.0
  let xText := tenths x
  let yText := tenths y
  let textX := tenths (x + 14.0)
  let textY := tenths (y + 9.0)
  s!"<rect x=\"{xText}\" y=\"{yText}\" width=\"10\" height=\"10\" fill=\"{colour}\"/>" ++
    s!"<text x=\"{textX}\" y=\"{textY}\">{name}</text>"

/-- The lines of the chart as a vector graphic. -/
def lines (c : Chart) : List String :=
  let plotWidth := count c.columns.length * (barWidth + gap)
  let width := Decimal.fixed 0 (margin * 2.0 + plotWidth + legendWidth)
  let height := Decimal.fixed 0 (plotHeight + margin * 2.0)
  let maxSeconds := c.maxSeconds
  let scale := plotHeight / maxSeconds
  let left := Decimal.plain.text margin
  let base := Decimal.plain.text baseline
  let right := tenths (margin + plotWidth)
  let labelY := tenths (margin + 4.0)
  let label := Decimal.fixed 2 maxSeconds
  let legendX := margin + plotWidth + 20.0
  let size := s!"width=\"{width}\" height=\"{height}\""
  let font := "font-family=\"sans-serif\" font-size=\"11\""
  [s!"<svg xmlns=\"http://www.w3.org/2000/svg\" {size} {font}>",
    s!"<text x=\"{left}\" y=\"20\" font-size=\"14\">Stopwatch (seconds per iteration)</text>",
    s!"<line x1=\"{left}\" y1=\"{base}\" x2=\"{right}\" y2=\"{base}\" stroke=\"black\"/>",
    s!"<text x=\"4\" y=\"{labelY}\">{label}s</text>"] ++
  (c.columns.zipIdx.flatMap fun (column, slot) => columnLines scale column slot) ++
  (c.legend.zipIdx.map fun (entry, k) => legendLine legendX entry k) ++
  ["</svg>"]

/-- The text of the graphic. -/
def text (c : Chart) : String := String.join (c.lines.map (· ++ "\n"))

end Chart

/-- The chart of a ledger as a vector graphic. -/
def TimingLedger.chartText (l : TimingLedger) : String := (Chart.ofLedger l).text

end CommuteSim
