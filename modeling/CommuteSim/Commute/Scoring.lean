import CommuteSim.Commute.Congestion
import CommuteSim.Commute.Memory
import CommuteSim.Listener.Bus

/-!
# Scoring

After the mobsim of an iteration the trips of the commuters are scored, and the statistics of all
scores so far are written.
-/

namespace CommuteSim

variable {σ : Type}

/-! ## Scores -/

/-- The score of a trip. -/
def tripScore (utilityPerHour : Float) (t : Trip) : Float := utilityPerHour * t.minutes / 60.0

/-- Scores the last trip of every commuter. -/
def Population.scored (utilityPerHour : Float) (p : Population) : Population :=
  p.map fun c => { c with score := c.trip.map (tripScore utilityPerHour) }

/-- The statistics of the scores of an iteration. -/
def ScoreStatistics.ofScores (i : IterationIndex) (scores : List Float) : ScoreStatistics :=
  if scores.isEmpty then ⟨i, 0.0, 0.0, 0.0, 0⟩
  else
    { iteration := i
      average := scores.foldl (· + ·) (-0.0) / Binary64.ofInt (min scores.length 0xFFFFFFFF : Nat)
      best := scores.foldl Binary64.greater (-1.0 / 0.0)
      worst := scores.foldl Binary64.lesser (1.0 / 0.0)
      scored := scores.length }

/-- A row of the table of scores. -/
def ScoreStatistics.row (s : ScoreStatistics) : String :=
  let average := Decimal.fixed 4 s.average
  let best := Decimal.fixed 4 s.best
  let worst := Decimal.fixed 4 s.worst
  s!"{s.iteration}\t{average}\t{best}\t{worst}\t{s.scored}\n"

/-- The table of the scores of all iterations. -/
def scoresText (history : List ScoreStatistics) : String :=
  String.join ("ITERATION\tavg_executed\tbest\tworst\tscored\n" :: history.map ScoreStatistics.row)

/-- The table of the loads of routes. -/
def loadsText (routes : List Route) (loads : List UInt32) : String :=
  String.join ("route\tcommuters\n" :: routes.zipWith (fun r n => s!"{r.name}\t{n}\n") loads)

/-! ## Scoring -/

/-- What scores are made of and where they go. -/
structure Scoring (σ : Type) where
  part : Part σ CommuteMemory
  output : OutputDirectory
  routes : List Route
  utilityPerHour : Float
  /-- Whether the loads of routes are written for each iteration. -/
  iterationFiles : Bool

/-- The file that receives the table of scores. -/
def scoresFile : String := "scorestats.txt"

/-- The file that receives the loads of routes in an iteration. -/
def loadsFile : String := "route_loads.txt"

namespace Scoring

/-- Writes a file or fails. -/
def write (path text : String) : Program σ Cause Unit := do
  match ← Program.writeText path text with
  | .ok () => return
  | .error reason => Program.fail (Cause.within s!"failed to write {path}" ⟨reason.text, []⟩)

/-- Scores an iteration. -/
def scoreIteration (s : Scoring σ) (i : IterationIndex) : Program σ Cause Unit := do
  let m ← Program.memoryOf s.part
  let population := m.population.scored s.utilityPerHour
  let statistics := ScoreStatistics.ofScores i (population.filterMap (·.score))
  let history := m.history ++ [statistics]
  Program.memorize (s.part.set { population := population, history := history })
  Program.say .info "iteration scored"
  write (s.output.file scoresFile) (scoresText history)
  if s.iterationFiles then
    let loads := population.loads s.routes.length
    write (s.output.iterationFile i loadsFile) (loadsText s.routes loads)

/-- Ends the history of scores. -/
def close (s : Scoring σ) : Program σ Cause Unit := do
  let m ← Program.memoryOf s.part
  if m.history.isEmpty then Program.say .warning "run ended before any iteration was scored"
  else Program.say .info "score history closed"

/-- The listener that scores iterations. -/
def listener (s : Scoring σ) : Listener σ where
  name := "scoring"
  wants := fun k => k = .scoring || k = .shutdown
  notify := fun
    | .scoring i => s.scoreIteration i
    | .shutdown _ => s.close
    | _ => .done ()

end Scoring

end CommuteSim
