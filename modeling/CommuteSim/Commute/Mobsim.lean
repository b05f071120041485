import CommuteSim.Commute.Congestion
import CommuteSim.Commute.Memory

/-!
# The mobsim

The mobsim gives every commuter a trip: the travel time of its route under the loads of all
routes, with a small deviation that is drawn in the order of commuters. The trips are shared out
among workers, in runs of equal length. Which worker makes its next move is up to a schedule; a
worker that is about to simulate a trip first looks whether a shutdown was requested.

The trips of all workers are put together at the end and stored in the order of commuters, all or
none: if a shutdown was requested meanwhile, none is. If the system refuses a worker its thread, the
mobsim fails at once, and stores none either.
-/

namespace CommuteSim

/-- A trip that a worker is to simulate. -/
structure Task where
  /-- The place of the commuter in the population. -/
  commuter : Nat
  route : Nat
  /-- The relative deviation from the travel time of the route. -/
  deviation : Float

/-- A worker with the tasks that are left. -/
structure Worker where
  number : Nat
  tasks : List Task
  /-- Whether the worker is made to fail before its first task. -/
  sabotaged : Bool := false
  /-- The task whose route the worker has found to be unknown, and with which it is about to
  fail. -/
  lost : Option Task := none

def Worker.name (w : Worker) : String := s!"mobsim-worker-{w.number}"

/-- A trip that a worker has simulated. -/
structure SimulatedTrip where
  commuter : Nat
  minutes : Float

/-- What a mobsim did. -/
structure MobsimStatistics where
  iteration : IterationIndex
  /-- The number of commuters on each route. -/
  loads : List UInt32
  meanMinutes : Float
  /-- The number of commuters that got a travel time. -/
  trips : Nat

/-- Chooses which of the unfinished workers moves next: a number for each move, taken modulo the
number of workers. -/
abbrev Schedule := Nat → Nat

/-- How the workers of a mobsim come to work. -/
inductive Launch where
  /-- Each gets its thread. -/
  | all (schedule : Schedule)
  /-- The system refuses a thread to the worker behind the first `started` ones, which have made
  `moves` moves by then, or as many as they had to make. -/
  | refused (started moves : Nat) (schedule : Schedule) (reason : String)

instance : Coe Schedule Launch := ⟨.all⟩

namespace Mobsim

variable {σ : Type}

/-! ## Sharing out -/

/-- Draws the deviation of a trip. -/
def deviation : Generator → Float × Generator :=
  Generator.floatIn (-Congestion.jitter) Congestion.jitter

/-- The places of commuters in the population, with the routes that they have chosen. -/
def choices (p : Population) : List (Nat × Nat) := p.zipIdx.map fun (c, k) => (k, c.route)

/-- The tasks of commuters with these choices. -/
def tasks (choices : List (Nat × Nat)) (deviations : List Float) : List Task :=
  choices.zipWith (fun (k, route) x => ⟨k, route, x⟩) deviations

/-- A list cut into runs of `size`; the last one may be shorter. -/
def runs {α : Type} (size : Nat) (xs : List α) : List (List α) :=
  if size = 0 ∨ xs = [] then [] else xs.take size :: runs size (xs.drop size)
termination_by xs.length
decreasing_by
  have : xs.length ≠ 0 := fun h => by simp_all
  simp only [List.length_drop]
  omega

/-- The number of tasks of a worker, so that `workers` workers are enough. -/
def runLength (tasks workers : Nat) : Nat := max ((tasks + workers - 1) / workers) 1

/-- The workers with their tasks: choices and deviations are cut into runs of one length, and put
together run by run. The first worker is made to fail in the iteration that the settings name. -/
def workers (s : PopulationSettings) (i : IterationIndex) (choices : List (Nat × Nat))
    (deviations : List Float) : List Worker :=
  let size := runLength choices.length (max s.mobsimWorkers 1).toNat
  let shares := (runs size choices).zipWith tasks (runs size deviations)
  shares.zipIdx.map fun (ts, k) =>
    { number := k, tasks := ts, sabotaged := k = 0 && s.failMobsimAt == some i }

/-! ## Moves of workers -/

/-- What a move of a worker comes to. -/
inductive Move where
  /-- A trip was simulated. -/
  | trip (trip : SimulatedTrip) (worker : Worker)
  /-- A route was found to be unknown. The worker has yet to fail. -/
  | lost (worker : Worker)
  /-- The worker has ended. -/
  | ended (outcome : Outcome Cause Unit)

/-- The cause with which a worker fails that is made to. -/
def injected (i : IterationIndex) : Cause := ⟨s!"injected mobsim failure in iteration {i}", []⟩

/-- The cause with which a worker fails that does not know the route of a task. -/
def unknown (t : Task) : Cause := ⟨s!"commuter {t.commuter} uses unknown route {t.route}", []⟩

/-- The next move of a worker. A task is done only if no shutdown was requested. -/
def move (minutes : List Float) (i : IterationIndex) (flag : Bool) (w : Worker) : Move :=
  if w.sabotaged then .ended (.error (.failure (injected i)))
  else match w.lost with
  | some t => .ended (.error (.failure (unknown t)))
  | none =>
    match w.tasks with
    | [] => .ended (.ok ())
    | t :: rest =>
      if flag then .ended (.ok ())
      else match minutes[t.route]? with
        | none => .lost { w with tasks := rest, lost := some t }
        | some base => .trip ⟨t.commuter, base * (1.0 + t.deviation)⟩ { w with tasks := rest }

/-- The moves that workers can make at most. -/
def moves (ws : List Worker) : Nat := ws.foldl (fun n w => n + (w.tasks.length + 1)) 0

/-- Lets workers move until all have ended. Gives the trips in the order of arrival, behind those
that have arrived already. -/
def work (minutes : List Float) (i : IterationIndex) (schedule : Schedule) :
    (moves : Nat) → List Worker → (arrived : Array SimulatedTrip) →
      Program σ Cause (Array SimulatedTrip)
  | 0, _, arrived => .done arrived
  | n + 1, ws, arrived =>
    let k := schedule n % ws.length
    match ws[k]? with
    | none => .done arrived
    | some w => do
      let flag ← Program.flag
      match move minutes i flag w with
      | .trip t w => work minutes i schedule n (ws.set k w) (arrived.push t)
      | .lost w => work minutes i schedule n (ws.set k w) arrived
      | .ended outcome => do
        Program.elsewhere (workerActs w.name outcome)
        work minutes i schedule n (ws.eraseIdx k) arrived

/-- Why a mobsim fails one of whose workers gets no thread. -/
def refusal (reason : String) : Cause := Cause.within "failed to start mobsim worker" ⟨reason, []⟩

/-- Launches the workers and waits for them. Once a thread is refused, those that work already are
waited for no more: what they still do is what other threads do. -/
def crewWork (minutes : List Float) (i : IterationIndex) (ws : List Worker) :
    Launch → Program σ Cause (Array SimulatedTrip)
  | .all schedule => work minutes i schedule (moves ws) ws #[]
  | .refused started n schedule reason =>
    if started < ws.length then do
      let _ ← work minutes i schedule n (ws.take started) #[]
      Program.fail (refusal reason)
    else work minutes i schedule (moves ws) ws #[]

/-! ## Storing -/

/-- Stores a trip. -/
def store (i : IterationIndex) (cs : Array Commuter) (t : SimulatedTrip) : Array Commuter :=
  cs.modify t.commuter fun c => { c with trip := some ⟨i, t.minutes⟩ }

/-- Stores trips one after the other. -/
def storeAll (i : IterationIndex) (ts : List SimulatedTrip) (p : Population) : Population :=
  (ts.foldl (store i) p.toArray).toList

/-- The trips in the order of commuters. -/
def inOrder (ts : List SimulatedTrip) : List SimulatedTrip :=
  ts.mergeSort fun a b => a.commuter ≤ b.commuter

/-- The mean of travel times, zero if there are none. -/
def mean (ts : List SimulatedTrip) : Float :=
  if ts.isEmpty then 0.0
  else
    let total := ts.foldl (fun total t => total + t.minutes) 0.0
    total / Binary64.ofInt (min ts.length 0xFFFFFFFF : Nat)

/-- Simulates the trips of an iteration. -/
def run (s : PopulationSettings) (launch : Launch) (part : Part σ CommuteMemory)
    (i : IterationIndex) : Program σ Cause MobsimStatistics := do
  let p := (← Program.memoryOf part).population
  let loads := p.loads s.routes.length
  let minutes := s.routes.zipWith Route.travelTime loads
  let deviations ← Program.draw (Generator.many deviation p.length)
  let arrived ← crewWork minutes i (workers s i (choices p) deviations) launch
  if ← Program.flag then
    return { iteration := i, loads := loads, meanMinutes := 0.0, trips := 0 }
  let trips := inOrder arrived.toList
  let p := (← Program.memoryOf part).population
  Program.setPopulation part (storeAll i trips p)
  Program.say .info "mobsim finished"
  return { iteration := i, loads := loads, meanMinutes := mean trips, trips := arrived.size }

end Mobsim

end CommuteSim
