import CommuteSim.Commute.Mobsim
import CommuteSim.Commute.Replanning
import CommuteSim.Commute.Scoring
import CommuteSim.Controller.Basic

/-!
# The commuter simulation

The simulation puts its parts together: in an iteration the replanning comes before the mobsim and
the scoring after it, all on one population.
-/

namespace CommuteSim

namespace CommuterSimulation

variable {σ : Type}

/-- What the simulation begins with. -/
def memory (s : PopulationSettings) : CommuteMemory := { population := .ofSize s.agentCount.toNat }

/-- The listeners of the simulation. -/
def listeners (s : PopulationSettings) (part : Part σ CommuteMemory) (c : Context) :
    List (Listener σ) :=
  [replanningListener part s.routes.length s.replanningShare,
    Scoring.listener
      { part := part
        output := c.output
        routes := s.routes
        utilityPerHour := s.utilityPerHour
        iterationFiles := c.configuration.controller.iterationDirectories }]

/-- Gives every commuter a route. -/
def prepare (s : PopulationSettings) (part : Part σ CommuteMemory) : Program σ Cause Unit := do
  let m ← Program.memoryOf part
  if m.population.isEmpty then
    Program.say .warning "population is empty; iterations will not score anything"
  Program.drawPopulation part (Population.assignRoutes s.routes.length)
  Program.say .info "initial routes assigned"

/-- Simulates the trips of an iteration. -/
def mobsim (s : PopulationSettings) (launch : Launch) (part : Part σ CommuteMemory)
    (i : IterationIndex) : Program σ Cause Unit := do
  let statistics ← Mobsim.run s launch part i
  if statistics.trips = 0 then
    if !(← Program.flag) then Program.say .warning "mobsim executed no trips"

/-- The simulation of commuters, with what is up to the system in each iteration: how the workers
come to work. -/
def simulation (s : PopulationSettings) (launch : IterationIndex → Launch)
    (part : Part σ CommuteMemory) : Simulation σ where
  listeners := fun c => .done (listeners s part c)
  prepare := fun _ => prepare s part
  mobsim := fun _ i => mobsim s (launch i) part i

end CommuterSimulation

end CommuteSim
