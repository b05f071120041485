import CommuteSim.Commute.Settings
import CommuteSim.Yaml.Value

/-!
# The population in a larger document

A document that holds more than a population holds it in a section. Without the section the
population is the default one.
-/

namespace CommuteSim

open Yaml (Value)

/-- Reads a route from a value. -/
def Route.ofValue? : Value → Option Route :=
  Value.structure?
    [(Value.Member.of "name" Value.text? fun v s => { s with name := v }).needed,
      (Value.Member.of "free_flow_minutes" Value.float? fun v s =>
        { s with freeFlowMinutes := v }).needed,
      (Value.Member.of "capacity" Value.uint32? fun v s => { s with capacity := v }).needed]
    (⟨"", 0.0, 0⟩ : Route)

/-- Reads a population from a value. -/
def PopulationSettings.ofValue? : Value → Option PopulationSettings :=
  Value.structure?
    [.of "agent_count" Value.uint32? fun v s => { s with agentCount := v },
      .of "routes" (Value.list? Route.ofValue?) fun v s => { s with routes := v },
      .of "replanning_share" Value.float? fun v s => { s with replanningShare := v },
      .of "mobsim_workers" Value.uint32? fun v s => { s with mobsimWorkers := v },
      .of "travel_utility_per_hour" Value.float? fun v s => { s with utilityPerHour := v },
      .of "fail_mobsim_at" (Value.option? Value.uint32?) fun v s => { s with failMobsimAt := v }]
    omitted

/-- The name of the section. -/
def populationSection : String := "population"

/-- Reads the population from its section of a document. -/
def PopulationSettings.ofSection? (text : String) : Option PopulationSettings := do
  let v ← (Yaml.Document.ofText text).value?
  match v.get? populationSection with
  | none => some {}
  | some s => ofValue? s

end CommuteSim
