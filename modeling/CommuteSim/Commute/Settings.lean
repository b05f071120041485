import CommuteSim.Config.Yaml

/-!
# Settings of the commuter population
-/

namespace CommuteSim

/-- One of the routes between home and work. -/
structure Route where
  name : String
  /-- The travel time on the empty route, in minutes. -/
  freeFlowMinutes : Float
  /-- The number of commuters that the route carries before it congests. -/
  capacity : UInt32

/-! ## Values that settings begin with -/

def defaultAgentCount : UInt32 := 500

def defaultRoutes : List Route :=
  [⟨"motorway", 20.0, 250⟩, ⟨"arterial", 28.0, 180⟩, ⟨"backroads", 35.0, 120⟩]

def defaultReplanningShare : Float := 0.1

def defaultMobsimWorkers : UInt32 := 4

def defaultUtilityPerHour : Float := -6.0

/-! ## Settings -/

/-- Settings of a population of commuters. -/
structure PopulationSettings where
  agentCount : UInt32 := defaultAgentCount
  routes : List Route := defaultRoutes
  /-- The share of commuters that choose a new route before an iteration. -/
  replanningShare : Float := defaultReplanningShare
  /-- The largest number of workers that simulate trips. -/
  mobsimWorkers : UInt32 := defaultMobsimWorkers
  /-- The utility of an hour of travel. -/
  utilityPerHour : Float := defaultUtilityPerHour
  /-- The iteration in which the first worker is made to fail. -/
  failMobsimAt : Option IterationIndex := none

/-! ## Consistency -/

/-- Why a population cannot be simulated. -/
inductive PopulationProblem where
  | noRoute
  | noCapacity (route : String)
  | badFreeFlowTime (route : String)
  | badReplanningShare (share : Float)
  | noWorker

def PopulationProblem.message : PopulationProblem → String
  | noRoute => "at least one route is required"
  | noCapacity route => s!"route '{route}' has zero capacity"
  | badFreeFlowTime route => s!"route '{route}' has an invalid free-flow time"
  | badReplanningShare share =>
    let share := Decimal.plain.text share
    s!"replanning_share must lie in [0, 1], got {share}"
  | noWorker => "mobsim_workers must be at least 1"

/-- A time that a trip can take. -/
def isTime (minutes : Float) : Bool := minutes.isFinite && 0.0 ≤ minutes

/-- What is wrong with a population, if anything is. -/
def PopulationSettings.problem? (s : PopulationSettings) : Option PopulationProblem :=
  if s.routes.isEmpty then some .noRoute
  else
    match s.routes.find? (·.capacity = 0), s.routes.find? (!isTime ·.freeFlowMinutes) with
    | some r, _ => some (.noCapacity r.name)
    | none, some r => some (.badFreeFlowTime r.name)
    | none, none =>
      if !(0.0 ≤ s.replanningShare && s.replanningShare ≤ 1.0) then
        some (.badReplanningShare s.replanningShare)
      else if s.mobsimWorkers = 0 then some .noWorker
      else none

/-! ## As YAML -/

open Yaml

/-- Reads a route; all its fields must be given. -/
def Route.decode : Decoder Route :=
  decodeStructure "RouteConfig"
    [(Field.of "name" (decodeText "a string") fun v s => { s with name := v }).needed,
      (Field.of "free_flow_minutes" decodeFloat fun v s => { s with freeFlowMinutes := v }).needed,
      (Field.of "capacity" decodeUInt32 fun v s => { s with capacity := v }).needed]
    ⟨"", 0.0, 0⟩

/-- What a population has in the place of settings that are left out. -/
def PopulationSettings.omitted : PopulationSettings where
  agentCount := defaultAgentCount
  routes := defaultRoutes
  replanningShare := defaultReplanningShare
  mobsimWorkers := defaultMobsimWorkers
  utilityPerHour := defaultUtilityPerHour
  failMobsimAt := none

/-- Reads a population from a node. -/
def PopulationSettings.decode : Decoder PopulationSettings :=
  decodeStructure "PopulationConfig"
    [.of "agent_count" decodeUInt32 fun v s => { s with agentCount := v },
      .of "routes" (decodeList Route.decode) fun v s => { s with routes := v },
      .of "replanning_share" decodeFloat fun v s => { s with replanningShare := v },
      .of "mobsim_workers" decodeUInt32 fun v s => { s with mobsimWorkers := v },
      .of "travel_utility_per_hour" decodeFloat fun v s => { s with utilityPerHour := v },
      .of "fail_mobsim_at" (decodeOption decodeUInt32) fun v s => { s with failMobsimAt := v }]
    omitted

/-- Reads a population from the text of a document. -/
def PopulationSettings.ofText (text : String) : Decoded PopulationSettings :=
  (Document.ofText text).decode omitted decode

def floatNode (x : Float) : Node := .word (Decimal.documented.text x)

/-- The tree of a route. -/
def Route.toNode (r : Route) : Node :=
  .ofFields
    [("name", .ofText r.name), ("free_flow_minutes", floatNode r.freeFlowMinutes),
      ("capacity", .word (toString r.capacity))]

/-- The tree of a population. -/
def PopulationSettings.toNode (s : PopulationSettings) : Node :=
  .ofFields
    [("agent_count", .word (toString s.agentCount)),
      ("routes", .ofItems (s.routes.map Route.toNode)),
      ("replanning_share", floatNode s.replanningShare),
      ("mobsim_workers", .word (toString s.mobsimWorkers)),
      ("travel_utility_per_hour", floatNode s.utilityPerHour),
      ("fail_mobsim_at", optionNode (.word ∘ toString) s.failMobsimAt)]

end CommuteSim
