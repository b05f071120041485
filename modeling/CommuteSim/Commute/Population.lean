import CommuteSim.Lifecycle.Event
import CommuteSim.Random.Generator

/-!
# Commuters and their routes

Every commuter makes one trip in each iteration, on the route that it has chosen. A trip is kept
with the iteration in which it was simulated, and a score belongs to the trip that was scored
last.
-/

namespace CommuteSim

/-- A simulated trip. -/
structure Trip where
  iteration : IterationIndex
  minutes : Float

/-- A commuter. -/
structure Commuter where
  /-- The place of the chosen route among all routes. -/
  route : Nat := 0
  /-- The last trip. -/
  trip : Option Trip := none
  score : Option Float := none

/-- All commuters of a run. -/
abbrev Population := List Commuter

namespace Population

/-- A population of a size, with all commuters on the first route. -/
def ofSize (n : Nat) : Population := List.replicate n {}

/-! ## Routes -/

/-- Chooses a route for each commuter in turn. -/
def chooseRoutes (choose : Nat → Generator → Nat × Generator) :
    Population → Generator → Population × Generator
  | [], g => ([], g)
  | c :: rest, g =>
    let (route, g) := choose c.route g
    let (rest, g) := chooseRoutes choose rest g
    ({ c with route := route } :: rest, g)

/-- Gives each commuter one of `routes` routes. Without routes nothing is drawn. -/
def assignRoutes (routes : Nat) (p : Population) (g : Generator) : Population × Generator :=
  if routes = 0 then (p, g) else p.chooseRoutes (fun _ g => g.index routes) g

/-- A commuter keeps its route, or with the probability `share` draws a new one. -/
def reconsider (share : Float) (routes : Nat) (route : Nat) (g : Generator) : Nat × Generator :=
  let (x, g) := g.float
  if x < share then g.index routes else (route, g)

/-- Lets a share of the commuters choose anew. Without routes nothing is drawn. -/
def replan (share : Float) (routes : Nat) (p : Population) (g : Generator) :
    Population × Generator :=
  if routes = 0 then (p, g) else p.chooseRoutes (reconsider share routes) g

/-- A count that stays at the largest word. -/
def saturated (n : Nat) : UInt32 := (min n 0xFFFFFFFF).toUInt32

/-- The number of commuters on each of `routes` routes. -/
def loads (routes : Nat) (p : Population) : List UInt32 :=
  (List.range routes).map fun k => saturated (p.countP (·.route = k))

end Population

end CommuteSim
