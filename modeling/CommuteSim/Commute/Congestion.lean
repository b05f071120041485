import CommuteSim.Commute.Settings
import CommuteSim.Number.Binary64

/-!
# Congested travel times

The travel time on a route grows with the fourth power of its load: at its capacity a route takes
fifteen percent longer than when it is empty.
-/

namespace CommuteSim

namespace Congestion

/-- How much a route at its capacity takes longer than an empty one. -/
def slowdown : Float := 0.15

/-- The largest relative deviation of a trip from the travel time of its route. -/
def jitter : Float := 0.05

/-- The fourth power, as the square of the square. -/
def fourthPower (r : Float) : Float := (r * r) * (r * r)

end Congestion

open Congestion

/-- The travel time in minutes on a route that carries `load` commuters. -/
def Route.travelTime (r : Route) (load : UInt32) : Float :=
  let ratio := Binary64.ofInt load.toNat / Binary64.ofInt (max r.capacity 1).toNat
  r.freeFlowMinutes * Binary64.mulAdd slowdown (fourthPower ratio) 1.0

end CommuteSim
