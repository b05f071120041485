import CommuteSim.Fault.Cause
import CommuteSim.Lifecycle.Event
import CommuteSim.Timing.Instant

/-!
# Faults

A fault is anything that makes a run fail: a failure in the setup, in a phase, in a listener or in a
worker, or a panic.
-/

namespace CommuteSim

/-- The list that a listener is registered in. -/
inductive Tier where
  /-- Listeners that the simulation brings along. -/
  | core
  /-- Listeners that users of a controller add. -/
  | user
  deriving DecidableEq, Repr

def Tier.name : Tier → String
  | core => "core"
  | user => "user"

/-- A listener that failed on an event. -/
structure ListenerFailure where
  listener : String
  tier : Tier
  event : Event
  cause : Cause
  deriving DecidableEq, Repr

def ListenerFailure.message (f : ListenerFailure) : String :=
  s!"{f.tier.name} listener '{f.listener}' failed on {f.event.text}: {f.cause.message}"

/-- What went wrong in a run. -/
inductive Fault where
  | setup (stage : String) (cause : Cause)
  | phase (phase : Phase) (iteration : IterationIndex) (cause : Cause)
  | listener (failure : ListenerFailure)
  | worker (name : String) (cause : Cause)
  | panic (origin message : String)
  deriving DecidableEq, Repr

namespace Fault

def message : Fault → String
  | setup stage c => s!"{stage} failed: {c.message}"
  | phase p i c => s!"phase {p.operation} failed in iteration {i}: {c.message}"
  | listener f => f.message
  | worker name c => s!"worker '{name}' failed: {c.message}"
  | panic origin message => s!"panic in {origin}: {message}"

/-- The messages behind the message of a fault. -/
def sources : Fault → List String
  | setup _ c | phase _ _ c | worker _ c => c.chain
  | listener f => f.cause.chain
  | panic _ _ => []

end Fault

/-- A fault with its origin and the time at which it was captured. -/
structure FaultRecord where
  fault : Fault
  origin : String
  capturedAt : Instant
  deriving DecidableEq, Repr

end CommuteSim
