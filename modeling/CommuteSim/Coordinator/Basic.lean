import CommuteSim.Fault.Basic
import CommuteSim.Log

/-!
# The coordinator of a shutdown

The coordinator is what the threads of a run share. It holds the flag that asks for a shutdown, the
first fault, the claim to the teardown, and the mark that the teardown is over, for which those who
interrupt a run wait.

Each function here is one atomic step of a thread, but for `record` and `request`, which run two of
them without a step of another thread between. Main statements: the flag is never cleared
(`capture_flag`), and a fault that is there is never replaced (`capture_fault_of_some`).
-/

namespace CommuteSim

/-- A thread that interrupted a run and waits for the end of the teardown. -/
inductive Waiter where
  | asleep
  /-- Woken, with its look at the mark still to come. -/
  | awake
  /-- Back from waiting, or never made to wait. -/
  | returned (sawTermination : Bool)
  deriving DecidableEq, Repr

/-- What the threads of a run share. -/
structure Coordinator where
  /-- Whether a shutdown was requested. -/
  flag : Bool := false
  /-- Whether the teardown was claimed. -/
  teardown : Bool := false
  /-- The first fault. -/
  fault : Option FaultRecord := none
  /-- The number of faults that were reported and not kept. -/
  discarded : Nat := 0
  /-- Whether the thread of the controller is known. -/
  bound : Bool := false
  /-- Whether the teardown is over. -/
  terminated : Bool := false
  /-- The threads that interrupted the run, in the order of their arrival. -/
  waiters : List Waiter := []
  deriving DecidableEq, Repr

/-- What becomes of a reported fault. -/
inductive Capture where
  | kept
  /-- Another one was kept before. -/
  | notFirst
  | afterTeardown
  deriving DecidableEq, Repr

/-- What is logged about a reported fault. -/
def Capture.line : Capture → LogLine
  | kept => ⟨.error, "captured error; requesting shutdown"⟩
  | notFirst => ⟨.warning, "additional error after the first captured one; discarded"⟩
  | afterTeardown => ⟨.warning, "error reported after teardown began; discarded"⟩

namespace Coordinator

/-! ## Faults -/

/-- Keeps the first fault and requests a shutdown, unless the teardown was claimed. -/
def capture (c : Coordinator) (r : FaultRecord) : Capture × Coordinator :=
  if c.teardown then (.afterTeardown, c)
  else match c.fault with
    | some _ => (.notFirst, { c with flag := true })
    | none => (.kept, { c with flag := true, fault := some r })

/-- Counts a fault that was not kept. -/
def countDiscarded (c : Coordinator) : Coordinator := { c with discarded := c.discarded + 1 }

/-- Reports a fault. -/
def record (c : Coordinator) (r : FaultRecord) : Capture × Coordinator :=
  match c.capture r with
  | (.kept, c) => (.kept, c)
  | (k, c) => (k, c.countDiscarded)

/-! ## Teardown -/

/-- Claims the teardown. True for the first claim only. -/
def claim (c : Coordinator) : Bool × Coordinator := (!c.teardown, { c with teardown := true })

/-- Marks the teardown as over and wakes all that wait for it. -/
def terminate (c : Coordinator) : Coordinator :=
  if c.terminated then c
  else { c with
    terminated := true
    waiters := c.waiters.map fun w => if w = .asleep then .awake else w }

/-! ## Interrupts -/

def raiseFlag (c : Coordinator) : Coordinator := { c with flag := true }

/-- A thread begins to wait. It does not sleep if the teardown is over. -/
def wait (c : Coordinator) : Coordinator :=
  { c with waiters := c.waiters ++ [if c.terminated then .returned true else .asleep] }

/-- A thread interrupts the run. -/
def request (c : Coordinator) : Coordinator := c.raiseFlag.wait

/-- What a woken thread does: it goes back if the teardown is over, and sleeps again if not. -/
def look (terminated : Bool) : Waiter → Waiter
  | .awake => if terminated then .returned true else .asleep
  | w => w

/-- All woken threads look at the mark. -/
def resume (c : Coordinator) : Coordinator :=
  { c with waiters := c.waiters.map (look c.terminated) }

/-! ## What never changes back -/

theorem capture_flag (c : Coordinator) (r : FaultRecord) (h : c.flag = true) :
    (c.capture r).2.flag = true := by
  unfold capture
  split
  · exact h
  · split <;> rfl

theorem capture_fault_of_some (c : Coordinator) (r : FaultRecord) {f : FaultRecord}
    (h : c.fault = some f) : (c.capture r).2.fault = some f := by
  unfold capture
  split
  · exact h
  · simp [h]

end Coordinator

end CommuteSim
