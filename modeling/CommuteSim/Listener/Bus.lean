import CommuteSim.Text.Quoted
import CommuteSim.World.Program

/-!
# Listeners and the order in which they are told

A bus holds listeners in two lists. In a round, all core listeners that want the event are told
before all user listeners that do, each list in the order of registration. The first listener that
fails or panics ends the round.

Main statement: a registration adds to the end of its own list only (`tier_register`).
-/

namespace CommuteSim

/-- A collaborator that is told of events. -/
structure Listener (σ : Type) where
  name : String
  /-- The kinds of events that it wants. -/
  wants : EventKind → Bool := fun _ => true
  /-- What it does on an event. -/
  notify : Event → Program σ Cause Unit

/-- The listeners of a run. -/
structure ListenerBus (σ : Type) where
  core : List (Listener σ) := []
  user : List (Listener σ) := []

/-- A listener at its place in a list of a bus. -/
structure Registration (σ : Type) where
  tier : Tier
  place : Nat
  listener : Listener σ

namespace ListenerBus

variable {σ : Type}

/-- The listeners of a tier in the order of registration. -/
def tier (b : ListenerBus σ) : Tier → List (Listener σ)
  | .core => b.core
  | .user => b.user

/-- Registers a listener behind the others of its tier. -/
def register (b : ListenerBus σ) (l : Listener σ) : Tier → ListenerBus σ
  | .core => { b with core := b.core ++ [l] }
  | .user => { b with user := b.user ++ [l] }

def size (b : ListenerBus σ) (t : Tier) : Nat := (b.tier t).length

def isEmpty (b : ListenerBus σ) : Bool := b.core.isEmpty && b.user.isEmpty

/-- The registrations of a tier. -/
def registrations (b : ListenerBus σ) (t : Tier) : List (Registration σ) :=
  (b.tier t).zipIdx.map fun (l, k) => ⟨t, k, l⟩

/-- The registrations that a kind of event goes to, in order. -/
def order (b : ListenerBus σ) (k : EventKind) : List (Registration σ) :=
  (b.registrations .core ++ b.registrations .user).filter (·.listener.wants k)

/-! ## Rounds -/

/-- Tells a listener of an event. -/
def tell (e : Event) (r : Registration σ) : StateM (World σ) (Outcome ListenerFailure Unit) := do
  let w ← get
  World.note (.told r.tier r.place e w.memory w.generator)
  return (← (r.listener.notify e).run).mapError
    (Abort.map fun c => ⟨r.listener.name, r.tier, e, c⟩)

/-- Tells listeners one after the other, up to the first that fails or panics. -/
def tellAll (e : Event) : List (Registration σ) → StateM (World σ) (Outcome ListenerFailure Unit)
  | [] => return .ok ()
  | r :: rest => do
    match ← tell e r with
    | .ok () => tellAll e rest
    | .error a => return .error a

/-- Tells all listeners that want an event, and gives their number. -/
def notify (b : ListenerBus σ) (e : Event) : StateM (World σ) (Outcome ListenerFailure Nat) := do
  let order := b.order e.kind
  return (← tellAll e order).map fun () => order.length

/-! ## Text -/

/-- The names of listeners in brackets. -/
def namesText (ls : List (Listener σ)) : String :=
  "[" ++ ", ".intercalate (ls.map fun l => quotedText l.name) ++ "]"

/-- The text of a bus: the names in both lists. -/
def text (b : ListenerBus σ) : String :=
  "ListenerBus \x7b core: " ++ namesText b.core ++ ", user: " ++ namesText b.user ++ " \x7d"

/-! ## Order -/

/-- A registration adds to the end of its own tier and leaves the other one alone. -/
theorem tier_register (b : ListenerBus σ) (l : Listener σ) (t u : Tier) :
    (b.register l t).tier u = if u = t then b.tier u ++ [l] else b.tier u := by
  cases t <;> cases u <;> rfl

end ListenerBus

end CommuteSim
