/-!
# Causes of failures, and panics

A cause is a message with the reasons behind it, each the reason of the one before. A panic is no
failure: it carries any payload, and its message is the payload if that is a text.
-/

namespace CommuteSim

/-- Why a collaborator failed. -/
structure Cause where
  message : String
  /-- The reasons behind the message, the nearest first. -/
  reasons : List String := []
  deriving DecidableEq, Repr

namespace Cause

/-- A cause seen as the reason of what `context` says. -/
def within (context : String) (c : Cause) : Cause := ⟨context, c.message :: c.reasons⟩

/-- The message and all reasons behind it. -/
def chain (c : Cause) : List String := c.message :: c.reasons

end Cause

/-- What a panic carries. -/
inductive Payload where
  | text (message : String)
  | other
  deriving DecidableEq, Repr

def Payload.message : Payload → String
  | text m => m
  | other => "<non-string panic payload>"

/-- A panic with the place in the program where it was raised. -/
structure Panic where
  payload : Payload
  place : String
  deriving DecidableEq, Repr

/-- The origin of a panic on a thread. -/
def Panic.origin (thread : Option String) (p : Panic) : String :=
  let name := thread.getD "<unnamed>"
  s!"thread '{name}' at {p.place}"

/-- How a piece of work ends without a value. -/
inductive Abort (ε : Type) where
  | failure (error : ε)
  | panic (panic : Panic)
  deriving DecidableEq, Repr

def Abort.map {ε δ : Type} (f : ε → δ) : Abort ε → Abort δ
  | failure e => .failure (f e)
  | panic p => .panic p

/-- How a piece of work ends. -/
abbrev Outcome (ε α : Type) := Except (Abort ε) α

end CommuteSim
