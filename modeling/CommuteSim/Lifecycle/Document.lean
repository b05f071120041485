import CommuteSim.Json.Value
import CommuteSim.Lifecycle.Event
import CommuteSim.Reading.Mismatch

/-!
# Lifecycle values as JSON

A phase or a kind of event is written as its name; the one-member object `name: null` is read as
the same. An event is an object whose member `kind` names it, beside the members of that kind; it
is also read from an array that begins with the name.
-/

namespace CommuteSim

/-- The word for the absent value in JSON messages. -/
def Json.absentWord : String := "null"

/-- What a JSON value is when another one was needed. -/
def Json.found : Json → Found
  | .null => .absent
  | .bool b => .bool b
  | .integer n => .integer n
  | .real x => .real x
  | .string s => .string s
  | .array _ => .sequence
  | .object _ => .map

/-- The value of a list that a name stands for. -/
def namedValue {α : Type} (known : List α) (name : α → String) (given : String) :
    Except Mismatch α :=
  match known.find? (name · = given) with
  | some a => .ok a
  | none => .error (.unknownVariant given (known.map name))

/-- Reads one value of a list from its name or from the object `name: null`. -/
def Json.toNamed {α : Type} (known : List α) (name : α → String) : Json → Except Mismatch α
  | .string s => namedValue known name s
  | .object [(s, .null)] => namedValue known name s
  | .object [(s, v)] => do
    let _ ← namedValue known name s
    .error (.invalidType v.found "unit")
  | .object _ => .error (.invalidValue .map "map with a single key")
  | v => .error (.invalidType v.found "string or map")

/-- Reads a phase. -/
def Phase.ofJson : Json → Except Mismatch Phase := Json.toNamed Phase.all Phase.name

/-- Reads a kind of event. -/
def EventKind.ofJson : Json → Except Mismatch EventKind := Json.toNamed EventKind.all EventKind.name

/-- Reads a number of 32 bits. -/
def Json.toUInt32 : Json → Except Mismatch UInt32
  | .integer n =>
    if 0 ≤ n ∧ n < UInt32.size then .ok n.toNat.toUInt32
    else .error (.invalidValue (.integer n) "u32")
  | v => .error (.invalidType v.found "u32")

def Json.toBool : Json → Except Mismatch Bool
  | .bool b => .ok b
  | v => .error (.invalidType v.found "a boolean")

namespace Event

/-- The name of the event of a kind in messages about its members. -/
private def constructorName : EventKind → String
  | .startup => "Startup"
  | .iterationStart => "IterationStart"
  | .replanning => "Replanning"
  | .beforeMobsim => "BeforeMobsim"
  | .afterMobsim => "AfterMobsim"
  | .scoring => "Scoring"
  | .iterationEnd => "IterationEnd"
  | .shutdown => "Shutdown"

/-- The member that an event of a kind carries beside its name, and how the event is made of it. -/
private def payload (k : EventKind) : Option (String × (Json → Except Mismatch Event)) :=
  let indexed (make : IterationIndex → Event) :=
    some ("iteration", fun v => (Json.toUInt32 v).map make)
  match k with
  | .startup => none
  | .iterationStart => indexed .iterationStart
  | .replanning => indexed .replanning
  | .beforeMobsim => indexed .beforeMobsim
  | .afterMobsim => indexed .afterMobsim
  | .scoring => indexed .scoring
  | .iterationEnd => indexed .iterationEnd
  | .shutdown => some ("unexpected", fun v => (Json.toBool v).map .shutdown)

private def kindOf : Json → Except Mismatch EventKind
  | .string s => namedValue EventKind.all EventKind.name s
  | v => .error (.invalidType v.found "variant identifier")

/-- How many elements, as a message says it. -/
private def elements (n : Nat) : String := if n = 1 then "1 element" else s!"{n} elements"

/-- Reads an event. -/
def ofJson : Json → Except Mismatch Event
  | .object members => do
    let some tag := members.lookup "kind" | .error (.missingField "kind")
    let kind ← kindOf tag
    match payload kind with
    | none => .ok .startup
    | some (name, make) =>
      match members.lookup name with
      | some v => make v
      | none => .error (.missingField name)
  | .array items => do
    let tag :: rest := items | .error (.missingField "kind")
    let kind ← kindOf tag
    let surplus (taken : Nat) (e : Event) : Except Mismatch Event :=
      if rest.length = taken then .ok e
      else .error (.invalidLength rest.length s!"{elements taken} in sequence")
    match payload kind with
    | none => surplus 0 .startup
    | some (_, make) =>
      match rest with
      | [] => .error (.invalidLength 0
          s!"struct variant LifecycleEvent::{constructorName kind} with 1 element")
      | v :: _ => do surplus 1 (← make v)
  | v => .error (.invalidType v.found "internally tagged enum LifecycleEvent")

/-- Writes an event. -/
def toJson (e : Event) : Json :=
  let kind : String × Json := ("kind", .string e.kind.name)
  match e with
  | .startup => .object [kind]
  | .shutdown unexpected => .object [kind, ("unexpected", .bool unexpected)]
  | .iterationStart i | .replanning i | .beforeMobsim i | .afterMobsim i | .scoring i
  | .iterationEnd i => .object [kind, ("iteration", .integer i.toNat)]

end Event

end CommuteSim
