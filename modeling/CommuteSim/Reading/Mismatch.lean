import CommuteSim.Number.Text
import CommuteSim.Text.Quoted

/-!
# What is wrong with a piece of data

Reading a domain value from a document can fail because the data has another shape than the value
needs. `Mismatch` lists the causes and `Mismatch.message` words them. Documents differ only in
the word that they have for the absent value.
-/

namespace CommuteSim

/-- The data that was found where something else was needed. -/
inductive Found where
  | bool (b : Bool)
  | integer (n : Int)
  | real (x : Float)
  | string (s : String)
  | absent
  | sequence
  | map
  /-- Data that is described by a text of its own. -/
  | described (text : String)

/-- Words for found data; `absent` is the word for the absent value. -/
def Found.text (absentWord : String) : Found → String
  | .bool b => s!"boolean `{b}`"
  | .integer n => s!"integer `{n}`"
  | .real x => s!"floating point `{Decimal.pointed.text x}`"
  | .string s => "string " ++ quotedText s
  | .absent => absentWord
  | .sequence => "sequence"
  | .map => "map"
  | .described text => text

/-- Why data is not a value of the wanted kind. -/
inductive Mismatch where
  | invalidType (found : Found) (expected : String)
  | invalidValue (found : Found) (expected : String)
  | invalidLength (length : Nat) (expected : String)
  | unknownVariant (given : String) (known : List String)
  | missingField (name : String)
  | duplicateField (name : String)

/-- The known names as a choice. -/
def oneOf (names : List String) : String :=
  match names.map (fun n => s!"`{n}`") with
  | [] => "there are no variants"
  | [a] => "expected " ++ a
  | [a, b] => "expected " ++ a ++ " or " ++ b
  | many => "expected one of " ++ ", ".intercalate many

/-- The wording of a mismatch. -/
def Mismatch.message (absentWord : String) : Mismatch → String
  | .invalidType found expected => s!"invalid type: {found.text absentWord}, expected {expected}"
  | .invalidValue found expected => s!"invalid value: {found.text absentWord}, expected {expected}"
  | .invalidLength length expected => s!"invalid length {length}, expected {expected}"
  | .unknownVariant given known => s!"unknown variant `{given}`, {oneOf known}"
  | .missingField name => s!"missing field `{name}`"
  | .duplicateField name => s!"duplicate field `{name}`"

end CommuteSim
