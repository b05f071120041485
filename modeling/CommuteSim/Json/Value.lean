import CommuteSim.Number.Text

/-!
# JSON values and their text

A JSON value keeps whole numbers apart from the others: a number written without point and exponent
that fits 64 bits is an `integer`, every other one is a `real`. `Json.ofText?` reads a text and
`Json.text` writes one.
-/

namespace CommuteSim

inductive Json where
  | null
  | bool (b : Bool)
  | integer (n : Int)
  | real (x : Float)
  | string (s : String)
  | array (items : List Json)
  | object (members : List (String × Json))
  deriving Inhabited

namespace Json

/-- The member of an object with a name. -/
def member? (name : String) : Json → Option Json
  | .object members => members.lookup name
  | _ => none

/-! ## Reading -/

/-- A reader takes a value from the front of the text and leaves the rest. -/
abbrev Read (α : Type) := List Char → Option (α × List Char)

def skipBlanks (cs : List Char) : List Char :=
  cs.dropWhile fun c => c = ' ' || c = '\t' || c = '\n' || c = '\r'

/-- The value of a hexadecimal digit. -/
def hexDigit? (c : Char) : Option Nat :=
  if '0' ≤ c ∧ c ≤ '9' then some (c.toNat - 48)
  else if 'a' ≤ c ∧ c ≤ 'f' then some (c.toNat - 87)
  else if 'A' ≤ c ∧ c ≤ 'F' then some (c.toNat - 55)
  else none

/-- Four hexadecimal digits. -/
def readUnit : Read Nat
  | a :: b :: c :: d :: rest => do
    let a ← hexDigit? a
    let b ← hexDigit? b
    let c ← hexDigit? c
    let d ← hexDigit? d
    return (((a * 16 + b) * 16 + c) * 16 + d, rest)
  | _ => none

/-- The character after `\`; two escapes of a surrogate pair make one character. -/
def readEscape : Read Char
  | '"' :: r => some ('"', r)
  | '\\' :: r => some ('\\', r)
  | '/' :: r => some ('/', r)
  | 'b' :: r => some ('\x08', r)
  | 'f' :: r => some ('\x0c', r)
  | 'n' :: r => some ('\n', r)
  | 'r' :: r => some ('\r', r)
  | 't' :: r => some ('\t', r)
  | 'u' :: r => do
    let (high, r) ← readUnit r
    if high < 0xD800 ∨ 0xE000 ≤ high then return (Char.ofNat high, r)
    match r with
    | '\\' :: 'u' :: r =>
      let (low, r) ← readUnit r
      if high < 0xDC00 ∧ 0xDC00 ≤ low ∧ low < 0xE000 then
        return (Char.ofNat (0x10000 + (high - 0xD800) * 0x400 + (low - 0xDC00)), r)
      else none
    | _ => none
  | _ => none

/-- The characters of a string up to its closing quote. -/
def readQuoted : (fuel : Nat) → Read (List Char)
  | 0, _ => none
  | _ + 1, [] => none
  | _ + 1, '"' :: r => some ([], r)
  | fuel + 1, '\\' :: r => do
    let (c, r) ← readEscape r
    let (cs, r) ← readQuoted fuel r
    return (c :: cs, r)
  | fuel + 1, c :: r =>
    if c < ' ' then none
    else do
      let (cs, r) ← readQuoted fuel r
      return (c :: cs, r)

def readString (cs : List Char) : Option (String × List Char) := do
  let (s, r) ← readQuoted (cs.length + 1) cs
  return (String.ofList s, r)

def digitsValue (cs : List Char) : Nat :=
  cs.foldl (fun n c => n * 10 + (c.toNat - 48)) 0

/-- The digits at the front, at least one. -/
def readDigits (cs : List Char) : Option (List Char × List Char) :=
  match cs.span Char.isDigit with
  | ([], _) => none
  | r => some r

def readNumber (cs : List Char) : Option (Json × List Char) := do
  let (negative, cs) := match cs with
    | '-' :: r => (true, r)
    | r => (false, r)
  let (whole, cs) ← readDigits cs
  let (fraction, cs) ← match cs with
    | '.' :: r => do
      let (f, r) ← readDigits r
      pure (some f, r)
    | r => pure (none, r)
  let (exponent, cs) ← match cs with
    | 'e' :: r | 'E' :: r => do
      let (down, r) := match r with
        | '-' :: r => (true, r)
        | '+' :: r => (false, r)
        | r => (false, r)
      let (e, r) ← readDigits r
      let n : Int := digitsValue e
      pure (some (if down then -n else n), r)
    | r => pure (none, r)
  let digits := digitsValue (whole ++ fraction.getD [])
  let n : Int := if negative then -digits else digits
  if fraction.isNone ∧ exponent.isNone ∧ -Int.pow 2 63 ≤ n ∧ n < Int.pow 2 64 ∧
      ¬ (negative ∧ n = 0) then
    return (.integer n, cs)
  else
    let places : Int := (fraction.getD []).length
    return (.real (Binary64.ofDecimal negative digits (exponent.getD 0 - places)), cs)

mutual

/-- Reads one value; `fuel` bounds the nesting and the number of values. -/
def readValue : (fuel : Nat) → Read Json
  | 0, _ => none
  | fuel + 1, cs =>
    match skipBlanks cs with
    | 'n' :: 'u' :: 'l' :: 'l' :: r => some (.null, r)
    | 't' :: 'r' :: 'u' :: 'e' :: r => some (.bool true, r)
    | 'f' :: 'a' :: 'l' :: 's' :: 'e' :: r => some (.bool false, r)
    | '"' :: r => do
      let (s, r) ← readString r
      return (.string s, r)
    | '[' :: r =>
      match skipBlanks r with
      | ']' :: r => some (.array [], r)
      | r => do
        let (items, r) ← readItems fuel r
        return (.array items, r)
    | '{' :: r =>
      match skipBlanks r with
      | '}' :: r => some (.object [], r)
      | r => do
        let (members, r) ← readMembers fuel r
        return (.object members, r)
    | r => readNumber r

/-- The items of an array after its bracket, at least one. -/
def readItems : (fuel : Nat) → Read (List Json)
  | 0, _ => none
  | fuel + 1, cs => do
    let (item, r) ← readValue fuel cs
    match skipBlanks r with
    | ']' :: r => return ([item], r)
    | ',' :: r =>
      let (items, r) ← readItems fuel r
      return (item :: items, r)
    | _ => none

/-- The members of an object after its brace, at least one. -/
def readMembers : (fuel : Nat) → Read (List (String × Json))
  | 0, _ => none
  | fuel + 1, cs =>
    match skipBlanks cs with
    | '"' :: r => do
      let (name, r) ← readString r
      match skipBlanks r with
      | ':' :: r =>
        let (value, r) ← readValue fuel r
        match skipBlanks r with
        | '}' :: r => return ([(name, value)], r)
        | ',' :: r =>
          let (members, r) ← readMembers fuel r
          return ((name, value) :: members, r)
        | _ => none
      | _ => none
    | _ => none

end

/-- The value that a whole text writes. -/
def ofText? (s : String) : Option Json :=
  let cs := s.toList
  match readValue (cs.length + 1) cs with
  | some (v, r) => if (skipBlanks r).isEmpty then some v else none
  | none => none

/-! ## Writing -/

def hexChar (n : Nat) : Char := if n < 10 then Char.ofNat (48 + n) else Char.ofNat (87 + n)

/-- A character inside quotes. -/
def escaped (c : Char) : List Char :=
  if c = '"' then ['\\', '"']
  else if c = '\\' then ['\\', '\\']
  else if c = '\n' then ['\\', 'n']
  else if c < ' ' then ['\\', 'u', '0', '0', hexChar (c.toNat / 16), hexChar (c.toNat % 16)]
  else [c]

def quoted (s : String) : String :=
  String.ofList ('"' :: s.toList.flatMap escaped ++ ['"'])

mutual

/-- Compact text, members in their order. -/
def text : Json → String
  | .null => "null"
  | .bool true => "true"
  | .bool false => "false"
  | .integer n => toString n
  | .real x => Decimal.documented.text x
  | .string s => quoted s
  | .array items => "[" ++ itemsText items ++ "]"
  | .object members => "\x7b" ++ membersText members ++ "\x7d"

def itemsText : List Json → String
  | [] => ""
  | [v] => v.text
  | v :: rest => v.text ++ "," ++ itemsText rest

def membersText : List (String × Json) → String
  | [] => ""
  | [(k, v)] => quoted k ++ ":" ++ v.text
  | (k, v) :: rest => quoted k ++ ":" ++ v.text ++ "," ++ membersText rest

end

end Json

end CommuteSim
