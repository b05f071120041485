import CommuteSim.Json.Value

/-!
# What plain scalars mean

A plain scalar may stand for the absent value, a truth value, an integer or a float; otherwise it
is a text. Integers may carry a plus sign and be written in base 16, 8 or 2. A number of several
decimal digits that begins with zero is a text.
-/

namespace CommuteSim.Yaml

/-- What a scalar stands for. -/
inductive Content where
  | null
  | bool (b : Bool)
  /-- An integer of 64 bits, or without a sign of 64 bits. -/
  | integer (n : Int)
  /-- An integer that needs more bits: 128 without a sign, or 128 with one. -/
  | wide (n : Int)
  | real (x : Float)
  | text (s : String)

namespace Content

/-! ## Words -/

def isNull (s : String) : Bool := s = "null" || s = "Null" || s = "NULL" || s = "~"

def bool? (s : String) : Option Bool :=
  if s = "true" || s = "True" || s = "TRUE" then some true
  else if s = "false" || s = "False" || s = "FALSE" then some false
  else none

/-! ## Integers -/

/-- The number that digits of a base write; there must be one. -/
def natOf? (base : Nat) (cs : List Char) : Option Nat :=
  if cs.isEmpty then none
  else cs.foldl (fun n c => do
    let d ← Json.hexDigit? c
    if d < base then return (← n) * base + d else none) (some 0)

/-- Cuts off the mark of a base. -/
def basedDigits? : List Char → Option (Nat × List Char)
  | '0' :: 'x' :: r => some (16, r)
  | '0' :: 'o' :: r => some (8, r)
  | '0' :: 'b' :: r => some (2, r)
  | _ => none

def isSign (c : Char) : Bool := c = '+' || c = '-'

/-- Without a plus sign; none if another sign follows it. -/
def unsignedText? : List Char → Option (List Char)
  | '+' :: r => if r.head?.any isSign then none else some r
  | cs => some cs

/-- Several decimal digits of which the first is zero. -/
def isPadded (cs : List Char) : Bool :=
  let digits := if cs.head?.any isSign then cs.drop 1 else cs
  digits.length > 1 && digits.head? = some '0' && digits.all Char.isDigit

/-- An integer without a minus sign. -/
def natural? (cs : List Char) : Option Nat := do
  let digits ← unsignedText? cs
  match basedDigits? digits with
  | some (base, r) => natOf? base r
  | none => if isPadded cs then none else natOf? 10 digits

/-- An integer with a minus sign. -/
def negative? : List Char → Option Int
  | '-' :: digits =>
    match basedDigits? digits with
    | some (base, r) => (natOf? base r).map fun n => -(n : Int)
    | none => if isPadded digits then none else (natOf? 10 digits).map fun n => -(n : Int)
  | _ => none

/-- The integer that a text writes. -/
def integer? (s : String) : Option Int :=
  match natural? s.toList with
  | some n => some n
  | none => negative? s.toList

/-- A natural number below a limit. -/
def naturalBelow? (limit : Nat) (s : String) : Option Nat :=
  (natural? s.toList).filter (· < limit)

/-! ## Floats -/

/-- Splits off the digits at the front. -/
def spanDigits (cs : List Char) : List Char × List Char := cs.span Char.isDigit

/-- The exponent at the end of a number. -/
def exponent? : List Char → Option Int
  | [] => some 0
  | e :: r =>
    if e = 'e' || e = 'E' then
      let (negative, digits) := match r with
        | '-' :: r => (true, r)
        | '+' :: r => (false, r)
        | r => (false, r)
      (natOf? 10 digits).map fun n => if negative then -(n : Int) else n
    else none

/-- The float that digits, a point and an exponent write; there must be a digit, and all but the
digits may be missing. -/
def decimal? (cs : List Char) : Option Float := do
  let (negative, cs) := match cs with
    | '-' :: r => (true, r)
    | '+' :: r => (false, r)
    | r => (false, r)
  let (whole, cs) := spanDigits cs
  let (fraction, cs) := match cs with
    | '.' :: r => spanDigits r
    | r => ([], r)
  if whole.isEmpty && fraction.isEmpty then none
  else
    let exponent ← exponent? cs
    return Binary64.ofDecimal negative (Json.digitsValue (whole ++ fraction))
      (exponent - fraction.length)

/-- The float that a text writes. A number too large to be finite is none. -/
def real? (s : String) : Option Float := do
  let cs ← unsignedText? s.toList
  let t := String.ofList cs
  if t = ".inf" || t = ".Inf" || t = ".INF" then return Float.ofBits 0x7FF0000000000000
  if s = "-.inf" || s = "-.Inf" || s = "-.INF" then return Float.ofBits 0xFFF0000000000000
  if s = ".nan" || s = ".NaN" || s = ".NAN" then return Float.ofBits 0x7FF8000000000000
  let x ← decimal? cs
  if x.isFinite then return x else none

/-! ## All scalars -/

/-- The integer that a text writes, as content. -/
def ofInteger? (s : String) : Option Content :=
  match integer? s with
  | none => none
  | some n =>
    if -Int.pow 2 63 ≤ n ∧ n < Int.pow 2 64 then some (.integer n)
    else if -Int.pow 2 127 ≤ n ∧ n < Int.pow 2 128 then some (.wide n)
    else none

/-- What a plain scalar stands for. -/
def ofPlain (s : String) : Content :=
  if s.isEmpty || isNull s then .null
  else
    match bool? s with
    | some b => .bool b
    | none =>
      match ofInteger? s with
      | some c => c
      | none =>
        if isPadded s.toList then .text s
        else
          match real? s with
          | some x => .real x
          | none => .text s

end Content

end CommuteSim.Yaml
