import CommuteSim.Json.Value

/-!
# Identifiers of runs and agents

An identifier is a number of 128 bits, written in hexadecimal in five groups.
-/

namespace CommuteSim

/-- An identifier of a run or of an agent. -/
structure Identifier where
  bits : BitVec 128
  deriving DecidableEq, Repr

namespace Identifier

/-- The identifier that stands for none. -/
def nil : Identifier := ⟨0⟩

instance : Ord Identifier := ⟨fun a b => compare a.bits.toNat b.bits.toNat⟩

/-- The number of hexadecimal digits in each group. -/
def groups : List Nat := [8, 4, 4, 4, 12]

/-- Cuts digits into groups with `-` between them. -/
private def grouped : List Nat → List Char → List Char
  | [], rest => rest
  | [_], rest => rest
  | n :: more, rest => rest.take n ++ '-' :: grouped more (rest.drop n)

/-- The written form: lower-case digits in groups. -/
def text (i : Identifier) : String :=
  let digits := Nat.toDigits 16 i.bits.toNat
  String.ofList (grouped groups (List.replicate (32 - digits.length) '0' ++ digits))

/-- The number that exactly `count` hexadecimal digits write. -/
private def hexNumber? (count : Nat) (digits : List Char) : Option Nat :=
  if digits.length = count then
    digits.foldl (fun n c => do return (← n) * 16 + (← Json.hexDigit? c)) (some 0)
  else none

private def bare? (cs : List Char) : Option Identifier := do
  return ⟨BitVec.ofNat 128 (← hexNumber? 32 cs)⟩

/-- Takes the groups apart at their dashes. -/
private def ungrouped? : List Nat → List Char → Option (List Char)
  | [], _ => none
  | [n], cs => if cs.length = n then some cs else none
  | n :: more, cs =>
    match cs.drop n with
    | '-' :: rest => do return cs.take n ++ (← ungrouped? more rest)
    | _ => none

private def dashed? (cs : List Char) : Option Identifier := do
  bare? (← ungrouped? groups cs)

/-- Reads an identifier: 32 digits without groups, or digits in groups, which may stand in braces
or after `urn:uuid:`. Digits are of either case. -/
def ofText? (s : String) : Option Identifier :=
  let cs := s.toList
  if cs.length = 32 then bare? cs
  else if cs.length = 38 ∧ cs.head? = some '\x7b' ∧ cs.getLast? = some '\x7d' then
    dashed? (cs.drop 1).dropLast
  else if cs.length = 45 ∧ "urn:uuid:".toList.isPrefixOf cs then dashed? (cs.drop 9)
  else dashed? cs

/-- Reads an identifier from a JSON string. -/
def ofJson? : Json → Option Identifier
  | .string s => ofText? s
  | _ => none

end Identifier

end CommuteSim
