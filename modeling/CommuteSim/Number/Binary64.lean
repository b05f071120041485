/-!
# Binary64 numbers as exact fractions

A finite `Float` is a sign and a magnitude `mantissa * 2 ^ exponent`. This module takes a float
apart (`parts`), rounds an exact fraction to the nearest float (`nearest`, ties to the even
neighbour), and builds on the two the operations that must round exactly once: reading a decimal
fraction and the fused `a * b + c`.
-/

namespace CommuteSim.Binary64

/-- What the bit pattern of a float stands for. -/
inductive Parts where
  | nan
  | infinite (negative : Bool)
  /-- The magnitude is `mantissa * 2 ^ exponent`. -/
  | finite (negative : Bool) (mantissa : Nat) (exponent : Int)
  deriving Repr, DecidableEq

/-- The smallest exponent of a float, that of the subnormal numbers. -/
def minExponent : Int := -1074

/-- The largest exponent of a finite float with a full mantissa. -/
def maxExponent : Int := 971

/-- Takes a float apart. -/
def parts (x : Float) : Parts :=
  let bits := x.toBits.toNat
  let negative := bits / Nat.pow 2 63 = 1
  let field : Nat := bits / Nat.pow 2 52 % Nat.pow 2 11
  let fraction := bits % Nat.pow 2 52
  if field = 2047 then
    if fraction = 0 then .infinite negative else .nan
  else if field = 0 then .finite negative fraction minExponent
  else .finite negative (Nat.pow 2 52 + fraction) ((field : Int) - 1075)

/-- The quotient rounded to the nearest integer, a half to the even neighbour. -/
def roundHalfEven (num den : Nat) : Nat :=
  let q := num / den
  let r := num % den
  if 2 * r < den then q
  else if den < 2 * r then q + 1
  else q + q % 2

/-- The fraction `num / den` of a magnitude `m * 2 ^ e`. -/
def ratioOf (m : Nat) (e : Int) : Nat × Nat :=
  if 0 ≤ e then (m * Nat.pow 2 e.toNat, 1) else (m, Nat.pow 2 (-e).toNat)

/-- `num / (den * 2 ^ q)` as a fraction. -/
def scaledDown (num den : Nat) (q : Int) : Nat × Nat :=
  if 0 ≤ q then (num, den * Nat.pow 2 q.toNat) else (num * Nat.pow 2 (-q).toNat, den)

/-- The exponent of the float nearest to `num / den`: the one that leaves 53 bits of quotient, or
the smallest exponent if that is larger. -/
def exponentOf (num den : Nat) : Int :=
  let guess := max ((num.log2 : Int) - den.log2 - 53) minExponent
  let (n, d) := scaledDown num den guess
  if Nat.pow 2 53 ≤ n / d then guess + 1 else guess

/-- The float with a sign, at most 53 bits of mantissa and an exponent; too large a magnitude is
infinite. -/
def assemble (negative : Bool) (mantissa : Nat) (exponent : Int) : Float :=
  let sign := if negative then Nat.pow 2 63 else 0
  let (m, e) :=
    if mantissa = Nat.pow 2 53 then (Nat.pow 2 52, exponent + 1) else (mantissa, exponent)
  let magnitude :=
    if m < Nat.pow 2 52 then m
    else if maxExponent < e then 2047 * Nat.pow 2 52
    else (e + 1075).toNat * Nat.pow 2 52 + (m - Nat.pow 2 52)
  Float.ofBits (sign + magnitude).toUInt64

/-- The float nearest to `num / den`, of two equally near ones the one with an even mantissa. -/
def nearest (negative : Bool) (num den : Nat) : Float :=
  if num = 0 then assemble negative 0 minExponent
  else
    let e := exponentOf num den
    let (n, d) := scaledDown num den e
    assemble negative (roundHalfEven n d) e

/-- The signed integer `±m * 2 ^ (e - least)`, for `least ≤ e`. -/
private def aligned (negative : Bool) (m : Nat) (e least : Int) : Int :=
  let magnitude : Int := m * Int.pow 2 (e - least).toNat
  if negative then -magnitude else magnitude

/-- `a * b + c` rounded once. -/
def mulAdd (a b c : Float) : Float :=
  match parts a, parts b, parts c with
  | .finite sa ma ea, .finite sb mb eb, .finite sc mc ec =>
    let sp := sa != sb
    let least := min (ea + eb) ec
    let sum := aligned sp (ma * mb) (ea + eb) least + aligned sc mc ec least
    if sum = 0 then
      -- Only two zeros of one sign keep it; an exact cancellation is positive.
      assemble (sp && sc && ma * mb = 0) 0 minExponent
    else
      let (num, den) := ratioOf sum.natAbs least
      nearest (sum < 0) num den
  | _, _, _ => a * b + c

/-- The float nearest to `±digits * 10 ^ exponent`. A magnitude of more than 400 digits before or
after the point is out of the range of floats and is not computed. -/
def ofDecimal (negative : Bool) (digits : Nat) (exponent : Int) : Float :=
  let size : Int := (Nat.toDigits 10 digits).length + exponent
  if digits = 0 ∨ size < -400 then assemble negative 0 minExponent
  else if 400 < size then assemble negative (Nat.pow 2 52) (maxExponent + 1)
  else if 0 ≤ exponent then nearest negative (digits * Nat.pow 10 exponent.toNat) 1
  else nearest negative digits (Nat.pow 10 (-exponent).toNat)

/-- The greater of two floats. A float that is not a number gives way to the other one. -/
def greater (a b : Float) : Float := if a.isNaN || a < b then b else a

/-- The lesser of two floats. A float that is not a number gives way to the other one. -/
def lesser (a b : Float) : Float := if a.isNaN || b < a then b else a

/-- The float nearest to an integer. -/
def ofInt (n : Int) : Float := nearest (n < 0) n.natAbs 1

end CommuteSim.Binary64
