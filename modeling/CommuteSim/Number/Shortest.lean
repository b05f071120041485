import CommuteSim.Number.Binary64

/-!
# The shortest decimal that reads back

The digits of a finite, non-zero float are those of the shortest decimal that lies in the interval
of reals rounding to that float, and of the shortest ones the nearest. They are found in exact
arithmetic: on the grid of one digit, then of two, up to seventeen, the two neighbours of the value
are tried, and the first grid with a neighbour in the interval wins.
-/

namespace CommuteSim.Decimal

open Binary64

/-- A positive decimal `0.d₁d₂… * 10 ^ point`, its digits as characters. -/
structure Digits where
  digits : List Char
  point : Int
  deriving Repr, DecidableEq

/-- The reals that round to a float, over the common denominator `den`: they lie between `low` and
`high`, and the ends belong to them when `closed` holds. -/
structure Interval where
  low : Nat
  value : Nat
  high : Nat
  den : Nat
  closed : Bool

/-- The interval of the float with magnitude `m * 2 ^ e`. Below a power of two the floats lie
twice as close, so there the lower half-gap is half as wide. -/
def Interval.of (m : Nat) (e : Int) : Interval :=
  let narrow := m = Nat.pow 2 52 ∧ minExponent < e
  let (unit, den) := ratioOf 1 (e - 2)
  { low := (4 * m - if narrow then 1 else 2) * unit
    value := 4 * m * unit
    high := (4 * m + 2) * unit
    den := den
    closed := m % 2 = 0 }

/-- Whether `n / d` lies in the interval. -/
def Interval.has (i : Interval) (n d : Nat) : Bool :=
  if i.closed then i.low * d ≤ n * i.den && n * i.den ≤ i.high * d
  else i.low * d < n * i.den && n * i.den < i.high * d

/-- The power of ten that brings `num / den` into `[1/10, 1)`. -/
def decimalPoint (num den : Nat) : Int :=
  let guess : Int := (Nat.toDigits 10 num).length - (Nat.toDigits 10 den).length
  let reaches :=
    if 0 ≤ guess then den * Nat.pow 10 guess.toNat ≤ num else den ≤ num * Nat.pow 10 (-guess).toNat
  if reaches then guess + 1 else guess

/-- `n * 10 ^ k` as a fraction. -/
def onGrid (n : Nat) (k : Int) : Nat × Nat :=
  if 0 ≤ k then (n * Nat.pow 10 k.toNat, 1) else (n, Nat.pow 10 (-k).toNat)

/-- The neighbour of the value on the grid of `10 ^ k` that lies in the interval, the nearer one if
both do. -/
def Interval.neighbour? (i : Interval) (k : Int) : Option Nat :=
  let (a, b) := onGrid 1 k
  let below := i.value * b / (i.den * a)
  let within (n : Nat) : Bool := let (p, q) := onGrid n k; i.has p q
  let aboveNearer := (2 * below + 1) * (i.den * a) < 2 * (i.value * b)
  match within below, within (below + 1) with
  | true, true => some (if aboveNearer then below + 1 else below)
  | true, false => some below
  | false, true => some (below + 1)
  | false, false => none

/-- Without the zeros at its end. -/
def trimZeros (digits : List Char) : List Char :=
  (digits.reverse.dropWhile (· = '0')).reverse

/-- The first grid, from `count` digits on, that has a neighbour in the interval. -/
def Interval.search (i : Interval) (point : Int) : (fuel count : Nat) → Digits
  | 0, _ => ⟨['0'], 1⟩
  | fuel + 1, count =>
    match i.neighbour? (point - count) with
    | some n =>
      let digits := Nat.toDigits 10 n
      ⟨trimZeros digits, point + (digits.length - count)⟩
    | none => i.search point fuel (count + 1)

/-- The shortest digits of the magnitude `m * 2 ^ e` of a float. -/
def shortest (m : Nat) (e : Int) : Digits :=
  if m = 0 then ⟨['0'], 1⟩
  else
    let i := Interval.of m e
    i.search (decimalPoint i.value i.den) 18 1

end CommuteSim.Decimal
