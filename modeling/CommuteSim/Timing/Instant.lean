import CommuteSim.Number.Binary64

/-!
# Instants and durations

An instant is a number of nanoseconds since the beginning of 1970, a duration a number of
nanoseconds.
-/

namespace CommuteSim

/-- A point of time. -/
structure Instant where
  nanoseconds : Int
  deriving DecidableEq, Repr

/-- A length of time in nanoseconds. -/
abbrev Nanoseconds := Nat

namespace Instant

def ofMicroseconds (n : Int) : Instant := ⟨n * 1000⟩

/-- The whole microseconds since the beginning of 1970. -/
def microseconds (t : Instant) : Int := t.nanoseconds / 1000

/-- The instant a number of microseconds later. -/
def after (t : Instant) (microseconds : Int) : Instant := ⟨t.nanoseconds + microseconds * 1000⟩

/-- The time from one instant to another; none if the clock stepped backwards. -/
def elapsed (start finish : Instant) : Nanoseconds := (finish.nanoseconds - start.nanoseconds).toNat

/-- A number with leading zeros. -/
def padded (width n : Nat) : String :=
  let digits := Nat.toDigits 10 n
  String.ofList (List.replicate (width - digits.length) '0' ++ digits)

/-- The time of day in hours, minutes, seconds and milliseconds. -/
def timeOfDay (t : Instant) : String :=
  let ms := (t.nanoseconds / 1000000 % 86400000).toNat
  let hours := padded 2 (ms / 3600000)
  let minutes := padded 2 (ms / 60000 % 60)
  let seconds := padded 2 (ms / 1000 % 60)
  let fraction := padded 3 (ms % 1000)
  s!"{hours}:{minutes}:{seconds}.{fraction}"

end Instant

/-- A duration in seconds: the whole seconds and the rest are rounded apart. -/
def Nanoseconds.seconds (d : Nanoseconds) : Float :=
  Binary64.ofInt (d / 1000000000 : Nat) + Binary64.ofInt (d % 1000000000 : Nat) / 1000000000.0

end CommuteSim
