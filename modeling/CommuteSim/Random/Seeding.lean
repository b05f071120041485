import CommuteSim.Lifecycle.Event
import CommuteSim.Random.Generator

/-!
# Seeds of iterations

Iteration `n` of a run with base seed `b` draws from a generator seeded with `b + n`, modulo
`2 ^ 64`. After every reseeding the first draw is discarded.
-/

namespace CommuteSim

/-- The seed of an iteration. -/
def iterationSeed (base : UInt64) (iteration : IterationIndex) : UInt64 := base + iteration.toUInt64

/-- The generator of a seed with its first draw discarded. -/
def Generator.reseeded (seed : UInt64) : Generator := (Generator.ofSeed seed).float.2

/-- The rule that seeds a run: its base seed and the seed that was applied last. -/
structure Seeding where
  base : UInt64
  last : Option UInt64 := none
  deriving DecidableEq, Repr

/-- The generator that an iteration begins with. -/
def Seeding.generator (s : Seeding) (iteration : IterationIndex) : Generator :=
  Generator.reseeded (iterationSeed s.base iteration)

/-- Notes the seed of an iteration as the last one. -/
def Seeding.advance (s : Seeding) (iteration : IterationIndex) : Seeding :=
  { s with last := some (iterationSeed s.base iteration) }

end CommuteSim
