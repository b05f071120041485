import CommuteSim.Commute.Population
import CommuteSim.World.Program

/-!
# What the commuter simulation remembers

The simulation keeps its population and the history of scores. It may share the memory of a run
with other collaborators; a `Part` of a memory says where its own state is found there.
-/

namespace CommuteSim

/-- A part of a larger state. -/
structure Part (σ τ : Type) where
  get : σ → τ
  set : τ → σ → σ
  get_set : ∀ t s, get (set t s) = t

/-- The whole state as a part of itself. -/
def Part.whole {σ : Type} : Part σ σ := ⟨id, fun t _ => t, fun _ _ => rfl⟩

/-- The scores of an iteration. -/
structure ScoreStatistics where
  iteration : IterationIndex
  average : Float
  best : Float
  worst : Float
  /-- The number of commuters that were scored. -/
  scored : Nat

/-- The state of the commuter simulation. -/
structure CommuteMemory where
  population : Population := []
  /-- The statistics of the iterations that were scored, in order. -/
  history : List ScoreStatistics := []

/-! ## In programs -/

namespace Program

variable {σ ε α : Type}

/-- Looks up a part of the memory. -/
def memoryOf {τ : Type} (part : Part σ τ) : Program σ ε τ := do return part.get (← memory)

/-- Changes the population. -/
def setPopulation (part : Part σ CommuteMemory) (p : Population) : Program σ ε Unit :=
  memorize fun s => part.set { part.get s with population := p } s

/-- Changes the population with draws from the shared generator. -/
def drawPopulation (part : Part σ CommuteMemory)
    (f : Population → Generator → Population × Generator) : Program σ ε Unit := do
  let m ← memoryOf part
  let p ← draw (f m.population)
  setPopulation part p

end Program

end CommuteSim
