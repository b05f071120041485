import CommuteSim.Commute.Memory
import CommuteSim.Listener.Bus

/-!
# Replanning

Before the mobsim of an iteration a share of the commuters chooses new routes.
-/

namespace CommuteSim

/-- The listener that lets a share of the commuters choose anew. -/
def replanningListener {σ : Type} (part : Part σ CommuteMemory) (routes : Nat) (share : Float) :
    Listener σ where
  name := "replanning"
  wants := fun k => k = .replanning
  notify := fun _ => Program.drawPopulation part (Population.replan share routes)

end CommuteSim
