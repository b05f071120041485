/-!
# Phases of an iteration and the events around them

One iteration goes through seven phases in a fixed order. Every phase but the mobsim is announced
to listeners by an event of its own kind; `startup` and `shutdown` bracket the whole run.
-/

namespace CommuteSim

/-- The index of an iteration. -/
abbrev IterationIndex := UInt32

/-- The index after this one, none after the largest. -/
def IterationIndex.next? (i : IterationIndex) : Option IterationIndex :=
  if i = 0xFFFFFFFF then none else some (i + 1)

/-- A stage of an iteration. -/
inductive Phase where
  | iterationStart
  /-- Skipped in the first iteration. -/
  | replanning
  | beforeMobsim
  /-- The simulation step itself, which no event announces. -/
  | mobsim
  /-- Takes place whenever `beforeMobsim` has begun. -/
  | afterMobsim
  | scoring
  | iterationEnd
  deriving DecidableEq, Repr

/-- The kinds of events, listeners choose among them. -/
inductive EventKind where
  | startup
  | iterationStart
  | replanning
  | beforeMobsim
  | afterMobsim
  | scoring
  | iterationEnd
  | shutdown
  deriving DecidableEq, Repr

/-- A notification for listeners. -/
inductive Event where
  | startup
  | iterationStart (iteration : IterationIndex)
  | replanning (iteration : IterationIndex)
  | beforeMobsim (iteration : IterationIndex)
  | afterMobsim (iteration : IterationIndex)
  | scoring (iteration : IterationIndex)
  | iterationEnd (iteration : IterationIndex)
  /-- `unexpected` unless the stopping criterion ended the run. -/
  | shutdown (unexpected : Bool)
  deriving DecidableEq, Repr

/-! ## Phases -/

namespace Phase

/-- All phases in the order of execution. -/
def all : List Phase :=
  [iterationStart, replanning, beforeMobsim, mobsim, afterMobsim, scoring, iterationEnd]

/-- The place of a phase in the order of execution. -/
def rank : Phase → Nat
  | iterationStart => 0
  | replanning => 1
  | beforeMobsim => 2
  | mobsim => 3
  | afterMobsim => 4
  | scoring => 5
  | iterationEnd => 6

instance : Ord Phase := ⟨fun a b => compare a.rank b.rank⟩

/-- The name of a phase in documents. -/
def name : Phase → String
  | iterationStart => "iteration_start"
  | replanning => "replanning"
  | beforeMobsim => "before_mobsim"
  | mobsim => "mobsim"
  | afterMobsim => "after_mobsim"
  | scoring => "scoring"
  | iterationEnd => "iteration_end"

/-- The name of the timed operation that a phase is. -/
def operation : Phase → String
  | iterationStart => "iteration_start_listeners"
  | replanning => "replanning"
  | beforeMobsim => "before_mobsim_listeners"
  | mobsim => "mobsim"
  | afterMobsim => "after_mobsim_listeners"
  | scoring => "scoring"
  | iterationEnd => "iteration_end_listeners"

/-- The kind of the event that announces a phase. -/
def kind? : Phase → Option EventKind
  | iterationStart => some .iterationStart
  | replanning => some .replanning
  | beforeMobsim => some .beforeMobsim
  | mobsim => none
  | afterMobsim => some .afterMobsim
  | scoring => some .scoring
  | iterationEnd => some .iterationEnd

/-- The event that announces a phase of an iteration. -/
def event? (p : Phase) (i : IterationIndex) : Option Event :=
  match p with
  | iterationStart => some (.iterationStart i)
  | replanning => some (.replanning i)
  | beforeMobsim => some (.beforeMobsim i)
  | mobsim => none
  | afterMobsim => some (.afterMobsim i)
  | scoring => some (.scoring i)
  | iterationEnd => some (.iterationEnd i)

end Phase

/-! ## Kinds of events -/

namespace EventKind

/-- All kinds in the order in which they first occur in a run. -/
def all : List EventKind :=
  [startup, iterationStart, replanning, beforeMobsim, afterMobsim, scoring, iterationEnd, shutdown]

/-- The place of a kind in that order. -/
def rank : EventKind → Nat
  | startup => 0
  | iterationStart => 1
  | replanning => 2
  | beforeMobsim => 3
  | afterMobsim => 4
  | scoring => 5
  | iterationEnd => 6
  | shutdown => 7

/-- The name of a kind, in documents and in messages. -/
def name : EventKind → String
  | startup => "startup"
  | iterationStart => "iteration_start"
  | replanning => "replanning"
  | beforeMobsim => "before_mobsim"
  | afterMobsim => "after_mobsim"
  | scoring => "scoring"
  | iterationEnd => "iteration_end"
  | shutdown => "shutdown"

end EventKind

/-! ## Events -/

namespace Event

def kind : Event → EventKind
  | startup => .startup
  | iterationStart _ => .iterationStart
  | replanning _ => .replanning
  | beforeMobsim _ => .beforeMobsim
  | afterMobsim _ => .afterMobsim
  | scoring _ => .scoring
  | iterationEnd _ => .iterationEnd
  | shutdown _ => .shutdown

/-- The iteration that an event belongs to; startup and shutdown belong to none. -/
def iteration? : Event → Option IterationIndex
  | startup | shutdown _ => none
  | iterationStart i | replanning i | beforeMobsim i | afterMobsim i | scoring i
  | iterationEnd i => some i

/-- The text of an event: its kind, with the iteration in brackets. -/
def text (e : Event) : String :=
  match e.iteration? with
  | some i => s!"{e.kind.name}[{i}]"
  | none => e.kind.name

end Event

end CommuteSim
