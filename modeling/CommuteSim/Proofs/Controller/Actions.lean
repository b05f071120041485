import CommuteSim.Proofs.Controller.Account
import Mathlib.Data.List.Chain

/-!
# What a controller does next

The actions of a controller are that a guarded step begins, that it ends, that the mobsim is called,
and that it is asked whether an iteration is to run. What can come next after an action hangs on
that action alone: a step ends before another one begins, the run goes on only after a step that let
it, and after an abort there is nothing but the round after the mobsim that is owed. So all that a
run does is a chain of actions.

Main statement: `chain_opening`, from the courses of the parts of a run.
-/

namespace CommuteSim

variable {σ : Type}

/-! ## Steps -/

namespace Step

/-- The steps that can come next if the run goes on after a step. -/
def followers : Step → List Step
  | load => [startup]
  | startup => [check]
  | check => [prepare]
  | prepare => []
  | phase .iterationStart i => [phase .replanning i, phase .beforeMobsim i]
  | phase .replanning i => [phase .beforeMobsim i]
  | phase .beforeMobsim i => [phase .mobsim i]
  | phase .mobsim i => [phase .afterMobsim i]
  | phase .afterMobsim i => [phase .scoring i]
  | phase .scoring i => [phase .iterationEnd i]
  | phase .iterationEnd _ => []

/-- The step that is owed though the run does not go on after a step: listeners are told of the end
of a mobsim whose beginning they were told of. -/
def owed? : Step → Option Step
  | phase .beforeMobsim i | phase .mobsim i => some (phase .afterMobsim i)
  | _ => none

/-- The iteration that is due if the run goes on after a step, where the first one is `first`. -/
def due? (first : IterationIndex) : Step → Option IterationIndex
  | prepare => some first
  | phase .iterationEnd i => i.next?
  | _ => none

/-- Whether a step is the round after a mobsim. -/
def isAfterMobsim : Step → Bool
  | phase .afterMobsim _ => true
  | _ => false

theorem isAfterMobsim_of_owed {s t : Step} (h : s.owed? = some t) : t.isAfterMobsim = true := by
  cases s with
  | phase p i =>
      cases p with
      | beforeMobsim | mobsim =>
          cases h
          rfl
      | _ => cases h
  | _ => cases h

end Step

/-! ## Actions -/

/-- What a controller does. -/
inductive Action where
  | begin (step : Step)
  | finish (step : Step) (progress : Progress)
  | simulate (iteration : IterationIndex)
  | ask (iteration : IterationIndex)
  deriving DecidableEq, Repr

/-- The action that a moment tells of. -/
def Moment.action? : Moment σ → Option Action
  | .began step => some (.begin step)
  | .ended step _ progress => some (.finish step progress)
  | .mobsim i _ => some (.simulate i)
  | .asked i => some (.ask i)
  | _ => none

/-- The actions in a history. -/
def actions (l : List (Moment σ)) : List Action := l.filterMap Moment.action?

@[simp] theorem actions_append (l m : List (Moment σ)) :
    actions (l ++ m) = actions l ++ actions m :=
  List.filterMap_append ..

theorem mem_actions {l : List (Moment σ)} {m : Moment σ} {x : Action} (hm : m ∈ l)
    (hx : m.action? = some x) : x ∈ actions l :=
  List.mem_filterMap.mpr ⟨m, hm, hx⟩

theorem action?_of_not_milestone {m : Moment σ} (h : m.milestone = false) : m.action? = none := by
  cases m with
  | began _ | ended _ _ _ | mobsim _ _ | asked _ => cases h
  | _ => rfl

theorem actions_milestones (l : List (Moment σ)) : actions (milestones l) = actions l :=
  filterMap_milestones (fun _ => action?_of_not_milestone) l

/-- What can come next after an action, in a run whose first iteration is `first`. -/
inductive Succeeds (first : IterationIndex) : Action → Action → Prop where
  | finish {s : Step} {p : Progress} (h : ∀ i, s ≠ .phase .mobsim i) :
      Succeeds first (.begin s) (.finish s p)
  | simulate (i : IterationIndex) : Succeeds first (.begin (.phase .mobsim i)) (.simulate i)
  | simulated (i : IterationIndex) (p : Progress) :
      Succeeds first (.simulate i) (.finish (.phase .mobsim i) p)
  | proceed {s t : Step} (h : t ∈ s.followers) : Succeeds first (.finish s .proceed) (.begin t)
  /-- Nothing but what is owed comes after an abort. -/
  | owed {s t : Step} (h : s.owed? = some t) : Succeeds first (.finish s .aborted) (.begin t)
  | ask {s : Step} {i : IterationIndex} (h : s.due? first = some i) :
      Succeeds first (.finish s .proceed) (.ask i)
  | answered (i : IterationIndex) : Succeeds first (.ask i) (.begin (.phase .iterationStart i))

namespace Controller

variable {first : IterationIndex}

/-! ## Chains -/

/-- A course whose actions go on from the action `x`, and come to the action `y` if the run goes on
after it. -/
structure Linked (first : IterationIndex) (x y : Action) (A : Course σ) : Prop where
  chain : ∀ p l, A p l → (x :: actions l).IsChain (Succeeds first)
  last : ∀ l, A .proceed l → ∃ before, x :: actions l = before ++ [y]

theorem linked_pass (x : Action) : Linked (σ := σ) first x x Course.pass where
  chain := by
    rintro p l ⟨-, rfl⟩
    exact .singleton x
  last := by
    rintro l ⟨-, rfl⟩
    exact ⟨[], rfl⟩

theorem linked_andThen {x y z : Action} {A B : Course σ} (hA : Linked first x y A)
    (hB : Linked first y z B) : Linked first x z (A.andThen B) := by
  constructor
  · rintro p l (⟨-, h⟩ | ⟨m, n, hm, hn, rfl⟩)
    · exact hA.chain _ l h
    · have hchain := hA.chain _ m hm
      obtain ⟨before, hbefore⟩ := hA.last m hm
      rw [hbefore] at hchain
      rw [actions_append, ← List.cons_append, hbefore, List.append_assoc]
      exact List.isChain_split.mpr ⟨hchain, hB.chain p n hn⟩
  · rintro l (⟨h, -⟩ | ⟨m, n, hm, hn, rfl⟩)
    · cases h
    · obtain ⟨before, hbefore⟩ := hA.last m hm
      obtain ⟨middle, hmiddle⟩ := hB.last n hn
      refine ⟨before ++ middle, ?_⟩
      rw [actions_append, ← List.cons_append, hbefore, List.append_assoc, List.append_assoc,
        ← hmiddle]
      rfl

/-- A step is done: it begins, and it ends. -/
theorem actions_step {step : Step} {R : Outcome Fault Unit → List (Moment σ) → Prop} {p : Progress}
    {l : List (Moment σ)} (h : stepCourse step R p l) :
    ∃ result inner, R result inner ∧
      actions l = .begin step :: (actions inner ++ [.finish step p]) := by
  obtain ⟨result, inner, hinner, rfl⟩ := h
  exact ⟨result, inner, hinner, congrArg _ (actions_append inner _)⟩

theorem linked_step {x : Action} {step : Step} {R : Outcome Fault Unit → List (Moment σ) → Prop}
    (hx : Succeeds first x (.begin step)) (hstep : ∀ i, step ≠ .phase .mobsim i)
    (hR : ∀ result inner, R result inner → actions inner = []) :
    Linked first x (.finish step .proceed) (stepCourse step R) := by
  have hactions : ∀ p l, stepCourse step R p l → actions l = [.begin step, .finish step p] := by
    intro p l h
    obtain ⟨result, inner, hinner, hl⟩ := actions_step h
    rw [hl, hR result inner hinner]
    rfl
  constructor
  · intro p l h
    rw [hactions p l h]
    exact .cons_cons hx (.cons_cons (.finish hstep) (.singleton _))
  · intro l h
    exact ⟨[x, .begin step], by rw [hactions _ l h]; rfl⟩

theorem actions_quiet {α : Type} (a : α) (l : List (Moment σ)) (h : Quietly a l) :
    actions l = [] := by
  rw [show l = [] from h]
  rfl

theorem actions_announced (e : Event) (result : Outcome Fault Unit) (l : List (Moment σ))
    (h : Announces e result l) : actions l = [] := by
  rw [show l = [.round e] from h]
  rfl

theorem actions_begun (i : IterationIndex) (result : Outcome Fault Unit) (l : List (Moment σ))
    (h : Begins i result l) : actions l = [] := by
  rcases h with rfl | ⟨rfl, -⟩ <;> rfl

theorem linked_round {x : Action} {p : Phase} {i : IterationIndex}
    (hx : Succeeds first x (.begin (.phase p i))) (hp : p ≠ .mobsim) :
    Linked (σ := σ) first x (.finish (.phase p i) .proceed) (roundCourse p i) := by
  refine linked_step hx (fun j h => hp (Step.phase.inj h).1) ?_
  rintro result inner rfl
  cases p.event? i <;> rfl

/-- A round that comes next in an iteration. -/
theorem linked_next {s : Step} (p : Phase) (i : IterationIndex) (hs : .phase p i ∈ s.followers)
    (hp : p ≠ .mobsim) : Linked (σ := σ) first (.finish s .proceed)
      (.finish (.phase p i) .proceed) (roundCourse p i) :=
  linked_round (.proceed hs) hp

/-! ## Iterations -/

theorem actions_mobsim {i : IterationIndex} {p : Progress} {l : List (Moment σ)}
    (h : stepCourse (.phase .mobsim i) (Simulates i) p l) :
    actions l = [.begin (.phase .mobsim i), .simulate i, .finish (.phase .mobsim i) p] := by
  obtain ⟨result, inner, ⟨g, rfl⟩, hl⟩ := actions_step h
  exact hl

theorem linked_mobsimStep (first i : IterationIndex) :
    Linked (σ := σ) first (.finish (.phase .beforeMobsim i) .proceed)
      (.finish (.phase .mobsim i) .proceed) (stepCourse (.phase .mobsim i) (Simulates i)) := by
  constructor
  · intro p l h
    rw [actions_mobsim h]
    exact .cons_cons (.proceed List.mem_cons_self)
      (.cons_cons (.simulate i) (.cons_cons (.simulated i p) (.singleton _)))
  · intro l h
    rw [actions_mobsim h]
    exact ⟨[.finish (.phase .beforeMobsim i) .proceed, .begin (.phase .mobsim i), .simulate i], rfl⟩

/-- A step that can abort, with the round after the mobsim that is owed for it. -/
theorem chain_owed {x : Action} {s : Step} {i : IterationIndex} {p : Progress}
    {l n : List (Moment σ)} (hl : (x :: actions l).IsChain (Succeeds first))
    (hlast : ∃ before, x :: actions l = before ++ [.finish s .aborted])
    (hs : s.owed? = some (.phase .afterMobsim i)) (hn : roundCourse .afterMobsim i p n) :
    (x :: actions (l ++ n)).IsChain (Succeeds first) := by
  obtain ⟨before, hbefore⟩ := hlast
  have howed : Succeeds first (.finish s .aborted) (.begin (.phase .afterMobsim i)) := .owed hs
  have hround := (linked_round howed nofun).chain p n hn
  rw [hbefore] at hl
  rw [actions_append, ← List.cons_append, hbefore, List.append_assoc]
  exact List.isChain_split.mpr ⟨hl, hround⟩

theorem linked_mobsim {x : Action} {i : IterationIndex}
    (hx : Succeeds first x (.begin (.phase .beforeMobsim i))) :
    Linked (σ := σ) first x (.finish (.phase .afterMobsim i) .proceed) (MobsimCourse i) := by
  have hbefore := linked_round (σ := σ) hx nofun
  have hmobsim := linked_andThen hbefore (linked_mobsimStep first i)
  have hthrough := linked_andThen hmobsim (linked_next .afterMobsim i List.mem_cons_self nofun)
  constructor
  · intro p l h
    cases h with
    | through before mobsim after =>
        exact hthrough.chain p _ (.inr ⟨_, _, .inr ⟨_, _, before, mobsim, rfl⟩, after, rfl⟩)
    | @mobsimAborted _ l m n before mobsim after =>
        have hchain := hmobsim.chain .aborted (l ++ m) (.inr ⟨l, m, before, mobsim, rfl⟩)
        refine chain_owed (s := .phase .mobsim i) hchain ?_ rfl after
        refine ⟨x :: actions l ++ [.begin (.phase .mobsim i), .simulate i], ?_⟩
        rw [actions_append, actions_mobsim mobsim]
        simp
    | @beforeAborted _ l n before after =>
        have hchain := hbefore.chain .aborted l before
        refine chain_owed (s := .phase .beforeMobsim i) hchain ?_ rfl after
        obtain ⟨result, inner, -, hl⟩ := actions_step before
        exact ⟨x :: .begin (.phase .beforeMobsim i) :: actions inner, by rw [hl]; rfl⟩
  · intro l h
    cases h with
    | through before mobsim after =>
        exact hthrough.last _ (.inr ⟨_, _, .inr ⟨_, _, before, mobsim, rfl⟩, after, rfl⟩)

theorem linked_phases (first i : IterationIndex) :
    Linked (σ := σ) first (.ask i) (.finish (.phase .iterationEnd i) .proceed)
      (phasesCourse first i) := by
  have hlate : Linked (σ := σ) first (.finish (.phase .afterMobsim i) .proceed)
      (.finish (.phase .iterationEnd i) .proceed)
      ((roundCourse .scoring i).andThen (roundCourse .iterationEnd i)) :=
    linked_andThen (linked_next .scoring i List.mem_cons_self nofun)
      (linked_next .iterationEnd i List.mem_cons_self nofun)
  refine linked_andThen (linked_step (.answered i) nofun (actions_begun i)) ?_
  split
  · refine linked_andThen (linked_next .replanning i List.mem_cons_self nofun) ?_
    exact linked_andThen (linked_mobsim (.proceed List.mem_cons_self)) hlate
  · refine linked_andThen (linked_pass _) ?_
    exact linked_andThen (linked_mobsim (.proceed (by simp [Step.followers]))) hlate

theorem linked_iteration (first i : IterationIndex) :
    Linked (σ := σ) first (.ask i) (.finish (.phase .iterationEnd i) .proceed)
      (IterationCourse first i) := by
  have hphases := linked_phases (σ := σ) first i
  have hreported : ∀ (l : List (Moment σ)) (ledger : TimingLedger),
      actions (l ++ [.reported ledger]) = actions l := by
    intro l ledger
    rw [actions_append]
    exact List.append_nil _
  constructor
  · intro p l h
    cases h with
    | completed h ledger =>
        rw [hreported]
        exact hphases.chain _ _ h
    | cut h => exact hphases.chain _ _ h
  · intro l h
    cases h with
    | completed h ledger =>
        rw [hreported]
        exact hphases.last _ h

/-- The loop goes on from the action after which its first iteration is due, by induction on its
course. -/
theorem chain_loop {i : IterationIndex} {l : List (Moment σ)} (h : LoopCourse first i l) :
    ∀ s : Step, s.due? first = some i →
      (.finish s .proceed :: actions l).IsChain (Succeeds first) := by
  induction h with
  | unasked i => exact fun s _ => .singleton _
  | declined h => exact fun s hs => .cons_cons (.ask hs) (.singleton _)
  | @last i p l h hp =>
      exact fun s hs => .cons_cons (.ask hs) ((linked_iteration first i).chain p l h)
  | @more i j l m h hj hm ih =>
      intro s hs
      have hiteration := (linked_iteration first i).chain _ l h
      obtain ⟨before, hbefore⟩ := (linked_iteration first i).last l h
      have hrest : (.ask i :: (actions l ++ actions m)).IsChain (Succeeds first) := by
        rw [hbefore] at hiteration
        rw [← List.cons_append, hbefore, List.append_assoc]
        exact List.isChain_split.mpr ⟨hiteration, ih _ hj⟩
      rw [← actions_append] at hrest
      exact .cons_cons (.ask hs) hrest

/-! ## The whole run -/

theorem linked_afterLoad (first : IterationIndex) :
    Linked (σ := σ) first (.finish .load .proceed) (.finish .prepare .proceed)
      ((stepCourse .startup (Announces .startup)).andThen
        ((stepCourse .check Quietly).andThen (stepCourse .prepare Quietly))) := by
  refine linked_andThen
    (linked_step (.proceed List.mem_cons_self) nofun (actions_announced _)) ?_
  exact linked_andThen (linked_step (.proceed List.mem_cons_self) nofun actions_quiet)
    (linked_step (.proceed List.mem_cons_self) nofun actions_quiet)

theorem actions_load {p : Progress} {l : List (Moment σ)} (h : stepCourse .load Quietly p l) :
    actions l = [.begin .load, .finish .load p] := by
  obtain ⟨result, inner, hinner, hl⟩ := actions_step h
  rw [hl, actions_quiet result inner hinner]
  rfl

/-- What comes before the first iteration begins with the first step, and ends with the last if the
run goes on. -/
theorem chain_startUp (first : IterationIndex) {p : Progress} {l : List (Moment σ)}
    (h : startUpCourse p l) :
    ∃ rest, actions l = .begin .load :: rest ∧
      (.begin .load :: rest).IsChain (Succeeds first) ∧
      (p = .proceed → ∃ before, .begin .load :: rest = before ++ [.finish .prepare .proceed]) := by
  rcases h with ⟨rfl, h⟩ | ⟨m, n, hm, hn, rfl⟩
  · exact ⟨_, actions_load h, .cons_cons (.finish nofun) (.singleton _), nofun⟩
  · have hchain := (linked_afterLoad first).chain p n hn
    refine ⟨.finish .load .proceed :: actions n, ?_, .cons_cons (.finish nofun) hchain, ?_⟩
    · rw [actions_append, actions_load hm]
      rfl
    · rintro rfl
      obtain ⟨before, hbefore⟩ := (linked_afterLoad first).last n hn
      exact ⟨.begin .load :: before, by rw [hbefore]; rfl⟩

/-- All that a run does up to the claim to the teardown is a chain of actions, from the first step
on. -/
theorem chain_opening {l : List (Moment σ)} (h : OpeningCourse first l) :
    ∃ rest, actions l = .begin .load :: rest ∧ (actions l).IsChain (Succeeds first) := by
  cases h with
  | cut h =>
      obtain ⟨rest, hrest, hchain, -⟩ := chain_startUp first h
      exact ⟨rest, hrest, hrest ▸ hchain⟩
  | @iterated l m h h' =>
      obtain ⟨rest, hrest, hchain, hlast⟩ := chain_startUp first h
      obtain ⟨before, hbefore⟩ := hlast rfl
      refine ⟨rest ++ actions m, by rw [actions_append, hrest]; rfl, ?_⟩
      rw [hbefore] at hchain
      rw [actions_append, hrest, hbefore, List.append_assoc]
      exact List.isChain_split.mpr ⟨hchain, chain_loop h' .prepare rfl⟩

end Controller

end CommuteSim
