import CommuteSim.Proofs.Controller.Actions

/-!
# How soon a run ends once a shutdown is requested

A controller looks at the flag at the end of every guarded step, and before it asks whether an
iteration is to run. So once the flag is up every step that ends aborts the run. At most one more
step begins, and none if one was under way, but for the round after the mobsim that is owed.

Other threads act between two looks at the flag. The history tells of what they did at the second of
them, so the flag may have gone up at every moment since the last step ended before that; `FlagUp`
counts all these moments in.

Main statement: `prompt_abort`.
-/

namespace CommuteSim

variable {σ : Type}

/-! ## The flag in a history -/

namespace World

theorem flag_of_raised_changes {w : World σ} {p : Process} (h : .raised ∈ (w.changes p).toList) :
    (p.coordinator w.self).flag = true := by
  by_cases hflag : (p.coordinator w.self).flag = true
  · exact hflag
  · simp only [changes, Array.toList_append, List.mem_append] at h
    rcases h with (h | h) | h
    · rw [show ((p.coordinators w.self).getD {}).flag = false from Bool.eq_false_iff.mpr hflag,
        Bool.and_false] at h
      cases h
    · split at h <;> simp at h
    · simp at h

/-- The flag is up after a move on which it went up. -/
theorem flag_of_raised_move {w u : World σ} {l : List (Moment σ)} (h : Move w l u)
    (hl : .raised ∈ l) : u.coordinator.flag = true := by
  cases h with
  | silent _ _ _ => cases hl
  | note hm =>
      rw [← List.mem_singleton.mp hl] at hm
      cases hm
  | thread a =>
      rcases List.mem_cons.mp hl with hl | hl
      · cases hl
      · exact flag_of_raised_changes (w := w) hl
  | here a now =>
      rcases List.mem_cons.mp hl with hl | hl
      · cases hl
      · exact flag_of_raised_changes (w := w) hl
  | caught r _ => exact flag_of_raised_changes (w := w) hl
  | uncaught x _ => exact flag_of_raised_changes (w := w) hl

theorem flag_of_raised_path {w u : World σ} {l : List (Moment σ)} (h : Path w l u)
    (hl : .raised ∈ l) : u.coordinator.flag = true := by
  induction h with
  | refl => cases hl
  | tail _ hmove ih =>
      rcases List.mem_append.mp hl with hl | hl
      · exact (later_move hmove).flag (ih hl)
      · exact flag_of_raised_move hmove hl

theorem flag_of_raised_disclosed {watches : Bool} {failure : Option (String × Abort Fault)}
    {w v : World σ} {l : List (Moment σ)} (h : Disclosed watches failure w l v)
    (hl : .raised ∈ l) : v.coordinator.flag = true := by
  cases h with
  | nothing h => exact flag_of_raised_path h hl
  | recorded now h =>
      rw [coordinator_reported]
      rcases List.mem_append.mp hl with hl | hl
      · exact (Coordinator.later_record _ _).flag (flag_of_raised_path h hl)
      · rcases List.mem_append.mp hl with hl | hl
        · have hflag := flag_of_raised_changes hl
          rwa [Process.coordinator, Process.put_coordinators_self] at hflag
        · cases List.mem_singleton.mp hl
  | spared hw h hv => exact flag_of_raised_path h hl

end World

namespace Session

section Flag

variable {stretch : Stretch} {s u : Session σ} {l a b : List (Moment σ)} {step : Step}
  {result : Outcome Fault Unit} {progress : Progress}

theorem flag_of_raised_move (h : Move stretch s l u) (hl : .raised ∈ l) :
    u.world.coordinator.flag = true := by
  cases h with
  | path h => exact World.flag_of_raised_path h hl
  | books c g h => cases hl
  | note h =>
      rw [← List.mem_singleton.mp hl] at h
      cases h
  | own h => exact World.flag_of_raised_changes (w := s.world) hl
  | handler x h => exact World.flag_of_raised_changes (w := s.world) hl
  | @close _ n l₁ l₂ v w h h' hn =>
      change w.coordinator.flag = true
      rcases List.mem_append.mp hl with hl | hl
      · rcases List.mem_append.mp hl with hl | hl
        · exact (World.later_path h').flag (World.flag_of_raised_disclosed h hl)
        · exact World.flag_of_raised_path h' hl
      · rw [← List.mem_singleton.mp hl] at hn
        cases hn

/-- A step that ends does so as the flag has it. -/
theorem progress_of_ended (h : Move stretch s l u) (hl : .ended step result progress ∈ l) :
    progress = u.world.coordinator.progress := by
  cases h with
  | path h => exact absurd hl (World.not_mem_path h rfl)
  | books c g h => cases hl
  | note h =>
      rw [← List.mem_singleton.mp hl] at h
      cases h
  | own h => cases World.milestone_of_mem_changes hl
  | handler x h => cases World.milestone_of_mem_changes hl
  | @close _ n l₁ l₂ v w h h' hn =>
      rcases List.mem_append.mp hl with hl | hl
      · rcases List.mem_append.mp hl with hl | hl
        · exact absurd hl (World.not_mem_disclosed h rfl)
        · exact absurd hl (World.not_mem_path h' rfl)
      · rw [← List.mem_singleton.mp hl] at hn
        exact hn

theorem flag_of_raised_journey (h : Journey stretch s l u) (hl : .raised ∈ l) :
    u.world.coordinator.flag = true := by
  induction h with
  | refl => cases hl
  | tail _ hmove ih =>
      rcases List.mem_append.mp hl with hl | hl
      · exact (later_move hmove).flag (ih hl)
      · exact flag_of_raised_move hmove hl

/-- Once the flag is up, a step that ends aborts the run. -/
theorem aborted_of_flag (h : Journey stretch s l u)
    (hl : l = a ++ .ended step result progress :: b)
    (hflag : s.world.coordinator.flag = true ∨ .raised ∈ a) : progress = .aborted := by
  induction h generalizing b with
  | refl => simp at hl
  | @tail t u l m hjourney hmove ih =>
      rcases split_append hl with ⟨c, hfirst⟩ | ⟨c, ha, hc⟩
      · exact ih hfirst
      · have hup : u.world.coordinator.flag = true := by
          rcases hflag with hflag | hraised
          · exact (later_move hmove).flag ((later_journey hjourney).flag hflag)
          · have hmem : .raised ∈ l ++ m := by
              rw [hl]
              exact List.mem_append_left _ hraised
            rcases List.mem_append.mp hmem with hmem | hmem
            · exact (later_move hmove).flag (flag_of_raised_journey hjourney hmem)
            · exact flag_of_raised_move hmove hmem
        have hended : .ended step result progress ∈ m :=
          hc ▸ List.mem_append_right c List.mem_cons_self
        rw [progress_of_ended hmove hended, Coordinator.progress, if_pos hup]

end Flag

end Session

/-! ## What begins in a chain of actions -/

namespace Action

def begun? : Action → Option Step
  | begin s => some s
  | _ => none

def ended? : Action → Option (Step × Progress)
  | finish s p => some (s, p)
  | _ => none

def simulated? : Action → Option IterationIndex
  | simulate i => some i
  | _ => none

def asked? : Action → Option IterationIndex
  | ask i => some i
  | _ => none

end Action

/-- The steps that begin. -/
def beginnings (r : List Action) : List Step := r.filterMap Action.begun?

/-- The steps that begin, but for the rounds after a mobsim. -/
def further (r : List Action) : List Step := (beginnings r).filter fun s => !s.isAfterMobsim

/-- The rounds after a mobsim that begin. -/
def owedRounds (r : List Action) : List Step := (beginnings r).filter Step.isAfterMobsim

/-- The steps that end, each with whether the run goes on after it. -/
def endings (r : List Action) : List (Step × Progress) := r.filterMap Action.ended?

/-- The calls of the mobsim. -/
def simulations (r : List Action) : List IterationIndex := r.filterMap Action.simulated?

/-- The questions whether an iteration is to run. -/
def questions (r : List Action) : List IterationIndex := r.filterMap Action.asked?

/-- Every step that ends aborts the run. -/
def Aborting (r : List Action) : Prop := ∀ s p, .finish s p ∈ r → p = .aborted

/-- Nothing begins but a round that is owed. -/
structure Spent (r : List Action) : Prop where
  further : further r = []
  owed : (owedRounds r).length ≤ 1
  simulations : simulations r = []
  questions : questions r = []

/-- One step begins at most, but for a round that is owed. -/
structure Brief (r : List Action) : Prop where
  further : (further r).length ≤ 1
  owed : (owedRounds r).length ≤ 1
  simulations : (simulations r).length ≤ 1
  questions : (questions r).length ≤ 1

section Chain

variable {first : IterationIndex} {s : Step} {i : IterationIndex} {x : Action} {r t : List Action}

theorem Aborting.tail (h : Aborting (x :: r)) : Aborting r :=
  fun s p hm => h s p (List.mem_cons_of_mem x hm)

theorem spent_nil : Spent [] := ⟨rfl, Nat.zero_le 1, rfl, rfl⟩

theorem Spent.brief (h : Spent r) : Brief r where
  further := by simp [h.further]
  owed := h.owed
  simulations := by simp [h.simulations]
  questions := by simp [h.questions]

/-- The end of a step begins nothing. -/
theorem spent_finish {p : Progress} (h : Spent r) : Spent (.finish s p :: r) :=
  ⟨h.further, h.owed, h.simulations, h.questions⟩

/-- After an abort for which nothing is owed there is nothing more. -/
theorem nil_of_aborted (h : (.finish s .aborted :: t).IsChain (Succeeds first))
    (hs : s.owed? = none) : t = [] := by
  cases t with
  | nil => rfl
  | cons x t =>
      cases h.rel with
      | owed ht =>
          rw [hs] at ht
          cases ht

/-- After an abort nothing begins but the round that is owed. -/
theorem spent_of_aborted (h : (.finish s .aborted :: t).IsChain (Succeeds first))
    (ht : Aborting t) : Spent t := by
  cases t with
  | nil => exact spent_nil
  | cons x t =>
      cases h.rel with
      | @owed _ o ho =>
          have hround := Step.isAfterMobsim_of_owed ho
          have hlast : beginnings t = [] ∧ simulations t = [] ∧ questions t = [] := by
            cases t with
            | nil => exact ⟨rfl, rfl, rfl⟩
            | cons y t =>
                have hnext := h.tail
                -- the round ends, and nothing is owed for it
                cases hnext.rel with
                | @finish _ p _ =>
                    obtain rfl : p = .aborted := ht o p (by simp)
                    have hnone : o.owed? = none := by
                      cases o with
                      | phase q i => cases q <;> first | rfl | cases hround
                      | _ => rfl
                    rw [nil_of_aborted hnext.tail hnone]
                    exact ⟨rfl, rfl, rfl⟩
                | simulate i => cases hround
          obtain ⟨hbegun, hsimulations, hquestions⟩ := hlast
          have hall : beginnings (.begin o :: t) = [o] := congrArg (o :: ·) hbegun
          refine ⟨?_, ?_, hsimulations, hquestions⟩
          · rw [further, hall]
            simp [hround]
          · rw [owedRounds, hall]
            simp [hround]

/-- A call of the mobsim ends with its step, and nothing else begins. -/
theorem spent_of_simulated (h : (.simulate i :: t).IsChain (Succeeds first)) (ht : Aborting t) :
    Spent t := by
  cases t with
  | nil => exact spent_nil
  | cons x t =>
      cases h.rel with
      | simulated _ p =>
          obtain rfl : p = .aborted := ht _ p List.mem_cons_self
          exact spent_finish (spent_of_aborted h.tail ht.tail)

/-- A step that has begun is the last one to do so, but for a round that is owed. -/
theorem spent_of_begun (h : (.begin s :: t).IsChain (Succeeds first)) (ht : Aborting t) :
    further t = [] ∧ questions t = [] ∧ (simulations t).length ≤ 1 ∧
      (owedRounds (.begin s :: t)).length ≤ 1 := by
  cases t with
  | nil =>
      refine ⟨rfl, rfl, Nat.zero_le 1, ?_⟩
      exact Nat.le_trans (List.length_filter_le _ _) (Nat.le_refl 1)
  | cons x t =>
      cases h.rel with
      | @finish _ p hmobsim =>
          obtain rfl : p = .aborted := ht s p List.mem_cons_self
          have hspent := spent_of_aborted h.tail ht.tail
          refine ⟨hspent.further, hspent.questions, ?_, ?_⟩
          · change (simulations t).length ≤ 1
            simp [hspent.simulations]
          cases hround : s.isAfterMobsim with
          | false =>
              have hall : beginnings (.begin s :: .finish s .aborted :: t) = s :: beginnings t :=
                rfl
              rw [owedRounds, hall, List.filter_cons_of_neg (by simp [hround])]
              exact hspent.owed
          | true =>
              have hnone : s.owed? = none := by
                cases s with
                | phase q i => cases q <;> first | rfl | cases hround
                | _ => rfl
              rw [nil_of_aborted h.tail hnone]
              exact Nat.le_trans (List.length_filter_le _ _) (Nat.le_refl 1)
      | simulate i =>
          have hspent := spent_of_simulated h.tail ht.tail
          refine ⟨hspent.further, hspent.questions, ?_, hspent.owed⟩
          change (_ :: simulations t).length ≤ 1
          simp [hspent.simulations]

/-- Where every step that ends aborts the run, one step begins at most. -/
theorem brief_of_aborting (h : r.IsChain (Succeeds first)) (hr : Aborting r) : Brief r := by
  have hbegin : ∀ s t, (.begin s :: t).IsChain (Succeeds first) → Aborting t →
      Brief (.begin s :: t) ∧ questions (.begin s :: t) = [] := by
    intro s t hchain ht
    obtain ⟨hfurther, hquestions, hsimulations, howed⟩ := spent_of_begun hchain ht
    have hone : (further (.begin s :: t)).length ≤ 1 := by
      have hsplit : beginnings (.begin s :: t) = [s] ++ beginnings t := rfl
      rw [further, hsplit, List.filter_append, show List.filter _ _ = [] from hfurther,
        List.append_nil]
      exact List.length_filter_le _ [s]
    exact ⟨⟨hone, howed, hsimulations, by
      change (questions t).length ≤ 1
      simp [hquestions]⟩, hquestions⟩
  cases r with
  | nil => exact spent_nil.brief
  | cons x t =>
      cases x with
      | finish s p =>
          obtain rfl := hr s p List.mem_cons_self
          exact (spent_finish (spent_of_aborted h hr.tail)).brief
      | simulate i =>
          have hspent := spent_of_simulated h hr.tail
          refine ⟨by simp [show further (.simulate i :: t) = [] from hspent.further], hspent.owed,
            ?_, by simp [show questions (.simulate i :: t) = [] from hspent.questions]⟩
          change (i :: simulations t).length ≤ 1
          simp [hspent.simulations]
      | begin s => exact (hbegin s t h hr.tail).1
      | ask i =>
          cases t with
          | nil => exact ⟨Nat.zero_le 1, Nat.zero_le 1, Nat.zero_le 1, Nat.le_refl 1⟩
          | cons y t =>
              cases h.rel with
              | answered _ =>
                  obtain ⟨hbrief, hquestions⟩ := hbegin _ t h.tail hr.tail.tail
                  refine ⟨hbrief.further, hbrief.owed, hbrief.simulations, ?_⟩
                  change (i :: questions (.begin (.phase .iterationStart i) :: t)).length ≤ 1
                  simp [hquestions]

end Chain


/-! ## A step under way -/

/-- A step has begun in a history, and it has not ended in it. -/
def UnderWay (step : Step) (a : List (Moment σ)) : Prop :=
  ∃ before inner, a = before ++ .began step :: inner ∧
    ∀ result progress, .ended step result progress ∉ inner

section UnderWay

variable {first : IterationIndex} {s : Step} {r t : List Action}

/-- What comes after the beginning of a step before its end: nothing, or the call of the mobsim. -/
theorem within_of_chain (h : (.begin s :: (r ++ t)).IsChain (Succeeds first))
    (hr : ∀ p, .finish s p ∉ r) : r = [] ∨ ∃ i, r = [.simulate i] := by
  cases r with
  | nil => exact .inl rfl
  | cons x r =>
      right
      cases h.rel with
      | @finish _ p _ => exact absurd List.mem_cons_self (hr p)
      | simulate i =>
          cases r with
          | nil => exact ⟨i, rfl⟩
          | cons y r =>
              cases h.tail.rel with
              | simulated _ p => exact absurd (.tail _ (.head _)) (hr p)

/-- Nothing begins after the beginning of a step before its end, and then only what is owed. -/
theorem further_of_underWay {step : Step} {a : List (Moment σ)} (ha : UnderWay step a)
    (h : (actions a ++ t).IsChain (Succeeds first)) (ht : Aborting t) : further t = [] := by
  obtain ⟨before, inner, rfl, hinner⟩ := ha
  have hsplit : actions (before ++ .began step :: inner) ++ t =
      actions before ++ .begin step :: (actions inner ++ t) := by
    rw [actions_append, List.append_assoc]
    rfl
  rw [hsplit] at h
  have hchain := (List.isChain_split.mp h).2
  have hopen : ∀ p, .finish step p ∉ actions inner := by
    intro p hp
    obtain ⟨m, hm, hx⟩ := List.mem_filterMap.mp hp
    cases m with
    | ended s result q =>
        cases hx
        exact hinner result p hm
    | _ => cases hx
  have haborting : Aborting (actions inner ++ t) := by
    intro s p hp
    rcases List.mem_append.mp hp with hp | hp
    · rcases within_of_chain hchain hopen with hnone | ⟨i, hcall⟩
      · rw [hnone] at hp
        cases hp
      · rw [hcall] at hp
        cases List.mem_singleton.mp hp
    · exact ht s p hp
  have hall := (spent_of_begun hchain haborting).1
  have hparts : further (actions inner ++ t) = further (actions inner) ++ further t := by
    simp [further, beginnings]
  rw [hparts] at hall
  exact (List.append_eq_nil_iff.mp hall).2

end UnderWay

/-! ## What comes before an action -/

section Before

variable {first : IterationIndex} {i : IterationIndex} {x y : Action}
  {r t before after : List Action}

/-- Every action but the first step has another one right before it. -/
theorem exists_preceding (h : (before ++ y :: after).IsChain (Succeeds first))
    (hfirst : (before ++ y :: after).head? = some (.begin .load)) (hy : y ≠ .begin .load) :
    ∃ earlier x, before = earlier ++ [x] ∧ Succeeds first x y := by
  rcases List.eq_nil_or_concat before with rfl | ⟨earlier, x, rfl⟩
  · exact absurd (Option.some.inj hfirst) hy
  · refine ⟨earlier, x, List.concat_eq_append, ?_⟩
    rw [List.concat_eq_append, List.append_assoc] at h
    exact (List.isChain_append_cons_cons.mp h).2.1

theorem begun_of_finish {s : Step} {p : Progress}
    (h : (before ++ .finish s p :: after).IsChain (Succeeds first))
    (hfirst : (before ++ .finish s p :: after).head? = some (.begin .load))
    (hs : ∀ j, s ≠ .phase .mobsim j) : s ∈ beginnings before := by
  obtain ⟨earlier, x, rfl, hx⟩ := exists_preceding h hfirst nofun
  cases hx with
  | finish _ => simp [beginnings, Action.begun?]
  | simulated j p => exact absurd rfl (hs j)

/-- A call of the mobsim that ends comes after the round before it. -/
theorem begun_of_mobsim {p : Progress}
    (h : (before ++ .finish (.phase .mobsim i) p :: after).IsChain (Succeeds first))
    (hfirst : (before ++ .finish (.phase .mobsim i) p :: after).head? = some (.begin .load)) :
    .phase .beforeMobsim i ∈ beginnings before := by
  -- backwards: the call, the beginning of its step, and the end of the round before it
  obtain ⟨b₁, x₁, rfl, h₁⟩ := exists_preceding h hfirst nofun
  rw [List.append_assoc] at h hfirst
  cases h₁ with
  | finish hx => exact absurd rfl (hx i)
  | simulated _ _ =>
    obtain ⟨b₂, x₂, rfl, h₂⟩ := exists_preceding h hfirst nofun
    rw [List.append_assoc] at h hfirst
    cases h₂ with
    | simulate _ =>
      obtain ⟨b₃, x₃, rfl, h₃⟩ := exists_preceding h hfirst nofun
      rw [List.append_assoc] at h hfirst
      have hbegun : ∀ s q, x₃ = .finish s q → s = .phase .beforeMobsim i →
          .phase .beforeMobsim i ∈ beginnings (b₃ ++ [x₃] ++ [.begin (.phase .mobsim i)] ++
            [.simulate i]) := by
        rintro s q rfl rfl
        have hround := begun_of_finish h hfirst nofun
        simp only [beginnings, List.filterMap_append, List.mem_append]
        exact .inl (.inl (.inl hround))
      cases h₃ with
      | @proceed s _ hs =>
          refine hbegun s _ rfl ?_
          cases s with
          | phase q j => cases q <;> simp_all [Step.followers]
          | _ => simp [Step.followers] at hs
      | @owed s _ hs =>
          cases s with
          | phase q j => cases q <;> cases hs
          | _ => cases hs

/-- The round after a mobsim comes after the round before it. -/
theorem begun_before_afterMobsim
    (h : (before ++ .begin (.phase .afterMobsim i) :: after).IsChain (Succeeds first))
    (hfirst : (before ++ .begin (.phase .afterMobsim i) :: after).head? = some (.begin .load)) :
    .phase .beforeMobsim i ∈ beginnings before := by
  obtain ⟨earlier, x, rfl, hx⟩ := exists_preceding h hfirst nofun
  rw [List.append_assoc] at h hfirst
  have hbefore : ∀ p, x = .finish (.phase .beforeMobsim i) p ∨ x = .finish (.phase .mobsim i) p →
      .phase .beforeMobsim i ∈ beginnings (earlier ++ [x]) := by
    intro p hx
    rw [beginnings, List.filterMap_append]
    refine List.mem_append_left _ ?_
    rcases hx with rfl | rfl
    · exact begun_of_finish h hfirst nofun
    · exact begun_of_mobsim h hfirst
  cases hx with
  | @proceed s _ hs =>
      refine hbefore .proceed (.inr ?_)
      cases s with
      | phase q j => cases q <;> simp_all [Step.followers]
      | _ => simp [Step.followers] at hs
  | @owed s _ hs =>
      refine hbefore .aborted ?_
      cases s with
      | phase q j =>
          cases q with
          | beforeMobsim =>
              cases hs
              exact .inl rfl
          | mobsim =>
              cases hs
              exact .inr rfl
          | _ => cases hs
      | _ => cases hs

/-- An iteration begins after its question, and that comes after the end of a step after which the
iteration is due. -/
theorem due_before_iterationStart
    (h : (before ++ .begin (.phase .iterationStart i) :: after).IsChain (Succeeds first))
    (hfirst : (before ++ .begin (.phase .iterationStart i) :: after).head? =
      some (.begin .load)) :
    ∃ earlier s, before = earlier ++ [.finish s .proceed, .ask i] ∧ s.due? first = some i := by
  obtain ⟨b₁, x₁, rfl, h₁⟩ := exists_preceding h hfirst nofun
  rw [List.append_assoc] at h hfirst
  cases h₁ with
  | answered _ =>
    obtain ⟨b₂, x₂, rfl, h₂⟩ := exists_preceding h hfirst nofun
    cases h₂ with
    | @ask s _ hs => exact ⟨b₂, s, by simp, hs⟩
  | @proceed s _ hs =>
      cases s with
      | phase q j => cases q <;> simp [Step.followers] at hs
      | _ => simp [Step.followers] at hs
  | @owed s _ hs =>
      cases s with
      | phase q j => cases q <;> cases hs
      | _ => cases hs

/-- Where every step that ends from some moment on aborts the run, the only iteration that can begin
is the one that is due after the last step that ended before that moment. -/
theorem due_of_aborting (h : (r ++ t).IsChain (Succeeds first))
    (hfirst : (r ++ t).head? = some (.begin .load)) (ht : Aborting t)
    (hi : .phase .iterationStart i ∈ beginnings t) :
    ∃ s, (endings r).getLast? = some (s, .proceed) ∧ s.due? first = some i := by
  obtain ⟨x, hx, hbegun⟩ := List.mem_filterMap.mp hi
  have hbegin : x = .begin (.phase .iterationStart i) := by
    cases x with
    | begin s =>
        cases hbegun
        rfl
    | _ => cases hbegun
  obtain ⟨m, n, rfl⟩ := List.append_of_mem (hbegin ▸ hx)
  rw [← List.append_assoc] at h hfirst
  obtain ⟨earlier, s, hsplit, hs⟩ := due_before_iterationStart h hfirst
  refine ⟨s, ?_, hs⟩
  have hlast : (endings (r ++ m)).getLast? = some (s, .proceed) := by
    rw [hsplit, endings, List.filterMap_append]
    exact List.getLast?_concat
  rw [endings, List.filterMap_append, List.getLast?_append] at hlast
  -- the step let the run go on, so its end is no part of what comes from that moment on
  cases hm : (m.filterMap Action.ended?).getLast? with
  | none =>
      rw [hm] at hlast
      exact hlast
  | some q =>
      rw [hm] at hlast
      obtain rfl : q = (s, .proceed) := Option.some.inj hlast
      obtain ⟨y, hy, hended⟩ := List.mem_filterMap.mp (List.mem_of_getLast? hm)
      cases y with
      | finish s' p =>
          cases hended
          cases ht s .proceed (List.mem_append_left _ hy)
      | _ => cases hended

end Before
/-! ## Runs -/

/-- In the history `a ++ rest` of a run that begins with the coordinator `c`, the flag is up after
`a`, or goes up before the next step ends. -/
inductive FlagUp (c : Coordinator) (a rest : List (Moment σ)) : Prop where
  | before (h : c.flag = true)
  | within (h : .raised ∈ a)
  | next {g b : List (Moment σ)} (h : rest = g ++ .raised :: b)
      (hg : ∀ step result progress, .ended step result progress ∉ g)

/-- What a run that has done `a` still does in `rest`. -/
structure Prompt (first : IterationIndex) (a rest : List (Moment σ)) : Prop where
  /-- At most one step begins, and at most one round that is owed; the mobsim is called at most
  once, and the question whether an iteration is to run comes at most once. -/
  brief : Brief (actions rest)
  /-- If a step is under way, no other one begins. -/
  underWay : ∀ step, UnderWay step a → further (actions rest) = []
  /-- A round after a mobsim is owed: the round before that mobsim has begun. -/
  owed : ∀ i m n, actions rest = m ++ .begin (.phase .afterMobsim i) :: n →
    .phase .beforeMobsim i ∈ beginnings (actions a ++ m)
  /-- No iteration begins but the one that is due after the last step that has ended. -/
  due : ∀ i, .phase .iterationStart i ∈ beginnings (actions rest) →
    ∃ s, (endings (actions a)).getLast? = some (s, .proceed) ∧ s.due? first = some i

namespace Controller

section Runs

variable {first : IterationIndex} {s u : Session σ} {a rest l c : List (Moment σ)}

/-- A chain of actions that begins with the first step goes on as promised where every step that
ends aborts the run. -/
theorem prompt_of_aborting (h : (actions (a ++ rest)).IsChain (Succeeds first))
    (hfirst : (actions (a ++ rest)).head? = some (.begin .load)) (ht : Aborting (actions rest)) :
    Prompt first a rest := by
  rw [actions_append] at h hfirst
  constructor
  · exact brief_of_aborting (h.suffix (List.suffix_append _ _)) ht
  · exact fun step hstep => further_of_underWay hstep h ht
  · intro i m n hrest
    rw [hrest, ← List.append_assoc] at h hfirst
    exact begun_before_afterMobsim h hfirst
  · exact fun i hi => due_of_aborting h hfirst ht hi

theorem prompt_nil (first : IterationIndex) (a : List (Moment σ)) : Prompt first a [] := by
  constructor
  · exact spent_nil.brief
  · exact fun step _ => rfl
  · intro i m n h
    simp [actions] at h
  · intro i h
    cases h

/-- Every step that ends on a journey after the flag is up aborts the run. -/
theorem aborting_of_flagUp (h : Session.Journey .opening s l u) (hl : l ++ c = a ++ rest)
    (hc : actions c = []) (hflag : FlagUp s.world.coordinator a rest) :
    Aborting (actions rest) := by
  intro step p hp
  obtain ⟨m, hm, hx⟩ := List.mem_filterMap.mp hp
  cases m with
  | ended s' result q =>
      cases hx
      obtain ⟨x, y, rfl⟩ := List.append_of_mem hm
      have hup : s.world.coordinator.flag = true ∨ .raised ∈ a ++ x := by
        cases hflag with
        | before hup => exact .inl hup
        | within hraised => exact .inr (List.mem_append_left x hraised)
        | next hsplit hg =>
            right
            rcases split_append hsplit with ⟨z, rfl⟩ | ⟨z, rfl, hz⟩
            · simp
            · cases z with
              | nil => cases (List.cons_eq_cons.mp hz).1
              | cons e z =>
                  obtain ⟨rfl, -⟩ := List.cons_eq_cons.mp hz
                  exact absurd (List.mem_append_right x List.mem_cons_self) (hg step result p)
      rw [← List.append_assoc] at hl
      rcases split_append hl with ⟨z, hz⟩ | ⟨z, -, hz⟩
      · exact Session.aborted_of_flag h hz hup
      · have hended : .ended step result p ∈ c := hz ▸ List.mem_append_right z List.mem_cons_self
        have hfinish : .finish step p ∈ actions c := mem_actions hended rfl
        rw [hc] at hfinish
        cases hfinish
  | _ => cases hx

/-- Once the flag is up a run comes to its end at once. At whatever moment of its history that is,
and whoever requests the shutdown: at most one more step begins, and none if one is under way, but
for the round after a mobsim that is owed. -/
theorem prompt_abort (s : Session σ) (h : runHistory s = a ++ rest)
    (hflag : FlagUp s.world.coordinator a rest) :
    Prompt s.controller.context.configuration.controller.firstIteration a rest := by
  by_cases hidle : s.controller.stage = .idle
  · obtain ⟨account⟩ := account s hidle
    have hhistory : runHistory s =
        account.before ++ (account.found.claimMoments ++ account.after) := by
      rw [runHistory, past_account account, List.drop_left]
    have hclosing : actions (account.found.claimMoments ++ account.after) = [] := by
      rw [← actions_milestones, milestones_append, milestones_claim, account.farewell]
      cases account.unexpected <;> rfl
    obtain ⟨next, hnext, hchain⟩ := chain_opening account.course
    rw [actions_milestones] at hnext hchain
    have hall : actions (a ++ rest) = actions account.before := by
      rw [← h, hhistory, actions_append, hclosing, List.append_nil]
    refine prompt_of_aborting ?_ ?_ ?_
    · rw [hall]
      exact hchain
    · rw [hall, hnext]
      rfl
    · exact aborting_of_flagUp account.opening (hhistory.symm.trans h) hclosing hflag
  · have hnothing : a ++ rest = [] := by
      rw [← h, runHistory, run_of_not_idle hidle]
      exact List.drop_length
    obtain ⟨rfl, rfl⟩ := List.append_eq_nil_iff.mp hnothing
    exact prompt_nil _ _

end Runs

/-! ## An interrupt before a mobsim -/

/-- A listener that interrupts the run before the mobsim. -/
def interrupting : Listener Unit where
  name := "interrupting"
  notify
    | .beforeMobsim _ => Program.doing .interrupt
    | _ => return

/-- A session with that listener. -/
def interrupted : Session Unit where
  controller :=
    { context :=
        { configuration := { controller :=
            { outputDirectory := "out", iterationDirectories := false, capturePanics := false } }
          output := { root := "out" } }
      simulation := { mobsim := fun _ _ => return }
      bus := { user := [interrupting] }
      seeding := { base := 4711 } }
  world := { memory := (), files := { entries := [(["out"], .directory)] } }

/-- Whether a shutdown is requested for the first time. -/
def raises : Moment σ → Bool
  | .raised => true
  | _ => false

theorem mem_of_raises {l : List (Moment σ)} (h : l.any raises = true) : .raised ∈ l := by
  obtain ⟨m, hm, hraises⟩ := List.any_eq_true.mp h
  cases m with
  | raised => exact hm
  | _ => cases hraises

/-- The flag goes up in the round before the mobsim. Nothing is left to do but the round after it,
and the mobsim is not called. -/
theorem prompt_abort_interrupted :
    ∃ a rest, runHistory interrupted = a ++ rest ∧
      FlagUp interrupted.world.coordinator a rest ∧ Prompt 0 a rest ∧
        actions rest =
          [.finish (.phase .beforeMobsim 0) .aborted, .begin (.phase .afterMobsim 0),
            .finish (.phase .afterMobsim 0) .aborted] := by
  have hsplit : runHistory interrupted =
      (runHistory interrupted).take 29 ++ (runHistory interrupted).drop 29 :=
    (List.take_append_drop 29 _).symm
  have hup : FlagUp interrupted.world.coordinator ((runHistory interrupted).take 29)
      ((runHistory interrupted).drop 29) :=
    .within (mem_of_raises (by decide +kernel))
  have hrest : actions ((runHistory interrupted).drop 29) =
      [.finish (.phase .beforeMobsim 0) .aborted, .begin (.phase .afterMobsim 0),
        .finish (.phase .afterMobsim 0) .aborted] := by
    decide +kernel
  exact ⟨_, _, hsplit, hup, prompt_abort interrupted hsplit hup, hrest⟩

end Controller

end CommuteSim
