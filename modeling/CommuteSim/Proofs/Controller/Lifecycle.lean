import CommuteSim.Proofs.Controller.Account

/-!
# The lifecycle of a run

What listeners and the simulation see of a run are marks: the rounds in which listeners are told of
an event, and the calls of the mobsim. The marks of a run follow a grammar: a startup, the blocks of
the iterations one after the other, each complete but the last, and a shutdown.

One round can be missing from a block. Where the teardown was claimed by someone else before, a
failure no longer requests a shutdown, so an iteration goes on even if its directory cannot be made,
and then nobody is told that it starts.

Main statement: `lifecycle`, over all sessions, so whatever the simulation, the listeners, the
criterion and the other threads do.
-/

namespace CommuteSim

variable {σ α β : Type}

/-! ## Marks -/

/-- What listeners or the simulation see. -/
inductive Mark where
  | round (event : Event)
  | mobsim (iteration : IterationIndex)
  deriving DecidableEq, Repr

/-- The mark that a moment is. -/
def Moment.mark? : Moment σ → Option Mark
  | .round e => some (.round e)
  | .mobsim i _ => some (.mobsim i)
  | _ => none

/-- The marks in a history. -/
def marks (l : List (Moment σ)) : List Mark := l.filterMap Moment.mark?

@[simp] theorem marks_append (l m : List (Moment σ)) : marks (l ++ m) = marks l ++ marks m :=
  List.filterMap_append ..

/-- How a step ended, if a moment tells. -/
def Moment.outcome? : Moment σ → Option (Step × Progress)
  | .ended step _ progress => some (step, progress)
  | _ => none

/-- The steps in a history, each with whether the run went on after it. -/
def outcomes (l : List (Moment σ)) : List (Step × Progress) := l.filterMap Moment.outcome?

@[simp] theorem outcomes_append (l m : List (Moment σ)) :
    outcomes (l ++ m) = outcomes l ++ outcomes m :=
  List.filterMap_append ..

/-! ## The grammar -/

/-- The moment at which an iteration goes on though its directory could not be made. -/
def unannounced (i : IterationIndex) (c : Cause) : Moment σ :=
  .ended (.phase .iterationStart i) (.error (.failure (.phase .iterationStart i c))) .proceed

/-- The marks of an iteration before the rounds around the mobsim. -/
def leading (first i : IterationIndex) : List Mark :=
  .round (.iterationStart i) :: if first < i then [.round (.replanning i)] else []

/-- The marks of the mobsim and of the rounds around it. -/
def around (i : IterationIndex) : List Mark :=
  [.round (.beforeMobsim i), .mobsim i, .round (.afterMobsim i)]

/-- The marks of an iteration after that. -/
def trailing (i : IterationIndex) : List Mark :=
  [.round (.scoring i), .round (.iterationEnd i)]

/-- A history shows the marks of an iteration, but for the first if it goes on without it. -/
def Shows (i : IterationIndex) (l : List (Moment σ)) (ms : List Mark) : Prop :=
  marks l = ms ∨ (∃ c, unannounced i c ∈ l) ∧ marks l = ms.tail

/-- The block of an iteration in which no step aborted. -/
structure Complete (first i : IterationIndex) (l : List (Moment σ)) : Prop where
  shows : Shows i l (leading first i ++ around i ++ trailing i)
  unaborted : ∀ step, (step, .aborted) ∉ outcomes l

/-- What the block of an iteration shows in which a step aborted. -/
inductive CutOff (first i : IterationIndex) (l : List (Moment σ)) : Prop where
  /-- The abort comes before the rounds around the mobsim. -/
  | early {ms : List Mark} (h : Shows i l ms) (hms : ms <+: leading first i) : CutOff first i l
  /-- The round before the mobsim aborts: there is no mobsim, but the round after it. -/
  | unsimulated
      (h : Shows i l (leading first i ++ [.round (.beforeMobsim i), .round (.afterMobsim i)]))
      (hbefore : (.phase .beforeMobsim i, .aborted) ∈ outcomes l) : CutOff first i l
  /-- The abort comes later. What is behind the rounds around the mobsim is there only if neither
  the round before it nor the mobsim aborted. -/
  | simulated {ms : List Mark} (h : Shows i l (leading first i ++ around i ++ ms))
      (hms : ms <+: trailing i)
      (hlate : ms ≠ [] → (.phase .beforeMobsim i, .aborted) ∉ outcomes l ∧
        (.phase .mobsim i, .aborted) ∉ outcomes l) : CutOff first i l

/-- The blocks from an iteration on: complete ones for consecutive iterations, up to the largest
index at most, and one that is cut off at most, which is the last. -/
inductive Blocks (first : IterationIndex) : IterationIndex → List (Moment σ) → Prop where
  | none {i : IterationIndex} {l : List (Moment σ)} (h : marks l = []) : Blocks first i l
  | cut {i : IterationIndex} {l : List (Moment σ)} (h : CutOff first i l)
      (haborted : ∃ step, (step, .aborted) ∈ outcomes l) : Blocks first i l
  | last {i : IterationIndex} {l : List (Moment σ)} (h : Complete first i l)
      (hi : i.next? = Option.none) : Blocks first i l
  | more {i j : IterationIndex} {l m : List (Moment σ)} (h : Complete first i l)
      (hj : i.next? = some j) (hm : Blocks first j m) : Blocks first i (l ++ m)

/-- The lifecycle of a run whose first iteration is `first`. -/
inductive Lifecycle (first : IterationIndex) (l : List (Moment σ)) : Prop where
  | parts {start blocks shutdown : List (Moment σ)} (h : l = start ++ blocks ++ shutdown)
      (hstart : marks start = [] ∨ marks start = [.round .startup])
      (hblocks : Blocks first first blocks)
      (hpassed : marks blocks ≠ [] → marks start = [.round .startup] ∧
        (.startup, .proceed) ∈ outcomes start ∧ (.prepare, .proceed) ∈ outcomes start)
      (hshutdown : ∃ unexpected, marks shutdown = [.round (.shutdown unexpected)]) :
      Lifecycle first l

namespace Controller

/-! ## Steps -/

theorem marks_step {step : Step} {R : Outcome Fault Unit → List (Moment σ) → Prop} {p : Progress}
    {l : List (Moment σ)} (h : stepCourse step R p l) :
    ∃ result inner, R result inner ∧ marks l = marks inner ∧
      outcomes l = outcomes inner ++ [(step, p)] ∧ .ended step result p ∈ l := by
  obtain ⟨result, inner, hR, rfl⟩ := h
  refine ⟨result, inner, hR, ?_, ?_, by simp⟩
  · change marks (inner ++ [.ended step result p]) = marks inner
    rw [marks_append]
    exact List.append_nil _
  · change outcomes (inner ++ [.ended step result p]) = outcomes inner ++ [(step, p)]
    rw [outcomes_append]
    rfl

theorem marks_round {p : Phase} {i : IterationIndex} {q : Progress} {l : List (Moment σ)}
    (h : roundCourse p i q l) :
    marks l = (p.event? i).toList.map .round ∧ outcomes l = [(.phase p i, q)] := by
  obtain ⟨result, inner, rfl, hmarks, houtcomes, -⟩ := marks_step h
  rw [hmarks, houtcomes]
  cases p.event? i with
  | none => exact ⟨rfl, rfl⟩
  | some e => exact ⟨rfl, rfl⟩

theorem marks_mobsim {i : IterationIndex} {q : Progress} {l : List (Moment σ)}
    (h : stepCourse (.phase .mobsim i) (Simulates i) q l) :
    marks l = [.mobsim i] ∧ outcomes l = [(.phase .mobsim i, q)] := by
  obtain ⟨result, inner, ⟨g, rfl⟩, hmarks, houtcomes, -⟩ := marks_step h
  rw [hmarks, houtcomes]
  exact ⟨rfl, rfl⟩

theorem shows_begin {i : IterationIndex} {l : List (Moment σ)}
    (h : stepCourse (.phase .iterationStart i) (Begins i) .proceed l) :
    Shows i l [.round (.iterationStart i)] := by
  obtain ⟨result, inner, hbegins, hmarks, -, hended⟩ := marks_step h
  rcases hbegins with rfl | ⟨rfl, c, rfl⟩
  · exact .inl hmarks
  · exact .inr ⟨⟨c, hended⟩, hmarks⟩

/-- The step that begins an iteration tells listeners if it tells anyone. -/
theorem shows_begin_prefix {i : IterationIndex} {p : Progress} {l : List (Moment σ)}
    (h : stepCourse (.phase .iterationStart i) (Begins i) p l) :
    marks l = [] ∨ marks l = [.round (.iterationStart i)] := by
  obtain ⟨result, inner, hbegins, hmarks, -, -⟩ := marks_step h
  rcases hbegins with rfl | ⟨rfl, -⟩
  · exact .inr hmarks
  · exact .inl hmarks

theorem outcomes_begin {i : IterationIndex} {p : Progress} {l : List (Moment σ)}
    (h : stepCourse (.phase .iterationStart i) (Begins i) p l) :
    outcomes l = [(.phase .iterationStart i, p)] := by
  obtain ⟨result, inner, hbegins, -, houtcomes, -⟩ := marks_step h
  rw [houtcomes]
  rcases hbegins with rfl | ⟨rfl, -⟩ <;> rfl

/-- More of a block is shown by more of a history. -/
theorem shows_append {i : IterationIndex} {l m : List (Moment σ)} {e : Mark} {ms ns : List Mark}
    (h : Shows i l (e :: ms)) (hm : marks m = ns) : Shows i (l ++ m) (e :: ms ++ ns) := by
  rcases h with h | ⟨⟨c, hc⟩, h⟩
  · exact .inl (by rw [marks_append, h, hm])
  · refine .inr ⟨⟨c, List.mem_append_left m hc⟩, ?_⟩
    rw [marks_append, h, hm]
    rfl

/-! ## Aborts -/

theorem andThen_proceed {A B : Course σ} {l : List (Moment σ)} (h : A.andThen B .proceed l) :
    ∃ m n, A .proceed m ∧ B .proceed n ∧ l = m ++ n := by
  rcases h with ⟨h, -⟩ | h
  · cases h
  · exact h

theorem andThen_aborted {A B : Course σ} {l : List (Moment σ)} (h : A.andThen B .aborted l) :
    A .aborted l ∨ ∃ m n, A .proceed m ∧ B .aborted n ∧ l = m ++ n := by
  rcases h with ⟨-, h⟩ | h
  · exact .inl h
  · exact .inr h

/-- A course that leaves an aborted step behind where the run does not go on. -/
def Traces (A : Course σ) : Prop :=
  ∀ l, A .aborted l → ∃ step, (step, .aborted) ∈ outcomes l

theorem traces_step (step : Step) (R : Outcome Fault Unit → List (Moment σ) → Prop) :
    Traces (stepCourse step R) := by
  intro l h
  obtain ⟨result, inner, -, -, houtcomes, -⟩ := marks_step h
  exact ⟨step, houtcomes ▸ List.mem_append_right _ List.mem_cons_self⟩

theorem traces_pass : Traces (σ := σ) Course.pass :=
  fun _ h => nomatch h.1

theorem traces_andThen {A B : Course σ} (hA : Traces A) (hB : Traces B) :
    Traces (A.andThen B) := by
  intro l h
  rcases andThen_aborted h with h | ⟨m, n, -, hn, rfl⟩
  · exact hA l h
  · obtain ⟨step, hstep⟩ := hB n hn
    exact ⟨step, outcomes_append m n ▸ List.mem_append_right _ hstep⟩

theorem traces_mobsim (i : IterationIndex) : Traces (σ := σ) (MobsimCourse i) := by
  intro l h
  cases h with
  | through before mobsim after =>
      refine ⟨.phase .afterMobsim i, ?_⟩
      rw [outcomes_append, (marks_round after).2]
      exact List.mem_append_right _ List.mem_cons_self
  | mobsimAborted before mobsim after =>
      refine ⟨.phase .mobsim i, ?_⟩
      rw [outcomes_append, outcomes_append, (marks_mobsim mobsim).2]
      exact List.mem_append_left _ (List.mem_append_right _ List.mem_cons_self)
  | beforeAborted before after =>
      refine ⟨.phase .beforeMobsim i, ?_⟩
      rw [outcomes_append, (marks_round before).2]
      exact List.mem_append_left _ List.mem_cons_self

/-- Where an iteration aborts, one of its steps did. -/
theorem traces_phases (first i : IterationIndex) : Traces (σ := σ) (phasesCourse first i) := by
  refine traces_andThen (traces_step _ _) (traces_andThen ?_ (traces_andThen (traces_mobsim i)
    (traces_andThen (traces_step _ _) (traces_step _ _))))
  split
  · exact traces_step _ _
  · exact traces_pass

/-! ## Iterations -/

/-- The replanning of an iteration, which the first iteration goes without. -/
theorem marks_replanning {first i : IterationIndex} {p : Progress} {l : List (Moment σ)}
    (h : (if first < i then roundCourse .replanning i else Course.pass) p l) :
    marks l = (if first < i then [.round (.replanning i)] else []) ∧
      outcomes l = if first < i then [(.phase .replanning i, p)] else [] := by
  split at h
  · rename_i hfirst
    rw [if_pos hfirst, if_pos hfirst]
    exact marks_round h
  · rename_i hfirst
    rw [if_neg hfirst, if_neg hfirst, h.2]
    exact ⟨rfl, rfl⟩

theorem marks_around {i : IterationIndex} {l : List (Moment σ)} (h : MobsimCourse i .proceed l) :
    marks l = around i ∧ outcomes l =
      [(.phase .beforeMobsim i, .proceed), (.phase .mobsim i, .proceed),
        (.phase .afterMobsim i, .proceed)] := by
  cases h with
  | through before mobsim after =>
      rw [marks_append, marks_append, outcomes_append, outcomes_append, (marks_round before).1,
        (marks_mobsim mobsim).1, (marks_round after).1, (marks_round before).2,
        (marks_mobsim mobsim).2, (marks_round after).2]
      exact ⟨rfl, rfl⟩

/-- Where the rounds around the mobsim end with an abort, nothing of them is left out but the
mobsim, and that only if the round before it aborted. -/
theorem marks_around_aborted {i : IterationIndex} {l : List (Moment σ)}
    (h : MobsimCourse i .aborted l) :
    marks l = around i ∨ marks l = [.round (.beforeMobsim i), .round (.afterMobsim i)] ∧
      (.phase .beforeMobsim i, .aborted) ∈ outcomes l := by
  cases h with
  | through before mobsim after =>
      refine .inl ?_
      rw [marks_append, marks_append, (marks_round before).1, (marks_mobsim mobsim).1,
        (marks_round after).1]
      rfl
  | mobsimAborted before mobsim after =>
      refine .inl ?_
      rw [marks_append, marks_append, (marks_round before).1, (marks_mobsim mobsim).1,
        (marks_round after).1]
      rfl
  | beforeAborted before after =>
      refine .inr ⟨?_, ?_⟩
      · rw [marks_append, (marks_round before).1, (marks_round after).1]
        rfl
      · rw [outcomes_append, (marks_round before).2]
        exact List.mem_append_left _ List.mem_cons_self

/-- What leads to the rounds around the mobsim shows what comes before them. -/
theorem shows_leading {first i : IterationIndex} {p : Progress} {l m : List (Moment σ)}
    (hl : stepCourse (.phase .iterationStart i) (Begins i) .proceed l)
    (hm : (if first < i then roundCourse .replanning i else Course.pass) p m) :
    Shows i (l ++ m) (leading first i) :=
  shows_append (shows_begin hl) (marks_replanning hm).1

theorem shows_of_leading {first i : IterationIndex} {l m : List (Moment σ)} {ms : List Mark}
    (h : Shows i l (leading first i)) (hm : marks m = ms) :
    Shows i (l ++ m) (leading first i ++ ms) :=
  shows_append h hm

/-- Up to the rounds around the mobsim and with them, nothing aborted if the run went on. -/
theorem aborted_in_rest {first i : IterationIndex} {l m n rest : List (Moment σ)}
    (hl : stepCourse (.phase .iterationStart i) (Begins i) .proceed l)
    (hm : (if first < i then roundCourse .replanning i else Course.pass) .proceed m)
    (hn : MobsimCourse i .proceed n) {step : Step}
    (h : (step, .aborted) ∈ outcomes (l ++ (m ++ (n ++ rest)))) :
    (step, .aborted) ∈ outcomes rest := by
  rw [outcomes_append, outcomes_append, outcomes_append, outcomes_begin hl,
    (marks_replanning hm).2, (marks_around hn).2] at h
  split at h <;> simpa using h

/-- What comes behind the rounds around the mobsim is shown behind them. -/
theorem shows_behind {first i : IterationIndex} {l m n rest : List (Moment σ)} {ms : List Mark}
    (hl : stepCourse (.phase .iterationStart i) (Begins i) .proceed l)
    (hm : (if first < i then roundCourse .replanning i else Course.pass) .proceed m)
    (hn : MobsimCourse i .proceed n) (h : marks rest = ms) :
    Shows i (l ++ (m ++ (n ++ rest))) (leading first i ++ around i ++ ms) := by
  have hmarks : marks (n ++ rest) = around i ++ ms := by rw [marks_append, (marks_around hn).1, h]
  have hshows := shows_of_leading (shows_leading hl hm) hmarks
  rwa [List.append_assoc, ← List.append_assoc (leading first i)] at hshows

/-- An iteration in which no step aborted is complete. -/
theorem complete_phases {first i : IterationIndex} {l : List (Moment σ)}
    (h : phasesCourse first i .proceed l) : Complete first i l := by
  obtain ⟨l₀, _, h₀, hrest₀, rfl⟩ := andThen_proceed h
  obtain ⟨l₁, _, h₁, hrest₁, rfl⟩ := andThen_proceed hrest₀
  obtain ⟨l₂, _, h₂, hrest₂, rfl⟩ := andThen_proceed hrest₁
  obtain ⟨l₃, l₄, h₃, h₄, rfl⟩ := andThen_proceed hrest₂
  refine ⟨?_, fun step hstep => ?_⟩
  · refine shows_behind h₀ h₁ h₂ ?_
    rw [marks_append, (marks_round h₃).1, (marks_round h₄).1]
    rfl
  · have hlast := aborted_in_rest h₀ h₁ h₂ hstep
    rw [outcomes_append, (marks_round h₃).2, (marks_round h₄).2] at hlast
    simp at hlast

/-- Where only a scoring or the end of an iteration aborted, neither its mobsim nor the round before
that did. -/
theorem not_aborted_before {i : IterationIndex} {l : List (Moment σ)}
    (h : ∀ step, (step, .aborted) ∈ outcomes l →
      step = .phase .scoring i ∨ step = .phase .iterationEnd i) :
    (.phase .beforeMobsim i, .aborted) ∉ outcomes l ∧
      (.phase .mobsim i, .aborted) ∉ outcomes l := by
  refine ⟨fun hmem => ?_, fun hmem => ?_⟩
  · simpa using h _ hmem
  · simpa using h _ hmem

/-- An iteration that a step aborted is cut off. -/
theorem cutOff_phases {first i : IterationIndex} {l : List (Moment σ)}
    (h : phasesCourse first i .aborted l) : CutOff first i l := by
  rcases andThen_aborted h with h | ⟨l₀, _, h₀, hrest₀, rfl⟩
  · rcases shows_begin_prefix h with h | h
    · exact .early (.inl h) List.nil_prefix
    · exact .early (.inl h) ⟨_, rfl⟩
  rcases andThen_aborted hrest₀ with h | ⟨l₁, _, h₁, hrest₁, rfl⟩
  · exact .early (shows_leading h₀ h) (List.prefix_refl _)
  rcases andThen_aborted hrest₁ with h | ⟨l₂, _, h₂, hrest₂, rfl⟩
  · rw [← List.append_assoc]
    rcases marks_around_aborted h with h | ⟨h, hbefore⟩
    · have hshows := shows_of_leading (shows_leading h₀ h₁) h
      rw [← List.append_nil (leading first i ++ around i)] at hshows
      exact .simulated hshows List.nil_prefix fun h => absurd rfl h
    · refine .unsimulated (shows_of_leading (shows_leading h₀ h₁) h) ?_
      rw [outcomes_append]
      exact List.mem_append_right _ hbefore
  -- from here on the rounds around the mobsim went through, so an abort is behind them
  rcases andThen_aborted hrest₂ with h | ⟨l₃, l₄, h₃, h₄, rfl⟩
  · refine .simulated (shows_behind h₀ h₁ h₂ (marks_round h).1) ⟨_, rfl⟩ fun _ =>
      not_aborted_before fun step hstep => ?_
    have hlast := aborted_in_rest h₀ h₁ h₂ hstep
    rw [(marks_round h).2, List.mem_singleton] at hlast
    exact .inl (congrArg Prod.fst hlast)
  · have hmarks : marks (l₃ ++ l₄) = trailing i := by
      rw [marks_append, (marks_round h₃).1, (marks_round h₄).1]
      rfl
    refine .simulated (shows_behind h₀ h₁ h₂ hmarks) (List.prefix_refl _) fun _ =>
      not_aborted_before fun step hstep => ?_
    have hlast := aborted_in_rest h₀ h₁ h₂ hstep
    rw [outcomes_append, (marks_round h₃).2, (marks_round h₄).2] at hlast
    rcases List.mem_cons.mp hlast with hlast | hlast
    · exact .inl (congrArg Prod.fst hlast)
    · exact .inr (congrArg Prod.fst (List.mem_singleton.mp hlast))

/-! ## The loop -/

theorem Shows.of_more {i : IterationIndex} {l m : List (Moment σ)} {ms : List Mark}
    (h : Shows i l ms) (hmarks : marks m = marks l) (hmem : ∀ e ∈ l, e ∈ m) : Shows i m ms := by
  rcases h with h | ⟨⟨c, hc⟩, h⟩
  · exact .inl (hmarks.trans h)
  · exact .inr ⟨⟨c, hmem _ hc⟩, hmarks.trans h⟩

theorem CutOff.of_more {first i : IterationIndex} {l m : List (Moment σ)} (h : CutOff first i l)
    (hmarks : marks m = marks l) (houtcomes : outcomes m = outcomes l) (hmem : ∀ e ∈ l, e ∈ m) :
    CutOff first i m := by
  cases h with
  | early h hms => exact .early (Shows.of_more h hmarks hmem) hms
  | unsimulated h hbefore =>
      exact .unsimulated (Shows.of_more h hmarks hmem) (houtcomes ▸ hbefore)
  | simulated h hms hlate =>
      refine .simulated (Shows.of_more h hmarks hmem) hms ?_
      rw [houtcomes]
      exact hlate

/-- The question comes before the block of an iteration and leaves no mark. -/
theorem mem_after_question {i : IterationIndex} {l : List (Moment σ)} :
    ∀ e ∈ l, e ∈ .asked i :: .answered i (.ok true) :: l :=
  fun _ he => List.mem_cons_of_mem _ (List.mem_cons_of_mem _ he)

theorem complete_iteration {first i : IterationIndex} {l : List (Moment σ)}
    (h : IterationCourse first i .proceed l) :
    Complete first i (.asked i :: .answered i (.ok true) :: l) := by
  cases h with
  | @completed l h ledger =>
      obtain ⟨hshows, hunaborted⟩ := complete_phases h
      have hreported : Shows i (l ++ [.reported ledger]) _ :=
        Shows.of_more hshows ((marks_append _ _).trans (List.append_nil _))
          fun _ he => List.mem_append_left _ he
      have houtcomes : outcomes (l ++ [.reported ledger]) = outcomes l :=
        (outcomes_append _ _).trans (List.append_nil _)
      refine ⟨Shows.of_more hreported rfl mem_after_question, fun step hstep => ?_⟩
      exact hunaborted step (houtcomes ▸ hstep)

theorem cutOff_iteration {first i : IterationIndex} {l : List (Moment σ)}
    (h : IterationCourse first i .aborted l) :
    Blocks first i (.asked i :: .answered i (.ok true) :: l) := by
  cases h with
  | cut h =>
      have haborted := traces_phases first i l h
      exact .cut (CutOff.of_more (cutOff_phases h) rfl rfl mem_after_question) haborted

/-- The loop runs block after block, by induction on its course. -/
theorem blocks_loop {first i : IterationIndex} {l : List (Moment σ)}
    (h : LoopCourse first i l) : Blocks first i l := by
  induction h with
  | unasked i => exact .none rfl
  | declined h => exact .none rfl
  | @last i p l h hp =>
      cases p with
      | proceed => exact .last (complete_iteration h) (hp rfl)
      | aborted => exact cutOff_iteration h
  | more h hj _ ih => exact .more (complete_iteration h) hj ih

/-! ## The whole run -/

theorem marks_quiet_step {step : Step} {p : Progress} {l : List (Moment σ)}
    (h : stepCourse step Quietly p l) : marks l = [] ∧ outcomes l = [(step, p)] := by
  obtain ⟨result, inner, hquiet, hmarks, houtcomes, -⟩ := marks_step h
  rw [hmarks, houtcomes, show inner = [] from hquiet]
  exact ⟨rfl, rfl⟩

theorem marks_startup_step {p : Progress} {l : List (Moment σ)}
    (h : stepCourse .startup (Announces .startup) p l) :
    marks l = [.round .startup] ∧ outcomes l = [(.startup, p)] := by
  obtain ⟨result, inner, hround, hmarks, houtcomes, -⟩ := marks_step h
  rw [hmarks, houtcomes, show inner = [.round .startup] from hround]
  exact ⟨rfl, rfl⟩

theorem marks_startUp {l : List (Moment σ)} (h : startUpCourse .proceed l) :
    marks l = [.round .startup] ∧
      (.startup, .proceed) ∈ outcomes l ∧ (.prepare, .proceed) ∈ outcomes l := by
  obtain ⟨l₀, _, h₀, hrest₀, rfl⟩ := andThen_proceed h
  obtain ⟨l₁, _, h₁, hrest₁, rfl⟩ := andThen_proceed hrest₀
  obtain ⟨l₂, l₃, h₂, h₃, rfl⟩ := andThen_proceed hrest₁
  have houtcomes : outcomes (l₀ ++ (l₁ ++ (l₂ ++ l₃))) =
      [(.load, .proceed), (.startup, .proceed), (.check, .proceed), (.prepare, .proceed)] := by
    rw [outcomes_append, outcomes_append, outcomes_append, (marks_quiet_step h₀).2,
      (marks_startup_step h₁).2, (marks_quiet_step h₂).2, (marks_quiet_step h₃).2]
    rfl
  refine ⟨?_, by simp [houtcomes], by simp [houtcomes]⟩
  rw [marks_append, marks_append, marks_append, (marks_quiet_step h₀).1, (marks_startup_step h₁).1,
    (marks_quiet_step h₂).1, (marks_quiet_step h₃).1]
  rfl

theorem marks_startUp_aborted {l : List (Moment σ)} (h : startUpCourse .aborted l) :
    marks l = [] ∨ marks l = [.round .startup] := by
  rcases andThen_aborted h with h | ⟨l₀, _, h₀, hrest₀, rfl⟩
  · exact .inl (marks_quiet_step h).1
  rw [marks_append, (marks_quiet_step h₀).1, List.nil_append]
  rcases andThen_aborted hrest₀ with h | ⟨l₁, _, h₁, hrest₁, rfl⟩
  · exact .inr (marks_startup_step h).1
  rw [marks_append, (marks_startup_step h₁).1]
  rcases andThen_aborted hrest₁ with h | ⟨l₂, l₃, h₂, h₃, rfl⟩
  · rw [(marks_quiet_step h).1]
    exact .inr rfl
  · rw [marks_append, (marks_quiet_step h₂).1, (marks_quiet_step h₃).1]
    exact .inr rfl

theorem marks_closing (found : Coordinator) (unexpected : Bool) :
    marks (.claimed found :: closingMilestones (σ := σ) unexpected) =
      [.round (.shutdown unexpected)] := by
  cases unexpected <;> rfl

/-- Up to the claim, and from it on. -/
theorem lifecycle_course {first : IterationIndex} {l : List (Moment σ)} (h : OpeningCourse first l)
    (found : Coordinator) (unexpected : Bool) :
    Lifecycle first (l ++ .claimed found :: closingMilestones unexpected) := by
  have hshutdown : ∃ u, marks (.claimed found :: closingMilestones (σ := σ) unexpected) =
      [.round (.shutdown u)] := ⟨unexpected, marks_closing found unexpected⟩
  cases h with
  | cut h =>
      have hparts : l ++ .claimed found :: closingMilestones unexpected =
          l ++ [] ++ .claimed found :: closingMilestones unexpected := by
        rw [List.append_nil]
      exact .parts hparts (marks_startUp_aborted h) (.none rfl) (fun h => absurd rfl h) hshutdown
  | iterated h h' =>
      exact .parts rfl (.inr (marks_startUp h).1) (blocks_loop h') (fun _ => marks_startUp h)
        hshutdown

/-- Work after which the controller is in the last stage of its life. -/
def Terminates (work : Driven σ α) : Prop :=
  ∀ s, (work s).2.controller.stage = .terminated

theorem terminates_bind {work : Driven σ α} {next : α → Driven σ β}
    (h : ∀ a, Terminates (next a)) : Terminates (work >>= next) :=
  fun _ => h _ _

theorem terminates_enter {last : StateM (World σ) Unit} {r : α} :
    Terminates (do enter .terminated; onWorld last; return r) :=
  fun _ => rfl

theorem terminates_then {work : Driven σ α} {last : StateM (World σ) Unit} (h : Terminates work) :
    Terminates (do let r ← work; onWorld last; return r) :=
  h

theorem terminates_runToRelease : Terminates (σ := σ) runToRelease :=
  terminates_bind fun _ => terminates_bind fun _ => terminates_enter

theorem terminates_runOnce (watching : Bool) : Terminates (σ := σ) (runOnce watching) := by
  refine terminates_bind fun _ => ?_
  cases watching with
  | true => exact terminates_bind fun _ => terminates_then terminates_runToRelease
  | false => exact terminates_runToRelease

theorem stage_run {s : Session σ} (h : s.controller.stage = .idle) :
    (run s).2.controller.stage = .terminated := by
  rw [run_of_idle h]
  exact terminates_runOnce _ s

/-- Nothing of an iteration comes after the claim. -/
theorem not_unannounced_closing {i : IterationIndex} {c : Cause} {found : Session σ}
    {l : List (Moment σ)} {unexpected : Bool} (hl : milestones l = closingMilestones unexpected) :
    unannounced i c ∉ found.claimMoments ++ l := by
  intro h
  have hmile := (mem_milestones (m := unannounced i c) rfl).mpr h
  rw [milestones_append, milestones_claim, hl] at hmile
  cases unexpected <;> simp [closingMilestones, unannounced] at hmile

/-- The rounds and the calls of the mobsim in a run follow the grammar of a lifecycle. An iteration
goes on without the round that starts it only where someone else claimed the teardown before. A
controller that has run does nothing in a second run. -/
theorem lifecycle (s : Session σ) (h : s.controller.stage = .idle) :
    ∃ l, (run s).2.world.past = s.world.past ++ l ∧
      Lifecycle s.controller.context.configuration.controller.firstIteration (milestones l) ∧
      (∀ i c a b, l = a ++ unannounced i c :: b →
        s.world.coordinator.teardown = true ∨ .acted .claimTeardown ∈ a) ∧
      ∀ w, run ⟨(run s).2.controller, w⟩ = (.error .alreadyRun, ⟨(run s).2.controller, w⟩) := by
  obtain ⟨a⟩ := account s h
  refine ⟨a.before ++ (a.found.claimMoments ++ a.after), past_account a, ?_, ?_, ?_⟩
  · rw [milestones_append, milestones_append, milestones_claim, a.farewell]
    exact lifecycle_course a.course _ _
  · intro i c x y hsplit
    -- a step can only end before the claim of the controller
    rcases split_append hsplit with ⟨z, hz⟩ | ⟨z, -, hz⟩
    · exact Session.claimed_of_proceed a.opening hz (.inl ⟨_, rfl⟩)
    · exact absurd (hz ▸ List.mem_append_right z List.mem_cons_self)
        (not_unannounced_closing a.farewell)
  · intro w
    refine run_of_not_idle ?_
    change (run s).2.controller.stage ≠ .idle
    rw [stage_run h]
    exact Stage.noConfusion

/-! ## An iteration that nobody is told of -/

/-- A listener that claims the teardown at the startup, and puts a file where the directories of the
iterations would be. -/
def obstructing : Listener Unit where
  name := "obstructing"
  notify
    | .startup => do
      discard (Program.doing .claimTeardown)
      discard (Program.writeText "out/ITERS" "x")
    | _ => return

/-- A session with that listener and one iteration, whose output directory is empty. -/
def obstructed : Session Unit where
  controller :=
    { context :=
        { configuration := { controller :=
            { lastIteration := 0, outputDirectory := "out", createGraphs := false,
              capturePanics := false } }
          output := { root := "out" } }
      simulation := { mobsim := fun _ _ => return }
      bus := { user := [obstructing] }
      seeding := { base := 4711 } }
  world := { memory := (), files := { entries := [(["out"], .directory)] } }

/-- The iteration of that session goes through to its end, and no round starts it. -/
theorem iteration_without_start :
    obstructed.controller.stage = .idle ∧ obstructed.world.past = [] ∧
      marks (run obstructed).2.world.past =
        [.round .startup, .round (.beforeMobsim 0), .mobsim 0, .round (.afterMobsim 0),
          .round (.scoring 0), .round (.iterationEnd 0), .round (.shutdown false)] ∧
      .round (.iterationStart 0) ∉ marks (run obstructed).2.world.past := by
  have hmarks : marks (run obstructed).2.world.past =
      [.round .startup, .round (.beforeMobsim 0), .mobsim 0, .round (.afterMobsim 0),
        .round (.scoring 0), .round (.iterationEnd 0), .round (.shutdown false)] := by
    decide +kernel
  refine ⟨rfl, rfl, hmarks, ?_⟩
  rw [hmarks]
  decide

theorem lifecycle_obstructed :
    obstructed.controller.stage = .idle ∧
      ∃ l, (run obstructed).2.world.past = obstructed.world.past ++ l ∧
        Lifecycle 0 (milestones l) ∧
        (∀ i c a b, l = a ++ unannounced i c :: b →
          obstructed.world.coordinator.teardown = true ∨ .acted .claimTeardown ∈ a) ∧
        ∀ w, run ⟨(run obstructed).2.controller, w⟩ =
          (.error .alreadyRun, ⟨(run obstructed).2.controller, w⟩) :=
  ⟨rfl, lifecycle obstructed rfl⟩

end Controller

end CommuteSim
