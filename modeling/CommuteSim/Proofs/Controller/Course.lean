import CommuteSim.Proofs.Controller.Follows

/-!
# The course of a run

The course of a part of a run says which milestones it can leave in the history, with whether the
run goes on after it. The courses here are those of the source of the work: a step leaves its
beginning, what it does, and its end; steps in a row leave theirs until one aborts; the loop leaves
a question and an iteration again and again.

Main statements: `follows_startUp` for what comes before the first iteration, `follows_phases` for
an iteration, and `follows_iterateFrom` for the loop, by induction on the indices that are left. -/

namespace CommuteSim

variable {σ α : Type}

/-- What a part of a run can leave, with whether the run goes on after it. -/
abbrev Course (σ : Type) := Progress → List (Moment σ) → Prop

namespace Course

/-- The course that leaves nothing and goes on. -/
def pass : Course σ := fun p l => p = .proceed ∧ l = []

/-- One course after another; where the first aborts, the second does not begin. -/
def andThen (A B : Course σ) : Course σ := fun p l =>
  p = .aborted ∧ A .aborted l ∨ ∃ m n, A .proceed m ∧ B p n ∧ l = m ++ n

end Course

namespace Controller

variable {k : Context}

/-! ## Steps -/

/-- The course of a step whose work has the course `R`. -/
def stepCourse (step : Step) (R : Outcome Fault Unit → List (Moment σ) → Prop) : Course σ :=
  fun p l => ∃ result inner, R result inner ∧ l = .began step :: inner ++ [.ended step result p]

theorem follows_attempt {step : Step} {work : Guarded σ Unit}
    {R : Outcome Fault Unit → List (Moment σ) → Prop} (h : Follows .opening k work.run R) :
    Follows .opening k (attempt step work) (stepCourse step R) := by
  refine follows_bind (follows_note rfl) fun _ l hl => ?_
  refine follows_bind h fun result inner hinner => ?_
  refine follows_mono (follows_settle step result) fun p m hm => ⟨result, inner, hinner, ?_⟩
  rw [hl, hm]
  simp

theorem follows_time (f : TimingLedger → Instant → TimingLedger) :
    Follows (σ := σ) .opening k (time f) Quietly :=
  follows_modify (fun _ => rfl) fun _ => rfl

theorem follows_phaseStep {p : Phase} {i : IterationIndex} {work : Guarded σ Unit}
    {R : Outcome Fault Unit → List (Moment σ) → Prop} (h : Follows .opening k work.run R) :
    Follows .opening k (phaseStep p i work) (stepCourse (.phase p i) R) := by
  refine follows_bind_quietly (follows_time _) fun _ => ?_
  refine follows_bind (follows_attempt h) fun outcome l hl => ?_
  refine follows_bind_quietly (follows_time _) fun _ => follows_pure ?_
  rwa [List.append_nil]

/-- Steps in a row: the first that aborts is the last. -/
theorem follows_andThen {first rest : Driven σ Progress} {A B : Course σ}
    (hA : Follows .opening k first A) (hB : Follows .opening k rest B) :
    Follows .opening k
      (do
        if (← first) = .aborted then return .aborted
        rest)
      (A.andThen B) := by
  refine follows_bind hA fun p l hl => ?_
  split
  · rename_i hp
    refine follows_pure (.inl ⟨rfl, ?_⟩)
    rw [List.append_nil, ← hp]
    exact hl
  · rename_i hp
    refine follows_mono hB fun q m hm => .inr ⟨l, m, ?_, hm, rfl⟩
    cases p with
    | proceed => exact hl
    | aborted => exact absurd rfl hp

/-! ## What steps do -/

/-- The course of work that only tells listeners of an event. -/
def Announces (e : Event) (_ : Outcome Fault Unit) (l : List (Moment σ)) : Prop := l = [.round e]

theorem follows_announce {e : Event} (he : (Moment.round (σ := σ) e).plain .opening = true) :
    Follows .opening k (announce (σ := σ) e).run (Announces e) := by
  refine follows_bind (follows_note he) fun _ l hl => follows_get fun s _ => ?_
  refine follows_bind_quietly (follows_onWorld (World.wanders_notify _ e)) fun _ => follows_pure ?_
  rw [List.append_nil]
  exact hl

theorem follows_collaborate (fault : Cause → Fault) (p : Program σ Cause α) :
    Follows .opening k (collaborate fault p).run Quietly :=
  follows_bind_quietly (follows_onWorld (World.wanders_run p)) fun _ => follows_pure rfl

/-! ## Lines -/

/-- A warning tells nothing about how the run ends. -/
theorem warning (message : String) : (⟨.warning, message⟩ : LogLine) ∉ verdictLines := by
  simp [verdictLines, unexpectedLine, endedUnexpectedlyLine, unusableLine, completedLine]

/-- Neither does a piece of information that does not begin like the line about a shutdown. -/
theorem information_of_head {message : String} {c : Char} (h : message.toList.head? = some c)
    (hc : c ≠ 'S') : (⟨.info, message⟩ : LogLine) ∉ verdictLines := by
  intro hmem
  simp only [verdictLines, unexpectedLine, endedUnexpectedlyLine, unusableLine, completedLine,
    List.mem_cons, LogLine.mk.injEq, reduceCtorEq, false_and, false_or, true_and,
    List.not_mem_nil, or_false] at hmem
  rw [hmem] at h
  exact hc (Option.some.inj h).symm

/-! ## Startup -/

/-- The course of all that comes before the first iteration. -/
def startUpCourse : Course σ :=
  (stepCourse .load Quietly).andThen <| (stepCourse .startup (Announces .startup)).andThen <|
    (stepCourse .check Quietly).andThen (stepCourse .prepare Quietly)

theorem follows_loadListeners : Follows (σ := σ) .opening k loadListeners.run Quietly := by
  refine follows_get_run fun s _ => ?_
  refine follows_bind_run_quietly (follows_collaborate _ _) (fun ls => ?_) fun _ => rfl
  exact follows_bind_of_quietly (follows_modify (fun _ => rfl) fun _ => rfl)
    fun _ => follows_collaborate _ _

theorem follows_writeConfiguration :
    Follows (σ := σ) .opening k writeConfiguration.run Quietly := by
  refine follows_get_run fun s _ => ?_
  have hsay : ∀ text : String,
      (⟨.info, "complete configuration:\n" ++ text⟩ : LogLine) ∉ verdictLines := fun text => by
    refine information_of_head (c := 'c') ?_ (by decide)
    rw [String.toList_append]
    rfl
  refine follows_bind_of_quietly (follows_onWorld (World.wanders_say (hsay _))) fun _ => ?_
  refine follows_bind_of_quietly (follows_onWorld (World.wanders_writeText _ _)) fun written => ?_
  cases written with
  | ok _ => exact follows_pure rfl
  | error reason => exact follows_throw rfl

theorem follows_checkConfiguration :
    Follows (σ := σ) .opening k checkConfiguration.run Quietly := by
  refine follows_get_run fun s _ => ?_
  cases s.controller.context.configuration.check with
  | error i => exact follows_throw rfl
  | ok warnings =>
      induction warnings with
      | nil => exact follows_pure rfl
      | cons w rest ih =>
          exact follows_bind_of_quietly (follows_onWorld (World.wanders_say (warning w)))
            fun _ => ih

theorem follows_prepare : Follows (σ := σ) .opening k prepare.run Quietly :=
  follows_get_run fun _ _ => follows_collaborate _ _

theorem follows_startUp : Follows (σ := σ) .opening k startUp startUpCourse := by
  refine follows_bind_quietly (follows_onWorld (World.wanders_say (by decide))) fun _ => ?_
  refine follows_andThen (follows_attempt follows_loadListeners) ?_
  refine follows_bind_quietly (follows_onWorld (World.wanders_say (by decide))) fun _ => ?_
  refine follows_andThen (follows_attempt (follows_announce rfl)) ?_
  refine follows_andThen (follows_attempt ?_) (follows_attempt follows_prepare)
  exact follows_bind_run_quietly follows_writeConfiguration (fun _ => follows_checkConfiguration)
    fun _ => rfl

/-! ## Phases -/

/-- The course of the work that begins an iteration: listeners are told, unless the directory of the
iteration cannot be made. -/
def Begins (i : IterationIndex) (result : Outcome Fault Unit) (l : List (Moment σ)) : Prop :=
  l = [.round (.iterationStart i)] ∨
    l = [] ∧ ∃ c, result = .error (.failure (.phase .iterationStart i c))

/-- The course of the mobsim. -/
def Simulates (i : IterationIndex) (_ : Outcome Fault Unit) (l : List (Moment σ)) : Prop :=
  ∃ g, l = [.mobsim i g]

/-- The course of a phase that only tells listeners. -/
def roundCourse (p : Phase) (i : IterationIndex) : Course σ :=
  stepCourse (.phase p i) fun _ l => l = (p.event? i).toList.map .round

/-- The course of the mobsim with the rounds before and after it. -/
inductive MobsimCourse (i : IterationIndex) : Course σ where
  | through {p : Progress} {l m n : List (Moment σ)}
      (before : roundCourse .beforeMobsim i .proceed l)
      (mobsim : stepCourse (.phase .mobsim i) (Simulates i) .proceed m)
      (after : roundCourse .afterMobsim i p n) : MobsimCourse i p (l ++ m ++ n)
  /-- The mobsim aborts; the round after it is not left out. -/
  | mobsimAborted {p : Progress} {l m n : List (Moment σ)}
      (before : roundCourse .beforeMobsim i .proceed l)
      (mobsim : stepCourse (.phase .mobsim i) (Simulates i) .aborted m)
      (after : roundCourse .afterMobsim i p n) : MobsimCourse i .aborted (l ++ m ++ n)
  /-- The round before the mobsim aborts, so there is no mobsim; the round after it is not left
  out. -/
  | beforeAborted {p : Progress} {l n : List (Moment σ)}
      (before : roundCourse .beforeMobsim i .aborted l)
      (after : roundCourse .afterMobsim i p n) : MobsimCourse i .aborted (l ++ n)

/-- The course of the phases of an iteration of a run that begins with the iteration `first`. -/
def phasesCourse (first i : IterationIndex) : Course σ :=
  (stepCourse (.phase .iterationStart i) (Begins i)).andThen <|
    (if first < i then roundCourse .replanning i else Course.pass).andThen <|
      (MobsimCourse i).andThen <|
        (roundCourse .scoring i).andThen (roundCourse .iterationEnd i)

theorem follows_makeDirectory (i : IterationIndex) :
    Follows (σ := σ) .opening k (makeDirectory i).run fun result l =>
      l = [] ∧ ∀ a, result = .error a → ∃ c, a = .failure (.phase .iterationStart i c) := by
  refine follows_get_run fun s _ => ?_
  by_cases hdirs : s.controller.context.configuration.controller.iterationDirectories = true
  · have hmake := World.wanders_onFiles (σ := σ)
      (FileWork.quiet_createIteration s.controller.context.output i)
    rw [if_pos hdirs]
    refine follows_bind_of_quietly (follows_onWorld hmake) fun made => ?_
    cases made with
    | ok _ => exact follows_pure ⟨rfl, fun _ h => nomatch h⟩
    | error f =>
        exact follows_throw ⟨rfl, fun a ha => ⟨f.cause, (Except.error.inj ha).symm⟩⟩
  · rw [if_neg hdirs]
    exact follows_pure ⟨rfl, fun _ h => nomatch h⟩

theorem follows_seedAfresh (i : IterationIndex) :
    Follows (σ := σ) .opening k (seedAfresh i) Quietly :=
  follows_modify (fun _ => rfl) fun _ => rfl

theorem follows_beginIteration (i : IterationIndex) :
    Follows (σ := σ) .opening k (beginIteration i)
      (stepCourse (.phase .iterationStart i) (Begins i)) := by
  refine follows_phaseStep (follows_bind_run (follows_makeDirectory i) ?_ ?_)
  · rintro _ l ⟨rfl, -⟩
    refine follows_bind_of_quietly (follows_seedAfresh i) fun _ => ?_
    exact follows_mono (follows_announce rfl) fun result m hm => .inl hm
  · rintro e l ⟨rfl, he⟩
    obtain ⟨c, rfl⟩ := he e rfl
    exact .inr ⟨rfl, c, rfl⟩

theorem follows_listenerStep (p : Phase) (i : IterationIndex) :
    Follows (σ := σ) .opening k (listenerStep p i) (roundCourse p i) := by
  refine follows_phaseStep ?_
  cases p with
  | mobsim => exact follows_pure rfl
  | _ => exact follows_announce rfl

theorem follows_mobsimStep (i : IterationIndex) :
    Follows (σ := σ) .opening k (mobsimStep i) (stepCourse (.phase .mobsim i) (Simulates i)) := by
  refine follows_phaseStep ?_
  refine follows_bind_of_quietly (follows_seedAfresh i) fun _ => follows_get_run fun s _ => ?_
  refine follows_bind_of (follows_note rfl) fun _ l hl => ?_
  refine follows_mono (follows_collaborate _ _) fun result m hm => ⟨s.world.generator, ?_⟩
  rw [hl, show m = [] from hm, List.append_nil]

theorem follows_mobsimSteps (i : IterationIndex) :
    Follows (σ := σ) .opening k (mobsimSteps i) (MobsimCourse i) := by
  refine follows_bind (follows_listenerStep .beforeMobsim i) fun before l hl => ?_
  cases before with
  | proceed =>
      refine follows_bind (follows_mobsimStep i) fun mobsim m hm => ?_
      refine follows_bind (follows_listenerStep .afterMobsim i) fun after n hn => follows_pure ?_
      rw [List.append_nil, ← List.append_assoc]
      cases mobsim with
      | proceed => exact .through hl hm hn
      | aborted => exact .mobsimAborted hl hm hn
  | aborted =>
      -- the mobsim is left out, with a result as if it had aborted
      refine follows_bind (L := fun p l => p = .aborted ∧ l = []) (follows_pure ⟨rfl, rfl⟩) ?_
      rintro _ _ ⟨rfl, rfl⟩
      refine follows_bind (follows_listenerStep .afterMobsim i) fun after n hn => follows_pure ?_
      rw [List.append_nil, List.nil_append]
      exact .beforeAborted hl hn

theorem follows_phases (i : IterationIndex) :
    Follows (σ := σ) .opening k (phases i)
      (phasesCourse k.configuration.controller.firstIteration i) := by
  refine follows_get fun s hs => ?_
  rw [hs]
  refine follows_andThen (follows_beginIteration i) ?_
  have hrest := follows_andThen (follows_mobsimSteps (σ := σ) (k := k) i)
    (follows_andThen (follows_listenerStep .scoring i) (follows_listenerStep .iterationEnd i))
  -- the first iteration has nothing to replan
  by_cases hfirst : k.configuration.controller.firstIteration < i
  · simp only [if_pos hfirst]
    exact follows_andThen (follows_listenerStep .replanning i) hrest
  · simp only [if_neg hfirst]
    exact follows_mono hrest fun p l hl => .inr ⟨[], l, ⟨rfl, rfl⟩, hl, rfl⟩

/-! ## Iterations -/

/-- The course of an iteration: the table of operation times comes behind one without an abort. -/
inductive IterationCourse (first i : IterationIndex) : Course σ where
  | completed {l : List (Moment σ)} (h : phasesCourse first i .proceed l) (ledger : TimingLedger) :
      IterationCourse first i .proceed (l ++ [.reported ledger])
  | cut {l : List (Moment σ)} (h : phasesCourse first i .aborted l) :
      IterationCourse first i .aborted l

/-- The course of all iterations from one on. -/
inductive LoopCourse (first : IterationIndex) : IterationIndex → List (Moment σ) → Prop where
  /-- A shutdown was requested before anyone was asked. -/
  | unasked (i : IterationIndex) : LoopCourse first i []
  | declined {i : IterationIndex} {answer : Outcome Empty Bool}
      (h : answer.toOption.getD false = false) :
      LoopCourse first i [.asked i, .answered i answer]
  | last {i : IterationIndex} {p : Progress} {l : List (Moment σ)}
      (h : IterationCourse first i p l) (hp : p = .proceed → i.next? = none) :
      LoopCourse first i (.asked i :: .answered i (.ok true) :: l)
  | more {i j : IterationIndex} {l m : List (Moment σ)}
      (h : IterationCourse first i .proceed l) (hj : i.next? = some j) (hm : LoopCourse first j m) :
      LoopCourse first i (.asked i :: .answered i (.ok true) :: (l ++ m))

theorem follows_writeOrWarn (name text message : String) :
    Follows (σ := σ) .opening k (writeOrWarn name text message) Quietly := by
  refine follows_get fun s _ => ?_
  refine follows_bind_quietly (follows_onWorld (World.wanders_writeText _ _)) fun written => ?_
  cases written with
  | ok _ => exact follows_pure rfl
  | error _ => exact follows_onWorld (World.wanders_say (warning message))

/-- The operation times that are written are those of the ledger. -/
theorem journey_writeTimes (s : Session σ) :
    ∃ l, Session.Journey .opening s l (writeTimes s).2 ∧
      milestones l = [.reported s.controller.ledger] := by
  let c := s.controller
  let report : Driven σ Unit := do
    onWorld (World.note (.reported c.ledger))
    writeOrWarn reportFile c.ledger.reportText "failed to write stopwatch report"
    if c.context.configuration.controller.createGraphs then
      writeOrWarn chartFile c.ledger.chartText "failed to write stopwatch chart"
  have hreport : Follows .opening c.context report fun _ l => l = [.reported c.ledger] := by
    refine follows_bind (follows_note rfl) fun _ l hl => ?_
    refine follows_bind_quietly (follows_writeOrWarn _ _ _) fun _ => ?_
    split
    · refine follows_mono (follows_writeOrWarn _ _ _) fun _ m hm => ?_
      rw [hl, show m = [] from hm]
      rfl
    · refine follows_pure ?_
      rw [hl]
      rfl
  exact hreport s rfl

theorem follows_writeTimes :
    Follows (σ := σ) .opening k writeTimes fun _ l => ∃ ledger, l = [.reported ledger] := by
  intro s _
  obtain ⟨l, hl, hreported⟩ := journey_writeTimes s
  exact ⟨l, hl, _, hreported⟩

theorem follows_line (text : String) (h : text.toList.head? = some '#') :
    Follows (σ := σ) .opening k (onWorld (World.say .info text)) Quietly :=
  follows_onWorld (World.wanders_say (information_of_head h (by decide)))

theorem follows_runThrough (i : IterationIndex) :
    Follows (σ := σ) .opening k (runThrough i)
      (IterationCourse k.configuration.controller.firstIteration i) := by
  have hbegins : (s!"### ITERATION {i} BEGINS").toList.head? = some '#' := by
    rw [String.toList_append, String.toList_append]
    rfl
  have hends : (s!"### ITERATION {i} ENDS").toList.head? = some '#' := by
    rw [String.toList_append, String.toList_append]
    rfl
  refine follows_bind_quietly (follows_line _ rfl) fun _ => ?_
  refine follows_bind_quietly (follows_line _ hbegins) fun _ => ?_
  refine follows_bind_quietly (follows_time _) fun _ => ?_
  refine follows_bind (follows_phases i) fun outcome l hl => ?_
  refine follows_bind_quietly (follows_time _) fun _ => ?_
  cases outcome with
  | aborted => exact follows_pure ((List.append_nil l).symm ▸ .cut hl)
  | proceed =>
      refine follows_bind follows_writeTimes fun _ m hm => ?_
      obtain ⟨ledger, rfl⟩ := hm
      refine follows_bind_quietly (follows_line _ hends) fun _ => ?_
      refine follows_bind_quietly (follows_line _ rfl) fun _ => follows_pure ?_
      rw [List.append_nil]
      exact .completed hl ledger

theorem follows_wantsIteration (i : IterationIndex) :
    Follows (σ := σ) .opening k (wantsIteration i) fun wanted l =>
      wanted = false ∧ l = [] ∨
        ∃ answer, wanted = answer.toOption.getD false ∧ l = [.asked i, .answered i answer] := by
  refine follows_bind_quietly (follows_onWorld World.wanders_flag) fun flag => ?_
  cases flag with
  | true => exact follows_pure (.inl ⟨rfl, rfl⟩)
  | false =>
      refine follows_get fun s _ => follows_bind (follows_note rfl) fun _ l hl => ?_
      refine follows_bind_quietly (follows_onWorld (World.wanders_run _)) fun answer => ?_
      refine follows_mono (follows_heed i answer) fun wanted m hm => .inr ⟨answer, hm.1, ?_⟩
      rw [hl, hm.2]
      rfl

theorem follows_sayStopped : Follows (σ := σ) .opening k sayStopped Quietly := by
  refine follows_bind_quietly (follows_onWorld World.wanders_flag) fun flag => ?_
  cases flag with
  | true => exact follows_onWorld (World.wanders_say (warning _))
  | false => exact follows_onWorld (World.wanders_say (by decide))

theorem follows_setLast (i : IterationIndex) : Follows (σ := σ) .opening k (setLast i) Quietly :=
  follows_modify (fun _ => rfl) fun _ => rfl

theorem follows_countCompleted : Follows (σ := σ) .opening k countCompleted Quietly :=
  follows_modify (fun _ => rfl) fun _ => rfl

theorem answer_of_wanted {answer : Outcome Empty Bool} (h : answer.toOption.getD false = true) :
    answer = .ok true := by
  cases answer with
  | ok b => exact congrArg Except.ok h
  | error a => cases h

/-- The loop leaves questions and iterations, by induction on the indices that are left. -/
theorem follows_iterateFrom (room : Nat) (i : IterationIndex) :
    Follows (σ := σ) .opening k (iterateFrom room i) fun _ l =>
      LoopCourse k.configuration.controller.firstIteration i l := by
  induction room generalizing i with
  | zero => exact follows_pure (.unasked i)
  | succ room ih =>
      refine follows_bind (follows_wantsIteration i) fun wanted l hl => ?_
      cases wanted with
      | false =>
          refine follows_mono follows_sayStopped fun _ m hm => ?_
          rw [show m = [] from hm, List.append_nil]
          rcases hl with ⟨-, rfl⟩ | ⟨answer, hanswer, rfl⟩
          · exact .unasked i
          · exact .declined hanswer.symm
      | true =>
          rcases hl with ⟨hl, -⟩ | ⟨answer, hanswer, rfl⟩
          · cases hl
          · obtain rfl := answer_of_wanted hanswer.symm
            refine follows_bind_quietly (follows_setLast i) fun _ => ?_
            refine follows_bind (follows_runThrough i) fun outcome m hm => ?_
            cases outcome with
            | aborted =>
                refine follows_pure ?_
                rw [List.append_nil]
                exact .last hm nofun
            | proceed =>
                refine follows_bind_quietly follows_countCompleted fun _ => ?_
                cases hnext : i.next? with
                | none =>
                    refine follows_mono (follows_onWorld (World.wanders_say (warning _)))
                      fun _ n hn => ?_
                    rw [show n = [] from hn, List.append_nil]
                    exact .last hm fun _ => hnext
                | some j =>
                    exact follows_mono (ih j) fun _ n hn => .more hm hnext hn (l := m)

theorem follows_runIterations :
    Follows (σ := σ) .opening k runIterations fun _ l =>
      LoopCourse k.configuration.controller.firstIteration
        k.configuration.controller.firstIteration l := by
  refine follows_get fun s hs => ?_
  rw [hs]
  exact follows_iterateFrom _ _

end Controller

end CommuteSim
