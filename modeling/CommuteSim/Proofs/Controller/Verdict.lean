import CommuteSim.Proofs.Controller.Farewell

/-!
# The verdict on a run

Four observers tell how a run ended: its result, the event that listeners are told of at the
shutdown, the lines in the log, and the slot of the coordinator. All four agree, because the slot is
settled by the claim to the teardown, and they read it only after that.

Main statement: `verdict`, for whatever other threads and listeners do before the claim and after
it. -/

namespace CommuteSim

variable {σ : Type}

/-! ## Observers -/

/-- Whether the result of a run says that it did not end as expected. -/
def unexpectedResult : Except RunFailure RunSummary → Bool
  | .error _ => true
  | .ok summary => summary.reason = .interrupted

/-- What listeners are told of at a shutdown, if a moment is a round of it. -/
def Moment.shutdown? : Moment σ → Option Bool
  | .round (.shutdown unexpected) => some unexpected
  | _ => none

/-- What listeners are told of at shutdowns. -/
def shutdowns (l : List (Moment σ)) : List Bool := l.filterMap Moment.shutdown?

/-- The line by which a moment tells whether the shutdown is expected. -/
def Moment.verdict? : Moment σ → Option LogLine
  | .said .controller line => if line ∈ verdictLines then some line else none
  | _ => none

/-- The lines by which a history tells whether the shutdown is expected. -/
def verdicts (l : List (Moment σ)) : List LogLine := l.filterMap Moment.verdict?

/-- What the claim found, if a moment is the claim. -/
def Moment.claimed? : Moment σ → Option Coordinator
  | .claimed found => some found
  | _ => none

/-- What claims of the controller found. -/
def claims (l : List (Moment σ)) : List Coordinator := l.filterMap Moment.claimed?

/-- The lines that belong to a run that ended as expected or not. -/
def expectedVerdicts (unexpected : Bool) : List LogLine :=
  if unexpected then
    [Controller.unexpectedLine, Controller.endedUnexpectedlyLine, Controller.unusableLine]
  else [Controller.completedLine]

/-- The verdict on a run with this result, in whose history the claim found this state between what
was `before` and what came `after`. -/
structure Verdict (found : Coordinator) (before after : List (Moment σ))
    (r : Except RunFailure RunSummary) : Prop where
  fault : ∀ record, found.fault = some record → r = .error (.fault record.origin record.fault)
  summary : found.fault = none →
    ∃ summary, r = .ok summary ∧ (found.flag = true → summary.reason = .interrupted)
  /-- The claim leads on from what it found. -/
  claim : before.getLast? = some (.shared found.claim.2)
  /-- From the claim on, the slot holds what the claim found. -/
  slot : ∀ c, .shared c ∈ after → c.fault = found.fault
  shutdowns : shutdowns (before ++ .claimed found :: after) = [unexpectedResult r]
  lines : verdicts (before ++ .claimed found :: after) = expectedVerdicts (unexpectedResult r)
  claims : claims (before ++ .claimed found :: after) = [found]

/-! ## What observers see -/

/-- An observer who sees something in milestones from the claim on only. -/
structure Observes {β : Type} (f : Moment σ → Option β) : Prop where
  of_not_milestone : ∀ m, m.milestone = false → f m = none
  of_plain : ∀ m, m.plain .opening = true → f m = none
  of_closes : ∀ m c, m.Closes c → f m = none

theorem observes_shutdown : Observes (σ := σ) Moment.shutdown? where
  of_not_milestone := by
    intro m h
    cases m with
    | round e => cases h
    | _ => rfl
  of_plain := by
    intro m h
    cases m with
    | round e =>
        cases e with
        | shutdown unexpected => cases h
        | _ => rfl
    | _ => rfl
  of_closes := by
    intro m c h
    cases m with
    | round e => cases h
    | _ => rfl

theorem observes_verdict : Observes (σ := σ) Moment.verdict? where
  of_not_milestone := by
    intro m h
    cases m with
    | said speaker line =>
        cases speaker with
        | controller =>
            have hline : line ∉ verdictLines := by simpa [Moment.milestone] using h
            exact if_neg hline
        | collaborator => rfl
    | _ => rfl
  of_plain := by
    intro m h
    cases m with
    | said speaker line =>
        cases speaker with
        | controller => cases h
        | collaborator => rfl
    | _ => rfl
  of_closes := by
    intro m c h
    cases m with
    | said speaker line => cases h
    | _ => rfl

theorem observes_claimed : Observes (σ := σ) Moment.claimed? where
  of_not_milestone := by
    intro m h
    cases m with
    | claimed found => cases h
    | _ => rfl
  of_plain := by
    intro m h
    cases m with
    | claimed found => cases h
    | _ => rfl
  of_closes := by
    intro m c h
    cases m with
    | claimed found => cases h
    | _ => rfl

section Observes

variable {β : Type} {f : Moment σ → Option β}

theorem filterMap_opening (hf : Observes f) {s u : Session σ} {l : List (Moment σ)}
    (hl : Session.Journey .opening s l u) : l.filterMap f = [] := by
  refine List.filterMap_eq_nil_iff.mpr fun m hm => ?_
  cases hmile : m.milestone with
  | false => exact hf.of_not_milestone m hmile
  | true =>
      rcases Session.stretch_journey hl hm hmile with hm | ⟨c, hm⟩
      · exact hf.of_plain m hm
      · exact hf.of_closes m c hm

namespace Controller

/-- What an observer sees of a run is in the milestones from the claim on. -/
theorem observed (hf : Observes f) {C : List (Moment σ) → Prop} {s u : Session σ}
    {r : Except RunFailure RunSummary} (a : Account C s r u) :
    (a.before ++ (a.found.claimMoments ++ a.after)).filterMap f =
      (.claimed a.found.world.coordinator :: closingMilestones a.unexpected).filterMap f := by
  rw [List.filterMap_append, filterMap_opening hf a.opening, List.nil_append,
    ← filterMap_milestones hf.of_not_milestone (a.found.claimMoments ++ a.after), milestones_append,
    milestones_claim, a.farewell]
  rfl

end Controller

end Observes

namespace Controller

/-! ## Results -/

theorem unexpected_result (c : Controller σ) {unexpected : Bool} {fault : Option FaultRecord}
    (h : fault.isSome = true → unexpected = true) :
    unexpectedResult (result c unexpected fault) = unexpected := by
  cases fault with
  | some record => exact (h rfl).symm
  | none => cases unexpected <;> rfl

/-- The observers of a run of which there is an account agree. -/
theorem verdict_account {C : List (Moment σ) → Prop} {s u : Session σ}
    {r : Except RunFailure RunSummary} (a : Account C s r u) {before : List (Moment σ)}
    (hbefore : a.before ++ (a.found.claimMoments ++ a.after) =
      before ++ .claimed a.found.world.coordinator :: a.after)
    (hclaim : before.getLast? = some (.shared a.found.world.coordinator.claim.2)) :
    Verdict a.found.world.coordinator before a.after r := by
  obtain ⟨c, hr⟩ := a.result
  have hunexpected : unexpectedResult r = a.unexpected :=
    (congrArg unexpectedResult hr).trans (unexpected_result c a.unexpected_of_fault)
  refine ⟨?_, ?_, hclaim, ?_, ?_, ?_, ?_⟩
  · intro record hrecord
    rw [hr, hrecord]
    rfl
  · intro hnone
    refine ⟨_, hr.trans (by rw [hnone]; rfl), fun hflag => ?_⟩
    exact if_pos (a.unexpected_of_flag hflag)
  · intro d hd
    exact Session.fault_of_claim (Session.shared_journey a.closing hd).1
  · rw [shutdowns, ← hbefore, observed observes_shutdown a, hunexpected]
    cases a.unexpected <;> rfl
  · rw [verdicts, ← hbefore, observed observes_verdict a, hunexpected]
    cases a.unexpected <;> rfl
  · rw [claims, ← hbefore, observed observes_claimed a]
    cases a.unexpected <;> rfl

/-- The result of a run, the event of its shutdown, the lines in its log and the slot of the
coordinator agree on how it ended: all go by what the claim to the teardown found. That stays so
whatever other threads do when the run is over, and whatever listeners do at the shutdown. -/
theorem verdict (s : Session σ) (h : s.controller.stage = .idle) :
    ∃ before found after,
      (run s).2.world.past = s.world.past ++ (before ++ .claimed found :: after) ∧
        Verdict found before after (run s).1 ∧
        (∀ now acts, (((run s).2.world.process.acts (run s).2.world.self now acts).coordinator
          (run s).2.world.self).fault = found.fault) ∧
        ∀ g : Listener σ → Listener σ, (∀ a, Listener.AlikeBeforeShutdown a (g a)) →
          (run (s.exchange g)).1 = (run s).1 := by
  obtain ⟨a⟩ := account s h
  -- the history notes the state that the claim leads to, and then the claim
  let changes := (a.found.world.changes (a.found.world.process.put a.found.world.self
    (some a.found.world.coordinator.claim.2))).toList
  have hbefore : a.before ++ (a.found.claimMoments ++ a.after) =
      (a.before ++ changes) ++ .claimed a.found.world.coordinator :: a.after := by
    simp [Session.claimMoments, changes]
  have hclaim : (a.before ++ changes).getLast? =
      some (.shared a.found.world.coordinator.claim.2) := by
    have hlast : changes.getLast? = some (.shared a.found.claim.world.coordinator) :=
      World.getLast?_changes _ _
    rw [List.getLast?_append, hlast, Session.coordinator_claim]
    rfl
  refine ⟨a.before ++ changes, a.found.world.coordinator, a.after, ?_,
    verdict_account a hbefore hclaim, ?_, fun g hg => run_exchange hg s⟩
  · rw [← hbefore]
    exact past_account a
  · intro now acts
    have hacts := (run s).2.world.process.later_acts (run s).2.world.self (run s).2.world.self now
      acts
    exact Session.fault_of_claim ((Session.later_journey a.closing).trans hacts)

/-- A session whose mobsim fails. -/
def failing : Session Unit where
  controller :=
    { context :=
        { configuration := { controller :=
            { lastIteration := 0, outputDirectory := "out", iterationDirectories := false } }
          output := { root := "out" } }
      simulation := { mobsim := fun _ _ => .fail ⟨"no route", []⟩ }
      seeding := { base := 4711 } }
  world := { memory := (), files := { entries := [(["out"], .directory)] } }

theorem verdict_failing :
    failing.controller.stage = .idle ∧
      (run failing).1 =
        .error (.fault "mobsim in iteration 0" (.phase .mobsim 0 ⟨"no route", []⟩)) ∧
      ∃ before found after,
        (run failing).2.world.past = failing.world.past ++ (before ++ .claimed found :: after) ∧
          Verdict found before after (run failing).1 ∧
          (∀ now acts, (((run failing).2.world.process.acts (run failing).2.world.self now
            acts).coordinator (run failing).2.world.self).fault = found.fault) ∧
          ∀ g : Listener Unit → Listener Unit, (∀ a, Listener.AlikeBeforeShutdown a (g a)) →
            (run (failing.exchange g)).1 = (run failing).1 := by
  obtain ⟨before, found, after, hpast, hverdict, hothers⟩ := verdict failing rfl
  let what (c : Coordinator) := c.fault.map fun r => (r.origin, r.fault)
  let failure := ("mobsim in iteration 0", Fault.phase .mobsim 0 ⟨"no route", []⟩)
  have hwhat : (claims (run failing).2.world.past).map what = [some failure] := by decide +kernel
  have hclaims : claims (run failing).2.world.past = [found] := by
    rw [hpast, ← hverdict.claims]
    rfl
  rw [hclaims] at hwhat
  obtain ⟨record, hrecord, hfailure⟩ := Option.map_eq_some_iff.mp (List.singleton_inj.mp hwhat)
  obtain ⟨horigin, hfault⟩ := Prod.mk.inj hfailure
  refine ⟨rfl, ?_, before, found, after, hpast, hverdict, hothers⟩
  rw [hverdict.fault record hrecord, horigin, hfault]

end Controller

end CommuteSim
