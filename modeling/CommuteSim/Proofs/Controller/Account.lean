import CommuteSim.Proofs.Controller.Course

/-!
# Accounts of runs

An account of a run tells it from its beginning to its end: the journey up to the claim to the
teardown with its course, what the claim found, and the journey after it with the lines and the
round that belong to it.

Main statement: there is an account of every run of a controller that has not run before
(`account`).
-/

namespace CommuteSim

variable {σ α : Type}

/-- A session whose controller claims the teardown. -/
def Session.claim (s : Session σ) : Session σ :=
  s.inWorld ((s.world.setCoordinator s.world.coordinator.claim.2).noted
    (.claimed s.world.coordinator))

/-- What the history gains with the claim. -/
def Session.claimMoments (s : Session σ) : List (Moment σ) :=
  (s.world.changes (s.world.process.put s.world.self
    (some s.world.coordinator.claim.2))).toList ++ [.claimed s.world.coordinator]

theorem Session.past_claim (s : Session σ) :
    s.claim.world.past = s.world.past ++ s.claimMoments := by
  rw [claim, inWorld, World.past_noted, World.setCoordinator, World.past_setProcess,
    List.append_assoc]
  rfl

theorem Session.coordinator_claim (s : Session σ) :
    s.claim.world.coordinator = s.world.coordinator.claim.2 := by
  rw [claim, inWorld, World.coordinator_noted, World.coordinator_setCoordinator]

/-- The claim settles the slot. -/
theorem Session.fault_of_claim {s : Session σ} {c : Coordinator}
    (h : s.claim.world.coordinator.Later c) : c.fault = s.world.coordinator.fault := by
  rw [coordinator_claim] at h
  exact h.fault_of_teardown rfl

theorem milestones_claim (s : Session σ) :
    milestones s.claimMoments = [.claimed s.world.coordinator] := by
  rw [Session.claimMoments, milestones_append, World.milestones_changes]
  rfl

namespace Controller

/-- The course of a run up to the claim to the teardown. -/
inductive OpeningCourse (first : IterationIndex) : List (Moment σ) → Prop where
  | cut {l : List (Moment σ)} (h : startUpCourse .aborted l) : OpeningCourse first l
  | iterated {l m : List (Moment σ)} (h : startUpCourse .proceed l)
      (h' : LoopCourse first first m) : OpeningCourse first (l ++ m)

/-- The milestones after the claim. -/
def closingMilestones (unexpected : Bool) : List (Moment σ) :=
  match unexpected with
  | true => [.said .controller unexpectedLine, .round (.shutdown true),
      .said .controller endedUnexpectedlyLine, .said .controller unusableLine]
  | false => [.round (.shutdown false), .said .controller completedLine]

variable {k : Context} {stretch : Stretch}

/-! ## Accesses of the controller -/

/-- An access of the controller that leaves no milestone, once the other threads have acted. -/
theorem follows_access {access : StateM (World σ) α}
    (h : ∀ s : Session σ, s.controller.context = k →
      ∃ l, Session.Move stretch s l (s.inWorld (access s.world).2) ∧ milestones l = []) :
    Follows stretch k (onWorld (do World.yield; access)) Quietly := by
  intro s hs
  obtain ⟨l, hl⟩ := World.wanders_yield s.world
  obtain ⟨m, hm, hnone⟩ := h (s.inWorld (World.yield s.world).2) hs
  refine ⟨l ++ m, (Session.Move.path hl).journey.trans hm.journey, ?_⟩
  rw [Quietly, milestones_append, World.milestones_path hl, hnone, List.append_nil]

/-- A change of the coordinator after which all faults and the claim are as before. -/
theorem follows_own {f : Coordinator → α × Coordinator}
    (h : ∀ c : Coordinator, c.Steady (f c).2) :
    Follows (σ := σ) stretch k (onWorld (World.alter f)) Quietly :=
  follows_access fun _ _ => ⟨_, .own (h _), World.milestones_changes _ _⟩

theorem follows_bindThread :
    Follows (σ := σ) stretch k (onWorld bindThread) Quietly :=
  follows_own fun _ => ⟨⟨id, id, id, id, fun _ => rfl⟩, rfl, rfl, rfl⟩

theorem follows_terminate : Follows (σ := σ) stretch k (onWorld World.terminate) Quietly :=
  follows_own fun c => ⟨c.later_terminate, (World.terminate_keeps c).1,
    (World.terminate_keeps c).2.1, (World.terminate_keeps c).2.2⟩

theorem follows_enter (stage : Stage) : Follows (σ := σ) stretch k (enter stage) Quietly :=
  follows_modify (fun _ => rfl) fun _ => rfl

/-- The controller puts in a handler of panics, and may give back the one before it. -/
theorem follows_handler (h : k.watches = true) (x : World σ → PanicHandler)
    (a : World σ → α) : Follows stretch k
      (onWorld (do World.yield; fun w => (a w, w.setProcess (w.process.restore (x w))))) Quietly :=
  follows_access fun s hs => ⟨_, .handler (x s.world) ((congrArg Context.watches hs).trans h),
    World.milestones_changes _ _⟩

theorem follows_watch (h : k.watches = true) :
    Follows (σ := σ) stretch k (onWorld watch) Quietly := by
  have hputIn : Follows stretch k (onWorld (do
      World.yield
      fun w : World σ => (w.process.handler, w.setProcess (w.process.restore (.watching w.self)))))
      Quietly :=
    follows_handler h _ _
  have hsay : World.Wanders (σ := σ) (World.say .info "panic hook installed") :=
    World.wanders_say (by decide)
  have hreturn : ∀ x : PanicHandler, Follows (σ := σ) stretch k (pure x) Quietly :=
    fun _ => follows_pure rfl
  have hwatch := follows_bind_quietly hputIn fun previous =>
    follows_bind_quietly (follows_onWorld hsay) fun _ => hreturn previous
  exact hwatch

theorem follows_unwatch (h : k.watches = true) (previous : PanicHandler) :
    Follows (σ := σ) stretch k (onWorld (unwatch previous)) Quietly :=
  follows_handler h (fun _ => previous) fun _ => ()

/-! ## Up to the claim -/

theorem follows_runToTeardown :
    Follows (σ := σ) .opening k runToTeardown fun _ l =>
      OpeningCourse k.configuration.controller.firstIteration l := by
  refine follows_bind_quietly (follows_enter _) fun _ => ?_
  refine follows_bind follows_startUp fun outcome l hl => ?_
  cases outcome with
  | aborted =>
      refine follows_mono (follows_enter _) fun _ m hm => ?_
      rw [show m = [] from hm, List.append_nil]
      exact .cut hl
  | proceed =>
      refine follows_bind_quietly (follows_enter _) fun _ => ?_
      refine follows_bind follows_runIterations fun _ m hm => ?_
      refine follows_mono (follows_enter _) fun _ n hn => ?_
      rw [show n = [] from hn, List.append_nil]
      exact .iterated hl hm

/-! ## After the claim -/

theorem follows_sayLine {line : LogLine} (h : line ∈ verdictLines) :
    Follows (σ := σ) .closing k (sayLine line) fun _ l => l = [.said .controller line] :=
  follows_note (by simpa [Moment.plain] using h)

theorem follows_notifyShutdown (unexpected : Bool) :
    Follows (σ := σ) .closing k (notifyShutdown unexpected) fun _ l =>
      l = [.round (.shutdown unexpected)] := by
  refine follows_get fun s _ => follows_bind (follows_note rfl) fun _ l hl => ?_
  refine follows_bind_quietly (follows_onWorld (World.wanders_notify _ _)) fun told => ?_
  have hquiet : ∀ m : List (Moment σ), Quietly () m → l ++ m = [.round (.shutdown unexpected)] := by
    intro m hm
    rw [hl, show m = [] from hm, List.append_nil]
  cases told with
  | ok _ => exact follows_pure (hquiet [] rfl)
  | error a =>
      cases a with
      | failure _ =>
          exact follows_mono (follows_onWorld (World.wanders_say (by decide))) fun _ => hquiet
      | panic x => exact follows_mono (follows_onWorld (World.wanders_note rfl)) fun _ => hquiet

theorem follows_sayStarted (unexpected : Bool) :
    Follows (σ := σ) .closing k (sayStarted unexpected) fun _ l =>
      l = if unexpected then [.said .controller unexpectedLine] else [] := by
  refine follows_bind_quietly (follows_onWorld (World.wanders_say (by decide))) fun _ => ?_
  cases unexpected with
  | true => exact follows_sayLine (by decide)
  | false => exact follows_pure rfl

theorem follows_sayEnded (unexpected faulty : Bool) :
    Follows (σ := σ) .closing k (sayEnded unexpected faulty) fun _ l =>
      l = if unexpected then
        [.said .controller endedUnexpectedlyLine, .said .controller unusableLine]
        else [.said .controller completedLine] := by
  have hlines : Follows (σ := σ) .closing k (sayEnded unexpected false) fun _ l =>
      l = if unexpected then
        [.said .controller endedUnexpectedlyLine, .said .controller unusableLine]
        else [.said .controller completedLine] := by
    cases unexpected with
    | true =>
        refine follows_bind (follows_sayLine (by decide)) fun _ l hl => ?_
        exact follows_mono (follows_sayLine (by decide)) fun _ m hm => by rw [hl, hm]; rfl
    | false => exact follows_sayLine (by decide)
  cases faulty with
  | true =>
      exact follows_bind_quietly (follows_onWorld (World.wanders_say (by decide))) fun _ => hlines
  | false => exact hlines

theorem follows_conclude (unexpected : Bool) (fault : Option FaultRecord) :
    Follows (σ := σ) .closing k (conclude unexpected fault) fun r l =>
      (∃ c : Controller σ, r = result c unexpected fault) ∧ l = closingMilestones unexpected := by
  refine follows_bind (follows_sayStarted unexpected) fun _ l hl => ?_
  refine follows_bind (follows_notifyShutdown unexpected) fun _ m hm => ?_
  refine follows_bind (follows_sayEnded unexpected fault.isSome) fun _ n hn => ?_
  refine follows_get fun s _ => follows_pure ⟨⟨s.controller, rfl⟩, ?_⟩
  rw [hl, hm, hn]
  cases unexpected <;> rfl

/-! ## Accounts -/

/-- An account of work that begins with `s`, gives `r` and ends with `u`. The milestones before the
claim are as `C` says. -/
structure Account (C : List (Moment σ) → Prop) (s : Session σ) (r : Except RunFailure RunSummary)
    (u : Session σ) where
  before : List (Moment σ)
  /-- The session that the claim finds. -/
  found : Session σ
  opening : Session.Journey .opening s before found
  course : C (milestones before)
  after : List (Moment σ)
  unexpected : Bool
  closing : Session.Journey .closing found.claim after u
  farewell : milestones after = closingMilestones unexpected
  result : ∃ c : Controller σ, r = result c unexpected found.world.coordinator.fault
  unexpected_of_flag : found.world.coordinator.flag = true → unexpected = true
  unexpected_of_fault : found.world.coordinator.fault.isSome = true → unexpected = true

theorem past_account {C : List (Moment σ) → Prop} {s u : Session σ}
    {r : Except RunFailure RunSummary} (a : Account C s r u) :
    u.world.past = s.world.past ++ (a.before ++ (a.found.claimMoments ++ a.after)) := by
  rw [Session.past_journey a.closing, Session.past_claim, Session.past_journey a.opening,
    List.append_assoc, List.append_assoc]

/-- Work of which there is an account wherever it begins. -/
def Recounts (k : Context) (C : List (Moment σ) → Prop)
    (work : Driven σ (Except RunFailure RunSummary)) : Prop :=
  ∀ s : Session σ, s.controller.context = k → Nonempty (Account C s (work s).1 (work s).2)

theorem recounts_bind {first : Driven σ α} {next : α → Driven σ (Except RunFailure RunSummary)}
    {L : α → List (Moment σ) → Prop} {C : List (Moment σ) → Prop}
    (h : Follows .opening k first L)
    (h' : ∀ a l, L a l → Recounts k (fun m => C (l ++ m)) (next a)) :
    Recounts k C (first >>= next) := by
  intro s hs
  obtain ⟨l, hl, hL⟩ := h s hs
  obtain ⟨a⟩ := h' _ _ hL (first s).2 ((Session.context_journey hl).trans hs)
  exact ⟨{ a with
    before := l ++ a.before
    opening := hl.trans a.opening
    course := by
      rw [milestones_append]
      exact a.course }⟩

theorem recounts_then {work : Driven σ (Except RunFailure RunSummary)}
    {rest : Except RunFailure RunSummary → Driven σ (Except RunFailure RunSummary)}
    {C : List (Moment σ) → Prop} (h : Recounts k C work)
    (h' : ∀ r, Follows .closing k (rest r) fun q l => q = r ∧ l = []) :
    Recounts k C (work >>= rest) := by
  intro s hs
  obtain ⟨a⟩ := h s hs
  have hend : (work s).2.controller.context = k := by
    rw [Session.context_journey a.closing]
    exact (Session.context_journey a.opening).trans hs
  obtain ⟨l, hl, hresult, hquiet⟩ := h' (work s).1 (work s).2 hend
  exact ⟨{ a with
    after := a.after ++ l
    closing := a.closing.trans hl
    farewell := by rw [milestones_append, a.farewell, hquiet, List.append_nil]
    result := by
      obtain ⟨c, hc⟩ := a.result
      exact ⟨c, hresult.trans hc⟩ }⟩

theorem follows_sayClaimed (first : Bool) :
    Follows (σ := σ) .closing k (sayClaimed first) Quietly := by
  cases first with
  | true => exact follows_pure rfl
  | false => exact follows_onWorld (World.wanders_say (by decide))

/-- What is read after the claim: the slot as the claim found it, and a flag that was not there
before only if it was raised meanwhile. -/
theorem read_after_claim {found t : Session σ} {l : List (Moment σ)}
    (h : Session.Journey .closing found.claim l t) :
    t.world.coordinator.fault = found.world.coordinator.fault ∧
      (found.world.coordinator.flag = true → t.world.coordinator.flag = true) := by
  have hlater := Session.later_journey h
  refine ⟨Session.fault_of_claim hlater, ?_⟩
  rw [Session.coordinator_claim] at hlater
  exact hlater.flag

/-- The teardown is told from the claim on: whatever happens after it, the slot stays as the claim
found it. -/
theorem recounts_tearDown : Recounts (σ := σ) k (· = []) tearDown := by
  intro s hs
  obtain ⟨before, hbefore⟩ := World.wanders_yield s.world
  let found := s.inWorld (World.yield s.world).2
  let first := found.world.coordinator.claim.1
  -- `t₁` is the session after the claim, `t₂` and `t₃` that after each of the two looks
  obtain ⟨l₁, h₁, hquiet⟩ := follows_sayClaimed first found.claim hs
  let t₁ := (sayClaimed first found.claim).2
  obtain ⟨l₂, h₂, hlook⟩ := World.path_look t₁.world
  let t₂ := t₁.inWorld (World.look t₁.world).2
  obtain ⟨l₃, h₃, hflag⟩ := World.path_look t₂.world
  let t₃ := t₂.inWorld (World.look t₂.world).2
  have hway₂ : Session.Journey .closing found.claim (l₁ ++ l₂) t₂ :=
    h₁.trans (Session.Move.path h₂).journey
  have hway₃ : Session.Journey .closing found.claim (l₁ ++ l₂ ++ l₃) t₃ :=
    hway₂.trans (Session.Move.path h₃).journey
  have hfault : (World.look t₁.world).1.fault = found.world.coordinator.fault := by
    rw [hlook]
    exact (read_after_claim hway₂).1
  let unexpected := (World.look t₂.world).1.flag || (World.look t₁.world).1.fault.isSome
  obtain ⟨l₄, h₄, hresult, hfarewell⟩ := follows_conclude unexpected
    (World.look t₁.world).1.fault t₃ ((Session.context_journey hway₃).trans hs)
  -- both looks are behind the claim, so what is concluded is what the claim found
  have htearDown : tearDown s = conclude unexpected (World.look t₁.world).1.fault t₃ := rfl
  rw [htearDown]
  exact ⟨{
    before := before
    found := found
    opening := (Session.Move.path hbefore).journey
    course := World.milestones_path hbefore
    after := l₁ ++ l₂ ++ l₃ ++ l₄
    unexpected := unexpected
    closing := hway₃.trans h₄
    farewell := by
      rw [milestones_append, milestones_append, milestones_append,
        show milestones l₁ = [] from hquiet, World.milestones_path h₂, World.milestones_path h₃]
      exact hfarewell
    result := by
      rw [← hfault]
      exact hresult
    unexpected_of_flag := by
      intro hf
      have hread := (read_after_claim hway₃).2 hf
      rw [← show _ = t₃.world.coordinator from hflag] at hread
      exact Bool.or_eq_true_iff.mpr (.inl hread)
    unexpected_of_fault := by
      intro hf
      rw [← hfault] at hf
      exact Bool.or_eq_true_iff.mpr (.inr hf) }⟩

theorem recounts_runToRelease :
    Recounts (σ := σ) k (OpeningCourse k.configuration.controller.firstIteration)
      runToRelease := by
  refine recounts_bind follows_runToTeardown fun _ l hl => ?_
  have hcourse : Recounts (σ := σ) k
      (fun m => OpeningCourse k.configuration.controller.firstIteration (l ++ m)) tearDown := by
    intro s hs
    obtain ⟨a⟩ := recounts_tearDown s hs
    exact ⟨{ a with
      course := by
        rw [a.course, List.append_nil]
        exact hl }⟩
  refine recounts_then hcourse fun r => follows_bind_quietly (follows_enter _) fun _ => ?_
  exact follows_bind_quietly follows_terminate fun _ => follows_pure ⟨rfl, rfl⟩

theorem run_of_not_idle {s : Session σ} (h : s.controller.stage ≠ .idle) :
    run s = (.error .alreadyRun, s) := by
  change (if s.controller.stage ≠ .idle then _ else _ : Driven σ _) s = _
  rw [if_pos h]
  rfl

theorem run_of_idle {s : Session σ} (h : s.controller.stage = .idle) :
    run s = runOnce s.watches s := by
  change (if s.controller.stage ≠ .idle then _ else _ : Driven σ _) s = _
  rw [if_neg (not_not_intro h)]
  rfl

/-- There is an account of every run of a controller that has not run before. -/
theorem account (s : Session σ) (h : s.controller.stage = .idle) :
    Nonempty (Account
      (OpeningCourse s.controller.context.configuration.controller.firstIteration) s
      (run s).1 (run s).2) := by
  rw [run_of_idle h]
  refine recounts_bind follows_bindThread (fun _ l hl => ?_) s rfl
  rw [show l = [] from hl]
  by_cases hw : s.watches = true
  · rw [if_pos hw]
    refine recounts_bind (follows_watch hw) fun previous m hm => ?_
    rw [show m = [] from hm]
    refine recounts_then recounts_runToRelease fun r => ?_
    exact follows_bind_quietly (follows_unwatch hw previous) fun _ => follows_pure ⟨rfl, rfl⟩
  · rw [if_neg hw]
    exact recounts_runToRelease

/-! ## Histories of runs -/

/-- What happens in a run. -/
def runHistory (s : Session σ) : List (Moment σ) :=
  (run s).2.world.past.drop s.world.past.length

def event? : Moment σ → Option Event
  | .round e => some e
  | _ => none

/-- The events that listeners were told of in a history, in order. -/
def events (l : List (Moment σ)) : List Event := l.filterMap event?

def act? : Moment σ → Option ThreadAct
  | .acted a => some a
  | _ => none

/-- What others than the controller did to the coordinator in a history, in order. -/
def acts (l : List (Moment σ)) : List ThreadAct := l.filterMap act?

theorem mem_of_events {l : List (Moment σ)} {e : Event} (h : e ∈ events l) : .round e ∈ l := by
  obtain ⟨m, hm, he⟩ := List.mem_filterMap.mp h
  cases m with
  | round _ =>
      cases he
      exact hm
  | _ => cases he

end Controller

end CommuteSim
