import CommuteSim.Proofs.Controller.Journey

/-!
# What work leaves in the history

Work of a controller follows a rule on values and milestones if it leads a session along a journey
on which the milestones are as the rule says for the value that it gives. The rules for composed
work are those of its parts, one behind the other.

Main statements: `follows_bind` and `follows_bind_run` for work in a row, which can fail in the
second; `follows_settle` and `follows_heed` for what a controller does with how a step or a question
ended.
-/

namespace CommuteSim

variable {σ α β : Type}

/-- Work that leads a session along a journey, and leaves milestones that go with its value. -/
def Follows (stretch : Stretch) (k : Context) (work : Driven σ α)
    (L : α → List (Moment σ) → Prop) : Prop :=
  ∀ s : Session σ, s.controller.context = k →
    ∃ l, Session.Journey stretch s l (work s).2 ∧ L (work s).1 (milestones l)

/-- The course of work that leaves no milestone. -/
def Quietly (_ : α) (l : List (Moment σ)) : Prop := l = []

section Rules

variable {stretch : Stretch} {k : Context}

/-! ## Rules -/

theorem follows_pure {L : α → List (Moment σ) → Prop} {a : α} (h : L a []) :
    Follows stretch k (pure a) L :=
  fun s _ => ⟨[], .refl s, h⟩

theorem follows_mono {work : Driven σ α} {L M : α → List (Moment σ) → Prop}
    (h : Follows stretch k work L) (h' : ∀ a l, L a l → M a l) : Follows stretch k work M := by
  intro s hs
  obtain ⟨l, hl, hL⟩ := h s hs
  exact ⟨l, hl, h' _ _ hL⟩

theorem follows_bind {work : Driven σ α} {next : α → Driven σ β}
    {L : α → List (Moment σ) → Prop} {M : β → List (Moment σ) → Prop} (h : Follows stretch k work L)
    (h' : ∀ a l, L a l → Follows stretch k (next a) fun b m => M b (l ++ m)) :
    Follows stretch k (work >>= next) M := by
  intro s hs
  obtain ⟨l, hl, hL⟩ := h s hs
  obtain ⟨m, hm, hM⟩ := h' _ _ hL (work s).2 ((Session.context_journey hl).trans hs)
  rw [← milestones_append] at hM
  exact ⟨l ++ m, hl.trans hm, hM⟩

/-- Work that leaves no milestone comes before other work without a trace. -/
theorem follows_bind_quietly {work : Driven σ α} {next : α → Driven σ β}
    {M : β → List (Moment σ) → Prop} (h : Follows stretch k work Quietly)
    (h' : ∀ a, Follows stretch k (next a) M) : Follows stretch k (work >>= next) M := by
  refine follows_bind h fun a l hl => ?_
  rw [show l = [] from hl]
  exact h' a

theorem follows_get {next : Session σ → Driven σ β} {M : β → List (Moment σ) → Prop}
    (h : ∀ s : Session σ, s.controller.context = k → Follows stretch k (next s) M) :
    Follows stretch k (get >>= next) M :=
  fun s hs => h s hs s hs

theorem follows_onWorld {work : StateM (World σ) α} (h : World.Wanders work) :
    Follows stretch k (onWorld work) Quietly := by
  intro s _
  obtain ⟨l, hl⟩ := h s.world
  exact ⟨l, (Session.Move.path hl).journey, World.milestones_path hl⟩

theorem follows_note {m : Moment σ} (h : m.plain stretch = true) :
    Follows stretch k (onWorld (World.note m)) fun _ l => l = [m] :=
  fun _ _ => ⟨[m], (Session.Move.note h).journey,
    List.filter_cons_of_pos (Moment.milestone_of_plain h)⟩

/-- The controller writes in its books; it may read the world and seed the generator. -/
theorem follows_modify {f : Session σ → Session σ}
    (hc : ∀ s, (f s).controller.context = s.controller.context)
    (hw : ∀ s, (f s).world = { s.world with generator := (f s).world.generator }) :
    Follows stretch k (modify f) Quietly := by
  intro s _
  have hmove : Session.Move stretch s [] (f s) := by
    have h : Session.Move stretch s [] _ := .books (f s).controller (f s).world.generator (hc s)
    rwa [← hw s] at h
  exact ⟨[], hmove.journey, rfl⟩

/-! ## Rules for work that can fail -/

theorem follows_bind_run {work : Guarded σ α} {next : α → Guarded σ β}
    {L : Outcome Fault α → List (Moment σ) → Prop} {M : Outcome Fault β → List (Moment σ) → Prop}
    (h : Follows stretch k work.run L)
    (hok : ∀ a l, L (.ok a) l → Follows stretch k (next a).run fun b m => M b (l ++ m))
    (herror : ∀ e l, L (.error e) l → M (.error e) l) :
    Follows stretch k (work >>= next).run M := by
  intro s hs
  obtain ⟨l, hl, hL⟩ := h s hs
  rw [run_bind_except]
  cases hr : (work.run s).1 with
  | ok a =>
      rw [hr] at hL
      obtain ⟨m, hm, hM⟩ := hok a _ hL (work.run s).2 ((Session.context_journey hl).trans hs)
      rw [← milestones_append] at hM
      exact ⟨l ++ m, hl.trans hm, hM⟩
  | error e =>
      rw [hr] at hL
      exact ⟨l, hl, herror e _ hL⟩

/-- Work that leaves no milestone comes before other work without a trace, and may fail. -/
theorem follows_bind_run_quietly {work : Guarded σ α} {next : α → Guarded σ β}
    {M : Outcome Fault β → List (Moment σ) → Prop} (h : Follows stretch k work.run Quietly)
    (hok : ∀ a, Follows stretch k (next a).run M) (herror : ∀ e, M (.error e) []) :
    Follows stretch k (work >>= next).run M := by
  refine follows_bind_run h (fun a l hl => ?_) fun e l hl => ?_
  · rw [show l = [] from hl]
    exact hok a
  · rw [show l = [] from hl]
    exact herror e

/-- Work that cannot fail, before work that can. -/
theorem follows_bind_of {work : Driven σ α} {next : α → Guarded σ β}
    {L : α → List (Moment σ) → Prop} {M : Outcome Fault β → List (Moment σ) → Prop}
    (h : Follows stretch k work L)
    (h' : ∀ a l, L a l → Follows stretch k (next a).run fun b m => M b (l ++ m)) :
    Follows stretch k (Guarded.of work >>= next).run M := by
  have hbind : Follows stretch k (work >>= fun a => (next a).run) M := follows_bind h h'
  exact hbind

theorem follows_bind_of_quietly {work : Driven σ α} {next : α → Guarded σ β}
    {M : Outcome Fault β → List (Moment σ) → Prop} (h : Follows stretch k work Quietly)
    (h' : ∀ a, Follows stretch k (next a).run M) :
    Follows stretch k (Guarded.of work >>= next).run M := by
  have hbind : Follows stretch k (work >>= fun a => (next a).run) M := follows_bind_quietly h h'
  exact hbind

theorem follows_get_run {next : Session σ → Guarded σ β}
    {M : Outcome Fault β → List (Moment σ) → Prop}
    (h : ∀ s : Session σ, s.controller.context = k → Follows stretch k (next s).run M) :
    Follows stretch k (getThe (Session σ) >>= next).run M :=
  fun s hs => h s hs s hs

theorem follows_throw {e : Abort Fault} {L : Outcome Fault α → List (Moment σ) → Prop}
    (h : L (.error e) []) : Follows stretch k (throw e : Guarded σ α).run L :=
  follows_pure h

end Rules

namespace Controller

variable {k : Context}

/-! ## Guards -/

theorem disclosed_report (watches : Bool) (origin : String) (a : Abort Fault) (w : World σ) :
    ∃ l, World.Disclosed watches (some (origin, a)) w l
      (World.report origin (a.fault origin) w).2 := by
  obtain ⟨l, hl⟩ := World.wanders_yield w
  rw [World.report_world]
  exact ⟨_, .recorded w.clock hl⟩

theorem reportPanic_of_fault {origin : String} {x : Panic} {s : Session σ}
    (hw : s.watches = true)
    (hf : (World.look s.world).1.fault.isSome = true) :
    (reportPanic origin x s).2 = s.inWorld (World.look s.world).2 := by
  change ((if s.watches = true then _ else _ : Driven σ Unit) s).2 = _
  rw [if_pos hw]
  change ((if (World.look s.world).1.fault.isSome = true then _ else _ : Driven σ Unit) _).2 = _
  rw [if_pos hf]
  rfl

theorem reportPanic_of_none {origin : String} {x : Panic} {s : Session σ}
    (hw : s.watches = true)
    (hf : ¬ (World.look s.world).1.fault.isSome = true) :
    (reportPanic origin x s).2 = s.inWorld
      (World.report origin (.panic origin x.payload.message) (World.look s.world).2).2 := by
  change ((if s.watches = true then _ else _ : Driven σ Unit) s).2 = _
  rw [if_pos hw]
  change ((if (World.look s.world).1.fault.isSome = true then _ else _ : Driven σ Unit) _).2 = _
  rw [if_neg hf]
  rfl

theorem reportPanic_of_not_watches {origin : String} {x : Panic} {s : Session σ}
    (hw : ¬ s.watches = true) :
    (reportPanic origin x s).2 = s.inWorld
      (World.report origin (.panic origin x.payload.message) s.world).2 := by
  change ((if s.watches = true then _ else _ : Driven σ Unit) s).2 = _
  rw [if_neg hw]
  rfl

/-- A panic is reported, or the handler has reported one. -/
theorem disclosed_reportPanic (origin : String) (x : Panic) (s : Session σ) :
    ∃ l v, World.Disclosed s.watches (some (origin, .panic x)) s.world l v ∧
      (reportPanic origin x s).2 = s.inWorld v := by
  by_cases hw : s.watches = true
  -- where panics are watched for, the slot tells whether this one is reported already
  · obtain ⟨l, hl, hlook⟩ := World.path_look s.world
    by_cases hf : (World.look s.world).1.fault.isSome = true
    · exact ⟨l, _, .spared hw hl (hlook ▸ hf), reportPanic_of_fault hw hf⟩
    · obtain ⟨m, hm⟩ := disclosed_report s.watches origin (.panic x)
        (World.look s.world).2
      exact ⟨l ++ m, _, World.Disclosed.of_path hl hm, reportPanic_of_none hw hf⟩
  · obtain ⟨l, hl⟩ := disclosed_report s.watches origin (.panic x) s.world
    exact ⟨l, _, hl, reportPanic_of_not_watches hw⟩

/-- How work failed becomes known to the coordinator. -/
theorem disclosed_disclose (step : Step) (result : Outcome Fault Unit) (s : Session σ) :
    ∃ l v, (∀ progress, World.Disclosed s.watches
        (Moment.ended (σ := σ) step result progress).abort? s.world l v) ∧
      (disclose step.origin result s).2 = s.inWorld v := by
  cases result with
  | ok _ => exact ⟨[], s.world, fun _ => .nothing (.refl s.world), rfl⟩
  | error a =>
      cases a with
      | failure f =>
          obtain ⟨l, hl⟩ := disclosed_report s.watches step.origin (.failure f)
            s.world
          exact ⟨l, _, fun _ => hl, rfl⟩
      | panic x =>
          obtain ⟨l, v, hl, hv⟩ := disclosed_reportPanic step.origin x s
          exact ⟨l, v, fun _ => hl, hv⟩

theorem settle_of_disclose {step : Step} {result : Outcome Fault Unit} {s t : Session σ}
    (h : (disclose step.origin result s).2 = t) :
    settle step result s = ((World.look t.world).1.progress,
      t.inWorld ((World.look t.world).2.noted
        (.ended step result (World.look t.world).1.progress))) := by
  subst h
  exact settle_run step result s

/-- A step that is over leaves how it ended. -/
theorem follows_settle (step : Step) (result : Outcome Fault Unit) :
    Follows (σ := σ) .opening k (settle step result) fun p l => l = [.ended step result p] := by
  intro s _
  obtain ⟨l, v, hl, hv⟩ := disclosed_disclose step result s
  obtain ⟨m, hm, hlook⟩ := World.path_look v
  have hmove := Session.Move.close (hl (World.look v).1.progress) hm
    (congrArg Coordinator.progress hlook)
  rw [settle_of_disclose hv]
  refine ⟨_, hmove.journey, ?_⟩
  rw [milestones_append, milestones_append, World.milestones_disclosed (hl .proceed),
    World.milestones_path hm]
  rfl

/-- An answer leaves what it was. -/
theorem follows_heed (i : IterationIndex) (answer : Outcome Empty Bool) :
    Follows (σ := σ) .opening k (heed i answer) fun b l =>
      b = answer.toOption.getD false ∧ l = [.answered i answer] := by
  intro s _
  have hclose : ∃ l v, World.Disclosed s.watches
      (Moment.answered (σ := σ) i answer).abort? s.world l v ∧
      heed i answer s = (answer.toOption.getD false, s.inWorld (v.noted (.answered i answer))) := by
    have hheed := heed_run i answer s
    cases answer with
    | ok b => exact ⟨[], s.world, .nothing (.refl s.world), hheed⟩
    | error a =>
        cases a with
        | failure e => exact nomatch e
        | panic x =>
            obtain ⟨l, v, hl, hv⟩ := disclosed_reportPanic criterionOrigin x s
            rw [reportAnswer, hv] at hheed
            exact ⟨l, v, hl, hheed⟩
  obtain ⟨l, v, hl, hv⟩ := hclose
  rw [hv]
  refine ⟨_, (Session.Move.close hl (.refl v) trivial).journey, rfl, ?_⟩
  rw [milestones_append, milestones_append, World.milestones_disclosed hl]
  rfl

end Controller

end CommuteSim
