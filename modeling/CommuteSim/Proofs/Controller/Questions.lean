import CommuteSim.Proofs.Controller.Completions
import CommuteSim.Proofs.Controller.Promptness

/-!
# Questions

Before each iteration somebody is asked whether it is to run: the criterion if there is one, and
the simulation if there is none. A question leaves a moment in the history, and so does an iteration
that starts; the other parts of a run leave neither. Nobody is asked once a shutdown was requested,
since between the look at the flag and the question nobody else acts.

Main statements: `brings_startUp` and `brings_iteration` for the parts of a run,
`passes_wantsIteration` for a question.
-/

namespace CommuteSim

variable {σ α β : Type}

namespace Controller

open Session (Unbooked)

/-! ## Questions and starts -/

def asked? : Moment σ → Option IterationIndex
  | .asked i => some i
  | _ => none

/-- The iterations that were asked for in a history, in order. -/
def asks (l : List (Moment σ)) : List IterationIndex := l.filterMap asked?

def started? : Moment σ → Option IterationIndex
  | .began (.phase .iterationStart i) => some i
  | _ => none

/-- The iterations that started in a history, in order. -/
def starts (l : List (Moment σ)) : List IterationIndex := l.filterMap started?

@[simp] theorem asks_append (l m : List (Moment σ)) : asks (l ++ m) = asks l ++ asks m :=
  List.filterMap_append ..

@[simp] theorem starts_append (l m : List (Moment σ)) : starts (l ++ m) = starts l ++ starts m :=
  List.filterMap_append ..

theorem asks_milestones (l : List (Moment σ)) : asks (milestones l) = asks l := by
  refine filterMap_milestones (fun m hm => ?_) l
  cases m with
  | asked i => cases hm
  | _ => rfl

theorem starts_milestones (l : List (Moment σ)) : starts (milestones l) = starts l := by
  refine filterMap_milestones (fun m hm => ?_) l
  cases m with
  | began step => cases hm
  | _ => rfl

theorem mem_asks {l : List (Moment σ)} {i : IterationIndex} : i ∈ asks l ↔ .asked i ∈ l := by
  unfold asks
  rw [List.mem_filterMap]
  constructor
  · rintro ⟨m, hm, hasked⟩
    cases m with
    | asked j =>
        obtain rfl := Option.some.inj hasked
        exact hm
    | _ => cases hasked
  · exact fun h => ⟨_, h, rfl⟩

theorem mem_outcomes {l : List (Moment σ)} {step : Step} {p : Progress} :
    (step, p) ∈ outcomes l ↔ ∃ result, .ended step result p ∈ l := by
  unfold outcomes
  rw [List.mem_filterMap]
  constructor
  · rintro ⟨m, hm, hended⟩
    cases m with
    | ended step' result p' =>
        cases hended
        exact ⟨result, hm⟩
    | _ => cases hended
  · rintro ⟨result, h⟩
    exact ⟨_, h, rfl⟩

/-! ## What courses tell of questions and starts -/

/-- Whether nothing is told but of questions and of iterations that start. -/
structure Heads (v : Moment σ → Option β) : Prop where
  began : ∀ step, (∀ i, step ≠ .phase .iterationStart i) → v (.began step) = none
  ended : ∀ step result p, v (.ended step result p) = none
  round : ∀ e, v (.round e) = none
  mobsim : ∀ i g, v (.mobsim i g) = none

theorem heads_asked : Heads (σ := σ) asked? :=
  ⟨fun _ _ => rfl, fun _ _ _ => rfl, fun _ => rfl, fun _ _ => rfl⟩

theorem heads_started : Heads (σ := σ) started? where
  began step h := by
    cases step with
    | phase p i =>
        cases p with
        | iterationStart => exact absurd rfl (h i)
        | _ => rfl
    | _ => rfl
  ended _ _ _ := rfl
  round _ := rfl
  mobsim _ _ := rfl

/-- A course that tells this, whether or not the run goes on after it. -/
def Tells (v : Moment σ → Option β) (c : List β) (A : Course σ) : Prop :=
  ∀ p l, A p l → l.filterMap v = c

section Tells

variable {v : Moment σ → Option β} {c : List β} {A B : Course σ}

theorem tells_step (hv : Heads v) {step : Step} {R : Outcome Fault Unit → List (Moment σ) → Prop}
    (hR : ∀ result l, R result l → l.filterMap v = []) :
    Tells v (v (.began step)).toList (stepCourse step R) := by
  rintro p l ⟨result, inner, hinner, rfl⟩
  rw [List.filterMap_append, List.filterMap_cons, hR result inner hinner]
  cases v (.began step) <;> simp [hv.ended]

/-- A step that is not the first one of an iteration tells nothing. -/
theorem tells_nothing (hv : Heads v) {step : Step}
    {R : Outcome Fault Unit → List (Moment σ) → Prop}
    (hR : ∀ result l, R result l → l.filterMap v = [])
    (hstep : ∀ i, step ≠ .phase .iterationStart i) : Tells v [] (stepCourse step R) := by
  have htells : Tells v (v (.began step)).toList (stepCourse step R) := tells_step hv hR
  rwa [hv.began step hstep] at htells

theorem tells_andThen (hA : Tells v c A) (hB : Tells v [] B) : Tells v c (A.andThen B) := by
  rintro p l (⟨-, h⟩ | ⟨m, n, hm, hn, rfl⟩)
  · exact hA _ _ h
  · rw [List.filterMap_append, hA _ _ hm, hB _ _ hn, List.append_nil]

theorem tells_pass : Tells v [] Course.pass := by
  rintro p l ⟨-, rfl⟩
  rfl

theorem tells_rounds (hv : Heads v) (es : List Event) : (es.map Moment.round).filterMap v = [] := by
  rw [List.filterMap_map]
  exact List.filterMap_eq_nil_iff.mpr fun e _ => hv.round e

theorem tells_startUp (hv : Heads v) : Tells v [] startUpCourse := by
  have hquiet : ∀ step, (∀ i, step ≠ .phase .iterationStart i) →
      Tells v [] (stepCourse step Quietly) := by
    intro step hstep
    refine tells_nothing hv (fun _ l hl => ?_) hstep
    rw [show l = [] from hl]
    rfl
  have hstartup : Tells v [] (stepCourse .startup (Announces .startup)) := by
    refine tells_nothing hv (fun _ l hl => ?_) fun _ => nofun
    rw [show l = _ from hl]
    exact tells_rounds hv [.startup]
  exact tells_andThen (hquiet .load fun _ => nofun) (tells_andThen hstartup
    (tells_andThen (hquiet .check fun _ => nofun) (hquiet .prepare fun _ => nofun)))

variable {i : IterationIndex}

theorem tells_round (hv : Heads v) {p : Phase} (hp : p ≠ .iterationStart) :
    Tells v [] (roundCourse p i) := by
  refine tells_nothing hv (fun _ l hl => ?_) fun j heq => ?_
  · rw [show l = _ from hl]
    exact tells_rounds hv _
  · cases heq
    exact hp rfl

theorem tells_mobsim (hv : Heads v) : Tells v [] (MobsimCourse i) := by
  have hbefore : Tells v [] (roundCourse .beforeMobsim i) := tells_round hv nofun
  have hafter : Tells v [] (roundCourse .afterMobsim i) := tells_round hv nofun
  have hmobsim : Tells v [] (stepCourse (.phase .mobsim i) (Simulates i)) := by
    refine tells_nothing hv (fun _ l hl => ?_) fun _ => nofun
    obtain ⟨g, rfl⟩ := hl
    simp [hv.mobsim]
  rintro p l (⟨before, mobsim, after⟩ | ⟨before, mobsim, after⟩ | ⟨before, after⟩)
  · simp [hbefore _ _ before, hmobsim _ _ mobsim, hafter _ _ after]
  · simp [hbefore _ _ before, hmobsim _ _ mobsim, hafter _ _ after]
  · simp [hbefore _ _ before, hafter _ _ after]

/-- The phases of an iteration tell that it starts. -/
theorem tells_phases (hv : Heads v) (first i : IterationIndex) :
    Tells v (v (.began (.phase .iterationStart i))).toList (phasesCourse first i) := by
  have hbegin : Tells v (v (.began (.phase .iterationStart i))).toList
      (stepCourse (.phase .iterationStart i) (Begins i)) := by
    refine tells_step hv fun _ l hl => ?_
    rcases hl with rfl | ⟨rfl, -⟩
    · exact tells_rounds hv [.iterationStart i]
    · rfl
  have hreplanning : Tells v []
      (if first < i then roundCourse .replanning i else Course.pass) := by
    split
    · exact tells_round hv nofun
    · exact tells_pass
  exact tells_andThen hbegin (tells_andThen hreplanning (tells_andThen (tells_mobsim hv)
    (tells_andThen (tells_round hv nofun) (tells_round hv nofun))))

end Tells

/-- In a part of a run these iterations are asked for, these start, and these end without an
abort. -/
structure Brings (a b c : List IterationIndex) (l : List (Moment σ)) : Prop where
  asks : asks l = a
  starts : starts l = b
  completions : completions l = c

theorem Brings.append {a b c a' b' c' : List IterationIndex} {l m : List (Moment σ)}
    (h : Brings a b c l) (h' : Brings a' b' c' m) :
    Brings (a ++ a') (b ++ b') (c ++ c') (l ++ m) where
  asks := by rw [asks_append, h.asks, h'.asks]
  starts := by rw [starts_append, h.starts, h'.starts]
  completions := by rw [completions_append, h.completions, h'.completions]

theorem brings_of_milestones {a b c : List IterationIndex} {l : List (Moment σ)}
    (h : Brings a b c (milestones l)) : Brings a b c l :=
  ⟨(asks_milestones l).symm.trans h.asks, (starts_milestones l).symm.trans h.starts,
    (completions_milestones l).symm.trans h.completions⟩

theorem brings_startUp {p : Progress} {l : List (Moment σ)} (h : startUpCourse p l) :
    Brings [] [] [] l :=
  ⟨tells_startUp heads_asked _ _ h, tells_startUp heads_started _ _ h,
    (yields_startUp _ _ h).completions⟩

theorem brings_iteration {first i : IterationIndex} {p : Progress} {l : List (Moment σ)}
    (h : IterationCourse first i p l) :
    Brings [] [i] (if p = .proceed then [i] else []) l := by
  have hphases : ∀ q m, phasesCourse first i q m →
      Brings (σ := σ) [] [i] (completion? (.phase .iterationEnd i, q)).toList m := fun q m hm =>
    ⟨tells_phases heads_asked first i _ _ hm, tells_phases heads_started first i _ _ hm,
      (yields_phases first i _ _ hm).completions⟩
  cases h with
  | @completed m h ledger =>
      have hreported : Brings (σ := σ) [] [] [] [.reported ledger] := ⟨rfl, rfl, rfl⟩
      exact (hphases _ _ h).append hreported
  | cut h => exact hphases _ _ h

/-- An iteration with the question that it starts on. -/
theorem brings_turn {first i : IterationIndex} {p : Progress} {l : List (Moment σ)}
    (h : IterationCourse first i p l) :
    Brings [i] [i] (if p = .proceed then [i] else [])
      ([.asked i, .answered i (.ok true)] ++ l) := by
  have hasked : Brings (σ := σ) [i] [] [] [.asked i, .answered i (.ok true)] := ⟨rfl, rfl, rfl⟩
  exact hasked.append (brings_iteration h)

/-! ## Questions and the flag -/

/-- Nobody is asked once a shutdown was requested. -/
def Calm (s : Session σ) (l : List (Moment σ)) : Prop :=
  ∀ a i b, l = a ++ .asked i :: b → s.world.coordinator.flag = false ∧ .raised ∉ a

section Calm

variable {s t u : Session σ} {l m : List (Moment σ)} {stretch : Stretch}

theorem calm_of_none (h : asks l = []) : Calm s l := by
  rintro a i b rfl
  simp [asks, asked?] at h

theorem Calm.append (hl : Calm s l) (h : Session.Journey stretch s l t) (hm : Calm t m) :
    Calm s (l ++ m) := by
  intro a i b hsplit
  rcases split_append hsplit with ⟨c, hfirst⟩ | ⟨c, rfl, hsecond⟩
  · exact hl a i c hfirst
  · -- the flag is down when the question comes, so it was down all the way
    obtain ⟨hflag, hraised⟩ := hm c i b hsecond
    refine ⟨Bool.eq_false_iff.mpr fun hup => ?_, fun hmem => ?_⟩
    · exact Bool.eq_false_iff.mp hflag ((Session.later_journey h).flag hup)
    · rcases List.mem_append.mp hmem with hmem | hmem
      · exact Bool.eq_false_iff.mp hflag (Session.flag_of_raised_journey h hmem)
      · exact hraised hmem

theorem Calm.append_none (hl : Calm s l) (hm : asks m = []) : Calm s (l ++ m) := by
  intro a i b hsplit
  rcases split_append hsplit with ⟨c, hfirst⟩ | ⟨c, rfl, hsecond⟩
  · exact hl a i c hfirst
  · have hmem : .asked i ∈ m := hsecond ▸ List.mem_append_right c List.mem_cons_self
    rw [← mem_asks, hm] at hmem
    cases hmem

end Calm

/-! ## Work up to the teardown -/

/-- Work that leads a session along a calm journey; its milestones go with its value, the session
that it finds and the session that it leaves. -/
def Passes (k : Context) (work : Driven σ α)
    (C : α → Session σ → List (Moment σ) → Session σ → Prop) : Prop :=
  ∀ s : Session σ, s.controller.context = k →
    ∃ l, Session.Journey .opening s l (work s).2 ∧ Calm s l ∧
      C (work s).1 s (milestones l) (work s).2

/-- The flag goes along with what happens: it stays up, and it is up where a step has aborted the
run. -/
structure Flagged (s : Session σ) (l : List (Moment σ)) (u : Session σ) : Prop where
  stays : s.world.coordinator.flag = true → u.world.coordinator.flag = true
  aborted : ∀ step, (step, .aborted) ∈ outcomes l → u.world.coordinator.flag = true

theorem flagged_journey {stretch : Stretch} {s u : Session σ} {l : List (Moment σ)}
    (h : Session.Journey stretch s l u) : Flagged s (milestones l) u where
  stays := (Session.later_journey h).flag
  aborted step hstep := by
    rw [outcomes_milestones] at hstep
    obtain ⟨result, hended⟩ := mem_outcomes.mp hstep
    clear hstep
    induction h with
    | refl => cases hended
    | @tail t u l m _ hmove ih =>
        rcases List.mem_append.mp hended with hended | hended
        · exact (Session.later_move hmove).flag (ih hended)
        · have hprogress := Session.progress_of_ended hmove hended
          rw [Coordinator.progress] at hprogress
          split at hprogress
          · assumption
          · cases hprogress

section Rules

variable {k : Context}

theorem passes_pure {C : α → Session σ → List (Moment σ) → Session σ → Prop} {a : α}
    (h : ∀ s, C a s [] s) : Passes k (pure a) C :=
  fun s _ => ⟨[], .refl s, calm_of_none rfl, h s⟩

theorem passes_mono {work : Driven σ α}
    {C D : α → Session σ → List (Moment σ) → Session σ → Prop} (h : Passes k work C)
    (h' : ∀ a s l u, C a s l u → D a s l u) : Passes k work D := by
  intro s hs
  obtain ⟨l, hl, hcalm, hC⟩ := h s hs
  exact ⟨l, hl, hcalm, h' _ _ _ _ hC⟩

theorem passes_of_follows {work : Driven σ α} {L : α → List (Moment σ) → Prop}
    {R : Session σ → Session σ → Prop} (h : Follows .opening k work L)
    (hL : ∀ a l, L a l → asks l = []) (hwork : Upholds R work) :
    Passes k work fun a s l u => L a l ∧ R s u ∧ Flagged s l u := by
  intro s hs
  obtain ⟨l, hl, hlist⟩ := h s hs
  have hnone : asks l = [] := (asks_milestones l).symm.trans (hL _ _ hlist)
  exact ⟨l, hl, calm_of_none hnone, hlist, hwork s, flagged_journey hl⟩

theorem passes_quietly {work : Driven σ α} {R : Session σ → Session σ → Prop}
    (h : Follows .opening k work Quietly) (hwork : Upholds R work) :
    Passes k work fun _ s l u => l = [] ∧ R s u ∧ Flagged s l u :=
  passes_of_follows h (fun _ _ hl => congrArg asks hl) hwork

theorem passes_bind {work : Driven σ α} {next : α → Driven σ β}
    {C : α → Session σ → List (Moment σ) → Session σ → Prop}
    {D : β → Session σ → List (Moment σ) → Session σ → Prop} (h : Passes k work C)
    (h' : ∀ a s l t, C a s l t →
      Passes k (next a) fun b t' m u => t' = t → D b s (l ++ m) u) :
    Passes k (work >>= next) D := by
  intro s hs
  obtain ⟨l, hl, hcalm, hC⟩ := h s hs
  obtain ⟨m, hm, hcalm', hD⟩ := h' _ _ _ _ hC (work s).2 ((Session.context_journey hl).trans hs)
  have hboth := hD rfl
  rw [← milestones_append] at hboth
  exact ⟨l ++ m, hl.trans hm, hcalm.append hl hcalm', hboth⟩

end Rules

/-! ## The question -/

/-- Nobody but the simulation is asked, and it says yes up to the last iteration of the
configuration. -/
def AsksByDefault (c : Controller σ) : Prop :=
  c.criterion = none ∧ c.simulation.continues =
    fun k i => .done (i ≤ k.configuration.controller.lastIteration)

theorem asksByDefault_of_uncounted {s u : Session σ} (h : Session.Uncounted s u)
    (hs : AsksByDefault s.controller) : AsksByDefault u.controller := by
  rw [AsksByDefault, h.criterion, h.simulation]
  exact hs

/-- The question whether an iteration is to run. -/
inductive Asks (k : Context) (i : IterationIndex) (s : Session σ) :
    Bool → List (Moment σ) → Session σ → Prop where
  /-- A shutdown was requested, so nobody is asked. -/
  | unasked {u : Session σ} (h : u.world.coordinator.flag = true) : Asks k i s false [] u
  | asked {u : Session σ} (answer : Outcome Empty Bool)
      (h : AsksByDefault s.controller →
        answer = .ok (decide (i ≤ k.configuration.controller.lastIteration))) :
      Asks k i s (answer.toOption.getD false) [.asked i, .answered i answer] u

/-- The simulation, or whoever else is to be asked, is asked, and the answer is heeded. -/
def putQuestion (i : IterationIndex) : Driven σ Bool := do
  let c := (← get).controller
  onWorld (World.note (.asked i))
  heed i (← onWorld (c.question i).run)

/-- A question that is put while no shutdown is requested. -/
theorem asks_putQuestion {k : Context} (i : IterationIndex) {s t : Session σ}
    (hst : t.controller = s.controller) (hs : s.controller.context = k)
    (hdown : t.world.coordinator.flag = false) :
    ∃ l, Session.Journey .opening t l (putQuestion i t).2 ∧ Calm t l ∧
      Asks k i s (putQuestion i t).1 (milestones l) (putQuestion i t).2 := by
  let t' := (onWorld (World.note (.asked i)) t).2
  let asking := onWorld (t.controller.question i).run
  have hanswered : putQuestion i t = heed i (asking t').1 (asking t').2 := rfl
  have ht' : t'.controller.context = k := (congrArg Controller.context hst).trans hs
  obtain ⟨l₁, h₁, hquiet⟩ : ∃ l, Session.Journey .opening t' l (asking t').2 ∧
      milestones l = [] :=
    follows_onWorld (k := k) (World.wanders_run _) t' ht'
  obtain ⟨l₂, h₂, hwanted, hheed⟩ := follows_heed (k := k) i (asking t').1 (asking t').2
    ((Session.context_journey h₁).trans ht')
  have hnote : Session.Journey .opening t [.asked i] t' := (Session.Move.note rfl).journey
  have hasked : Calm t [.asked i] := by
    intro a j b hsplit
    cases a with
    | nil => exact ⟨hdown, nofun⟩
    | cons x a => simp at hsplit
  have hrest : Calm t' (l₁ ++ l₂) := by
    refine calm_of_none ?_
    rw [← asks_milestones, milestones_append, hquiet, hheed]
    rfl
  have hmilestones : milestones ([.asked i] ++ (l₁ ++ l₂)) =
      [.asked i, .answered i (asking t').1] := by
    rw [milestones_append, milestones_append, hquiet, hheed]
    rfl
  rw [hanswered]
  refine ⟨[.asked i] ++ (l₁ ++ l₂), hnote.trans (h₁.trans h₂), hasked.append hnote hrest, ?_⟩
  rw [hmilestones, hwanted]
  refine .asked _ fun ⟨hcriterion, hcontinues⟩ => ?_
  have hquestion : t.controller.question i =
      .done (decide (i ≤ k.configuration.controller.lastIteration)) := by
    rw [hst, question, hcriterion, ← hs]
    exact congrFun (congrFun hcontinues _) i
  change (onWorld (t.controller.question i).run t').1 = _
  rw [hquestion]
  rfl

/-- Between the look at the flag and the question nobody else acts. -/
theorem passes_wantsIteration {k : Context} (i : IterationIndex) :
    Passes (σ := σ) k (wantsIteration i) fun wanted s l u =>
      Asks k i s wanted l u ∧ Unbooked s u := by
  intro s hs
  obtain ⟨l₀, h₀, hlook⟩ := World.path_look s.world
  -- `t` is the session in which the flag was read
  let t := s.inWorld (World.look s.world).2
  have hway : Session.Journey .opening s l₀ t := (Session.Move.path h₀).journey
  have hquiet : milestones l₀ = [] := World.milestones_path h₀
  have hcalm : Calm s l₀ := calm_of_none ((asks_milestones l₀).symm.trans (congrArg asks hquiet))
  have hbooks : Unbooked s (wantsIteration i s).2 := unbooked_wantsIteration i s
  have hwants : wantsIteration i s =
      (if (World.look s.world).1.flag = true then pure false
        else putQuestion i : Driven σ Bool) t := rfl
  rw [hlook] at hwants
  by_cases hflag : (World.look s.world).2.coordinator.flag = true
  · rw [if_pos hflag] at hwants
    rw [hwants] at hbooks ⊢
    refine ⟨l₀, hway, hcalm, ?_, hbooks⟩
    rw [hquiet]
    exact .unasked hflag
  · rw [if_neg hflag] at hwants
    obtain ⟨l, hl, hcalm', hasks⟩ :=
      asks_putQuestion (s := s) (t := t) i rfl hs (Bool.eq_false_iff.mpr hflag)
    rw [hwants] at hbooks ⊢
    refine ⟨l₀ ++ l, hway.trans hl, hcalm.append hway hcalm', ?_, hbooks⟩
    rw [milestones_append, hquiet]
    exact hasks

end Controller

end CommuteSim
