import CommuteSim.Proofs.Controller.Upkeep
import Mathlib.Algebra.Group.Nat.Defs

/-!
# Which generator an iteration finds

The controller seeds the generator afresh before it tells listeners that an iteration starts, and
once more before the mobsim. So what was drawn before, by whomever and however often, decides
neither what the first listener of an iteration finds nor what its mobsim finds: both find the
generator of the seed of the iteration.

Main statements: `seeded_run` for all runs, and `seeding_isolates` for runs of controllers that were
built, two of which are compared.
-/

namespace CommuteSim

variable {σ τ α : Type}

/-! ## What a history tells of generators -/

/-- The generator that a listener finds who is told of the start of an iteration. -/
def Moment.atStart? (i : IterationIndex) : Moment σ → Option Generator
  | .told _ _ (.iterationStart j) _ g => if j = i then some g else none
  | _ => none

theorem Moment.atStart?_of_aside {m : Moment σ} (h : m.aside = true) (i : IterationIndex) :
    m.atStart? i = none := by
  cases m with
  | told _ _ _ _ _ => cases h
  | _ => rfl

def Moment.mobsim? : Moment σ → Option (IterationIndex × Generator)
  | .mobsim i g => some (i, g)
  | _ => none

/-- The mobsims that began in a history, each with the generator that it found. -/
def mobsims (l : List (Moment σ)) : List (IterationIndex × Generator) :=
  l.filterMap Moment.mobsim?

theorem mem_of_mobsims {l : List (Moment σ)} {i : IterationIndex} {g : Generator}
    (h : (i, g) ∈ mobsims l) : .mobsim i g ∈ l := by
  obtain ⟨m, hm, hg⟩ := List.mem_filterMap.mp h
  cases m with
  | mobsim _ _ =>
      cases hg
      exact hm
  | _ => cases hg

/-- The first listener that is told of the start of an iteration, and the mobsim of an iteration,
find the generator that is seeded for the iteration. -/
structure Seeded (base : UInt64) (l : List (Moment σ)) : Prop where
  start : ∀ i g, l.findSome? (Moment.atStart? i) = some g →
    g = Generator.reseeded (iterationSeed base i)
  mobsim : ∀ i g, .mobsim i g ∈ l → g = Generator.reseeded (iterationSeed base i)

section Seeded

variable {base : UInt64} {l m : List (Moment σ)}

theorem findSome?_of_aside (h : ∀ e ∈ l, e.aside = true) (i : IterationIndex) :
    l.findSome? (Moment.atStart? i) = none :=
  List.findSome?_eq_none_iff.mpr fun e he => Moment.atStart?_of_aside (h e he) i

theorem mobsim_not_mem_of_aside (h : ∀ e ∈ l, e.aside = true) (i : IterationIndex)
    (g : Generator) : .mobsim i g ∉ l :=
  fun hm => nomatch h _ hm

/-- Asides tell of no generator. -/
theorem seeded_of_aside (h : ∀ e ∈ l, e.aside = true) : Seeded base l where
  start := by
    intro i g hg
    rw [findSome?_of_aside h i] at hg
    cases hg
  mobsim := fun i g hm => absurd hm (mobsim_not_mem_of_aside h i g)

theorem Seeded.append (h : Seeded base l) (h' : Seeded base m) : Seeded base (l ++ m) where
  start := by
    intro i g hg
    rw [List.findSome?_append, Option.or_eq_some_iff] at hg
    rcases hg with hg | ⟨-, hg⟩
    · exact h.start i g hg
    · exact h'.start i g hg
  mobsim := by
    intro i g hg
    rcases List.mem_append.mp hg with hg | hg
    · exact h.mobsim i g hg
    · exact h'.mobsim i g hg

end Seeded

namespace Session

/-- A session goes on with the same base of its seeds, and its history has gained what is seeded
from there. -/
structure GoesSeeded (s u : Session σ) : Prop where
  base : u.controller.seeding.base = s.controller.seeding.base
  past : ∃ l, u.world.past = s.world.past ++ l ∧ Seeded s.controller.seeding.base l

theorem GoesSeeded.refl (s : Session σ) : GoesSeeded s s :=
  ⟨rfl, [], (List.append_nil _).symm, seeded_of_aside fun _ h => nomatch h⟩

theorem GoesSeeded.trans {s t u : Session σ} (h : GoesSeeded s t) (h' : GoesSeeded t u) :
    GoesSeeded s u := by
  obtain ⟨l, hl, hseeded⟩ := h.past
  obtain ⟨m, hm, hseeded'⟩ := h'.past
  rw [h.base] at hseeded'
  exact ⟨h'.base.trans h.base, l ++ m, by rw [hm, hl, List.append_assoc],
    hseeded.append hseeded'⟩

instance : Std.Refl (GoesSeeded (σ := σ)) := ⟨GoesSeeded.refl⟩

instance : Trans (GoesSeeded (σ := σ)) GoesSeeded GoesSeeded := ⟨GoesSeeded.trans⟩

/-- What happens beside the rounds tells of no generator. -/
theorem goesSeeded_of_onward {s u : Session σ} (h : World.Onward s.world u.world)
    (hbase : u.controller.seeding.base = s.controller.seeding.base) : GoesSeeded s u := by
  obtain ⟨l, hl, haside⟩ := h.past
  exact ⟨hbase, l, hl, seeded_of_aside haside⟩

theorem Aside.goesSeeded {s u : Session σ} (h : Aside s u) : GoesSeeded s u :=
  goesSeeded_of_onward h.world.toOnward h.controller.base

end Session

/-! ## Rounds -/

namespace World

/-- Who is told of an event finds the generator as it is when the telling begins. -/
theorem atStart?_toldMoment {e : Event} {r : Registration σ} {w : World σ} {i : IterationIndex}
    {g : Generator} (h : (ListenerBus.toldMoment e r w).atStart? i = some g) :
    e = .iterationStart i ∧ g = w.generator := by
  cases e with
  | iterationStart j =>
      change (if j = i then some w.generator else none) = some g at h
      split at h
      · rename_i hj
        exact ⟨congrArg Event.iterationStart hj, (Option.some.inj h).symm⟩
      · cases h
  | _ => cases h

/-- One listener is told: no mobsim begins, and of generators the history tells what the listener
finds. -/
theorem tell_generator (e : Event) (r : Registration σ) (w : World σ) :
    ∃ l, (ListenerBus.tell e r w).2.past = w.past ++ l ∧ (∀ i g, .mobsim i g ∉ l) ∧
      ∀ i, l.findSome? (Moment.atStart? i) = (ListenerBus.toldMoment e r w).atStart? i := by
  obtain ⟨l, hl, haside⟩ :=
    (onward_run (r.listener.notify e) (w.noted (ListenerBus.toldMoment e r w))).past
  refine ⟨ListenerBus.toldMoment e r w :: l, ?_, fun i g hm => ?_, fun i => ?_⟩
  · rw [ListenerBus.tell_world, hl, past_noted, List.append_assoc]
    rfl
  · rcases List.mem_cons.mp hm with hm | hm
    · cases hm
    · exact mobsim_not_mem_of_aside haside i g hm
  · rw [List.findSome?_cons, findSome?_of_aside haside i]
    cases (ListenerBus.toldMoment e r w).atStart? i <;> rfl

/-- In a round the first listener that is told finds the generator as it is at the beginning of the
round. By induction on the listeners that are told. -/
theorem tellAll_generator (e : Event) (rs : List (Registration σ)) (w : World σ) :
    ∃ l, (ListenerBus.tellAll e rs w).2.past = w.past ++ l ∧ (∀ i g, .mobsim i g ∉ l) ∧
      ∀ i g, l.findSome? (Moment.atStart? i) = some g →
        e = .iterationStart i ∧ g = w.generator := by
  induction rs generalizing w with
  | nil =>
      refine ⟨[], (List.append_nil _).symm, fun _ _ => List.not_mem_nil, fun i g hg => ?_⟩
      cases hg
  | cons r rest ih =>
      obtain ⟨l, hl, hmobsim, hstart⟩ := tell_generator e r w
      cases htold : (ListenerBus.tell e r w).1 with
      | error a =>
          rw [ListenerBus.tellAll_of_error htold]
          refine ⟨l, hl, hmobsim, fun i g hg => ?_⟩
          rw [hstart] at hg
          exact atStart?_toldMoment hg
      | ok _ =>
          rw [ListenerBus.tellAll_of_ok htold]
          obtain ⟨m, hm, hmobsim', hstart'⟩ := ih (ListenerBus.tell e r w).2
          refine ⟨l ++ m, by rw [hm, hl, List.append_assoc], fun i g hg => ?_, fun i g hg => ?_⟩
          · rcases List.mem_append.mp hg with hg | hg
            · exact hmobsim i g hg
            · exact hmobsim' i g hg
          · rw [List.findSome?_append, hstart, Option.or_eq_some_iff] at hg
            rcases hg with hg | ⟨hnone, hg⟩
            · exact atStart?_toldMoment hg
            · -- a later listener that is told of the start is told after the first one
              obtain ⟨rfl, -⟩ := hstart' i g hg
              change (if i = i then some w.generator else none) = none at hnone
              rw [if_pos rfl] at hnone
              cases hnone

end World

namespace Controller

open Session (GoesSeeded)

/-! ## Parts of a run -/

section Parts

/-- Whatever a collaborator draws, it begins no mobsim and tells nobody that an iteration starts. -/
theorem seeded_collaborate (fault : Cause → Fault) (p : Program σ Cause α) :
    Upholds (GoesSeeded (σ := σ)) (collaborate fault p).run :=
  fun s => Session.goesSeeded_of_onward (World.onward_run p s.world) rfl

/-- A round that begins with the generator of its iteration, if it is told that one starts. -/
theorem seeded_announce {e : Event} {s : Session σ}
    (h : ∀ i, e = .iterationStart i →
      s.world.generator = Generator.reseeded (iterationSeed s.controller.seeding.base i)) :
    GoesSeeded s ((announce e).run s).2 := by
  obtain ⟨l, hl, hmobsim, hstart⟩ := World.tellAll_generator e (s.controller.bus.order e.kind)
    (s.world.noted (.round e))
  have hround : Seeded s.controller.seeding.base (.round e :: l) := by
    constructor
    · intro i g hg
      rw [List.findSome?_cons] at hg
      obtain ⟨he, rfl⟩ := hstart i g hg
      exact h i he
    · intro i g hg
      rcases List.mem_cons.mp hg with hg | hg
      · cases hg
      · exact absurd hg (hmobsim i g)
  rw [announce_run]
  refine ⟨rfl, .round e :: l, ?_, hround⟩
  rw [World.past_noted, List.append_assoc] at hl
  exact hl

theorem seeded_announce_of_ne {e : Event} (h : ∀ i, e ≠ .iterationStart i) :
    Upholds (GoesSeeded (σ := σ)) (announce e).run :=
  fun _ => seeded_announce fun i he => absurd he (h i)

theorem seeded_loadListeners : Upholds (GoesSeeded (σ := σ)) loadListeners.run := by
  refine upholds_bind_run (upholds_lift upholds_get) fun s => ?_
  refine upholds_bind_run (seeded_collaborate _ _) fun ls => ?_
  have hregister : Upholds (GoesSeeded (σ := σ)) (registerCore ls) :=
    fun s => Session.goesSeeded_of_onward (.refl s.world) rfl
  exact upholds_bind_run (upholds_lift hregister) fun _ => seeded_collaborate _ _

theorem seeded_prepare : Upholds (GoesSeeded (σ := σ)) prepare.run :=
  upholds_bind_run (upholds_lift upholds_get) fun _ => seeded_collaborate _ _

/-- To seed the generator afresh leaves nothing in the history. -/
theorem seedAfresh_seeds (i : IterationIndex) (s : Session σ) :
    GoesSeeded s (seedAfresh i s).2 ∧
      (seedAfresh i s).2.world.generator =
        Generator.reseeded (iterationSeed (seedAfresh i s).2.controller.seeding.base i) :=
  ⟨Session.goesSeeded_of_onward (World.onward_of_eq rfl rfl rfl) rfl, rfl⟩

/-- The listeners of the start of an iteration are told after the generator was seeded for it. -/
theorem seeded_start (i : IterationIndex) : Upholds (GoesSeeded (σ := σ)) (do
    makeDirectory i
    Guarded.of (seedAfresh i)
    announce (.iterationStart i) : Guarded σ Unit).run := by
  have hdirectory : Upholds (GoesSeeded (σ := σ)) (makeDirectory i).run :=
    upholds_mono (aside_makeDirectory i) fun _ _ h => h.goesSeeded
  refine upholds_bind_run hdirectory fun _ s => ?_
  obtain ⟨hseed, hgenerator⟩ := seedAfresh_seeds i s
  refine hseed.trans (seeded_announce fun j hj => ?_)
  rw [← Event.iterationStart.inj hj]
  exact hgenerator

/-- The mobsim of an iteration begins after the generator was seeded for it. -/
theorem seeded_simulate (i : IterationIndex) : Upholds (GoesSeeded (σ := σ)) (simulate i).run := by
  intro s
  let t := (seedAfresh i s).2
  obtain ⟨hseed, hgenerator⟩ := seedAfresh_seeds i s
  have hnote : GoesSeeded t (t.noted (.mobsim i t.world.generator)) := by
    refine ⟨rfl, [.mobsim i t.world.generator], World.past_noted t.world _, ?_, ?_⟩
    · intro j g hg
      cases hg
    · intro j g hg
      cases List.mem_singleton.mp hg
      exact hgenerator
  rw [(simulate_run i s).1]
  exact (hseed.trans hnote).trans (seeded_collaborate _ _ _)

end Parts

/-! ## Runs -/

section Runs

variable {s : Session σ} {i : IterationIndex}

theorem kept_goesSeeded : Session.Kept (GoesSeeded s) :=
  fun _ _ haside hs => hs.trans haside.goesSeeded

theorem does_goesSeeded {work : Driven σ α} (h : Upholds GoesSeeded work) :
    Does (GoesSeeded s) work fun _ => GoesSeeded s :=
  does_of_upholds h fun _ _ hgoes hs => hs.trans hgoes

theorem does_phaseStep_seeded (p : Phase) {work : Guarded σ Unit}
    (h : Upholds GoesSeeded work.run) :
    Does (GoesSeeded s) (phaseStep p i work) fun _ => GoesSeeded s :=
  does_mono (does_phaseStep kept_goesSeeded kept_goesSeeded (does_goesSeeded h)) (fun _ h => h)
    fun _ _ h => h.1

theorem does_listenerStep_seeded {p : Phase} (hp : p ≠ .iterationStart) :
    Does (GoesSeeded s) (listenerStep p i) fun _ => GoesSeeded s := by
  refine does_phaseStep_seeded p ?_
  cases p with
  | iterationStart => exact absurd rfl hp
  | mobsim => exact upholds_pure _
  | _ => exact seeded_announce_of_ne nofun

theorem does_mobsimSteps_seeded : Does (GoesSeeded s) (mobsimSteps i) fun _ => GoesSeeded s := by
  have hafter : ∀ mobsim : Progress, Does (GoesSeeded s) (do
      let after ← listenerStep .afterMobsim i
      return if mobsim = .aborted then .aborted else after) fun _ => GoesSeeded s :=
    fun _ => does_bind (does_listenerStep_seeded nofun) fun _ => does_pure fun _ h => h
  refine does_bind (does_listenerStep_seeded (p := .beforeMobsim) nofun) fun before => ?_
  cases before with
  | proceed => exact does_bind (does_phaseStep_seeded .mobsim (seeded_simulate i)) hafter
  | aborted => exact hafter .aborted

theorem does_phases_seeded (i : IterationIndex) :
    Does (GoesSeeded s) (phases i) fun _ => GoesSeeded s := by
  have hrest : Does (GoesSeeded s) (do
      if (← mobsimSteps i) = .aborted then return .aborted
      if (← listenerStep .scoring i) = .aborted then return .aborted
      listenerStep .iterationEnd i) fun _ => GoesSeeded s := by
    refine does_andThen does_mobsimSteps_seeded (fun _ h => h) ?_
    refine does_andThen (does_listenerStep_seeded (p := .scoring) nofun) (fun _ h => h) ?_
    exact does_listenerStep_seeded (p := .iterationEnd) nofun
  have hbegin : Does (GoesSeeded s) (beginIteration i) fun _ => GoesSeeded s :=
    does_phaseStep_seeded .iterationStart (seeded_start i)
  refine does_look fun t => does_andThen hbegin (fun _ h => h) ?_
  by_cases hfirst : t.controller.context.configuration.controller.firstIteration < i
  · simp only [if_pos hfirst]
    exact does_andThen (does_listenerStep_seeded (p := .replanning) nofun) (fun _ h => h) hrest
  · simp only [if_neg hfirst]
    exact hrest

/-- In every run the first listener and the mobsim of an iteration find the generator that is
seeded for the iteration, whatever collaborators draw. -/
theorem seeded_run (s : Session σ) : GoesSeeded s (run s).2 := by
  by_cases hidle : s.controller.stage = .idle
  · obtain ⟨hready, -, hend⟩ := run_parts hidle
    have hbefore := does_runToTeardown kept_goesSeeded kept_goesSeeded
      (does_goesSeeded seeded_loadListeners) (does_goesSeeded (seeded_announce_of_ne nofun))
      (does_goesSeeded seeded_prepare)
      (fun i t ht => Session.GoesSeeded.trans ht
        (Session.goesSeeded_of_onward (World.onward_run (t.controller.question i) t.world) rfl))
      does_phases_seeded (ready s) hready.aside.goesSeeded
    have hafter := does_tearDown kept_goesSeeded
      (fun _ => does_goesSeeded (seeded_announce_of_ne nofun)) (upToTeardown s) hbefore
    exact kept_goesSeeded _ _ hend.aside hafter
  · rw [run_of_not_idle hidle]
    exact .refl s

end Runs

/-- The history of a run is seeded from the base of the run. -/
theorem seeded_runHistory (s : Session σ) :
    Seeded s.controller.seeding.base (runHistory s) := by
  obtain ⟨l, hl, hseeded⟩ := (seeded_run s).past
  rw [runHistory, hl, List.drop_left]
  exact hseeded

/-! ## Seeds -/

theorem toNat_iterationSeed (base : UInt64) (i : IterationIndex) :
    (iterationSeed base i).toNat = (base.toNat + i.toNat) % 2 ^ 64 := by
  rw [iterationSeed, UInt64.toNat_add, UInt32.toNat_toUInt64]

/-- Different iterations have different seeds, also where the sum wraps. -/
theorem iterationSeed_injective {base : UInt64} {i j : IterationIndex}
    (h : iterationSeed base i = iterationSeed base j) : i = j := by
  have hnat := congrArg UInt64.toNat h
  rw [toNat_iterationSeed, toNat_iterationSeed] at hnat
  have hi : i.toNat < 2 ^ 32 := i.toNat_lt
  have hj : j.toNat < 2 ^ 32 := j.toNat_lt
  have hbase : base.toNat < 2 ^ 64 := base.toNat_lt
  refine UInt32.toNat_inj.mp ?_
  omega

/-- However the collaborators of two runs draw, and wherever else the runs differ: if they have the
same random seed, the first listener that is told of the start of an iteration and the mobsim of
the iteration find the generator of one and the same seed with its first draw discarded. The seeds
of a run are those of its iterations, each in its own. -/
theorem seeding_isolates {p : Plan σ} {q : Plan τ} {s : Session σ} {t : Session τ}
    (hs : BuiltFrom p s.controller) (ht : BuiltFrom q t.controller)
    (hseed : q.configuration.global.randomSeed = p.configuration.global.randomSeed) :
    let seed := p.configuration.global.randomSeed
    (∀ i g, (runHistory s).findSome? (Moment.atStart? i) = some g →
      g = (Generator.ofSeed (iterationSeed seed i)).float.2) ∧
    (∀ i g, .mobsim i g ∈ runHistory s → g = (Generator.ofSeed (iterationSeed seed i)).float.2) ∧
    (∀ i g h, .mobsim i g ∈ runHistory s → .mobsim i h ∈ runHistory t → g = h) ∧
    (∀ i, (iterationSeed seed i).toNat = (seed.toNat + i.toNat) % 2 ^ 64) ∧
    ∀ i j, i ≠ j → iterationSeed seed i ≠ iterationSeed seed j := by
  intro seed
  have hbase : s.controller.seeding.base = seed := by
    obtain ⟨m, ls, -, hc⟩ := hs.fields
    rw [hc]
    rfl
  have hbase' : t.controller.seeding.base = seed := by
    obtain ⟨m, ls, -, hc⟩ := ht.fields
    rw [hc]
    exact hseed
  have hfirst := seeded_runHistory s
  have hsecond := seeded_runHistory t
  rw [hbase] at hfirst
  rw [hbase'] at hsecond
  refine ⟨hfirst.start, hfirst.mobsim, fun i g h hg hh => ?_, toNat_iterationSeed seed, ?_⟩
  · exact (hfirst.mobsim i g hg).trans (hsecond.mobsim i h hh).symm
  · exact fun i j hij heq => hij (iterationSeed_injective heq)

/-- A plan whose listener draws `n` numbers whenever it is told of something. The seed of its second
iteration wraps. -/
def drawing (n : Nat) : Plan Unit where
  configuration :=
    { global := { randomSeed := 0xFFFFFFFFFFFFFFFF }, controller := { lastIteration := 1 } }
  simulation := some { mobsim := fun _ _ => .done () }
  listeners :=
    [{ name := "drawing"
       notify := fun _ => Program.draw fun g => ((), (Generator.many Generator.float n g).2) }]

/-- The session of a controller that was built from such a plan. -/
def drawingSession (n : Nat) : Session Unit where
  controller := ofPlan (drawing n) { mobsim := fun _ _ => .done () }
  world := { memory := (), files := { entries := [(["output"], .directory)] } }

/-- Whether the listener draws one number or three, in the second iteration it finds the generator
of the seed zero when it is told of the start, and so does the mobsim. -/
theorem seeding_isolates_drawing :
    BuiltFrom (drawing 1) (drawingSession 1).controller ∧
      BuiltFrom (drawing 3) (drawingSession 3).controller ∧
      iterationSeed 0xFFFFFFFFFFFFFFFF 1 = 0 ∧
      (runHistory (drawingSession 1)).findSome? (Moment.atStart? 1) =
        some (Generator.ofSeed 0).float.2 ∧
      .mobsim 1 (Generator.ofSeed 0).float.2 ∈ runHistory (drawingSession 1) ∧
      .mobsim 1 (Generator.ofSeed 0).float.2 ∈ runHistory (drawingSession 3) := by
  have hone : BuiltFrom (drawing 1) (drawingSession 1).controller :=
    builtFrom_ofPlan rfl { memory := () } (by decide +kernel)
  have hthree : BuiltFrom (drawing 3) (drawingSession 3).controller :=
    builtFrom_ofPlan rfl { memory := () } (by decide +kernel)
  obtain ⟨hstart, hmobsim, hboth, -⟩ := seeding_isolates hone hthree rfl
  have hstarted :
      ((runHistory (drawingSession 1)).findSome? (Moment.atStart? 1)).isSome = true := by
    decide +kernel
  obtain ⟨g, hg⟩ := Option.isSome_iff_exists.mp hstarted
  have hbegins : ∀ n ∈ [1, 3],
      1 ∈ (mobsims (runHistory (drawingSession n))).map Prod.fst := by
    decide +kernel
  obtain ⟨⟨_, h⟩, hh, rfl⟩ := List.mem_map.mp (hbegins 1 (by decide))
  obtain ⟨⟨_, k⟩, hk, rfl⟩ := List.mem_map.mp (hbegins 3 (by decide))
  cases hmobsim _ _ (mem_of_mobsims hh)
  cases hboth _ _ _ (mem_of_mobsims hh) (mem_of_mobsims hk)
  cases hstart 1 g hg
  exact ⟨hone, hthree, rfl, hg, mem_of_mobsims hh, mem_of_mobsims hk⟩

end Controller

end CommuteSim
