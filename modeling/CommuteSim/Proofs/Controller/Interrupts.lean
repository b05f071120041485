import CommuteSim.Proofs.Controller.Release
import CommuteSim.Proofs.Controller.Verdict
import CommuteSim.Proofs.Coordinator.Rendezvous
import Mathlib.Control.Monad.Basic

/-!
# Interrupts in the life of a controller

A controller may run, and is dropped in the end. Those who interrupt it wait for a release: that of
the run, or that of the drop if there was no run. The history of such a life is one that the
rendezvous is about, whatever other threads do meanwhile and afterwards, if only the controller
marks the teardown as over.

Main statements: `life_parts` takes the history of a life apart at the release, `settled` says what
is settled by then; `interrupts` says what the calls of a life have come to at any moment.
-/

namespace CommuteSim

variable {σ : Type}

/-- What has happened from a session on up to a world. -/
def Session.upTo (s : Session σ) (w : World σ) : List (Moment σ) :=
  w.past.drop s.world.past.length

theorem Session.upTo_of_leads {s : Session σ} {l : List (Moment σ)} {w : World σ}
    (h : World.Leads s.world l w) : s.upTo w = l := by
  rw [upTo, h.past, List.drop_left]

namespace Controller

/-! ## The life of a controller -/

/-- The world once a controller is gone, which may have run, and other threads have acted after
that. -/
def gone (runs : Bool) (after : List ThreadAct) (s : Session σ) : World σ :=
  after.foldl World.undergo (drop (if runs then (run s).2.world else s.world)).2

/-- What happens in the life of a controller and after it. -/
def life (runs : Bool) (after : List ThreadAct) (s : Session σ) : List (Moment σ) :=
  s.upTo (gone runs after s)

/-- The world at the release of those who wait, by the run or by the drop. -/
def atEnd (runs : Bool) (s : Session σ) : World σ :=
  if runs then atRelease s else (World.yield s.world).2

theorem leads_undergo (after : List ThreadAct) {w : World σ} (hw : w.Present) :
    ∃ l, World.Leads w l (after.foldl World.undergo w) := by
  induction after generalizing w with
  | nil => exact ⟨[], World.leads_refl hw⟩
  | cons a rest ih =>
      obtain ⟨l, hl⟩ := World.path_undergo w a
      have hfirst := World.leads_path hl hw
      obtain ⟨m, hm⟩ := ih hfirst.present
      exact ⟨l ++ m, hfirst.trans hm⟩

theorem drop_world (w : World σ) :
    (drop w).2 = (World.yield w).2.setCoordinator (World.yield w).2.coordinator.terminate := rfl

/-- Once those who wait are released, the drop does nothing. -/
theorem leads_drop {w : World σ} (hw : w.Present) (hmark : w.coordinator.terminated = true) :
    ∃ l, World.Leads w l (drop w).2 := by
  obtain ⟨l, hl⟩ := World.leads_yield hw
  have hstill := (later_chronicle hl.chronicle).terminated hmark
  have hsame : (World.yield w).2.coordinator.terminate = (World.yield w).2.coordinator :=
    if_pos hstill
  rw [drop_world, hsame]
  exact ⟨_, hl.trans (World.leads_handled (.same _))⟩

theorem leads_atEnd (runs : Bool) {s : Session σ} (hs : s.world.Present) :
    ∃ l, World.Leads s.world l (atEnd runs s) := by
  cases runs with
  | true => exact (leads_atRelease hs).1
  | false => exact World.leads_yield hs

/-- The history of a life is that up to the release, the release, and that after it. -/
theorem life_parts {s : Session σ} (h : s.controller.stage = .idle) (hs : s.world.Present)
    (runs : Bool) (after : List ThreadAct) :
    ∃ a b x, World.Leads s.world a (atEnd runs s) ∧
      Chronicle (atEnd runs s).coordinator.terminate b (gone runs after s).coordinator ∧
      life runs after s =
        a ++ (changeMoments (atEnd runs s).coordinator (atEnd runs s).coordinator.terminate x ++
          b) := by
  obtain ⟨a, ha⟩ := leads_atEnd runs hs
  let final := (atEnd runs s).setCoordinator (atEnd runs s).coordinator.terminate
  have hfinal : final.Present := World.present_setCoordinator _ _
  have hmark : final.coordinator.terminated = true := by
    rw [World.coordinator_setCoordinator]
    exact Coordinator.terminated_terminate _
  have hrest : ∃ b, World.Leads final b (gone runs after s) := by
    cases runs with
    | false => exact leads_undergo after hfinal
    | true =>
        obtain ⟨⟨l, hl⟩, -⟩ := leads_end h hs
        rw [released_world] at hl
        obtain ⟨m, hm⟩ := leads_drop hl.present ((later_chronicle hl.chronicle).terminated hmark)
        obtain ⟨n, hn⟩ := leads_undergo after hm.present
        exact ⟨_, (hl.trans hm).trans hn⟩
  obtain ⟨b, hb⟩ := hrest
  have hchronicle := hb.chronicle
  rw [World.coordinator_setCoordinator] at hchronicle
  refine ⟨a, b, (atEnd runs s).process.handler, ha, hchronicle, ?_⟩
  rw [life, Session.upTo, hb.past, World.past_setCoordinator, ha.past, List.append_assoc,
    List.append_assoc, List.drop_left]

section Life

variable {s : Session σ} {runs : Bool} {after : List ThreadAct}

/-- The history of a life tells of the coordinator as the rendezvous needs it. -/
theorem tells_life (h : s.controller.stage = .idle) (hs : s.world.Present)
    (hopen : s.world.coordinator.terminated = false) (halone : Unterminated (life runs after s)) :
    Tells s.world.coordinator (life runs after s) := by
  obtain ⟨a, b, x, ha, hb, hlife⟩ := life_parts h hs runs after
  rw [hlife] at halone ⊢
  obtain ⟨hbefore, -⟩ := unreleased_chronicle ha.chronicle halone.left
  refine (tells_chronicle ha.chronicle halone.left).append ?_
  rw [stateAfter_chronicle ha.chronicle]
  refine (tells_terminate (hbefore.trans hopen) x).append ?_
  rw [stateAfter_changeMoments]
  exact tells_chronicle hb halone.right.right

/-- Where the mark is set, all up to the release has come to pass. -/
theorem seen_of_terminated (h : s.controller.stage = .idle) (hs : s.world.Present)
    (hopen : s.world.coordinator.terminated = false) (halone : Unterminated (life runs after s))
    {seen rest : List (Moment σ)} (hseen : seen ++ rest = life runs after s)
    (hmark : (stateAfter s.world.coordinator seen).terminated = true) :
    ∃ m, seen = s.upTo (atEnd runs s) ++ m := by
  obtain ⟨a, b, x, ha, -, hlife⟩ := life_parts h hs runs after
  rw [hlife] at halone hseen
  obtain ⟨hbefore, -⟩ := unreleased_chronicle ha.chronicle halone.left
  rw [Session.upTo_of_leads ha]
  rcases beginning_append hseen with hthrough | ⟨m, hm, -⟩
  · exact hthrough
  · -- before the release the mark is not set
    have hlater := (between_chronicle ha.chronicle hm).2.terminated hmark
    rw [hbefore, hopen] at hlater
    cases hlater

end Life

/-! ## What is settled at the release -/

section Settled

variable {k : Context}

theorem recounts_upToRelease : Recounts (σ := σ) k (fun _ => True) upToRelease := by
  rw [upToRelease]
  refine recounts_bind follows_runToTeardown fun _ l _ => ?_
  have htearDown : Recounts (σ := σ) k (fun _ => True) tearDown := by
    intro s hs
    obtain ⟨a⟩ := recounts_tearDown s hs
    exact ⟨{ a with course := trivial }⟩
  refine recounts_then htearDown fun r => ?_
  exact follows_bind_quietly (follows_enter _) fun _ => follows_pure ⟨rfl, rfl⟩

/-- There is an account of a run up to its result. -/
theorem account_concluded (s : Session σ) :
    Nonempty (Account (fun _ => True) s (upToRelease (ready s)).1 (concluded s)) := by
  obtain ⟨l, hl, -⟩ := journey_ready s
  obtain ⟨a⟩ := recounts_upToRelease (ready s) rfl
  exact ⟨{ a with
    before := l ++ a.before
    opening := hl.trans a.opening
    course := trivial }⟩

/-- By the time that a run has its result the listeners have been told of the shutdown, and the
lines that follow that are logged. -/
theorem milestones_concluded (s : Session σ) (h : s.controller.stage = .idle) :
    ∃ l, milestones (s.upTo (concluded s).world) =
      l ++ closingMilestones (unexpectedResult (run s).1) := by
  obtain ⟨a⟩ := account_concluded s
  obtain ⟨c, hr⟩ := a.result
  have hresult := (result_concluded h).trans hr
  have hunexpected : unexpectedResult (run s).1 = a.unexpected :=
    (congrArg unexpectedResult hresult).trans (unexpected_result c a.unexpected_of_fault)
  refine ⟨milestones (a.before ++ a.found.claimMoments), ?_⟩
  rw [Session.upTo, past_account a, List.drop_left, ← List.append_assoc, milestones_append,
    a.farewell, hunexpected]

/-- What has come to pass when the teardown is over. -/
structure Settled (runs : Bool) (s : Session σ) (seen : List (Moment σ)) : Prop where
  /-- A run has its result, and has told of the shutdown. -/
  ran : runs = true → ∃ m, seen = s.upTo (concluded s).world ++ m ∧
    (run s).1 = (upToRelease (ready s)).1 ∧
    ∃ l, milestones (s.upTo (concluded s).world) =
      l ++ closingMilestones (unexpectedResult (run s).1)
  /-- A controller that has not run is being dropped. -/
  dropped : runs = false → ∃ m, seen = s.upTo (World.yield s.world).2 ++ m

theorem settled {s : Session σ} (h : s.controller.stage = .idle) (hs : s.world.Present)
    {runs : Bool} {seen m : List (Moment σ)} (hseen : seen = s.upTo (atEnd runs s) ++ m) :
    Settled runs s seen := by
  constructor
  · rintro rfl
    obtain ⟨⟨l, hl⟩, -⟩ := leads_concluded hs
    obtain ⟨n, hn⟩ := World.leads_yield hl.present
    have hend : s.upTo (atEnd true s) = s.upTo (concluded s).world ++ n := by
      rw [Session.upTo_of_leads hl]
      exact Session.upTo_of_leads (hl.trans hn)
    refine ⟨n ++ m, ?_, result_concluded h, milestones_concluded s h⟩
    rw [hseen, hend, List.append_assoc]
  · rintro rfl
    exact ⟨m, hseen⟩

end Settled

/-! ## Interrupts -/

open Rendezvous

theorem bound_world (s : Session σ) :
    (bound s).world = (World.yield s.world).2.setCoordinator
      { (World.yield s.world).2.coordinator with bound := true } := rfl

/-- The thread of a run is known from the first step of the run on. -/
theorem known_in_run {s : Session σ} (hs : s.world.Present) {l seen rest m : List (Moment σ)}
    (hl : Tells s.world.coordinator l) (hseen : seen ++ rest = l)
    (hbegun : seen = s.upTo (bound s).world ++ m) :
    (stateAfter s.world.coordinator seen).bound = true := by
  obtain ⟨⟨a, ha⟩, -⟩ := leads_bound hs
  rw [Session.upTo_of_leads ha] at hbegun
  rw [hbegun] at hseen ⊢
  have hbound : (stateAfter s.world.coordinator a).bound = true := by
    rw [stateAfter_chronicle ha.chronicle, bound_world, World.coordinator_setCoordinator]
  exact (hl.onward_append hseen.symm).2 hbound

/-- In the life of a controller that alone marks the teardown as over, any number of calls interrupt
it, at any moment of its run, before it, after it and after the drop, and their steps interleave
with that life and with one another as they may. At every moment each of them has come to what the
rendezvous says. Once the teardown is over, without which nobody comes back who must wait, the run
has told of its shutdown and its result stands, or the controller is dropped without a run. Those on
its own thread do not wait, since the thread is known from the beginning of the run on. A wait for a
signal that failed does nothing. -/
theorem interrupts {ι : Type} [DecidableEq ι] (s : Session σ) (h : s.controller.stage = .idle)
    (hs : s.world.Present) (hopen : s.world.coordinator.terminated = false) (runs : Bool)
    (after : List ThreadAct) (halone : Unterminated (life runs after s)) (who : ι → Interrupt)
    (t : Scene ι σ) (ht : Reaches s.world.coordinator who (.opening (life runs after s)) t) :
    Meeting s.world.coordinator who (life runs after s) t ∧
      ((t.now s.world.coordinator).terminated = true → Settled runs s t.seen) ∧
      (∀ m, runs = true → t.seen = s.upTo (bound s).world ++ m →
        (t.now s.world.coordinator).bound = true) ∧
      ∀ (p : Process) (j : CoordinatorId) (now : Instant), p.acts j now (signalActs false) = p := by
  have htells := tells_life h hs hopen halone
  have hhistory := (orderly_reaches htells ht).1.history
  refine ⟨meeting htells ht, fun hmark => ?_, fun m _ hm => known_in_run hs htells hhistory hm,
    fun _ _ _ => rfl⟩
  obtain ⟨m, hm⟩ := seen_of_terminated h hs hopen halone hhistory hmark
  exact settled h hs hm

/-! ### A controller that is dropped without a run, and one that runs -/

deriving instance DecidableEq for Moment

/-- A session whose controller is dropped without a run, and interrupted just before that. -/
def unrun : Session Unit where
  controller :=
    { context :=
        { configuration := { controller := { lastIteration := 0 } }
          output := { root := "out" } }
      simulation := { mobsim := fun _ _ => return }
      seeding := { base := 4711 } }
  world := { memory := (), others := fun n => if n = 0 then [.interrupt] else [] }

/-- A session whose run is interrupted in the round after the mobsim. -/
def ran : Session Unit where
  controller :=
    { context :=
        { configuration := { controller :=
            { lastIteration := 0, outputDirectory := "out", iterationDirectories := false } }
          output := { root := "out" } }
      simulation := { mobsim := fun _ _ => return }
      seeding := { base := 4711 } }
  world :=
    { memory := ()
      files := { entries := [(["out"], .directory)] }
      others := fun n => if n = 10 then [.interrupt] else [] }

/-- The call falls asleep before the drop sets the mark, is woken and comes back. -/
theorem reaches_unrun : ∃ t : Scene Unit Unit,
    Reaches unrun.world.coordinator (fun _ => {}) (.opening (life false [] unrun)) t ∧
      t.calls () = .party (.returned true) := by
  have hlife : life false [] unrun = [.acted .interrupt, .raised,
      .shared { flag := true, waiters := [.asleep] }, .released .initial,
      .shared { flag := true, waiters := [.awake], terminated := true }] := by
    decide +kernel
  rw [hlife]
  exact comes_back (a := []) (m := [.raised]) (b := []) rfl rfl (by simp) nofun nofun
    (by decide) rfl

/-- The call falls asleep in the run, is woken by the release at its end and comes back. -/
theorem reaches_ran : ∃ t : Scene Unit Unit,
    Reaches ran.world.coordinator (fun _ => {}) (.opening (life true [] ran)) t ∧
      t.calls () = .party (.returned true) := by
  let l := life true [] ran
  let interrupted : Coordinator := { flag := true, bound := true, waiters := [.asleep] }
  let a := l.take 31
  let b := (l.drop 34).take 8
  have hlife : life true [] ran =
      a ++ .acted .interrupt :: ([.raised] ++ .shared interrupted :: (b ++
        .released (.watching 0) :: .shared (stateAfter interrupted b).terminate :: l.drop 44)) := by
    decide +kernel
  rw [hlife]
  exact comes_back (a := a) (m := [.raised]) (b := b) rfl rfl (by simp)
    (not_mem_of_releases (by decide +kernel)) (not_mem_of_releases (by decide +kernel))
    (by decide +kernel) (by decide +kernel)

/-- Both calls wait for a release, that of the drop and that of the run, and come back when all is
settled. -/
theorem interrupts_both_lives :
    (unrun.controller.stage = .idle ∧ unrun.world.Present ∧
      unrun.world.coordinator.terminated = false ∧ Unterminated (life false [] unrun) ∧
        ∃ t : Scene Unit Unit,
          Reaches unrun.world.coordinator (fun _ => {}) (.opening (life false [] unrun)) t ∧
            t.calls () = .party (.returned true) ∧
            Meeting unrun.world.coordinator (fun _ => {}) (life false [] unrun) t ∧
            Settled false unrun t.seen) ∧
    ran.controller.stage = .idle ∧ ran.world.Present ∧
      ran.world.coordinator.terminated = false ∧ Unterminated (life true [] ran) ∧
        ∃ t : Scene Unit Unit,
          Reaches ran.world.coordinator (fun _ => {}) (.opening (life true [] ran)) t ∧
            t.calls () = .party (.returned true) ∧
            Meeting ran.world.coordinator (fun _ => {}) (life true [] ran) t ∧
            Settled true ran t.seen := by
  have hunrun : Unterminated (life false [] unrun) := by decide +kernel
  have hran : Unterminated (life true [] ran) := by decide +kernel
  obtain ⟨t, ht, hback⟩ := reaches_unrun
  obtain ⟨hmeeting, hsettled, -⟩ := interrupts unrun rfl rfl rfl false [] hunrun (fun _ => {}) t ht
  have hmark := hmeeting.patient () rfl nofun nofun (by rw [hback]; trivial)
  obtain ⟨t', ht', hback'⟩ := reaches_ran
  obtain ⟨hmeeting', hsettled', -⟩ := interrupts ran rfl rfl rfl true [] hran (fun _ => {}) t' ht'
  have hmark' := hmeeting'.patient () rfl nofun nofun (by rw [hback']; trivial)
  exact ⟨⟨rfl, rfl, rfl, hunrun, t, ht, hback, hmeeting, hsettled hmark⟩,
    rfl, rfl, rfl, hran, t', ht', hback', hmeeting', hsettled' hmark'⟩

end Controller

end CommuteSim
