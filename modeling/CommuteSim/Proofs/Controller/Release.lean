import CommuteSim.Proofs.Controller.Conduct

/-!
# The release of those who wait for a run

A run ends in four parts: all up to the release, whose end has the result, the release of those who
wait for the end of the teardown, and, where the run watches for panics, the return of the handler
that it found. The handler that watches is still in place at the release.

Main statements: `run_of_watches` and `run_of_not_watches` take a run apart; `leads_concluded` says
that nobody but the controller releases anyone; `handler_at_release` says which handler is in place
then.
-/

namespace CommuteSim

variable {σ : Type}

/-! ## What stirs leave in the history -/

namespace World

/-- The world goes from `w` to `u`, and the history, which gains `l`, tells what becomes of the
coordinator. -/
structure Leads (w : World σ) (l : List (Moment σ)) (u : World σ) : Prop where
  past : u.past = w.past ++ l
  self : u.self = w.self
  present : u.Present
  chronicle : Chronicle w.coordinator l u.coordinator

section Leads

variable {k : Context} {P : Deed σ → Prop} {w u v : World σ} {l m : List (Moment σ)}

theorem leads_refl (hw : w.Present) : Leads w [] w :=
  ⟨(List.append_nil _).symm, rfl, hw, .refl _⟩

theorem Leads.trans (h : Leads w l v) (h' : Leads v m u) : Leads w (l ++ m) u where
  past := by rw [h'.past, h.past, List.append_assoc]
  self := h'.self.trans h.self
  present := h'.present
  chronicle := h.chronicle.trans h'.chronicle

theorem leads_path (h : Path w l u) (hw : w.Present) : Leads w l u :=
  ⟨past_path h, self_path h, (chronicle_path h hw).2, (chronicle_path h hw).1⟩

theorem leads_noted (hw : w.Present) {x : Moment σ} (h : x.apart = true) :
    Leads w [x] (w.noted x) :=
  ⟨past_noted w x, rfl, hw, .single (.apart h)⟩

/-- Where other threads act. -/
theorem leads_yield (hw : w.Present) : ∃ l, Leads w l (World.yield w).2 := by
  obtain ⟨l, hl⟩ := wanders_yield w
  exact ⟨l, leads_path hl hw⟩

theorem handler_yield (w : World σ) : (World.yield w).2.process.handler = w.process.handler := by
  obtain ⟨l, hl⟩ := wanders_yield w
  exact handler_path hl

/-- The controller accesses the coordinator for itself. -/
theorem leads_handled {c : Coordinator} (h : w.coordinator.Handled c) :
    Leads w (changeMoments w.coordinator c w.process.handler) (w.setCoordinator c) where
  past := past_setCoordinator w c
  self := rfl
  present := present_setCoordinator w c
  chronicle := by
    rw [coordinator_setCoordinator]
    exact .single (.handled h _)

/-- The controller changes the handler of panics. -/
theorem leads_restore (hw : w.Present) (x : PanicHandler) :
    Leads w (changeMoments w.coordinator w.coordinator x)
      (w.setProcess (w.process.restore x)) where
  past := by
    rw [past_setProcess, changes_toList]
    rfl
  self := rfl
  present := hw
  chronicle := .single (.handled (.same _) x)

/-- Every stir leaves its part of a chronicle, and the handler of panics in its place. -/
theorem leads_stir (h : Stir k P w u) (hw : w.Present) :
    (∃ l, Leads w l u) ∧ u.process.handler = w.process.handler := by
  have hpath : (∃ l, Path w l u) → (∃ l, Leads w l u) ∧ u.process.handler = w.process.handler := by
    rintro ⟨l, hl⟩
    exact ⟨⟨l, leads_path hl hw⟩, handler_path hl⟩
  cases h with
  | @deed d h => exact hpath (wanders_perform d w)
  | panic x => exact hpath (wanders_panic x w)
  | yield => exact hpath (wanders_yield w)
  | @note m h => exact ⟨⟨[m], leads_noted hw h⟩, rfl⟩
  | bind => exact ⟨⟨_, leads_handled (.bound _)⟩, rfl⟩
  | record r => exact ⟨⟨_, leads_handled (.record _ r)⟩, rfl⟩
  | claim => exact ⟨⟨_, leads_handled (.claim _)⟩, rfl⟩
  | seed g => exact hpath ⟨[], Move.path (.silent rfl rfl rfl)⟩
  | write text h => exact hpath (wanders_writeText _ text w)
  | directory i => exact hpath (wanders_onFiles (FileWork.quiet_createIteration k.output i) w)

theorem leads_stirred (h : Stirred k P w u) (hw : w.Present) :
    (∃ l, Leads w l u) ∧ u.process.handler = w.process.handler := by
  induction h with
  | refl => exact ⟨⟨[], leads_refl hw⟩, rfl⟩
  | tail _ hstir ih =>
      obtain ⟨⟨l, hl⟩, hhandler⟩ := ih
      obtain ⟨⟨m, hm⟩, hsame⟩ := leads_stir hstir hl.present
      exact ⟨⟨l ++ m, hl.trans hm⟩, hsame.trans hhandler⟩

end Leads

end World

/-! ## The parts of a run -/

namespace Controller

/-- What a run does from the first step on, up to the release. -/
@[irreducible] def upToRelease : Driven σ (Except RunFailure RunSummary) := do
  runToTeardown
  let result ← tearDown
  enter .terminated
  return result

/-- The session once the controller's thread is known. -/
def bound (s : Session σ) : Session σ := (onWorld bindThread s).2

/-- The session before the first step: panics are watched for if they are to be. -/
def ready (s : Session σ) : Session σ :=
  if s.watches then (onWorld watch (bound s)).2 else bound s

/-- The session once its run has a result. -/
def concluded (s : Session σ) : Session σ := (upToRelease (ready s)).2

/-- The session once those who wait are released. -/
def released (s : Session σ) : Session σ := (onWorld World.terminate (concluded s)).2

section Parts

variable {s : Session σ}

theorem apply_bind {α β : Type} (work : Driven σ α) (next : α → Driven σ β) (s : Session σ) :
    (work >>= next) s = next (work s).1 (work s).2 := rfl

/-- Work that gives its value after other work on the world. -/
theorem apply_then {α : Type} (work : Driven σ α) (rest : StateM (World σ) Unit) (s : Session σ) :
    (do
      let a ← work
      onWorld rest
      return a : Driven σ α) s = ((work s).1, (onWorld rest (work s).2).2) := rfl

theorem runToRelease_apply (s : Session σ) :
    runToRelease s = ((upToRelease s).1, (onWorld World.terminate (upToRelease s).2).2) := by
  have hparts : runToRelease (σ := σ) = do
      let result ← upToRelease
      onWorld World.terminate
      return result := by
    simp only [runToRelease, upToRelease, bind_assoc, pure_bind]
  rw [hparts, apply_then]

theorem run_of_watches (h : s.controller.stage = .idle) (hw : s.watches = true) :
    run s = ((upToRelease (ready s)).1,
      (onWorld (unwatch (World.yield (bound s).world).2.process.handler) (released s)).2) := by
  have hbound : (onWorld bindThread s).2 = bound s := rfl
  have hready : ready s = (onWorld watch (bound s)).2 := if_pos hw
  have hprevious : (onWorld watch (bound s)).1 = (World.yield (bound s).world).2.process.handler :=
    rfl
  rw [run_of_idle h, hw, runOnce, apply_bind, if_pos rfl, apply_bind, apply_then,
    runToRelease_apply, released, concluded, hready, hbound, hprevious]

theorem run_of_not_watches (h : s.controller.stage = .idle) (hw : s.watches = false) :
    run s = ((upToRelease (ready s)).1, released s) := by
  have hready : ready s = bound s := if_neg (Bool.eq_false_iff.mp hw)
  rw [run_of_idle h, hw, runOnce, apply_bind, if_neg Bool.false_ne_true, runToRelease_apply,
    released, concluded, hready]
  rfl

/-- The result of a run is settled before anyone is released. -/
theorem result_concluded (h : s.controller.stage = .idle) :
    (run s).1 = (upToRelease (ready s)).1 := by
  cases hw : s.watches with
  | true => rw [run_of_watches h hw]
  | false => rw [run_of_not_watches h hw]

variable {k : Context} {P : Deed σ → Prop}

theorem stirs_upToRelease : Session.Stirs (σ := σ) k P upToRelease := by
  have hrest : ∀ result, Session.Stirs (σ := σ) k P (do
      enter .terminated
      return result : Driven σ (Except RunFailure RunSummary)) := fun result =>
    stirs_bind (stirs_enter _) fun _ => stirs_pure _
  have hteardown := stirs_bind (σ := σ) (k := k) (P := P) stirs_tearDown hrest
  rw [upToRelease]
  exact stirs_bind stirs_runToTeardown fun _ => hteardown

theorem stirs_bindThread : World.Stirs (σ := σ) k P bindThread :=
  World.stirs_bind World.stirs_yield fun _ w => .single (.bind w)

/-! ## The way to the release and from it -/

/-- Nothing happens before the first step but that the controller gets ready. -/
theorem journey_ready (s : Session σ) :
    ∃ l, Session.Journey .opening s l (ready s) ∧ milestones l = [] := by
  have hbound : Follows (σ := σ) .opening s.controller.context (onWorld bindThread) Quietly :=
    follows_bindThread
  obtain ⟨l, hl, hquiet⟩ := hbound s rfl
  unfold ready
  split
  · rename_i hwatches
    have hwatch : Follows (σ := σ) .opening s.controller.context (onWorld watch) Quietly :=
      follows_watch hwatches
    obtain ⟨m, hm, hquiet'⟩ := hwatch (bound s) (Session.context_journey hl)
    refine ⟨l ++ m, hl.trans hm, ?_⟩
    rw [milestones_append, show milestones l = [] from hquiet, List.nil_append]
    exact hquiet'
  · exact ⟨l, hl, hquiet⟩

/-- The world at the release. -/
def atRelease (s : Session σ) : World σ := (World.yield (concluded s).world).2

theorem released_world (s : Session σ) :
    (released s).world = (atRelease s).setCoordinator (atRelease s).coordinator.terminate := rfl

theorem leads_bound (h : s.world.Present) :
    (∃ l, World.Leads s.world l (bound s).world) ∧
      (bound s).world.process.handler = s.world.process.handler :=
  World.leads_stirred (k := s.controller.context) (P := fun _ => True)
    (stirs_bindThread s.world) h

/-- The handler of panics in a run. -/
def handlerInRun (s : Session σ) : PanicHandler :=
  if s.watches then .watching s.world.self else s.world.process.handler

theorem watch_world (t : Session σ) :
    (onWorld watch t).2.world =
      ((World.yield t.world).2.setProcess ((World.yield t.world).2.process.restore
        (.watching (World.yield t.world).2.self))).noted
        (.said .controller ⟨.info, "panic hook installed"⟩) := rfl

theorem leads_watch {t : Session σ} (h : t.world.Present) :
    (∃ l, World.Leads t.world l (onWorld watch t).2.world) ∧
      (onWorld watch t).2.world.process.handler = .watching t.world.self := by
  obtain ⟨m, hm⟩ := World.leads_yield h
  rw [watch_world, hm.self]
  have hwatch := World.leads_restore hm.present (.watching t.world.self)
  exact ⟨⟨_, (hm.trans hwatch).trans (World.leads_noted hwatch.present (Moment.apart_said _))⟩, rfl⟩

theorem leads_ready (h : s.world.Present) :
    (∃ l, World.Leads s.world l (ready s).world) ∧
      (ready s).world.process.handler = handlerInRun s := by
  obtain ⟨⟨l, hl⟩, hbound⟩ := leads_bound h
  obtain ⟨⟨m, hm⟩, hwatch⟩ := leads_watch hl.present
  unfold ready handlerInRun
  split
  · rw [← hl.self]
    exact ⟨⟨l ++ m, hl.trans hm⟩, hwatch⟩
  · exact ⟨⟨l, hl⟩, hbound⟩

theorem leads_concluded (h : s.world.Present) :
    (∃ l, World.Leads s.world l (concluded s).world) ∧
      (concluded s).world.process.handler = handlerInRun s := by
  obtain ⟨⟨l, hl⟩, hready⟩ := leads_ready h
  have hstirred := stirs_upToRelease (ready s) rfl (confined_of_all fun _ => trivial)
  obtain ⟨⟨m, hm⟩, hsame⟩ := World.leads_stirred hstirred.world hl.present
  exact ⟨⟨l ++ m, hl.trans hm⟩, hsame.trans hready⟩

theorem leads_atRelease (h : s.world.Present) :
    (∃ l, World.Leads s.world l (atRelease s)) ∧
      (atRelease s).process.handler = handlerInRun s := by
  obtain ⟨⟨l, hl⟩, hconcluded⟩ := leads_concluded h
  obtain ⟨m, hm⟩ := World.leads_yield hl.present
  exact ⟨⟨l ++ m, hl.trans hm⟩, (World.handler_yield _).trans hconcluded⟩

theorem unwatch_world (x : PanicHandler) (s : Session σ) :
    (onWorld (unwatch x) s).2.world =
      (World.yield s.world).2.setProcess ((World.yield s.world).2.process.restore x) := rfl

/-- After the release the handler that the run found is put back, if there is another one. -/
theorem leads_end (h : s.controller.stage = .idle) (hs : s.world.Present) :
    (∃ l, World.Leads (released s).world l (run s).2.world) ∧
      (run s).2.world.process.handler = s.world.process.handler := by
  have hreleased : (released s).world.Present := World.present_setCoordinator _ _
  cases hw : s.watches with
  | true =>
      rw [run_of_watches h hw, unwatch_world, World.handler_yield, (leads_bound hs).2]
      obtain ⟨m, hm⟩ := World.leads_yield hreleased
      exact ⟨⟨_, hm.trans (World.leads_restore hm.present _)⟩, rfl⟩
  | false =>
      rw [run_of_not_watches h hw]
      dsimp only
      refine ⟨⟨[], World.leads_refl hreleased⟩, ?_⟩
      change (atRelease s).process.handler = _
      rw [(leads_atRelease hs).2, handlerInRun, hw]
      rfl

end Parts

/-! ## The handler of panics at the release -/

/-- The handler of panics that is in place when those who wait are released. -/
def handlerOf? : Moment σ → Option PanicHandler
  | .released x => some x
  | _ => none

/-- The releases in a history, each with the handler of panics that is in place. -/
def releases (l : List (Moment σ)) : List PanicHandler := l.filterMap handlerOf?

theorem releases_append (l m : List (Moment σ)) :
    releases (l ++ m) = releases l ++ releases m :=
  List.filterMap_append ..

theorem releases_eq_nil {l : List (Moment σ)} (h : ∀ x, .released x ∉ l) : releases l = [] := by
  refine List.filterMap_eq_nil_iff.mpr fun m hm => ?_
  cases m with
  | released x => exact absurd hm (h x)
  | _ => rfl

theorem not_mem_of_releases {l : List (Moment σ)} (h : releases l = []) (x : PanicHandler) :
    .released x ∉ l := by
  intro hx
  have hmem : x ∈ releases l := List.mem_filterMap.mpr ⟨_, hx, rfl⟩
  rw [h] at hmem
  cases hmem

/-- The history of a run is that up to the release, the release, and that after it. -/
theorem runHistory_parts {s : Session σ} (h : s.controller.stage = .idle) (hs : s.world.Present) :
    ∃ a b, World.Leads s.world a (atRelease s) ∧
      World.Leads (released s).world b (run s).2.world ∧
      runHistory s = a ++ changeMoments (atRelease s).coordinator
        (atRelease s).coordinator.terminate (handlerInRun s) ++ b := by
  obtain ⟨⟨a, ha⟩, hhandler⟩ := leads_atRelease hs
  obtain ⟨⟨b, hb⟩, -⟩ := leads_end h hs
  refine ⟨a, b, ha, hb, ?_⟩
  rw [runHistory, hb.past, released_world, World.past_setCoordinator, hhandler, ha.past,
    List.append_assoc, List.append_assoc, List.drop_left, List.append_assoc]

/-- Where only the controller marks the teardown as over, those who wait for it are released once,
and the handler that watches for panics is still in place then. It is gone only when the run is
over. So the release finds the handler that the run found only where the run watches for nothing,
or where the same handler was there before. -/
theorem handler_at_release (s : Session σ) (h : s.controller.stage = .idle)
    (hs : s.world.Present) (hopen : s.world.coordinator.terminated = false)
    (halone : Unterminated (runHistory s)) :
    releases (runHistory s) = [handlerInRun s] ∧
      (run s).2.world.process.handler = s.world.process.handler ∧
      (releases (runHistory s) = [s.world.process.handler] ↔
        (s.watches = true → s.world.process.handler = .watching s.world.self)) := by
  obtain ⟨a, b, ha, hb, hhistory⟩ := runHistory_parts h hs
  rw [hhistory] at halone ⊢
  obtain ⟨hbefore, hnone⟩ := unreleased_chronicle ha.chronicle halone.left.left
  obtain ⟨-, hnone'⟩ := unreleased_chronicle hb.chronicle halone.right
  have hreleases : releases (a ++ changeMoments (atRelease s).coordinator
      (atRelease s).coordinator.terminate (handlerInRun s) ++ b) = [handlerInRun s] := by
    rw [changeMoments_terminate (hbefore.trans hopen), releases_append, releases_append,
      releases_eq_nil hnone, releases_eq_nil hnone']
    rfl
  refine ⟨hreleases, (leads_end h hs).2, ?_⟩
  rw [hreleases, List.singleton_inj, handlerInRun]
  cases s.watches with
  | true => exact ⟨fun heq _ => heq.symm, fun heq => (heq rfl).symm⟩
  | false => exact ⟨fun _ => nofun, fun _ => rfl⟩

/-- A second run that begins to watch for panics before the first one has put back the handler that
it found: the first takes the handler of the second away, so no panic reaches the coordinator `j`
from then on, and the second leaves the handler of the first behind. -/
theorem overlapping_watches (p : Process) (i j : CoordinatorId) (h : p.handler ≠ .watching j) :
    let first := p.watch i
    let second := first.2.watch j
    let rest := second.2.restore first.1
    (∀ thread x now, (rest.panic thread x now).coordinator j = rest.coordinator j) ∧
      (rest.restore second.1).handler = .watching i :=
  ⟨fun thread x now => World.coordinator_panic h thread x now, rfl⟩

/-! ### A run that watches for panics -/

/-- A session that watches for panics. -/
def watched : Session Unit where
  controller :=
    { context :=
        { configuration := { controller :=
            { lastIteration := 0, outputDirectory := "out", iterationDirectories := false } }
          output := { root := "out" } }
      simulation := { mobsim := fun _ _ => return }
      seeding := { base := 4711 } }
  world := { memory := (), files := { entries := [(["out"], .directory)] } }

theorem handler_at_release_watched :
    watched.controller.stage = .idle ∧ watched.world.Present ∧
      watched.world.coordinator.terminated = false ∧ Unterminated (runHistory watched) ∧
        releases (runHistory watched) = [handlerInRun watched] ∧
          (run watched).2.world.process.handler = watched.world.process.handler ∧
          (releases (runHistory watched) = [watched.world.process.handler] ↔
            (watched.watches = true →
              watched.world.process.handler = .watching watched.world.self)) := by
  have halone : Unterminated (runHistory watched) := by decide +kernel
  exact ⟨rfl, rfl, rfl, halone, handler_at_release watched rfl rfl rfl halone⟩

/-- A process with two coordinators. -/
def twoCoordinators : Process := (Process.ofCoordinator {}).put 1 (some {})

/-- The handler of the run is in place when those who wait are released. One of them may go on to a
second run at once, and then the panic of a thread in that run reaches the handler of the process
and not the coordinator of the run, and the handler of the first run stays when both are over. -/
theorem released_while_watching :
    watched.world.process.handler = .initial ∧
      releases (runHistory watched) = [.watching 0] ∧
      (let first := twoCoordinators.watch 0
        let second := first.2.watch 1
        let rest := (second.2.restore first.1).panic (some "late")
          ⟨.text "after the release", "late.rs:1"⟩ ⟨0⟩
        rest.coordinator 1 = {} ∧ rest.unwatched = 1 ∧
          (rest.restore second.1).handler = .watching 0) := by
  refine ⟨rfl, by decide +kernel, ?_⟩
  decide

end Controller

end CommuteSim
