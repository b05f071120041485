import CommuteSim.Proofs.Controller.Unwatched
import CommuteSim.Proofs.Controller.Upkeep

/-!
# What the watch for panics makes of a run

A run that watches for panics is compared with the same run without the watch. The collaborators are
the same, and so is what other threads do, but for the one access to the coordinator at which the
handler is put in.

The watch changes the name under which a panic is reported, and nothing else of what the run does or
gives, save that a panic at the shutdown is counted: it is too late to be kept, and without the
handler nobody reports it.

Main statement: `watch_transparent`. It asks that nobody but the controller claims the teardown;
`hasty_counted_twice` is a run that watches and counts a panic twice because a listener has claimed
the teardown before.
-/

namespace CommuteSim

variable {σ α β : Type}

/-! ## The run without the watch -/

/-- The world of a run without the watch. Who acts before the access at which the handler would be
put in acts before the access that comes first. -/
def World.unwatched (w : World σ) : World σ :=
  { w with others := fun n =>
      if n = w.turn then w.others n ++ w.others (n + 1) else w.others (n + 1) }

/-- The same session, with a controller that does not watch for panics. -/
def Session.unwatched (s : Session σ) : Session σ where
  controller := { s.controller with context := s.controller.context.unwatched }
  world := s.world.unwatched

/-- The content of a file, with the watch left out where it is the text of the configuration. -/
def Context.blur (k : Context) (content : ByteArray) : ByteArray :=
  if content.data = k.configuration.text.toUTF8.data then k.unwatched.configuration.text.toUTF8
  else content

/-- A failure of a run that does not tell where a panic comes from. -/
def RunFailure.anonymous : RunFailure → RunFailure
  | .fault _ (.panic _ message) => .fault "" (.panic "" message)
  | e => e

/-- A session that watches for panics, in which the watch is nobody's business: the collaborators do
the same with and without it, other threads interrupt the run at most, and nobody but the controller
claims the teardown. -/
structure Session.Impartial (s : Session σ) : Prop where
  watches : s.watches = true
  handler : s.world.process.handler ≠ .watching s.world.self
  present : s.world.Present
  unclaimed : s.world.coordinator.teardown = false
  mute : ∀ n, ∀ a ∈ s.world.others n, a.Mute false
  listeners : Program.Alike s.controller.context.blur false
    (List.Forall₂ (Listener.Alike s.controller.context.blur))
    (s.controller.simulation.listeners s.controller.context)
    (s.controller.simulation.listeners s.controller.context.unwatched)
  load : Program.Alike s.controller.context.blur false Eq
    (s.controller.simulation.load s.controller.context)
    (s.controller.simulation.load s.controller.context.unwatched)
  prepare : Program.Alike s.controller.context.blur false Eq
    (s.controller.simulation.prepare s.controller.context)
    (s.controller.simulation.prepare s.controller.context.unwatched)
  mobsim : ∀ i, Program.Alike s.controller.context.blur false Eq
    (s.controller.simulation.mobsim s.controller.context i)
    (s.controller.simulation.mobsim s.controller.context.unwatched i)
  question : ∀ i, Program.Alike s.controller.context.blur false Eq
    (s.controller.question i) (s.unwatched.controller.question i)
  bus : s.controller.bus.Alike s.controller.context.blur s.controller.bus

/-! ## Two runs up to the teardown -/

theorem twin_controller {s : Session σ} (h : s.Impartial) :
    s.controller.Twin s.controller.context.blur s.unwatched.controller where
  watches := h.watches
  context := rfl
  text := by
    unfold Context.blur
    rw [if_pos rfl]
    split <;> rfl
  listeners := h.listeners
  load := h.load
  prepare := h.prepare
  mobsim := h.mobsim
  question := h.question
  bus := h.bus
  ledger := rfl
  seeding := rfl
  completed := rfl
  last := rfl

namespace World

theorem others_unwatched_turn (w : World σ) :
    w.unwatched.others w.turn = w.others w.turn ++ w.others (w.turn + 1) :=
  if_pos rfl

/-- Behind the access at which the handler is put in, the run without the watch is one access
earlier. -/
theorem others_unwatched_behind (w : World σ) (n : Nat) :
    w.unwatched.others (w.turn + 1 + n) = w.others (w.turn + 2 + n) := by
  have hturn : w.turn + 1 + n ≠ w.turn := by omega
  have hnext : w.turn + 1 + n + 1 = w.turn + 2 + n := by omega
  exact (if_neg hturn).trans (congrArg w.others hnext)

theorem mute_unwatched {w : World σ} (h : ∀ n, ∀ a ∈ w.others n, a.Mute false) :
    ∀ n, ∀ a ∈ w.unwatched.others n, a.Mute false := by
  intro n a ha
  unfold unwatched at ha
  dsimp only at ha
  split at ha
  · rcases List.mem_append.mp ha with ha | ha
    · exact h _ a ha
    · exact h _ a ha
  · exact h _ a ha

end World

/-- Threads that report nothing do not mind whether the controller's thread is known. -/
theorem mutely_bound (as : List ThreadAct) (c : Coordinator) :
    as.foldl (fun c a => a.mutely c) { c with bound := true } =
      { as.foldl (fun c a => a.mutely c) c with bound := true } := by
  induction as generalizing c with
  | nil => rfl
  | cons a rest ih =>
      have hone : a.mutely { c with bound := true } = { a.mutely c with bound := true } := by
        obtain ⟨flag, teardown, fault, discarded, bound, terminated, waiters⟩ := c
        cases a <;> cases terminated <;> rfl
      rw [List.foldl_cons, List.foldl_cons, hone, ih]

theorem teardown_mutely_all {as : List ThreadAct} (has : ∀ a ∈ as, a.Mute false) {c : Coordinator}
    (hc : c.teardown = false) : (as.foldl (fun c a => a.mutely c) c).teardown = false := by
  induction as generalizing c with
  | nil => exact hc
  | cons a rest ih =>
      obtain ⟨ha, hrest⟩ := List.forall_mem_cons.mp has
      exact ih hrest (teardown_mutely ha hc)

namespace Controller

theorem accessed_bindThread (w : World σ) : World.Accessed 1 w (bindThread w).2 :=
  (World.accessed_yield w).trans (World.accessed_setCoordinator _ _)

theorem coordinator_bindThread {w : World σ} (hw : w.Present)
    (has : ∀ a ∈ w.others w.turn, a.Mute false) :
    (bindThread w).2.coordinator =
      { (w.others w.turn).foldl (fun c a => a.mutely c) w.coordinator with bound := true } := by
  have hbind : (bindThread w).2 = (World.yield w).2.setCoordinator
      { (World.yield w).2.coordinator with bound := true } := rfl
  rw [hbind, World.coordinator_setCoordinator, World.coordinator_yield hw has]

/-- What the coordinator has seen before the first step is the same in the two runs. -/
theorem coordinator_yield_bindThread {s : Session σ} (h : s.Impartial) :
    (World.yield (bindThread s.world).2).2.coordinator =
      (bindThread s.world.unwatched).2.coordinator := by
  have hbound := accessed_bindThread s.world
  have hmute : ∀ a ∈ (bindThread s.world).2.others (bindThread s.world).2.turn, a.Mute false := by
    rw [hbound.others]
    exact h.mute _
  rw [World.coordinator_yield (hbound.present h.present) hmute,
    coordinator_bindThread h.present (h.mute _),
    coordinator_bindThread (w := s.world.unwatched) h.present (World.mute_unwatched h.mute _),
    hbound.others, hbound.turn, mutely_bound]
  change _ = { (s.world.unwatched.others s.world.turn).foldl (fun c a => a.mutely c)
    s.world.coordinator with bound := true }
  rw [World.others_unwatched_turn, List.foldl_append]

theorem teardown_bindThread_unwatched {s : Session σ} (h : s.Impartial) :
    (bindThread s.world.unwatched).2.coordinator.teardown = false := by
  have hmute := World.mute_unwatched h.mute
  rw [coordinator_bindThread (w := s.world.unwatched) h.present (hmute _)]
  exact teardown_mutely_all (hmute _) h.unclaimed

/-- Before the first step the two runs are side by side: the first one has been through two accesses
and has its handler in place, the second one has been through one. -/
theorem twin_ready {s : Session σ} (h : s.Impartial) :
    (ready s).Twin s.controller.context.blur false none (ready s.unwatched) := by
  have hready : ready s = (onWorld watch (bound s)).2 := if_pos h.watches
  have hready' : ready s.unwatched = bound s.unwatched := if_neg Bool.false_ne_true
  rw [hready, hready']
  refine ⟨{ twin_controller h with }, ?_⟩
  have hbound := accessed_bindThread s.world
  have hyield := hbound.trans (World.accessed_yield (bindThread s.world).2)
  have hbound' := accessed_bindThread s.world.unwatched
  have hwatched : (onWorld watch (bound s)).2.world =
      ((World.yield (bindThread s.world).2).2.setProcess
        ((World.yield (bindThread s.world).2).2.process.watch
          (World.yield (bindThread s.world).2).2.self).2).noted
        (.said .controller ⟨.info, "panic hook installed"⟩) := rfl
  change World.Twin _ _ _ (onWorld watch (bound s)).2.world (bindThread s.world.unwatched).2
  rw [hwatched]
  exact {
    memory := hyield.memory.trans hbound'.memory.symm
    clock := hyield.clock.trans hbound'.clock.symm
    generator := hyield.generator.trans hbound'.generator.symm
    files := congrArg _ (hyield.files.trans hbound'.files.symm)
    proceedings := by
      rw [World.proceedings_remark _ rfl, World.proceedings_setProcess]
      exact hyield.proceedings.trans hbound'.proceedings.symm
    watched := rfl
    unwatched := by
      rw [hbound'.handler, hbound'.self]
      exact h.handler
    present := hyield.present h.present
    present' := hbound'.present h.present
    others := by
      intro n
      change (World.yield (bindThread s.world).2).2.others
        ((World.yield (bindThread s.world).2).2.turn + n) = _
      rw [hyield.others, hyield.turn, hbound'.others, hbound'.turn]
      exact (World.others_unwatched_behind s.world n).symm
    mute := by
      rw [hbound'.others]
      exact World.mute_unwatched h.mute
    coordinator := congrArg Coordinator.anonymous (coordinator_yield_bindThread h)
    teardown := teardown_bindThread_unwatched h }

/-! ## The teardown -/

/-- The teardown up to the end of the round in which the listeners are told of the shutdown: whether
it is unexpected, the fault of the run, and how the round ends. -/
def lastRound : Driven σ (Bool × Option FaultRecord × Outcome ListenerFailure Nat) := do
  sayClaimed (← onWorld World.openTeardown)
  let fault := (← onWorld World.look).fault
  let unexpected := (← onWorld World.flag) || fault.isSome
  sayStarted unexpected
  let bus := (← get).controller.bus
  onWorld (World.note (.round (.shutdown unexpected)))
  return (unexpected, fault, ← onWorld (bus.notify (.shutdown unexpected)))

/-- A teardown consists of the last round and what is logged after it. -/
theorem tearDown_parts : tearDown (σ := σ) = do
    let (unexpected, fault, told) ← lastRound
    sayTold told
    sayEnded unexpected fault.isSome
    return result (← get).controller unexpected fault :=
  rfl

/-- How the last round of a run ends. -/
def told (s : Session σ) : Outcome ListenerFailure Nat := (lastRound (upToTeardown s)).1.2.2

/-- The number of panics at the shutdown of a run. The first one ends the round. -/
def shutdownPanics (s : Session σ) : Nat :=
  if s.controller.stage = .idle then
    match told s with
    | .error (.panic _) => 1
    | _ => 0
  else 0

/-- Work from twins gives values and sessions that `Q` relates. -/
def Couples (P : Session σ → Session σ → Prop) (work work' : Driven σ α)
    (Q : α → α → Session σ → Session σ → Prop) : Prop :=
  ∀ s t, P s t → Q (work s).1 (work' t).1 (work s).2 (work' t).2

section Teardown

variable {g : ByteArray → ByteArray} {late : Bool} {owed : Option FaultRecord}

theorem couples_bind {P : Session σ → Session σ → Prop} {work work' : Driven σ α}
    {next next' : α → Driven σ β} {Q : α → α → Session σ → Session σ → Prop}
    {R : β → β → Session σ → Session σ → Prop} (h : Couples P work work' Q)
    (h' : ∀ a b, Couples (Q a b) (next a) (next' b) R) :
    Couples P (work >>= next) (work' >>= next') R :=
  fun s t hst => h' _ _ _ _ (h s t hst)

/-- What is known of values does not depend on the sessions. -/
theorem couples_of {p : Prop} {P : Session σ → Session σ → Prop} {work work' : Driven σ α}
    {Q : α → α → Session σ → Session σ → Prop} (h : p → Couples P work work' Q) :
    Couples (fun s t => p ∧ P s t) work work' Q :=
  fun s t hst => h hst.1 s t hst.2

/-- Work that tallies, before other work. -/
theorem couples_then {work work' : Driven σ α} {next next' : α → Driven σ β}
    {R : β → β → Session σ → Session σ → Prop} (h : Tallies g late owed work work')
    (h' : ∀ a, Couples (Session.Twin g late owed) (next a) (next' a) R) :
    Couples (Session.Twin g late owed) (work >>= next) (work' >>= next') R := by
  refine couples_bind (Q := fun a b s t => a = b ∧ s.Twin g late owed t) h fun a b => ?_
  refine couples_of fun hab => ?_
  subst hab
  exact h' a

theorem couples_openTeardown :
    Couples (Session.Twin (σ := σ) g false none) (onWorld World.openTeardown)
      (onWorld World.openTeardown) fun a b s t => a = b ∧ s.Twin g true none t := by
  intro s t h
  obtain ⟨hfound, htwin⟩ := World.twin_alter h.world World.impartial_claim
  have hfirst := congrArg (fun c : Coordinator => !c.teardown) hfound
  exact ⟨hfirst, h.controller, htwin.remark rfl rfl⟩

theorem couples_look : Couples (Session.Twin (σ := σ) g late none) (onWorld World.look)
    (onWorld World.look) fun c d s t => c.anonymous = d.anonymous ∧ s.Twin g late none t := by
  intro s t h
  obtain ⟨hfound, htwin⟩ := World.twin_look h.world
  exact ⟨hfound, h.controller, htwin⟩

theorem tallies_sayLine (line : LogLine) :
    Tallies (σ := σ) g late owed (sayLine line) (sayLine line) :=
  tallies_note _

theorem tallies_sayClaimed (first : Bool) :
    Tallies (σ := σ) g late owed (sayClaimed first) (sayClaimed first) := by
  cases first with
  | true => exact tallies_pure _
  | false => exact tallies_say _ _ _

theorem tallies_sayStarted (unexpected : Bool) :
    Tallies (σ := σ) g late owed (sayStarted unexpected) (sayStarted unexpected) := by
  refine tallies_bind (tallies_say _ _ _) fun _ => ?_
  cases unexpected with
  | true => exact tallies_sayLine _
  | false => exact tallies_pure _

theorem tallies_sayTold (told : Outcome ListenerFailure Nat) :
    Tallies (σ := σ) g late owed (sayTold told) (sayTold told) := by
  cases told with
  | ok _ => exact tallies_pure _
  | error a =>
      cases a with
      | failure _ => exact tallies_say _ _ _
      | panic x => exact tallies_note _

theorem tallies_sayEnded (unexpected faulty : Bool) :
    Tallies (σ := σ) g late owed (sayEnded unexpected faulty) (sayEnded unexpected faulty) := by
  have hlines : Tallies (σ := σ) g late owed (sayEnded unexpected false)
      (sayEnded unexpected false) := by
    cases unexpected with
    | true => exact tallies_bind (tallies_sayLine _) fun _ => tallies_sayLine _
    | false => exact tallies_sayLine _
  cases faulty with
  | true => exact tallies_bind (tallies_say _ _ _) fun _ => hlines
  | false => exact hlines

/-- The fault of a run is the same up to its name, and the last round ends alike. After a panic in
it the second session owes a record that it will never pay. -/
theorem couples_lastRound :
    Couples (Session.Twin (σ := σ) g false none) lastRound lastRound fun x y s t =>
      x.1 = y.1 ∧ x.2.1.map FaultRecord.anonymous = y.2.1.map FaultRecord.anonymous ∧
        x.2.2 = y.2.2 ∧ s.Twin g true (Outcome.owed t.world.clock y.2.2) t := by
  refine couples_bind couples_openTeardown fun a b => couples_of fun hab => ?_
  subst hab
  refine couples_then (tallies_sayClaimed a) fun _ => ?_
  refine couples_bind couples_look fun c d => couples_of fun hfound => ?_
  have hfault := congrArg Coordinator.fault hfound
  have hsome : c.fault.isSome = d.fault.isSome := by
    have hboth := congrArg Option.isSome hfault
    change (c.fault.map _).isSome = (d.fault.map _).isSome at hboth
    rwa [Option.isSome_map, Option.isSome_map] at hboth
  dsimp only
  rw [hsome]
  refine couples_then tallies_flag fun flag => couples_then (tallies_sayStarted _) fun _ => ?_
  intro s t htwin
  have hround := htwin.world.noted (.round (.shutdown (flag || d.fault.isSome)))
  have hnotify := ListenerBus.endsAlike_notify (e := .shutdown (flag || d.fault.isSome))
    htwin.controller.bus hround
  exact ⟨rfl, hfault, hnotify.value.eq, htwin.controller, hnotify.world⟩

/-- Results of twins differ at most in the name of a panic. -/
theorem result_anonymous {c d : Controller σ} (h : c.Twin g d) (unexpected : Bool)
    {a b : Option FaultRecord}
    (hab : a.map FaultRecord.anonymous = b.map FaultRecord.anonymous) :
    (result c unexpected a).mapError RunFailure.anonymous =
      (result d unexpected b).mapError RunFailure.anonymous := by
  have hfault : ∀ r : FaultRecord, (RunFailure.fault r.origin r.fault).anonymous =
      .fault r.anonymous.origin r.anonymous.fault := by
    rintro ⟨fault, origin, capturedAt⟩
    cases fault <;> rfl
  cases a with
  | none =>
      cases b with
      | none =>
          unfold result
          rw [h.completed, h.last]
      | some r => cases hab
  | some r =>
      cases b with
      | none => cases hab
      | some r' =>
          have hsame : r.anonymous = r'.anonymous := Option.some.inj hab
          change Except.error (RunFailure.fault r.origin r.fault).anonymous =
            Except.error (RunFailure.fault r'.origin r'.fault).anonymous
          rw [hfault, hfault, hsame]

/-- The teardowns of twins give results that differ at most in the name of a panic. A panic in the
last round stays owed. -/
theorem twin_tearDown {s t : Session σ} (h : s.Twin g false none t) :
    (tearDown s).1.mapError RunFailure.anonymous = (tearDown t).1.mapError RunFailure.anonymous ∧
      (lastRound s).1.2.2 = (lastRound t).1.2.2 ∧
      (tearDown s).2.Twin g true
        (Outcome.owed (lastRound t).2.world.clock (lastRound t).1.2.2) (tearDown t).2 := by
  have hparts : ∀ u : Session σ, tearDown u =
      (result (sayEnded (lastRound u).1.1 (lastRound u).1.2.1.isSome
          (sayTold (lastRound u).1.2.2 (lastRound u).2).2).2.controller
          (lastRound u).1.1 (lastRound u).1.2.1,
        (sayEnded (lastRound u).1.1 (lastRound u).1.2.1.isSome
          (sayTold (lastRound u).1.2.2 (lastRound u).2).2).2) := by
    intro u
    rw [tearDown_parts]
    rfl
  have hround := couples_lastRound s t h
  rw [hparts, hparts]
  -- from here on only what is known of the last rounds matters
  generalize lastRound s = x at hround ⊢
  generalize lastRound t = y at hround ⊢
  obtain ⟨hunexpected, hfault, htold, htwin⟩ := hround
  have hsome : x.1.2.1.isSome = y.1.2.1.isSome := by
    have hboth := congrArg Option.isSome hfault
    rwa [Option.isSome_map, Option.isSome_map] at hboth
  obtain ⟨-, hsaid⟩ := tallies_sayTold y.1.2.2 _ _ htwin
  obtain ⟨-, hended⟩ := tallies_sayEnded y.1.1 y.1.2.1.isSome _ _ hsaid
  rw [hunexpected, htold, hsome]
  exact ⟨result_anonymous hended.controller _ hfault, rfl, hended⟩

end Teardown

/-! ## The whole run -/

section Run

variable {g : ByteArray → ByteArray} {late : Bool} {owed : Option FaultRecord}

theorem tallies_terminate :
    Tallies (σ := σ) g late owed (onWorld World.terminate) (onWorld World.terminate) :=
  tallies_onWorld fun _ _ h => World.twin_alter h World.impartial_terminate

theorem released_apply (s : Session σ) : released s =
    (onWorld World.terminate (enter .terminated (tearDown (upToTeardown s)).2).2).2 := by
  rw [released, concluded, upToRelease_apply, upToTeardown]

/-- Up to the release two runs are side by side, with and without the watch. -/
theorem twin_released {s : Session σ} (h : s.Impartial) :
    ∃ now, (tearDown (upToTeardown s)).1.mapError RunFailure.anonymous =
        (tearDown (upToTeardown s.unwatched)).1.mapError RunFailure.anonymous ∧
      told s = told s.unwatched ∧
      (released s).Twin s.controller.context.blur true (Outcome.owed now (told s.unwatched))
        (released s.unwatched) := by
  have hopened : (upToTeardown s).Twin s.controller.context.blur false none
      (upToTeardown s.unwatched) := (tallies_runToTeardown _ _ (twin_ready h)).2
  obtain ⟨hresult, htold, htorn⟩ := twin_tearDown hopened
  obtain ⟨-, hconcluded⟩ := tallies_enter .terminated _ _ htorn
  obtain ⟨-, hreleased⟩ := tallies_terminate _ _ hconcluded
  refine ⟨(lastRound (upToTeardown s.unwatched)).2.world.clock, hresult, htold, ?_⟩
  rw [released_apply, released_apply, told]
  exact hreleased

theorem discarded_mutely_all (as : List ThreadAct) (c : Coordinator) :
    (as.foldl (fun c a => a.mutely c) c).discarded = c.discarded := by
  induction as generalizing c with
  | nil => rfl
  | cons a rest ih =>
      have hone : (a.mutely c).discarded = c.discarded := by
        cases a with
        | terminate => exact (World.terminate_keeps c).2.2
        | _ => rfl
      rw [List.foldl_cons, ih, hone]

/-- The return of the handler at the end counts nothing and is no matter of the proceedings. -/
theorem unwatch_of_twin {w v : World σ} (h : World.Twin g late owed w v) (previous : PanicHandler) :
    (unwatch previous w).2.proceedings = w.proceedings ∧
      (unwatch previous w).2.coordinator.discarded = w.coordinator.discarded := by
  have hmute : ∀ a ∈ w.others w.turn, a.Mute false := by
    rw [show w.others w.turn = v.others v.turn from h.others 0]
    exact h.mute v.turn
  have hunwatch : (unwatch previous w).2 = (World.yield w).2.setProcess
      ((World.yield w).2.process.restore previous) := rfl
  rw [hunwatch, World.proceedings_setProcess, World.coordinator_setProcess]
  refine ⟨(World.accessed_yield w).proceedings, ?_⟩
  change (World.yield w).2.coordinator.discarded = _
  rw [World.coordinator_yield h.present hmute, discarded_mutely_all]

/-- After the claim to the teardown a record that is owed is counted where it has been made. -/
theorem discarded_of_twin {w v : World σ} (h : World.Twin g true owed w v) :
    w.coordinator.discarded = v.coordinator.discarded + owed.toList.length := by
  have hsame := congrArg Coordinator.discarded h.coordinator
  have hpaid : ∀ c : Coordinator, c.teardown = true →
      (c.paid owed).discarded = c.discarded + owed.toList.length := by
    rintro ⟨flag, teardown, fault, discarded, bound, terminated, waiters⟩ rfl
    cases owed <;> rfl
  exact hsame.trans (hpaid _ h.teardown)

/-- Whether a run watches for panics makes no difference to what it does. The two runs have the same
proceedings: the same steps end in the same way, and in the same rounds the same listeners find the
same. They give the same result, up to the name that a panic is reported under. They discard as many
faults, but for a panic at the shutdown, which nobody counts without the watch. -/
theorem watch_transparent (s : Session σ) (h : s.Impartial) :
    (run s).2.world.proceedings = (run s.unwatched).2.world.proceedings ∧
      (run s).1.mapError RunFailure.anonymous =
        (run s.unwatched).1.mapError RunFailure.anonymous ∧
      shutdownPanics s = shutdownPanics s.unwatched ∧
      (run s).2.world.coordinator.discarded =
        (run s.unwatched).2.world.coordinator.discarded + shutdownPanics s := by
  by_cases hidle : s.controller.stage = .idle
  · have hidle' : s.unwatched.controller.stage = .idle := hidle
    obtain ⟨now, hresult, htold, htwin⟩ := twin_released h
    obtain ⟨hproceedings, hdiscarded⟩ := unwatch_of_twin htwin.world
      (World.yield (bound s).world).2.process.handler
    have hpanics : (Outcome.owed now (told s.unwatched)).toList.length =
        shutdownPanics s := by
      rw [shutdownPanics, if_pos hidle, htold]
      rcases told s.unwatched with (f | x) | n <;> rfl
    have hpanics' : shutdownPanics s = shutdownPanics s.unwatched := by
      rw [shutdownPanics, shutdownPanics, if_pos hidle, if_pos hidle', htold]
    have hworld : (run s).2.world = (unwatch (World.yield (bound s).world).2.process.handler
        (released s).world).2 := by
      rw [run_of_watches hidle h.watches]
      rfl
    have hworld' : (run s.unwatched).2 = released s.unwatched := by
      rw [run_of_not_watches hidle' rfl]
    rw [(run_parts hidle).2.1, (run_parts hidle').2.1, hworld, hworld', hproceedings, hdiscarded,
      discarded_of_twin htwin.world, hpanics]
    exact ⟨htwin.world.proceedings, hresult, hpanics', rfl⟩
  · have hidle' : s.unwatched.controller.stage ≠ .idle := hidle
    rw [run_of_not_idle hidle, run_of_not_idle hidle', shutdownPanics, shutdownPanics,
      if_neg hidle, if_neg hidle']
    exact ⟨rfl, rfl, rfl, rfl⟩

end Run

/-! ### A run in which the mobsim panics -/

/-- A listener that fails after the mobsim and panics at the shutdown. -/
def startling : Listener Unit where
  name := "startling"
  notify
    | .afterMobsim _ => .fail ⟨"no results", []⟩
    | .shutdown _ => .panic ⟨.text "not now", "startling.rs:2"⟩
    | _ => .done ()

/-- A session that watches for panics, with that listener and a mobsim that panics. -/
def startled : Session Unit where
  controller :=
    { context :=
        { configuration := { controller :=
            { lastIteration := 0, outputDirectory := "out", iterationDirectories := false } }
          output := { root := "out" } }
      simulation := { mobsim := fun _ _ => .panic ⟨.text "boom", "mobsim.rs:1"⟩ }
      bus := { user := [startling] }
      seeding := { base := 4711 } }
  world := { memory := (), files := { entries := [(["out"], .directory)] } }

theorem alike_startling (g : ByteArray → ByteArray) : startling.Alike g startling where
  name := rfl
  wants := rfl
  notify e := by
    cases e with
    | afterMobsim i => exact .fail _
    | shutdown unexpected => exact .panic _
    | _ => exact .done rfl

theorem impartial_startled : startled.Impartial where
  watches := rfl
  handler := nofun
  present := rfl
  unclaimed := rfl
  mute := fun _ _ ha => nomatch ha
  listeners := .done .nil
  load := .done rfl
  prepare := .done rfl
  mobsim := fun _ => .panic _
  question := fun _ => .done rfl
  bus := fun t => by
    cases t with
    | core => exact .nil
    | user => exact .cons (alike_startling _) .nil

/-- The panic of the mobsim is recorded once with the watch and once without it, and the failure
after it is discarded in both runs. The panic at the shutdown is counted by the handler alone. -/
theorem watch_transparent_startled :
    startled.Impartial ∧
      ((run startled).2.world.proceedings = (run startled.unwatched).2.world.proceedings ∧
        (run startled).1.mapError RunFailure.anonymous =
          (run startled.unwatched).1.mapError RunFailure.anonymous ∧
        shutdownPanics startled = shutdownPanics startled.unwatched ∧
        (run startled).2.world.coordinator.discarded =
          (run startled.unwatched).2.world.coordinator.discarded + shutdownPanics startled) ∧
      (run startled.unwatched).2.world.coordinator.discarded = 1 ∧ shutdownPanics startled = 1 :=
  ⟨impartial_startled, watch_transparent startled impartial_startled, by decide +kernel,
    by decide +kernel⟩

/-! ### A panic after someone else has claimed the teardown -/

/-- A listener that claims the teardown at the startup and panics then. -/
def hasty : Listener Unit where
  name := "hasty"
  notify
    | .startup => do
      discard (Program.doing .claimTeardown)
      Program.panic ⟨.text "boom", "hasty.rs:1"⟩
    | _ => return

/-- A session that watches for panics, with that listener and one iteration. -/
def hurried : Session Unit where
  controller :=
    { context :=
        { configuration := { controller := { lastIteration := 0, outputDirectory := "out" } }
          output := { root := "out" } }
      simulation := { mobsim := fun _ _ => return }
      bus := { user := [hasty] }
      seeding := { base := 4711 } }
  world := { memory := (), files := { entries := [(["out"], .directory)] } }

/-- Nothing is kept after the claim, so the controller finds no fault where the handler has reported
the panic, and reports it too. So one panic before the shutdown is counted twice with the watch, and
once without it. -/
theorem hasty_counted_twice :
    hurried.watches = true ∧ shutdownPanics hurried = 0 ∧
      (run hurried).2.world.coordinator.discarded = 2 ∧
      (run hurried.unwatched).2.world.coordinator.discarded = 1 ∧
      (run hurried).2.world.coordinator.fault = none := by
  refine ⟨rfl, ?_, ?_, ?_, ?_⟩
  all_goals decide +kernel

end Controller

end CommuteSim
