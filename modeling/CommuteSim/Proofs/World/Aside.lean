import CommuteSim.Proofs.World.Assertion
import CommuteSim.Proofs.World.Chronicle

/-!
# What happens beside the rounds

Rounds, what listeners are told in them, and the beginnings of mobsims make up the course of a
simulation. All else in a history is said or done beside it. A collaborator adds nothing else to a
history, whatever its program does; the controller's own work adds nothing else either, and leaves
the memory and the generator alone.

Main statements: `onward_run` for programs, `aside_report` and `aside_openTeardown` for accesses of
the controller that change what others see, `still_yield` and what follows it for those that do not.
-/

namespace CommuteSim

variable {σ α ε : Type}

/-- Whether a moment is beside the rounds and the mobsims of a run. -/
def Moment.aside : Moment σ → Bool
  | .round _ | .told .. | .mobsim .. => false
  | _ => true

/-- A state of a coordinator that other threads left as it was: the flag, the claim and the fault
are those of the state before. -/
structure Coordinator.Resembles (c d : Coordinator) : Prop where
  flag : d.flag = c.flag
  teardown : d.teardown = c.teardown
  fault : d.fault = c.fault

theorem Coordinator.Resembles.refl (c : Coordinator) : Resembles c c := ⟨rfl, rfl, rfl⟩

theorem Coordinator.Resembles.trans {c d e : Coordinator} (h : Resembles c d)
    (h' : Resembles d e) : Resembles c e :=
  ⟨h'.flag.trans h.flag, h'.teardown.trans h.teardown, h'.fault.trans h.fault⟩

namespace World

/-! ## How a world goes on beside the rounds -/

/-- The history has gained asides only, and the coordinator is in a later state. It is still there
if it was. -/
structure Onward (w u : World σ) : Prop where
  past : ∃ l, u.past = w.past ++ l ∧ ∀ m ∈ l, m.aside = true
  later : w.coordinator.Later u.coordinator
  present : w.Present → u.Present

/-- The world has gone on, and the memory and the generator are as before. -/
structure Aside (w u : World σ) : Prop extends Onward w u where
  memory : u.memory = w.memory
  generator : u.generator = w.generator

/-- No other thread acts any more. -/
def Alone (w : World σ) : Prop := ∀ n, w.others n = []

/-- The world has gone on to this memory, this generator and these files. If no other thread acts,
the coordinator resembles the one before. -/
structure Becomes (w : World σ) (memory : σ) (generator : Generator) (files : FileSystem)
    (u : World σ) : Prop extends Onward w u where
  memory : u.memory = memory
  generator : u.generator = generator
  files : u.files = files
  others : u.others = w.others
  resembles : w.Alone → w.coordinator.Resembles u.coordinator

/-- The world has gone on, and all that collaborators work with is as before. -/
abbrev Still (w u : World σ) : Prop := w.Becomes w.memory w.generator w.files u

section Relations

variable {w v u : World σ}

theorem Onward.refl (w : World σ) : Onward w w where
  past := ⟨[], (List.append_nil _).symm, fun _ h => nomatch h⟩
  later := .refl _
  present := id

theorem Onward.trans (h : Onward w v) (h' : Onward v u) : Onward w u where
  past := by
    obtain ⟨l, hl, haside⟩ := h.past
    obtain ⟨m, hm, haside'⟩ := h'.past
    refine ⟨l ++ m, by rw [hm, hl, List.append_assoc], fun n hn => ?_⟩
    rcases List.mem_append.mp hn with hn | hn
    · exact haside n hn
    · exact haside' n hn
  later := h.later.trans h'.later
  present := h'.present ∘ h.present

instance : Std.Refl (Onward (σ := σ)) := ⟨Onward.refl⟩

instance : Trans (Onward (σ := σ)) Onward Onward := ⟨Onward.trans⟩

theorem Aside.refl (w : World σ) : Aside w w := ⟨.refl w, rfl, rfl⟩

theorem Aside.trans (h : Aside w v) (h' : Aside v u) : Aside w u :=
  ⟨h.toOnward.trans h'.toOnward, h'.memory.trans h.memory, h'.generator.trans h.generator⟩

instance : Std.Refl (Aside (σ := σ)) := ⟨Aside.refl⟩

instance : Trans (Aside (σ := σ)) Aside Aside := ⟨Aside.trans⟩

theorem Becomes.alone {m : σ} {g : Generator} {f : FileSystem} (h : w.Becomes m g f u)
    (hw : w.Alone) : u.Alone := by
  intro n
  rw [h.others]
  exact hw n

theorem Becomes.trans {m m' : σ} {g g' : Generator} {f f' : FileSystem} (h : w.Becomes m g f v)
    (h' : v.Becomes m' g' f' u) : w.Becomes m' g' f' u where
  toOnward := h.toOnward.trans h'.toOnward
  memory := h'.memory
  generator := h'.generator
  files := h'.files
  others := h'.others.trans h.others
  resembles := fun hw => (h.resembles hw).trans (h'.resembles (h.alone hw))

/-- What happens after a world has become another one, and leaves all that collaborators work with
alone, can be left out. -/
theorem Becomes.still {m : σ} {g : Generator} {f : FileSystem} (h : w.Becomes m g f v)
    (h' : Still v u) : w.Becomes m g f u := by
  refine ⟨h.toOnward.trans h'.toOnward, ?_, ?_, ?_, h'.others.trans h.others, fun hw => ?_⟩
  · exact h'.memory.trans h.memory
  · exact h'.generator.trans h.generator
  · exact h'.files.trans h.files
  · exact (h.resembles hw).trans (h'.resembles (h.alone hw))

theorem Still.refl (w : World σ) : Still w w :=
  ⟨.refl w, rfl, rfl, rfl, rfl, fun _ => .refl _⟩

theorem Still.trans (h : Still w v) (h' : Still v u) : Still w u := Becomes.still h h'

instance : Std.Refl (Still (σ := σ)) := ⟨Still.refl⟩

instance : Trans (Still (σ := σ)) Still Still := ⟨Still.trans⟩

theorem Still.aside (h : Still w u) : Aside w u := ⟨h.toOnward, h.memory, h.generator⟩

/-- Files that are changed are no part of what listeners find. -/
theorem Becomes.aside {f : FileSystem} (h : w.Becomes w.memory w.generator f u) : Aside w u :=
  ⟨h.toOnward, h.memory, h.generator⟩

end Relations

/-! ## Accesses to the coordinator -/

section Accesses

theorem aside_of_mem_changes {w : World σ} {p : Process} {m : Moment σ}
    (h : m ∈ (w.changes p).toList) : m.aside = true := by
  rw [changes] at h
  simp only [Array.toList_append, List.mem_append] at h
  rcases h with (h | h) | h
  · split at h
    · rw [List.mem_singleton.mp h]
      rfl
    · cases h
  · split at h
    · rw [List.mem_singleton.mp h]
      rfl
    · cases h
  · rw [List.mem_singleton.mp h]
    rfl

theorem onward_noted (w : World σ) {m : Moment σ} (h : m.aside = true) : Onward w (w.noted m) where
  past := ⟨[m], past_noted w m, fun _ hn => List.mem_singleton.mp hn ▸ h⟩
  later := .refl _
  present := id

theorem onward_setProcess {w : World σ} {p : Process}
    (h : w.coordinator.Later (p.coordinator w.self))
    (hpresent : w.Present → (p.coordinators w.self).isSome = true) :
    Onward w (w.setProcess p) where
  past := ⟨_, past_setProcess w p, fun _ hm => aside_of_mem_changes hm⟩
  later := h
  present := hpresent

theorem onward_setCoordinator {w : World σ} {c : Coordinator} (h : w.coordinator.Later c) :
    Onward w (w.setCoordinator c) where
  past := ⟨_, past_setProcess w _, fun _ hm => aside_of_mem_changes hm⟩
  later := by
    rw [coordinator_setCoordinator]
    exact h
  present := fun _ => present_setCoordinator w c

/-- Where neither the history nor the coordinator changes. -/
theorem onward_of_eq {w u : World σ} (hhistory : u.history = w.history)
    (hprocess : u.process = w.process) (hself : u.self = w.self) : Onward w u where
  past := ⟨[], by rw [past, hhistory, List.append_nil, past], fun _ h => nomatch h⟩
  later := by
    rw [coordinator, coordinator, hprocess, hself]
    exact .refl _
  present := by
    rw [Present, Present, hprocess, hself]
    exact id

theorem onward_undergo (w : World σ) (a : ThreadAct) : Onward w (w.undergo a) :=
  (onward_noted w rfl).trans
    (onward_setProcess (w.process.later_act w.self w.self w.clock a) fun h => present_act a h)

/-- What other threads do is beside the rounds, and it is all that a yield does. -/
theorem still_undergo_all (as : List ThreadAct) (w : World σ) (h : w.Alone → as = []) :
    Still w (as.foldl undergo w) := by
  induction as generalizing w with
  | nil => exact .refl w
  | cons a rest ih =>
      have hnever : ¬ w.Alone := fun hw => nomatch h hw
      have hfirst : Still w (w.undergo a) :=
        ⟨onward_undergo w a, rfl, rfl, rfl, rfl, fun hw => absurd hw hnever⟩
      exact hfirst.trans (ih (w.undergo a) fun hw => absurd hw hnever)

theorem still_yield (w : World σ) : Still w (yield w).2 := by
  have hacts := still_undergo_all (w.others w.turn) w fun hw => hw w.turn
  have hturn : Still ((w.others w.turn).foldl undergo w) (yield w).2 :=
    ⟨onward_of_eq rfl rfl rfl, rfl, rfl, rfl, rfl, fun _ => .refl _⟩
  exact hacts.trans hturn

theorem still_note {m : Moment σ} (h : m.aside = true) : Upholds Still (note m) :=
  fun w => ⟨onward_noted w h, rfl, rfl, rfl, rfl, fun _ => .refl _⟩

theorem still_say (level : LogLevel) (message : String) :
    Upholds (Still (σ := σ)) (say level message) :=
  still_note rfl

theorem still_look : Upholds (Still (σ := σ)) look :=
  upholds_bind still_yield fun _ => upholds_bind upholds_get fun _ => upholds_pure _

theorem still_flag : Upholds (Still (σ := σ)) flag :=
  upholds_bind still_look fun _ => upholds_pure _

/-- A change of the coordinator that nobody reads as a fault, a request or a claim. -/
theorem still_alter {f : Coordinator → α × Coordinator}
    (h : ∀ c : Coordinator, c.Later (f c).2 ∧ c.Resembles (f c).2) :
    Upholds (Still (σ := σ)) (alter f) := by
  refine upholds_bind still_yield fun _ w => ?_
  obtain ⟨hlater, hresembles⟩ := h w.coordinator
  refine ⟨onward_setCoordinator hlater, rfl, rfl, rfl, rfl, fun _ => ?_⟩
  have hafter : (w.setCoordinator (f w.coordinator).2).coordinator = (f w.coordinator).2 :=
    coordinator_setCoordinator w _
  exact hafter ▸ hresembles

theorem still_terminate : Upholds (Still (σ := σ)) terminate := by
  refine still_alter fun c =>
    ⟨c.later_terminate, ?_, (terminate_keeps c).1, (terminate_keeps c).2.1⟩
  unfold Coordinator.terminate
  split
  · rfl
  · rfl

/-- A handler of panics is put in. -/
theorem still_handler (x : World σ → PanicHandler) :
    Upholds Still (modify fun w : World σ => w.setProcess (w.process.restore (x w))) :=
  fun _ => ⟨onward_setProcess (.refl _) id, rfl, rfl, rfl, rfl, fun _ => .refl _⟩

theorem aside_report (origin : String) (f : Fault) :
    Upholds (Aside (σ := σ)) (report origin f) := by
  intro w
  rw [report_world]
  let r : FaultRecord := ⟨f, origin, w.clock⟩
  have hrecord : Aside (yield w).2 ((yield w).2.setCoordinator
      ((yield w).2.coordinator.record r).2) :=
    ⟨onward_setCoordinator (Coordinator.later_record _ r), rfl, rfl⟩
  have hline : ∀ v : World σ, Aside v (v.noted (.said .controller
      ((yield w).2.coordinator.record r).1.line)) :=
    fun v => ⟨onward_noted v rfl, rfl, rfl⟩
  exact ((still_yield w).aside.trans hrecord).trans (hline _)

theorem aside_openTeardown : Upholds (Aside (σ := σ)) openTeardown := by
  have hclaim : Upholds (Aside (σ := σ)) (alter fun c => (c, c.claim.2)) := by
    refine upholds_bind (fun w => (still_yield w).aside) fun _ w => ?_
    exact ⟨onward_setCoordinator w.coordinator.later_claim, rfl, rfl⟩
  refine upholds_bind hclaim fun found => upholds_bind ?_ fun _ => upholds_pure _
  exact upholds_mono (still_note rfl) fun _ _ h => h.aside

end Accesses

/-! ## Files -/

/-- A text that is written changes the files, or nothing. -/
theorem run_writeText (path text : String) (w : World σ) :
    writeText path text w = match w.files.writeText path text with
      | .ok files => (.ok (), { w with files := files })
      | .error reason => (.error reason, w) := by
  change (match w.files.writeText path text with
    | .ok files => (do
        modify fun w => { w with files := files }
        return .ok ())
    | .error reason => (return .error reason) :
      StateM (World σ) (FileSystem.FileResult Unit)) w = _
  cases w.files.writeText path text <;> rfl

theorem becomes_writeText (path text : String) (w : World σ) :
    w.Becomes w.memory w.generator
      ((w.files.writeText path text).toOption.getD w.files) (writeText path text w).2 := by
  rw [run_writeText]
  cases w.files.writeText path text with
  | ok files => exact ⟨onward_of_eq rfl rfl rfl, rfl, rfl, rfl, rfl, fun _ => .refl _⟩
  | error reason => exact Still.refl w

/-- Work on the files is done first, and its lines are logged then. -/
theorem onFiles_world (work : FileWork α) (w : World σ) :
    (onFiles work w).2 =
      (((work.run.run { files := w.files }).2.lines.forM fun line => note (.said .controller line) :
        StateM (World σ) PUnit)
        { w with files := (work.run.run { files := w.files }).2.files }).2 := rfl

theorem still_lines (lines : List LogLine) :
    Upholds (Still (σ := σ)) (lines.forM fun line => note (.said .controller line)) := by
  induction lines with
  | nil => exact upholds_pure _
  | cons line rest ih => exact upholds_bind (still_note rfl) fun _ => ih

theorem becomes_onFiles (work : FileWork α) (w : World σ) :
    w.Becomes w.memory w.generator (work.run.run { files := w.files }).2.files
      (onFiles work w).2 := by
  let j := (work.run.run { files := w.files }).2
  have hfiles : w.Becomes w.memory w.generator j.files { w with files := j.files } :=
    ⟨onward_of_eq rfl rfl rfl, rfl, rfl, rfl, rfl, fun _ => .refl _⟩
  exact hfiles.still (still_lines j.lines { w with files := j.files })

/-! ## Collaborators -/

section Collaborators

theorem onward_actHere (a : ThreadAct) (now : Instant) {f : Coordinator → α × Coordinator}
    (hf : ∀ c, (f c).2 = a.here now c) : Upholds (Onward (σ := σ)) (actHere a f) := by
  refine upholds_bind (fun w => (still_yield w).toOnward) fun _ => ?_
  refine upholds_bind (fun w => onward_noted w rfl) fun _ w => onward_setCoordinator ?_
  rw [hf]
  exact later_here now a _

theorem onward_reportHere (origin : String) (f : Fault) :
    Upholds (Onward (σ := σ)) (reportBy (actHere (.report origin f)) origin f) := by
  refine upholds_bind upholds_get fun w => ?_
  refine upholds_bind (onward_actHere (.report origin f) w.clock fun _ => rfl) fun _ => ?_
  exact upholds_bind (fun v => onward_noted v rfl) fun _ => upholds_pure _

theorem onward_panic (x : Panic) : Upholds (Onward (σ := σ)) (panic x) := by
  intro w
  have hyield := (still_yield w).toOnward
  by_cases h : w.process.handler = .watching w.self
  · rw [panic_of_watching h]
    have hrecord := onward_setCoordinator
      (Coordinator.later_record (yield w).2.coordinator
        ⟨Process.panicFault (some controllerThread) x, x.origin (some controllerThread), w.clock⟩)
    exact (hyield.trans hrecord).trans (onward_noted _ rfl)
  · rw [panic_of_not_watching h]
    exact hyield.trans (onward_setProcess (Process.later_panic _ _ _ _ _) isSome_panic)

theorem onward_interrupt : Upholds (Onward (σ := σ)) interrupt := by
  have hsay : ∀ level message, Upholds (Onward (σ := σ)) (say level message) :=
    fun level message w => (still_say level message w).toOnward
  refine upholds_bind (hsay _ _) fun _ => ?_
  refine upholds_bind (onward_actHere .interrupt ⟨0⟩ fun _ => rfl) fun c => ?_
  exact upholds_ite (hsay _ _) (upholds_pure _)

theorem onward_elsewhere (a : ThreadAct) : Upholds (Onward (σ := σ)) (elsewhere a) :=
  upholds_bind (fun w => (still_yield w).toOnward) fun _ w => onward_undergo w a

/-- Every deed of a collaborator is done beside the rounds. -/
theorem onward_perform (d : Deed σ) : Upholds Onward (perform d) := by
  have hget : ∀ {β : Type} (f : World σ → β),
      Upholds (Onward (σ := σ)) (do return f (← get)) :=
    fun f => upholds_bind upholds_get fun _ => upholds_pure _
  have hmodify : ∀ f : World σ → World σ, (∀ w, (f w).history = w.history) →
      (∀ w, (f w).process = w.process) → (∀ w, (f w).self = w.self) →
      Upholds Onward (modify f : StateM (World σ) PUnit) :=
    fun f hhistory hprocess hself w => onward_of_eq (hhistory w) (hprocess w) (hself w)
  cases d with
  | memory => exact hget _
  | remember m => exact hmodify _ (fun _ => rfl) (fun _ => rfl) fun _ => rfl
  | clock => exact hget _
  | elapse n => exact hmodify _ (fun _ => rfl) (fun _ => rfl) fun _ => rfl
  | generator => exact hget _
  | setGenerator g => exact hmodify _ (fun _ => rfl) (fun _ => rfl) fun _ => rfl
  | files => exact hget _
  | setFiles f => exact hmodify _ (fun _ => rfl) (fun _ => rfl) fun _ => rfl
  | say l => exact fun w => onward_noted w rfl
  | coordinator => exact fun w => (still_look w).toOnward
  | report origin f => exact onward_reportHere origin f
  | interrupt => exact onward_interrupt
  | claimTeardown => exact onward_actHere .claimTeardown ⟨0⟩ fun _ => rfl
  | terminate => exact onward_actHere .terminate ⟨0⟩ fun _ => rfl
  | elsewhere a => exact onward_elsewhere a

/-- Whatever a collaborator does, it tells no listener and begins no mobsim. -/
theorem onward_run (p : Program σ ε α) : Upholds Onward p.run := by
  induction p with
  | done a => exact upholds_pure _
  | fail e => exact upholds_pure _
  | panic x => exact upholds_bind (onward_panic x) fun _ => upholds_pure _
  | act d next ih => exact upholds_bind (onward_perform d) ih

end Collaborators

end World

/-! ## Rounds -/

namespace ListenerBus

section Rounds

variable {e : Event} {r : Registration σ} {rest : List (Registration σ)} {w : World σ}

/-- What the history gains when a listener is told of an event. -/
def toldMoment (e : Event) (r : Registration σ) (w : World σ) : Moment σ :=
  .told r.tier r.place e w.memory w.generator

/-- A listener that is told is run once, and finds the memory and the generator that are noted. What
it returns is what its call comes to. -/
theorem tell_run (e : Event) (r : Registration σ) (w : World σ) :
    let v := w.noted (toldMoment e r w)
    let ran := (r.listener.notify e).run v
    tell e r w =
        (ran.1.mapError (Abort.map fun c => ⟨r.listener.name, r.tier, e, c⟩), ran.2) ∧
      v.memory = w.memory ∧ v.generator = w.generator :=
  ⟨rfl, rfl, rfl⟩

theorem tell_world (e : Event) (r : Registration σ) (w : World σ) :
    (tell e r w).2 = ((r.listener.notify e).run (w.noted (toldMoment e r w))).2 :=
  congrArg Prod.snd (tell_run e r w).1

theorem tellAll_cons (e : Event) (r : Registration σ) (rest : List (Registration σ))
    (w : World σ) : tellAll e (r :: rest) w = match (tell e r w).1 with
      | .ok () => tellAll e rest (tell e r w).2
      | .error a => (.error a, (tell e r w).2) := by
  change (match (tell e r w).1 with
    | .ok () => tellAll e rest
    | .error a => (return .error a : StateM (World σ) (Outcome ListenerFailure Unit)))
      (tell e r w).2 = _
  cases (tell e r w).1 <;> rfl

theorem tellAll_of_ok (h : (tell e r w).1 = .ok ()) :
    tellAll e (r :: rest) w = tellAll e rest (tell e r w).2 := by
  rw [tellAll_cons, h]

theorem tellAll_of_error {a : Abort ListenerFailure} (h : (tell e r w).1 = .error a) :
    tellAll e (r :: rest) w = (.error a, (tell e r w).2) := by
  rw [tellAll_cons, h]

/-- What is kept when a listener is told is kept by a round. By induction on those that are told. -/
theorem does_tellAll {P : World σ → Prop} {rs : List (Registration σ)}
    (h : ∀ r ∈ rs, Does P (tell e r) fun _ => P) : Does P (tellAll e rs) fun _ => P := by
  induction rs with
  | nil => exact does_pure fun _ h => h
  | cons r rest ih =>
      refine does_bind (h r List.mem_cons_self) fun told => ?_
      cases told with
      | ok _ => exact ih fun r' hr' => h r' (List.mem_cons_of_mem r hr')
      | error a => exact does_pure fun _ h => h

end Rounds

end ListenerBus

end CommuteSim
