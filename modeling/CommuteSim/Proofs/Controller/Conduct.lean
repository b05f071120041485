import CommuteSim.Proofs.Controller.Account
import CommuteSim.Proofs.World.Chronicle
import Mathlib.Logic.Relation

/-!
# What a run does to its world, one small step after the other

A collaborator is confined if all its deeds are of a certain kind. In a run with confined
collaborators the world changes in stirs: a deed of that kind, an access of the controller to the
coordinator, a note, or one of the few things that the controller does on the files. So what every
stir keeps is kept by a run, whatever the collaborators do else.

Main statements: `stirs_runToTeardown` and `stirs_tearDown`.
-/

namespace CommuteSim

variable {σ α β ε : Type}

/-! ## Confined collaborators -/

/-- Whether all deeds of a program are of the kind `P`, and all values that it gives are of the kind
`Q`. -/
def Program.Confined (P : Deed σ → Prop) (Q : α → Prop) : Program σ ε α → Prop
  | done a => Q a
  | fail _ | panic _ => True
  | act d next => P d ∧ ∀ answer, (next answer).Confined P Q

/-- A program of which only the deeds matter. -/
abbrev Program.Restrained (P : Deed σ → Prop) (p : Program σ ε α) : Prop :=
  p.Confined P fun _ => True

/-- A listener all of whose deeds are of the kind `P`. -/
def Listener.Confined (P : Deed σ → Prop) (l : Listener σ) : Prop :=
  ∀ e, (l.notify e).Restrained P

/-- A simulation all of whose deeds are of the kind `P`, those of its listeners among them. -/
structure Simulation.Confined (P : Deed σ → Prop) (m : Simulation σ) : Prop where
  listeners : ∀ k, (m.listeners k).Confined P fun ls => ∀ l ∈ ls, l.Confined P
  load : ∀ k, (m.load k).Restrained P
  prepare : ∀ k, (m.prepare k).Restrained P
  mobsim : ∀ k i, (m.mobsim k i).Restrained P
  continues : ∀ k i, (m.continues k i).Restrained P

/-- A controller all of whose collaborators do deeds of the kind `P` only. -/
structure Controller.Confined (P : Deed σ → Prop) (c : Controller σ) : Prop where
  simulation : c.simulation.Confined P
  criterion : ∀ q ∈ c.criterion, ∀ i, (q i).Restrained P
  bus : ∀ t, ∀ l ∈ c.bus.tier t, l.Confined P

theorem Program.confined_of_all {P : Deed σ → Prop} {Q : α → Prop} (hP : ∀ d, P d)
    (hQ : ∀ a, Q a) (p : Program σ ε α) : p.Confined P Q := by
  induction p with
  | done a => exact hQ a
  | fail _ => trivial
  | panic _ => trivial
  | act d next ih => exact ⟨hP d, ih⟩

/-- Where all deeds are of the kind `P`, every controller is confined. -/
theorem Controller.confined_of_all {P : Deed σ → Prop} (hP : ∀ d, P d) {c : Controller σ} :
    c.Confined P := by
  have hprogram : ∀ {ε α : Type} (p : Program σ ε α), p.Restrained P :=
    fun p => p.confined_of_all hP fun _ => trivial
  have hlistener : ∀ l : Listener σ, l.Confined P := fun l e => hprogram (l.notify e)
  constructor
  · exact ⟨fun k => Program.confined_of_all hP (fun _ l _ => hlistener l) _,
      fun _ => hprogram _, fun _ => hprogram _, fun _ _ => hprogram _, fun _ _ => hprogram _⟩
  · exact fun q _ i => hprogram (q i)
  · exact fun _ l _ => hlistener l

theorem Controller.restrained_question {P : Deed σ → Prop} {c : Controller σ} (h : c.Confined P)
    (i : IterationIndex) : (c.question i).Restrained P := by
  unfold question
  cases hq : c.criterion with
  | some q => exact h.criterion q hq i
  | none => exact h.simulation.continues _ i

theorem ListenerBus.confined_of_order {P : Deed σ → Prop} {b : ListenerBus σ}
    (h : ∀ t, ∀ l ∈ b.tier t, l.Confined P) {kind : EventKind} {r : Registration σ}
    (hr : r ∈ b.order kind) : r.listener.Confined P := by
  have htier : ∀ t, r ∈ b.registrations t → r.listener.Confined P := by
    intro t hmem
    obtain ⟨⟨l, n⟩, hl, rfl⟩ := List.mem_map.mp hmem
    obtain ⟨hn, hget⟩ := List.mem_zipIdx' hl
    exact h t l (hget ▸ List.getElem_mem hn)
  rcases List.mem_append.mp (List.mem_filter.mp hr).1 with hcore | huser
  · exact htier .core hcore
  · exact htier .user huser

theorem ListenerBus.confined_register {P : Deed σ → Prop} {b : ListenerBus σ}
    (h : ∀ t, ∀ l ∈ b.tier t, l.Confined P) {l : Listener σ} (hl : l.Confined P) (t : Tier) :
    ∀ u, ∀ m ∈ (b.register l t).tier u, m.Confined P := by
  intro u m hm
  rw [tier_register] at hm
  split at hm
  · rcases List.mem_append.mp hm with hm | hm
    · exact h u m hm
    · exact List.mem_singleton.mp hm ▸ hl
  · exact h u m hm

theorem ListenerBus.confined_registerAll {P : Deed σ → Prop} {ls : List (Listener σ)}
    {b : ListenerBus σ} (h : ∀ t, ∀ l ∈ b.tier t, l.Confined P) (hl : ∀ l ∈ ls, l.Confined P) :
    ∀ t, ∀ l ∈ (ls.foldl (fun b l => b.register l .core) b).tier t, l.Confined P := by
  induction ls generalizing b with
  | nil => exact h
  | cons l rest ih =>
      have hone := confined_register h (hl l List.mem_cons_self) .core
      exact ih hone fun m hm => hl m (List.mem_cons_of_mem l hm)

/-! ## Stirs -/

/-- The files that the controller writes in the root of its output. -/
def Controller.runFiles : List String := [configurationFile, reportFile, chartFile]

namespace World

/-- A small step of the world in a run with confined collaborators, up to the end of the
teardown. -/
inductive Stir (k : Context) (P : Deed σ → Prop) : World σ → World σ → Prop where
  | deed (w : World σ) {d : Deed σ} (h : P d) : Stir k P w (perform d w).2
  /-- A collaborator panics. -/
  | panic (w : World σ) (x : Panic) : Stir k P w (World.panic x w).2
  /-- Other threads act before the controller accesses the coordinator. -/
  | yield (w : World σ) : Stir k P w (World.yield w).2
  | note (w : World σ) {m : Moment σ} (h : m.apart = true) : Stir k P w (w.noted m)
  | bind (w : World σ) : Stir k P w (w.setCoordinator { w.coordinator with bound := true })
  | record (w : World σ) (r : FaultRecord) :
      Stir k P w (w.setCoordinator (w.coordinator.record r).2)
  | claim (w : World σ) : Stir k P w (w.setCoordinator w.coordinator.claim.2)
  | seed (w : World σ) (g : Generator) : Stir k P w { w with generator := g }
  /-- The controller writes a file of the run. -/
  | write (w : World σ) {name : String} (text : String) (h : name ∈ Controller.runFiles) :
      Stir k P w (writeText (k.output.file name) text w).2
  /-- The controller makes the directory of an iteration. -/
  | directory (w : World σ) (i : IterationIndex) :
      Stir k P w (onFiles (k.output.createIteration i) w).2

/-- Stirs one after the other. -/
abbrev Stirred (k : Context) (P : Deed σ → Prop) : World σ → World σ → Prop :=
  Relation.ReflTransGen (Stir k P)

/-- Work on the world that is made of stirs. -/
def Stirs (k : Context) (P : Deed σ → Prop) (work : StateM (World σ) α) : Prop :=
  ∀ w, Stirred k P w (work w).2

section Stirs

variable {k : Context} {P : Deed σ → Prop}

theorem stirs_pure (a : α) : Stirs k P (pure a) := fun _ => .refl

theorem stirs_bind {work : StateM (World σ) α} {next : α → StateM (World σ) β}
    (h : Stirs k P work) (h' : ∀ a, Stirs k P (next a)) : Stirs k P (work >>= next) :=
  fun w => (h w).trans (h' _ _)

theorem stirs_get : Stirs k P (get : StateM (World σ) (World σ)) := fun _ => .refl

theorem stirs_yield : Stirs (σ := σ) k P yield := fun w => .single (.yield w)

theorem stirs_note {m : Moment σ} (h : m.apart = true) : Stirs k P (World.note m) :=
  fun w => .single (.note w h)

theorem stirs_say (level : LogLevel) (message : String) :
    Stirs (σ := σ) k P (say level message) :=
  stirs_note (Moment.apart_said _)

theorem stirs_look : Stirs (σ := σ) k P look :=
  stirs_bind stirs_yield fun _ => stirs_bind stirs_get fun _ => stirs_pure _

theorem stirs_flag : Stirs (σ := σ) k P flag := stirs_bind stirs_look fun _ => stirs_pure _

theorem stirs_report (origin : String) (f : Fault) : Stirs (σ := σ) k P (report origin f) := by
  refine stirs_bind stirs_get fun w => stirs_bind ?_ fun _ => ?_
  · exact stirs_bind stirs_yield fun _ v => .single (.record v ⟨f, origin, w.clock⟩)
  · exact stirs_bind (stirs_note (Moment.apart_said _)) fun _ => stirs_pure _

theorem stirs_openTeardown : Stirs (σ := σ) k P openTeardown := by
  refine stirs_bind (stirs_bind stirs_yield fun _ w => .single (.claim w)) fun _ => ?_
  exact stirs_bind (stirs_note rfl) fun _ => stirs_pure _

/-! ### Collaborators -/

variable {Q : α → Prop}

theorem stirs_run {p : Program σ ε α} (h : p.Confined P Q) : Stirs k P p.run := by
  induction p with
  | done a => exact stirs_pure _
  | fail e => exact stirs_pure _
  | panic x => exact stirs_bind (fun w => .single (.panic w x)) fun _ => stirs_pure _
  | act d next ih => exact stirs_bind (fun w => .single (.deed w h.1)) fun a => ih a (h.2 a)

/-- A confined program gives the values that it may give. -/
theorem value_of_confined {p : Program σ ε α} (h : p.Confined P Q) {w : World σ} {a : α}
    (ha : (p.run w).1 = .ok a) : Q a := by
  induction p generalizing w with
  | done b =>
      cases ha
      exact h
  | fail e => cases ha
  | panic x => cases ha
  | act d next ih => exact ih _ (h.2 _) ha

theorem stirs_tellAll (e : Event) {rs : List (Registration σ)}
    (h : ∀ r ∈ rs, r.listener.Confined P) : Stirs k P (ListenerBus.tellAll e rs) := by
  induction rs with
  | nil => exact stirs_pure _
  | cons r rest ih =>
      have htell : Stirs k P (ListenerBus.tell e r) :=
        stirs_bind stirs_get fun _ => stirs_bind (stirs_note rfl) fun _ =>
          stirs_bind (stirs_run (h r List.mem_cons_self e)) fun _ => stirs_pure _
      refine stirs_bind htell fun told => ?_
      cases told with
      | ok _ => exact ih fun r' hr' => h r' (List.mem_cons_of_mem r hr')
      | error a => exact stirs_pure _

theorem stirs_notify {b : ListenerBus σ} (h : ∀ t, ∀ l ∈ b.tier t, l.Confined P) (e : Event) :
    Stirs k P (b.notify e) :=
  stirs_bind (stirs_tellAll e fun _ hr => ListenerBus.confined_of_order h hr) fun _ => stirs_pure _

end Stirs

end World

/-! ## Rules for sessions -/

/-- Between two sessions of a run the world has changed by stirs, and the collaborators are confined
as before. -/
structure Session.Stirred (k : Context) (P : Deed σ → Prop) (s u : Session σ) : Prop where
  world : World.Stirred k P s.world u.world
  context : u.controller.context = k
  confined : u.controller.Confined P

/-- Work of a run that is made of stirs where the collaborators are confined. -/
def Session.Stirs (k : Context) (P : Deed σ → Prop) (work : Driven σ α) : Prop :=
  ∀ s : Session σ, s.controller.context = k → s.controller.Confined P →
    Session.Stirred k P s (work s).2

section Rules

variable {k : Context} {P : Deed σ → Prop}

open Session

theorem stirs_pure (a : α) : Stirs k P (pure a : Driven σ α) := fun _ hs hc => ⟨.refl, hs, hc⟩

theorem Session.Stirred.trans {s t u : Session σ} (h : Stirred k P s t) (h' : Stirred k P t u) :
    Stirred k P s u :=
  ⟨h.world.trans h'.world, h'.context, h'.confined⟩

theorem stirs_bind {work : Driven σ α} {next : α → Driven σ β} (h : Stirs k P work)
    (h' : ∀ a, Stirs k P (next a)) : Stirs k P (work >>= next) := by
  intro s hs hc
  have hwork := h s hs hc
  exact hwork.trans (h' _ _ hwork.context hwork.confined)

theorem stirs_onWorld {work : StateM (World σ) α} (h : World.Stirs k P work) :
    Stirs k P (onWorld work) :=
  fun s hs hc => ⟨h s.world, hs, hc⟩

/-- The controller writes in its books, and may seed the generator. -/
theorem stirs_modify {f : Session σ → Session σ}
    (hk : ∀ s, (f s).controller.context = s.controller.context)
    (hc : ∀ s, s.controller.Confined P → (f s).controller.Confined P)
    (hw : ∀ s, (f s).world = { s.world with generator := (f s).world.generator }) :
    Stirs k P (modify f) := by
  intro s hs hconfined
  refine ⟨?_, (hk s).trans hs, hc s hconfined⟩
  have hseed := World.Stir.seed (k := k) (P := P) s.world (f s).world.generator
  rw [← hw s] at hseed
  exact .single hseed

theorem stirs_get {next : Session σ → Driven σ β}
    (h : ∀ s : Session σ, s.controller.context = k → s.controller.Confined P →
      Stirs k P (next s)) : Stirs k P (get >>= next) :=
  fun s hs hc => h s hs hc s hs hc

theorem stirs_ite {p : Prop} [Decidable p] {work other : Driven σ α} (h : Stirs k P work)
    (h' : Stirs k P other) : Stirs k P (if p then work else other) := by
  split
  · exact h
  · exact h'

/-- Work behind work that can fail, where what the first part gives is of the kind `Q`. -/
theorem stirs_bind_run_of {work : Guarded σ α} {next : α → Guarded σ β} {Q : α → Prop}
    (h : Stirs k P work.run) (hQ : ∀ s a, (work.run s).1 = .ok a → Q a)
    (h' : ∀ a, Q a → Stirs k P (next a).run) : Stirs k P (work >>= next).run := by
  intro s hs hc
  have hwork := h s hs hc
  rw [run_bind_except]
  cases hr : (work.run s).1 with
  | ok a => exact hwork.trans (h' a (hQ s a hr) _ hwork.context hwork.confined)
  | error e => exact hwork

theorem stirs_bind_run {work : Guarded σ α} {next : α → Guarded σ β} (h : Stirs k P work.run)
    (h' : ∀ a, Stirs k P (next a).run) : Stirs k P (work >>= next).run :=
  stirs_bind_run_of h (Q := fun _ => True) (fun _ _ _ => trivial) fun a _ => h' a

theorem stirs_of {work : Driven σ α} (h : Stirs k P work) : Stirs k P (Guarded.of work).run :=
  fun s hs hc => h s hs hc

theorem stirs_get_run {next : Session σ → Guarded σ β}
    (h : ∀ s : Session σ, s.controller.context = k → s.controller.Confined P →
      Stirs k P (next s).run) : Stirs k P (getThe (Session σ) >>= next).run :=
  fun s hs hc => h s hs hc s hs hc

/-- Steps in a row. -/
theorem stirs_andThen {first rest : Driven σ Progress} (h : Stirs k P first)
    (h' : Stirs k P rest) :
    Stirs k P (do
      if (← first) = .aborted then return .aborted
      rest) :=
  stirs_bind h fun _ => stirs_ite (stirs_pure _) h'

end Rules

namespace Controller

open Session

variable {k : Context} {P : Deed σ → Prop}

/-! ## Steps -/

theorem stirs_enter (stage : Stage) : Stirs (σ := σ) k P (enter stage) :=
  stirs_modify (fun _ => rfl) (fun _ h => ⟨h.simulation, h.criterion, h.bus⟩) fun _ => rfl

theorem stirs_time (f : TimingLedger → Instant → TimingLedger) : Stirs (σ := σ) k P (time f) :=
  stirs_modify (fun _ => rfl) (fun _ h => ⟨h.simulation, h.criterion, h.bus⟩) fun _ => rfl

theorem stirs_seedAfresh (i : IterationIndex) : Stirs (σ := σ) k P (seedAfresh i) :=
  stirs_modify (fun _ => rfl) (fun _ h => ⟨h.simulation, h.criterion, h.bus⟩) fun _ => rfl

theorem stirs_collaborate (fault : Cause → Fault) {p : Program σ Cause α} {Q : α → Prop}
    (h : p.Confined P Q) : Stirs k P (collaborate fault p).run :=
  stirs_bind (stirs_onWorld (World.stirs_run h)) fun _ => stirs_pure _

theorem value_of_collaborate {fault : Cause → Fault} {p : Program σ Cause α} {Q : α → Prop}
    (h : p.Confined P Q) {s : Session σ} {a : α} (ha : ((collaborate fault p).run s).1 = .ok a) :
    Q a := by
  rw [collaborate_run] at ha
  cases hp : (p.run s.world).1 with
  | ok b =>
      rw [hp] at ha
      cases ha
      exact World.value_of_confined h hp
  | error e =>
      rw [hp] at ha
      cases ha

theorem stirs_announce (e : Event) : Stirs (σ := σ) k P (announce e).run := by
  refine stirs_bind (stirs_onWorld (World.stirs_note (by cases e <;> rfl))) fun _ => ?_
  refine stirs_get fun s _ hc => ?_
  exact stirs_bind (stirs_onWorld (World.stirs_notify hc.bus e)) fun _ => stirs_pure _

theorem stirs_reportPanic (origin : String) (x : Panic) :
    Stirs (σ := σ) k P (reportPanic origin x) := by
  have hreport : Stirs (σ := σ) k P
      (discard (onWorld (World.report origin (.panic origin x.payload.message)))) :=
    stirs_bind (stirs_onWorld (World.stirs_report _ _)) fun _ => stirs_pure _
  refine stirs_get fun s _ _ => stirs_ite ?_ hreport
  exact stirs_bind (stirs_onWorld World.stirs_look) fun _ => stirs_ite (stirs_pure _) hreport

theorem stirs_settle (step : Step) (result : Outcome Fault Unit) :
    Stirs (σ := σ) k P (settle step result) := by
  have hdisclose : Stirs (σ := σ) k P (disclose step.origin result) := by
    cases result with
    | ok _ => exact stirs_pure _
    | error a =>
        cases a with
        | failure f =>
            exact stirs_bind (stirs_onWorld (World.stirs_report _ _)) fun _ => stirs_pure _
        | panic x => exact stirs_reportPanic _ x
  refine stirs_bind hdisclose fun _ => stirs_bind (stirs_onWorld World.stirs_flag) fun _ => ?_
  exact stirs_bind (stirs_onWorld (World.stirs_note rfl)) fun _ => stirs_pure _

theorem stirs_attempt {step : Step} {work : Guarded σ Unit} (h : Stirs k P work.run) :
    Stirs k P (attempt step work) :=
  stirs_bind (stirs_onWorld (World.stirs_note rfl)) fun _ =>
    stirs_bind h fun result => stirs_settle step result

theorem stirs_phaseStep {p : Phase} {i : IterationIndex} {work : Guarded σ Unit}
    (h : Stirs k P work.run) : Stirs k P (phaseStep p i work) :=
  stirs_bind (stirs_time _) fun _ => stirs_bind (stirs_attempt h) fun _ =>
    stirs_bind (stirs_time _) fun _ => stirs_pure _

theorem stirs_listenerStep (p : Phase) (i : IterationIndex) :
    Stirs (σ := σ) k P (listenerStep p i) := by
  refine stirs_phaseStep ?_
  cases p with
  | mobsim => exact stirs_pure _
  | _ => exact stirs_announce _

/-! ## Startup -/

theorem stirs_registerCore {ls : List (Listener σ)} (h : ∀ l ∈ ls, l.Confined P) :
    Stirs k P (registerCore ls) :=
  stirs_modify (fun _ => rfl)
    (fun _ hc => ⟨hc.simulation, hc.criterion, ListenerBus.confined_registerAll hc.bus h⟩)
    fun _ => rfl

theorem stirs_loadListeners : Stirs (σ := σ) k P loadListeners.run := by
  refine stirs_get_run fun s _ hc => ?_
  refine stirs_bind_run_of (stirs_collaborate _ (hc.simulation.listeners _))
    (fun _ _ ha => value_of_collaborate (hc.simulation.listeners _) ha) fun ls hls => ?_
  exact stirs_bind_run (stirs_of (stirs_registerCore hls)) fun _ =>
    stirs_collaborate _ (hc.simulation.load _)

/-- The controller writes a file of the run. -/
theorem stirs_writeText {name : String} (text : String) (h : name ∈ runFiles) :
    World.Stirs (σ := σ) k P (World.writeText (k.output.file name) text) :=
  fun w => .single (.write w text h)

theorem stirs_writeConfiguration : Stirs (σ := σ) k P writeConfiguration.run := by
  refine stirs_get_run fun s hs _ => ?_
  dsimp only
  rw [hs]
  refine stirs_bind_run (stirs_of (stirs_onWorld (World.stirs_say _ _))) fun _ => ?_
  have hwrite : World.Stirs (σ := σ) k P
      (World.writeText (k.output.file configurationFile) k.configuration.text) :=
    stirs_writeText _ List.mem_cons_self
  refine stirs_bind_run (stirs_of (stirs_onWorld hwrite)) fun written => ?_
  cases written with
  | ok _ => exact stirs_pure _
  | error reason => exact stirs_pure _

theorem stirs_checkConfiguration : Stirs (σ := σ) k P checkConfiguration.run := by
  refine stirs_get_run fun s _ _ => ?_
  cases s.controller.context.configuration.check with
  | error i => exact stirs_pure _
  | ok warnings =>
      induction warnings with
      | nil => exact stirs_pure _
      | cons w rest ih =>
          exact stirs_bind_run (stirs_of (stirs_onWorld (World.stirs_say _ _))) fun _ => ih

theorem stirs_startUp : Stirs (σ := σ) k P startUp := by
  refine stirs_bind (stirs_onWorld (World.stirs_say _ _)) fun _ => ?_
  refine stirs_andThen (stirs_attempt stirs_loadListeners) ?_
  refine stirs_bind (stirs_onWorld (World.stirs_say _ _)) fun _ => ?_
  refine stirs_andThen (stirs_attempt (stirs_announce _)) ?_
  refine stirs_andThen (stirs_attempt ?_) (stirs_attempt ?_)
  · exact stirs_bind_run stirs_writeConfiguration fun _ => stirs_checkConfiguration
  · exact stirs_get_run fun _ _ hc => stirs_collaborate _ (hc.simulation.prepare _)

/-! ## Iterations -/

theorem stirs_makeDirectory (i : IterationIndex) :
    Stirs (σ := σ) k P (makeDirectory i).run := by
  refine stirs_get_run fun s hs _ => ?_
  dsimp only
  rw [hs]
  split
  · have hmake : World.Stirs (σ := σ) k P (World.onFiles (k.output.createIteration i)) :=
      fun w => .single (.directory w i)
    refine stirs_bind_run (stirs_of (stirs_onWorld hmake)) fun made => ?_
    cases made with
    | ok _ => exact stirs_pure _
    | error f => exact stirs_pure _
  · exact stirs_pure _

theorem stirs_beginIteration (i : IterationIndex) :
    Stirs (σ := σ) k P (beginIteration i) :=
  stirs_phaseStep (stirs_bind_run (stirs_makeDirectory i) fun _ =>
    stirs_bind_run (stirs_of (stirs_seedAfresh i)) fun _ => stirs_announce _)

theorem stirs_mobsimStep (i : IterationIndex) : Stirs (σ := σ) k P (mobsimStep i) := by
  refine stirs_phaseStep (stirs_bind_run (stirs_of (stirs_seedAfresh i)) fun _ => ?_)
  refine stirs_get_run fun s _ hc => ?_
  exact stirs_bind_run (stirs_of (stirs_onWorld (World.stirs_note rfl))) fun _ =>
    stirs_collaborate _ (hc.simulation.mobsim _ i)

theorem stirs_mobsimSteps (i : IterationIndex) : Stirs (σ := σ) k P (mobsimSteps i) := by
  refine stirs_bind (stirs_listenerStep _ i) fun before => ?_
  have hafter : ∀ mobsim : Progress, Stirs (σ := σ) k P (do
      let after ← listenerStep .afterMobsim i
      return if mobsim = .aborted then .aborted else after) := fun mobsim =>
    stirs_bind (stirs_listenerStep _ i) fun _ => stirs_pure _
  cases before with
  | proceed => exact stirs_bind (stirs_mobsimStep i) hafter
  | aborted => exact stirs_bind (stirs_pure _) hafter

theorem stirs_phases (i : IterationIndex) : Stirs (σ := σ) k P (phases i) := by
  refine stirs_get fun s _ _ => stirs_andThen (stirs_beginIteration i) ?_
  have hrest : Stirs (σ := σ) k P _ := stirs_andThen (stirs_mobsimSteps i)
    (stirs_andThen (stirs_listenerStep .scoring i) (stirs_listenerStep .iterationEnd i))
  dsimp only
  split
  · exact stirs_andThen (stirs_listenerStep .replanning i) hrest
  · exact hrest

theorem stirs_writeOrWarn {name : String} (text message : String) (h : name ∈ runFiles) :
    Stirs (σ := σ) k P (writeOrWarn name text message) := by
  refine stirs_get fun s hs _ => ?_
  dsimp only
  rw [hs]
  refine stirs_bind (stirs_onWorld (stirs_writeText text h)) fun written => ?_
  cases written with
  | ok _ => exact stirs_pure _
  | error _ => exact stirs_onWorld (World.stirs_say _ _)

theorem stirs_writeTimes : Stirs (σ := σ) k P writeTimes := by
  refine stirs_get fun s _ _ => stirs_bind (stirs_onWorld (World.stirs_note rfl)) fun _ => ?_
  refine stirs_bind (stirs_writeOrWarn _ _ (by decide)) fun _ => ?_
  exact stirs_ite (stirs_writeOrWarn _ _ (by decide)) (stirs_pure _)

theorem stirs_runThrough (i : IterationIndex) : Stirs (σ := σ) k P (runThrough i) := by
  refine stirs_bind (stirs_onWorld (World.stirs_say _ _)) fun _ => ?_
  refine stirs_bind (stirs_onWorld (World.stirs_say _ _)) fun _ => ?_
  refine stirs_bind (stirs_time _) fun _ => stirs_bind (stirs_phases i) fun outcome => ?_
  refine stirs_bind (stirs_time _) fun _ => ?_
  cases outcome with
  | aborted => exact stirs_pure _
  | proceed =>
      refine stirs_bind stirs_writeTimes fun _ => ?_
      refine stirs_bind (stirs_onWorld (World.stirs_say _ _)) fun _ => ?_
      exact stirs_bind (stirs_onWorld (World.stirs_say _ _)) fun _ => stirs_pure _

theorem stirs_heed (i : IterationIndex) (answer : Outcome Empty Bool) :
    Stirs (σ := σ) k P (heed i answer) := by
  cases answer with
  | ok b => exact stirs_bind (stirs_onWorld (World.stirs_note rfl)) fun _ => stirs_pure _
  | error a =>
      cases a with
      | failure e => exact nomatch e
      | panic x =>
          exact stirs_bind (stirs_reportPanic _ x) fun _ =>
            stirs_bind (stirs_onWorld (World.stirs_note rfl)) fun _ => stirs_pure _

theorem stirs_wantsIteration (i : IterationIndex) : Stirs (σ := σ) k P (wantsIteration i) := by
  refine stirs_bind (stirs_onWorld World.stirs_flag) fun flag => ?_
  cases flag with
  | true => exact stirs_pure _
  | false =>
      refine stirs_get fun s _ hc => stirs_bind (stirs_onWorld (World.stirs_note rfl)) fun _ => ?_
      have hask := World.stirs_run (k := k) (restrained_question hc i)
      exact stirs_bind (stirs_onWorld hask) fun answer => stirs_heed i answer

theorem stirs_iterateFrom (room : Nat) (i : IterationIndex) :
    Stirs (σ := σ) k P (iterateFrom room i) := by
  induction room generalizing i with
  | zero => exact stirs_pure _
  | succ room ih =>
      refine stirs_bind (stirs_wantsIteration i) fun wanted => ?_
      cases wanted with
      | false =>
          refine stirs_bind (stirs_onWorld World.stirs_flag) fun _ => ?_
          exact stirs_ite (stirs_onWorld (World.stirs_say _ _))
            (stirs_onWorld (World.stirs_say _ _))
      | true =>
          have hlast : Stirs (σ := σ) k P (setLast i) :=
            stirs_modify (fun _ => rfl) (fun _ h => ⟨h.simulation, h.criterion, h.bus⟩) fun _ => rfl
          have hcount : Stirs (σ := σ) k P countCompleted :=
            stirs_modify (fun _ => rfl) (fun _ h => ⟨h.simulation, h.criterion, h.bus⟩) fun _ => rfl
          refine stirs_bind hlast fun _ => stirs_bind (stirs_runThrough i) fun outcome => ?_
          cases outcome with
          | aborted => exact stirs_pure _
          | proceed =>
              refine stirs_bind hcount fun _ => ?_
              cases i.next? with
              | none => exact stirs_onWorld (World.stirs_say _ _)
              | some j => exact ih j

/-! ## The whole run -/

theorem stirs_runToTeardown : Stirs (σ := σ) k P runToTeardown := by
  refine stirs_bind (stirs_enter _) fun _ => stirs_bind stirs_startUp fun outcome => ?_
  cases outcome with
  | aborted => exact stirs_enter _
  | proceed =>
      refine stirs_bind (stirs_enter _) fun _ => ?_
      refine stirs_bind (stirs_get fun s _ _ => stirs_iterateFrom _ _) fun _ => stirs_enter _

theorem stirs_notifyShutdown (unexpected : Bool) :
    Stirs (σ := σ) k P (notifyShutdown unexpected) := by
  refine stirs_get fun s _ hc => stirs_bind (stirs_onWorld (World.stirs_note rfl)) fun _ => ?_
  refine stirs_bind (stirs_onWorld (World.stirs_notify hc.bus _)) fun told => ?_
  cases told with
  | ok _ => exact stirs_pure _
  | error a =>
      cases a with
      | failure _ => exact stirs_onWorld (World.stirs_say _ _)
      | panic x => exact stirs_onWorld (World.stirs_note rfl)

theorem stirs_sayLine (line : LogLine) : Stirs (σ := σ) k P (sayLine line) :=
  stirs_onWorld (World.stirs_note (Moment.apart_said line))

theorem stirs_sayEnded (unexpected faulty : Bool) :
    Stirs (σ := σ) k P (sayEnded unexpected faulty) := by
  have hlines : Stirs (σ := σ) k P (sayEnded unexpected false) := by
    cases unexpected with
    | true => exact stirs_bind (stirs_sayLine _) fun _ => stirs_sayLine _
    | false => exact stirs_sayLine _
  cases faulty with
  | true => exact stirs_bind (stirs_onWorld (World.stirs_say _ _)) fun _ => hlines
  | false => exact hlines

theorem stirs_conclude (unexpected : Bool) (fault : Option FaultRecord) :
    Stirs (σ := σ) k P (conclude unexpected fault) := by
  have hstarted : Stirs (σ := σ) k P (sayStarted unexpected) := by
    refine stirs_bind (stirs_onWorld (World.stirs_say _ _)) fun _ => ?_
    cases unexpected with
    | true => exact stirs_sayLine _
    | false => exact stirs_pure _
  refine stirs_bind hstarted fun _ => stirs_bind (stirs_notifyShutdown unexpected) fun _ => ?_
  refine stirs_bind (stirs_sayEnded unexpected fault.isSome) fun _ => ?_
  exact stirs_get fun _ _ _ => stirs_pure _

theorem stirs_tearDown : Stirs (σ := σ) k P tearDown := by
  refine stirs_bind (stirs_onWorld World.stirs_openTeardown) fun first => ?_
  refine stirs_bind (stirs_ite (stirs_onWorld (World.stirs_say _ _)) (stirs_pure _)) fun _ => ?_
  refine stirs_bind (stirs_onWorld World.stirs_look) fun _ => ?_
  exact stirs_bind (stirs_onWorld World.stirs_flag) fun _ => stirs_conclude _ _

end Controller

end CommuteSim
