import CommuteSim.Proofs.Controller.Subtree
import CommuteSim.Proofs.World.Aside

/-!
# What the controller keeps up

Between the rounds and the mobsims of a run the controller works for itself: it logs, looks at the
coordinator, reports what went wrong, writes its files and keeps its books. None of that is seen by
the collaborators. So whatever such work keeps is kept by a whole run, if it is kept by the few
parts of a run in which collaborators work.

Main statements: `does_runToTeardown` and `does_tearDown` say so for the two parts of a run,
`run_parts` puts these together; `of_build` says what a controller is made of.
-/

namespace CommuteSim

variable {σ α β : Type}

/-! ## Controllers that were built -/

namespace Controller

/-- The controller that is made of a plan and its simulation. -/
def ofPlan (p : Plan σ) (m : Simulation σ) : Controller σ where
  context := ⟨p.configuration,
    ⟨p.configuration.controller.outputDirectory, p.configuration.controller.runId⟩⟩
  simulation := m
  criterion := p.criterion
  bus := { user := p.listeners }
  seeding := { base := p.configuration.global.randomSeed }

/-- A controller that is built is made of its plan. -/
theorem of_build {p : Plan σ} {w : World σ} {c : Controller σ} (h : (build p w).1 = .ok c) :
    ∃ m, p.simulation = some m ∧ c = ofPlan p m := by
  have houtput := (output_of_build h).1
  unfold build at h
  cases hs : p.simulation with
  | none =>
      rw [hs] at h
      cases h
  | some m =>
      rw [hs] at h
      dsimp only [bind, StateT.bind] at h
      cases hmade : World.onFiles (OutputDirectory.prepare p.configuration.controller) w with
      | mk made v =>
          rw [hmade] at h
          cases made with
          | error e => cases h
          | ok d =>
              cases h
              refine ⟨m, rfl, ?_⟩
              rw [show d = _ from houtput]
              rfl

/-- A controller that was built from a plan, with listeners of users that were added later. -/
def BuiltFrom (p : Plan σ) (c : Controller σ) : Prop :=
  ∃ (w : World σ) (d : Controller σ) (ls : List (Listener σ)),
    (build p w).1 = .ok d ∧ c = ls.foldl addUserListener d

theorem addUserListeners (ls : List (Listener σ)) (c : Controller σ) :
    ls.foldl addUserListener c = { c with bus := { c.bus with user := c.bus.user ++ ls } } := by
  induction ls generalizing c with
  | nil => simp
  | cons l rest ih =>
      rw [List.foldl_cons, ih]
      simp [addUserListener, ListenerBus.register]

/-- What a controller is made of before its run. -/
theorem BuiltFrom.fields {p : Plan σ} {c : Controller σ} (h : BuiltFrom p c) :
    ∃ m ls, p.simulation = some m ∧
      c = { ofPlan p m with bus := { user := p.listeners ++ ls } } := by
  obtain ⟨w, d, ls, hbuild, rfl⟩ := h
  obtain ⟨m, hm, rfl⟩ := of_build hbuild
  exact ⟨m, ls, hm, addUserListeners ls _⟩

section BuiltFrom

variable {p : Plan σ} {c : Controller σ} (h : BuiltFrom p c)
include h

theorem BuiltFrom.idle : c.stage = .idle := by
  obtain ⟨m, ls, -, rfl⟩ := h.fields
  rfl

/-- Before its run no listeners of its simulation are told. -/
theorem BuiltFrom.core : c.bus.core = [] := by
  obtain ⟨m, ls, -, rfl⟩ := h.fields
  rfl

theorem BuiltFrom.simulation {m : Simulation σ} (hm : p.simulation = some m) :
    c.simulation = m := by
  obtain ⟨m', ls, hm', rfl⟩ := h.fields
  exact Option.some.inj (hm'.symm.trans hm)

end BuiltFrom

/-- Where a plan can be built somewhere, its controller is built from it. -/
theorem builtFrom_ofPlan {p : Plan σ} {m : Simulation σ} (hm : p.simulation = some m) (w : World σ)
    (h : (build p w).1.toOption.isSome = true) : BuiltFrom p (ofPlan p m) := by
  cases hbuild : (build p w).1 with
  | error e =>
      rw [hbuild] at h
      cases h
  | ok c =>
      obtain ⟨m', hm', rfl⟩ := of_build hbuild
      obtain rfl : m' = m := Option.some.inj (hm'.symm.trans hm)
      exact ⟨w, _, [], hbuild, rfl⟩

/-- What a controller drives and whom it tells is as before; it may have gone on in its books. -/
structure Resembles (c d : Controller σ) : Prop where
  context : d.context = c.context
  simulation : d.simulation = c.simulation
  criterion : d.criterion = c.criterion
  bus : d.bus = c.bus
  base : d.seeding.base = c.seeding.base

theorem Resembles.refl (c : Controller σ) : Resembles c c := ⟨rfl, rfl, rfl, rfl, rfl⟩

theorem Resembles.trans {c d e : Controller σ} (h : Resembles c d) (h' : Resembles d e) :
    Resembles c e :=
  ⟨h'.context.trans h.context, h'.simulation.trans h.simulation,
    h'.criterion.trans h.criterion, h'.bus.trans h.bus, h'.base.trans h.base⟩

end Controller

/-! ## How a session goes on beside the rounds -/

namespace Session

/-- The controller has worked for itself. -/
structure Aside (s u : Session σ) : Prop where
  world : World.Aside s.world u.world
  controller : s.controller.Resembles u.controller

/-- The controller has worked for itself, and left the files, the coordinator and its count of
iterations alone. -/
structure Still (s u : Session σ) : Prop where
  world : World.Still s.world u.world
  controller : s.controller.Resembles u.controller
  completed : u.controller.completed = s.controller.completed
  last : u.controller.last = s.controller.last

theorem Aside.refl (s : Session σ) : Aside s s := ⟨.refl _, .refl _⟩

theorem Aside.trans {s t u : Session σ} (h : Aside s t) (h' : Aside t u) : Aside s u :=
  ⟨h.world.trans h'.world, h.controller.trans h'.controller⟩

theorem Still.refl (s : Session σ) : Still s s := ⟨.refl _, .refl _, rfl, rfl⟩

theorem Still.trans {s t u : Session σ} (h : Still s t) (h' : Still t u) : Still s u :=
  ⟨World.Still.trans h.world h'.world, h.controller.trans h'.controller,
    h'.completed.trans h.completed, h'.last.trans h.last⟩

theorem Still.aside {s u : Session σ} (h : Still s u) : Aside s u := ⟨h.world.aside, h.controller⟩

instance : Std.Refl (Aside (σ := σ)) := ⟨Aside.refl⟩

instance : Trans (Aside (σ := σ)) Aside Aside := ⟨Aside.trans⟩

instance : Std.Refl (Still (σ := σ)) := ⟨Still.refl⟩

instance : Trans (Still (σ := σ)) Still Still := ⟨Still.trans⟩

/-- A kind of sessions that the controller does not leave by working for itself. -/
def Kept (P : Session σ → Prop) : Prop := ∀ s u, Aside s u → P s → P u

end Session

namespace Controller

open Session (Aside Still Kept)

/-! ## Work that is seen by nobody -/

section Works

theorem still_onWorld {work : StateM (World σ) α} (h : Upholds World.Still work) :
    Upholds Still (onWorld work) :=
  fun s => ⟨h s.world, .refl _, rfl, rfl⟩

theorem aside_onWorld {work : StateM (World σ) α} (h : Upholds World.Aside work) :
    Upholds Aside (onWorld work) :=
  fun s => ⟨h s.world, .refl _⟩

theorem aside_of_still {work : Driven σ α} (h : Upholds Still work) : Upholds Aside work :=
  upholds_mono h fun _ _ h => h.aside

theorem still_note {m : Moment σ} (h : m.aside = true) : Upholds Still (onWorld (World.note m)) :=
  still_onWorld (World.still_note h)

theorem still_say (level : LogLevel) (message : String) :
    Upholds (Still (σ := σ)) (onWorld (World.say level message)) :=
  still_onWorld (World.still_say level message)

theorem still_enter (stage : Stage) : Upholds (Still (σ := σ)) (enter stage) :=
  fun _ => ⟨.refl _, ⟨rfl, rfl, rfl, rfl, rfl⟩, rfl, rfl⟩

theorem still_time (f : TimingLedger → Instant → TimingLedger) :
    Upholds (Still (σ := σ)) (time f) :=
  fun _ => ⟨.refl _, ⟨rfl, rfl, rfl, rfl, rfl⟩, rfl, rfl⟩

theorem still_bindThread : Upholds (Still (σ := σ)) (onWorld bindThread) :=
  still_onWorld (World.still_alter fun _ => ⟨⟨id, id, id, id, fun _ => rfl⟩, rfl, rfl, rfl⟩)

theorem still_watch : Upholds (Still (σ := σ)) (onWorld watch) := by
  refine still_onWorld (upholds_bind World.still_yield fun _ => upholds_bind ?_ fun _ => ?_)
  · exact World.still_handler fun w => .watching w.self
  · exact upholds_bind (World.still_say _ _) fun _ => upholds_pure _

theorem still_unwatch (previous : PanicHandler) :
    Upholds (Still (σ := σ)) (onWorld (unwatch previous)) :=
  still_onWorld (upholds_bind World.still_yield fun _ => World.still_handler fun _ => previous)

theorem aside_setLast (i : IterationIndex) : Upholds (Aside (σ := σ)) (setLast i) :=
  fun _ => ⟨.refl _, ⟨rfl, rfl, rfl, rfl, rfl⟩⟩

theorem aside_countCompleted : Upholds (Aside (σ := σ)) countCompleted :=
  fun _ => ⟨.refl _, ⟨rfl, rfl, rfl, rfl, rfl⟩⟩

theorem aside_report (origin : String) (f : Fault) :
    Upholds (Aside (σ := σ)) (discard (onWorld (World.report origin f))) :=
  upholds_bind (aside_onWorld (World.aside_report origin f)) fun _ => upholds_pure _

theorem aside_reportPanic (origin : String) (x : Panic) :
    Upholds (Aside (σ := σ)) (reportPanic origin x) := by
  have hreport := aside_report (σ := σ) origin (.panic origin x.payload.message)
  have hlook : Upholds (Aside (σ := σ)) (onWorld World.look) :=
    aside_of_still (still_onWorld World.still_look)
  refine upholds_bind upholds_get fun s => upholds_ite ?_ hreport
  exact upholds_bind hlook fun _ => upholds_ite (upholds_pure _) hreport

theorem aside_settle (step : Step) (result : Outcome Fault Unit) :
    Upholds (Aside (σ := σ)) (settle step result) := by
  have hdisclose : Upholds (Aside (σ := σ)) (disclose step.origin result) := by
    cases result with
    | ok _ => exact upholds_pure _
    | error a =>
        cases a with
        | failure f => exact aside_report _ f
        | panic x => exact aside_reportPanic _ x
  refine upholds_bind hdisclose fun _ => ?_
  refine upholds_bind (aside_of_still (still_onWorld World.still_flag)) fun _ => ?_
  exact upholds_bind (aside_of_still (still_note rfl)) fun _ => upholds_pure _

theorem aside_heed (i : IterationIndex) (answer : Outcome Empty Bool) :
    Upholds (Aside (σ := σ)) (heed i answer) := by
  have hnote : Upholds (Aside (σ := σ)) (do
      onWorld (World.note (.answered i answer))
      return answer.toOption.getD false) :=
    upholds_bind (aside_of_still (still_note rfl)) fun _ => upholds_pure _
  cases answer with
  | ok b => exact hnote
  | error a =>
      cases a with
      | failure e => exact nomatch e
      | panic x => exact upholds_bind (aside_reportPanic _ x) fun _ => hnote

/-! ### Files of the controller -/

theorem aside_writeText (path text : String) :
    Upholds (Aside (σ := σ)) (onWorld (World.writeText path text)) :=
  fun s => ⟨(World.becomes_writeText path text s.world).aside, .refl _⟩

theorem aside_onFiles (work : FileWork α) :
    Upholds (Aside (σ := σ)) (onWorld (World.onFiles work)) :=
  fun s => ⟨(World.becomes_onFiles work s.world).aside, .refl _⟩

theorem aside_writeConfiguration : Upholds (Aside (σ := σ)) writeConfiguration.run := by
  refine upholds_bind_run (upholds_lift upholds_get) fun s => ?_
  refine upholds_bind_run (upholds_lift (aside_of_still (still_say _ _))) fun _ => ?_
  refine upholds_bind_run (upholds_lift (aside_writeText _ _)) fun written => ?_
  cases written with
  | ok _ => exact upholds_pure _
  | error reason => exact upholds_pure _

theorem aside_checkConfiguration : Upholds (Aside (σ := σ)) checkConfiguration.run := by
  refine upholds_bind_run (upholds_lift upholds_get) fun s => ?_
  cases s.controller.context.configuration.check with
  | error i => exact upholds_pure _
  | ok warnings =>
      induction warnings with
      | nil => exact upholds_pure _
      | cons w rest ih =>
          exact upholds_bind_run (upholds_lift (aside_of_still (still_say _ _))) fun _ => ih

theorem aside_makeDirectory (i : IterationIndex) :
    Upholds (Aside (σ := σ)) (makeDirectory i).run := by
  refine upholds_bind_run (upholds_lift upholds_get) fun s => ?_
  dsimp only
  split
  · refine upholds_bind_run (upholds_lift (aside_onFiles _)) fun made => ?_
    cases made with
    | ok _ => exact upholds_pure _
    | error f => exact upholds_pure _
  · exact upholds_pure _

theorem aside_writeTimes : Upholds (Aside (σ := σ)) writeTimes := by
  have hwrite : ∀ name text warning, Upholds (Aside (σ := σ)) (writeOrWarn name text warning) := by
    intro name text warning
    refine upholds_bind upholds_get fun s => upholds_bind (aside_writeText _ _) fun written => ?_
    cases written with
    | ok _ => exact upholds_pure _
    | error _ => exact aside_of_still (still_say _ _)
  refine upholds_bind upholds_get fun s => ?_
  refine upholds_bind (aside_of_still (still_note rfl)) fun _ => ?_
  exact upholds_bind (hwrite _ _ _) fun _ => upholds_ite (hwrite _ _ _) (upholds_pure _)

end Works

/-! ## Steps -/

section Steps

variable {P I J : Session σ → Prop}

/-- After a failure of its work a step leaves the flag up, unless the teardown is claimed. -/
theorem raised_settle (step : Step) (f : Fault) (s : Session σ) :
    let t := (settle step (.error (.failure f)) s).2
    t.world.coordinator.flag = true ∨ t.world.coordinator.teardown = true := by
  obtain ⟨l, v, hl, hv⟩ := disclosed_disclose step (.error (.failure f)) s
  have hlater := (World.still_look v).later
  rw [settle_of_disclose hv]
  exact (World.flag_disclosed (hl .proceed) (.inl ⟨f, rfl⟩)).imp hlater.flag hlater.teardown

/-- A step leaves what it makes of the result of its work and of what that leaves. If the run goes
on after it, the flag is down. -/
theorem does_attempt_of {step : Step} {work : Guarded σ Unit}
    {Q : Outcome Fault Unit → Session σ → Prop} (hP : Kept P) (h : Does P work.run Q)
    (hQ : ∀ result t, Q result t → J (settle step result t).2) :
    Does P (attempt step work) fun p t =>
      J t ∧ (p = .proceed → t.world.coordinator.flag = false) := by
  intro s hs
  have hbegan : P (s.noted (.began step)) :=
    hP _ _ (aside_of_still (still_note (m := .began step) rfl) s) hs
  rw [attempt_run]
  refine ⟨hQ _ _ (h _ hbegan), fun hp => ?_⟩
  -- the progress is what the last look of the step says
  rw [settle_run] at hp ⊢
  dsimp only at hp
  rw [Coordinator.progress] at hp
  split at hp
  · cases hp
  · rename_i hflag
    exact Bool.eq_false_iff.mpr hflag

/-- A step keeps what its work leaves behind, whatever that comes to. -/
theorem does_attempt {step : Step} {work : Guarded σ Unit} (hP : Kept P) (hJ : Kept J)
    (h : Does P work.run fun _ => J) :
    Does P (attempt step work) fun p t =>
      J t ∧ (p = .proceed → t.world.coordinator.flag = false) :=
  does_attempt_of hP h fun result t ht => hJ _ _ (aside_settle step result t) ht

theorem does_phaseStep_of {p : Phase} {i : IterationIndex} {work : Guarded σ Unit}
    {Q : Outcome Fault Unit → Session σ → Prop} (hP : Kept P) (hJ : Kept J) (h : Does P work.run Q)
    (hQ : ∀ result t, Q result t → J (settle (.phase p i) result t).2) :
    Does P (phaseStep p i work) fun progress t =>
      J t ∧ (progress = .proceed → t.world.coordinator.flag = false) := by
  have htime : Does P (time fun l now => l.startOperation p.operation now) fun _ => P :=
    does_of_upholds (aside_of_still (still_time _)) hP
  refine does_bind htime fun _ => does_bind (does_attempt_of hP h hQ) fun progress => ?_
  rintro s ⟨hs, hprogress⟩
  -- the operation ends after the step, which the coordinator does not notice
  have hfinish := still_time (fun l now => l.finishOperation p.operation now) s
  exact ⟨hJ s _ hfinish.aside hs, hprogress⟩

theorem does_phaseStep {p : Phase} {i : IterationIndex} {work : Guarded σ Unit} (hP : Kept P)
    (hJ : Kept J) (h : Does P work.run fun _ => J) :
    Does P (phaseStep p i work) fun progress t =>
      J t ∧ (progress = .proceed → t.world.coordinator.flag = false) :=
  does_phaseStep_of hP hJ h fun result t ht => hJ _ _ (aside_settle _ result t) ht

/-- Steps in a row. -/
theorem does_andThen {first rest : Driven σ Progress} {Q : Progress → Session σ → Prop}
    {R : Progress → Session σ → Prop} (h : Does P first Q)
    (haborted : ∀ t, Q .aborted t → R .aborted t) (h' : Does (Q .proceed) rest R) :
    Does P (do
      if (← first) = .aborted then return .aborted
      rest) R := by
  refine does_bind h fun p => ?_
  cases p with
  | aborted => exact does_pure haborted
  | proceed => exact h'

end Steps

/-! ## The parts of a run -/

section Parts

variable {I J : Session σ → Prop}

/-- All before the first iteration. -/
theorem does_startUp (hI : Kept I) (hJ : Kept J) (hload : Does I loadListeners.run fun _ => J)
    (hstartup : Does J (announce .startup).run fun _ => J)
    (hprepare : Does J prepare.run fun _ => J) : Does I startUp fun _ => J := by
  have hsay : ∀ (level : LogLevel) (message : String) {Q : Session σ → Prop}, Kept Q →
      Does Q (onWorld (World.say level message)) fun _ => Q :=
    fun level message _ hQ => does_of_upholds (aside_of_still (still_say level message)) hQ
  have hcheck : Does J (do
      writeConfiguration
      checkConfiguration : Guarded σ Unit).run fun _ => J :=
    does_of_upholds
      (upholds_bind_run aside_writeConfiguration fun _ => aside_checkConfiguration) hJ
  refine does_bind (hsay _ _ hI) fun _ => ?_
  refine does_andThen (does_attempt hI hJ hload) (fun _ h => h.1) ?_
  refine does_bind (P := fun t => J t ∧ _) (Q := fun _ => J) ?_ fun _ => ?_
  · exact does_mono (hsay _ _ hJ) (fun _ h => h.1) fun _ _ h => h
  refine does_andThen (does_attempt hJ hJ hstartup) (fun _ h => h.1) ?_
  refine does_andThen (does_mono (does_attempt hJ hJ hcheck) (fun _ h => h.1) fun _ _ h => h)
    (fun _ h => h.1) ?_
  exact does_mono (does_attempt hJ hJ hprepare) (fun _ h => h.1) fun _ _ h => h.1

/-- The loop, by induction on the indices that are left. -/
theorem does_iterateFrom (hJ : Kept J)
    (hask : ∀ i t, J t → J (onWorld (t.controller.question i).run t).2)
    (hphases : ∀ i, Does J (phases i) fun _ => J) (room : Nat) (i : IterationIndex) :
    Does J (iterateFrom room i) fun _ => J := by
  have hkeep : ∀ {γ : Type} {work : Driven σ γ}, Upholds Still work → Does J work fun _ => J :=
    fun h => does_of_upholds (aside_of_still h) hJ
  have hwants : ∀ i, Does J (wantsIteration i) fun _ => J := by
    intro i
    refine does_bind (hkeep (still_onWorld World.still_flag)) fun flag => ?_
    refine does_ite (fun _ => does_pure fun _ h => h) fun _ => does_get fun s hs => ?_
    -- the question is that of the controller that was looked at
    have hnoted : Does (· = s) (onWorld (World.note (.asked i))) fun _ t =>
        J t ∧ t.controller = s.controller := by
      rintro t rfl
      exact ⟨hkeep (still_note rfl) t hs, rfl⟩
    refine does_bind hnoted fun _ => does_bind (Q := fun _ => J) ?_ fun answer =>
      does_of_upholds (aside_heed i answer) hJ
    rintro t ⟨ht, hc⟩
    rw [← hc]
    exact hask i t ht
  have hthrough : ∀ i, Does J (runThrough i) fun _ => J := by
    intro i
    refine does_bind (hkeep (still_say _ _)) fun _ => does_bind (hkeep (still_say _ _)) fun _ => ?_
    refine does_bind (hkeep (still_time _)) fun _ => does_bind (hphases i) fun outcome => ?_
    refine does_bind (hkeep (still_time _)) fun _ => ?_
    refine does_ite (fun _ => ?_) fun _ => does_pure fun _ h => h
    refine does_bind (does_of_upholds aside_writeTimes hJ) fun _ => ?_
    refine does_bind (hkeep (still_say _ _)) fun _ => does_bind (hkeep (still_say _ _)) fun _ => ?_
    exact does_pure fun _ h => h
  induction room generalizing i with
  | zero => exact does_pure fun _ h => h
  | succ room ih =>
      refine does_bind (hwants i) fun wanted => does_ite (fun _ => ?_) fun _ => ?_
      · refine does_bind (does_of_upholds (aside_setLast i) hJ) fun _ => ?_
        refine does_bind (hthrough i) fun outcome => ?_
        refine does_ite (fun _ => ?_) fun _ => does_pure fun _ h => h
        refine does_bind (does_of_upholds aside_countCompleted hJ) fun _ => ?_
        cases i.next? with
        | none => exact hkeep (still_say _ _)
        | some j => exact ih j
      · refine does_bind (hkeep (still_onWorld World.still_flag)) fun flag => ?_
        exact does_ite (fun _ => hkeep (still_say _ _)) fun _ => hkeep (still_say _ _)

/-- All before the teardown. -/
theorem does_runToTeardown (hI : Kept I) (hJ : Kept J)
    (hload : Does I loadListeners.run fun _ => J)
    (hstartup : Does J (announce .startup).run fun _ => J)
    (hprepare : Does J prepare.run fun _ => J)
    (hask : ∀ i t, J t → J (onWorld (t.controller.question i).run t).2)
    (hphases : ∀ i, Does J (phases i) fun _ => J) : Does I runToTeardown fun _ => J := by
  have henter : ∀ (stage : Stage) {Q : Session σ → Prop}, Kept Q →
      Does Q (enter stage) fun _ => Q :=
    fun stage _ hQ => does_of_upholds (aside_of_still (still_enter stage)) hQ
  have hloop : Does J runIterations fun _ => J :=
    does_look fun s => does_iterateFrom hJ hask hphases _ _
  refine does_bind (henter _ hI) fun _ => ?_
  refine does_bind (does_startUp hI hJ hload hstartup hprepare) fun outcome => ?_
  cases outcome with
  | aborted => exact henter _ hJ
  | proceed =>
      exact does_bind (henter _ hJ) fun _ => does_bind hloop fun _ => henter _ hJ

section Rounds

variable (hJ : Kept J) (hround : ∀ e, Does J (announce e).run fun _ => J)
include hJ hround

theorem does_listenerStep_of_rounds (p : Phase) (i : IterationIndex) :
    Does J (listenerStep p i) fun _ => J := by
  refine does_mono (does_phaseStep hJ hJ ?_) (fun _ h => h) fun _ _ h => h.1
  cases p with
  | mobsim => exact does_pure fun _ h => h
  | _ => exact hround _

/-- An iteration, whether or not it is aborted, keeps what its rounds, its seeding and its mobsim
keep. -/
theorem does_phases_of_rounds (hseed : ∀ i, Does J (seedAfresh i) fun _ => J)
    (hsimulate : ∀ i, Does J (simulate i).run fun _ => J) (i : IterationIndex) :
    Does J (phases i) fun _ => J := by
  have hlistener : ∀ p, Does J (listenerStep p i) fun _ => J :=
    fun p => does_listenerStep_of_rounds hJ hround p i
  have hbegin : Does J (beginIteration i) fun _ => J := by
    refine does_mono (does_phaseStep hJ hJ ?_) (fun _ h => h) fun _ _ h => h.1
    refine does_bind_run (does_of_upholds (aside_makeDirectory i) hJ) (fun _ => ?_) fun _ _ h => h
    exact does_bind_lift (hseed i) fun _ => hround _
  have hmobsim : Does J (mobsimSteps i) fun _ => J := by
    have hstep : Does J (mobsimStep i) fun _ => J :=
      does_mono (does_phaseStep hJ hJ (hsimulate i)) (fun _ h => h) fun _ _ h => h.1
    have hafter : ∀ mobsim : Progress, Does J (do
        let after ← listenerStep .afterMobsim i
        return if mobsim = .aborted then .aborted else after) fun _ => J :=
      fun _ => does_bind (hlistener .afterMobsim) fun _ => does_pure fun _ h => h
    refine does_bind (hlistener .beforeMobsim) fun before => ?_
    cases before with
    | aborted => exact hafter .aborted
    | proceed => exact does_bind hstep hafter
  have hrest := does_andThen hmobsim (fun _ h => h)
    (does_andThen (hlistener .scoring) (fun _ h => h) (hlistener .iterationEnd))
  refine does_look fun t => does_andThen hbegin (fun _ h => h) ?_
  by_cases hfirst : t.controller.context.configuration.controller.firstIteration < i
  · simp only [if_pos hfirst]
    exact does_andThen (hlistener .replanning) (fun _ h => h) hrest
  · simp only [if_neg hfirst]
    exact hrest

end Rounds

theorem still_sayTold (told : Outcome ListenerFailure Nat) :
    Upholds (Still (σ := σ)) (sayTold told) := by
  cases told with
  | ok _ => exact upholds_pure _
  | error a =>
      cases a with
      | failure _ => exact still_say _ _
      | panic x => exact still_note rfl

/-- The listeners are told of the shutdown as of any other event. -/
theorem does_notifyShutdown {unexpected : Bool} (hJ : Kept J)
    (h : Does J (announce (.shutdown unexpected)).run fun _ => J) :
    Does J (notifyShutdown unexpected) fun _ => J := by
  intro s hs
  rw [notifyShutdown_run]
  exact hJ _ _ (still_sayTold _ _).aside (h s hs)

/-- The teardown. -/
theorem does_tearDown (hJ : Kept J)
    (hshutdown : ∀ unexpected, Does J (announce (.shutdown unexpected)).run fun _ => J) :
    Does J tearDown fun _ => J := by
  have hkeep : ∀ {γ : Type} {work : Driven σ γ}, Upholds Still work → Does J work fun _ => J :=
    fun h => does_of_upholds (aside_of_still h) hJ
  have hline : ∀ line : LogLine, Does J (sayLine line) fun _ => J :=
    fun line => hkeep (still_note rfl)
  have hnothing : ∀ {γ : Type} (a : γ), Does J (pure a : Driven σ γ) fun _ => J :=
    fun _ => does_pure fun _ h => h
  have hstarted : ∀ unexpected, Does J (sayStarted unexpected) fun _ => J := by
    intro unexpected
    refine does_bind (hkeep (still_say _ _)) fun _ => ?_
    cases unexpected with
    | true => exact hline _
    | false => exact hnothing _
  have hended : ∀ unexpected faulty, Does J (sayEnded unexpected faulty) fun _ => J := by
    intro unexpected faulty
    have hlines : Does J (sayEnded unexpected false) fun _ => J := by
      cases unexpected with
      | true => exact does_bind (hline _) fun _ => hline _
      | false => exact hline _
    cases faulty with
    | true => exact does_bind (hkeep (still_say _ _)) fun _ => hlines
    | false => exact hlines
  have hclaim : Does J (onWorld World.openTeardown) fun _ => J :=
    does_of_upholds (aside_onWorld World.aside_openTeardown) hJ
  have hclaimed : ∀ first, Does J (sayClaimed first) fun _ => J := by
    intro first
    cases first with
    | true => exact hnothing _
    | false => exact hkeep (still_say _ _)
  refine does_bind hclaim fun first => does_bind (hclaimed first) fun _ => ?_
  refine does_bind (hkeep (still_onWorld World.still_look)) fun _ => ?_
  refine does_bind (hkeep (still_onWorld World.still_flag)) fun _ => ?_
  refine does_bind (hstarted _) fun _ => ?_
  refine does_bind (does_notifyShutdown hJ (hshutdown _)) fun _ => ?_
  exact does_bind (hended _ _) fun _ => does_look fun s => hnothing _

/-- The session from which a run goes into its teardown. -/
def upToTeardown (s : Session σ) : Session σ := (runToTeardown (ready s)).2

theorem upToRelease_apply (s : Session σ) :
    upToRelease s = ((tearDown (runToTeardown s).2).1,
      (enter .terminated (tearDown (runToTeardown s).2).2).2) := by
  rw [upToRelease, apply_bind, apply_bind]
  rfl

/-- A run consists of all up to the teardown and the teardown; what comes before these and after
them changes nothing that collaborators see. -/
theorem run_parts {s : Session σ} (h : s.controller.stage = .idle) :
    Still s (ready s) ∧ (run s).1 = (tearDown (upToTeardown s)).1 ∧
      Still (tearDown (upToTeardown s)).2 (run s).2 := by
  have hbound : Still s (bound s) := still_bindThread s
  have hconcluded : Still (tearDown (upToTeardown s)).2 (concluded s) := by
    have henter := still_enter .terminated (tearDown (upToTeardown s)).2
    rw [concluded, upToRelease_apply]
    dsimp only
    exact henter
  have hreleased : Still (concluded s) (released s) := still_onWorld World.still_terminate _
  refine ⟨?_, ?_, ?_⟩
  · unfold ready
    split
    · exact hbound.trans (still_watch _)
    · exact hbound
  · rw [result_concluded h, upToRelease_apply, upToTeardown]
  · have hway := hconcluded.trans hreleased
    cases hw : s.watches with
    | true =>
        rw [run_of_watches h hw]
        exact hway.trans (still_unwatch _ _)
    | false =>
        rw [run_of_not_watches h hw]
        exact hway

/-- What happens up to the teardown is the beginning of what happens in the run. -/
theorem opening_run {s : Session σ} (h : s.controller.stage = .idle) :
    ∃ l m, Session.Journey .opening s l (upToTeardown s) ∧ runHistory s = l ++ m := by
  obtain ⟨l, hl, -⟩ := journey_ready s
  obtain ⟨m, hm, -⟩ := follows_runToTeardown (ready s) rfl
  obtain ⟨account⟩ := recounts_tearDown (upToTeardown s) rfl
  obtain ⟨n, hn, -⟩ := (run_parts h).2.2.world.past
  have hjourney : Session.Journey .opening s (l ++ m) (upToTeardown s) := hl.trans hm
  have hpast : (run s).2.world.past = s.world.past ++ (l ++ m ++
      (account.before ++ (account.found.claimMoments ++ account.after) ++ n)) := by
    rw [hn, past_account account, Session.past_journey hjourney]
    simp only [List.append_assoc]
  refine ⟨l ++ m, account.before ++ (account.found.claimMoments ++ account.after) ++ n,
    hjourney, ?_⟩
  rw [runHistory, hpast, List.drop_left]

end Parts

end Controller

end CommuteSim
