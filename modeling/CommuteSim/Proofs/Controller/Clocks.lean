import CommuteSim.Proofs.Controller.Upkeep
import CommuteSim.Proofs.Timing.Ledger

/-!
# Who keeps the books of a run

The controller writes in its ledger where an iteration is opened or closed and where a phase starts
or ends, and it counts iterations where one starts or has ended; it writes nothing elsewhere. A
phase ends in the ledger even if its step fails or panics, because the step is guarded. So whatever
happens in the phases of an iteration, each of them that began was timed from its start to its end,
one after the other.

Main statements: `unbooked_attempt` and its kin for work that leaves the books alone,
`tracks_phases` for the phases of an iteration.
-/

namespace CommuteSim

variable {σ α β : Type}

/-! ## Work that leaves the books alone -/

namespace Session

/-- The count of iterations is as before, and so is what is asked whether to run another one. -/
structure Uncounted (s u : Session σ) : Prop where
  simulation : u.controller.simulation = s.controller.simulation
  criterion : u.controller.criterion = s.controller.criterion
  completed : u.controller.completed = s.controller.completed
  last : u.controller.last = s.controller.last

/-- The ledger of operation times is as before. -/
def Unclocked (s u : Session σ) : Prop := u.controller.ledger = s.controller.ledger

/-- The controller has written nothing in its books. -/
structure Unbooked (s u : Session σ) : Prop extends Uncounted s u where
  ledger : Unclocked s u

theorem Uncounted.trans {s t u : Session σ} (h : Uncounted s t) (h' : Uncounted t u) :
    Uncounted s u :=
  ⟨h'.simulation.trans h.simulation, h'.criterion.trans h.criterion,
    h'.completed.trans h.completed, h'.last.trans h.last⟩

theorem Unbooked.trans {s t u : Session σ} (h : Unbooked s t) (h' : Unbooked t u) : Unbooked s u :=
  ⟨h.toUncounted.trans h'.toUncounted, Eq.trans h'.ledger h.ledger⟩

instance : Std.Refl (Uncounted (σ := σ)) := ⟨fun _ => ⟨rfl, rfl, rfl, rfl⟩⟩

instance : Trans (Uncounted (σ := σ)) Uncounted Uncounted := ⟨Uncounted.trans⟩

instance : Std.Refl (Unbooked (σ := σ)) := ⟨fun _ => ⟨⟨rfl, rfl, rfl, rfl⟩, rfl⟩⟩

instance : Trans (Unbooked (σ := σ)) Unbooked Unbooked := ⟨Unbooked.trans⟩

end Session

/-- Steps in a row. -/
theorem upholds_andThen {R : Session σ → Session σ → Prop} [Std.Refl R] [Trans R R R]
    {first rest : Driven σ Progress} (h : Upholds R first) (h' : Upholds R rest) :
    Upholds R (do
      if (← first) = .aborted then return .aborted
      rest) :=
  upholds_bind h fun _ => upholds_ite (upholds_pure _) h'

namespace Controller

open Session (Unbooked Uncounted)

section Unbooked

theorem unbooked_onWorld (work : StateM (World σ) α) : Upholds Unbooked (onWorld work) :=
  fun _ => ⟨⟨rfl, rfl, rfl, rfl⟩, rfl⟩

theorem unclocked_of_unbooked {work : Driven σ α} (h : Upholds Unbooked work) :
    Upholds Session.Unclocked work :=
  upholds_mono h fun _ _ h => h.ledger

theorem uncounted_of_unbooked {work : Driven σ α} (h : Upholds Unbooked work) :
    Upholds Uncounted work :=
  upholds_mono h fun _ _ h => h.toUncounted

theorem unbooked_modify {f : Session σ → Session σ} (hf : ∀ s, Unbooked s (f s)) :
    Upholds Unbooked (modify f : Driven σ Unit) := hf

theorem unbooked_collaborate (fault : Cause → Fault) (p : Program σ Cause α) :
    Upholds Unbooked (collaborate fault p).run :=
  upholds_bind (unbooked_onWorld _) fun _ => upholds_pure _

theorem unbooked_announce (e : Event) : Upholds (Unbooked (σ := σ)) (announce e).run := by
  refine upholds_bind (unbooked_onWorld _) fun _ => upholds_bind upholds_get fun _ => ?_
  exact upholds_bind (unbooked_onWorld _) fun _ => upholds_pure _

theorem unbooked_seedAfresh (i : IterationIndex) : Upholds (Unbooked (σ := σ)) (seedAfresh i) :=
  unbooked_modify fun _ => ⟨⟨rfl, rfl, rfl, rfl⟩, rfl⟩

/-! ### Guards -/

theorem unbooked_reportPanic (origin : String) (x : Panic) :
    Upholds (Unbooked (σ := σ)) (reportPanic origin x) := by
  have hreport : Upholds (Unbooked (σ := σ))
      (discard (onWorld (World.report origin (.panic origin x.payload.message)))) :=
    upholds_bind (unbooked_onWorld _) fun _ => upholds_pure _
  refine upholds_bind upholds_get fun s => upholds_ite ?_ hreport
  exact upholds_bind (unbooked_onWorld _) fun _ => upholds_ite (upholds_pure _) hreport

theorem unbooked_settle (step : Step) (result : Outcome Fault Unit) :
    Upholds (Unbooked (σ := σ)) (settle step result) := by
  have hdisclose : Upholds (Unbooked (σ := σ)) (disclose step.origin result) := by
    cases result with
    | ok _ => exact upholds_pure _
    | error a =>
        cases a with
        | failure f => exact upholds_bind (unbooked_onWorld _) fun _ => upholds_pure _
        | panic x => exact unbooked_reportPanic _ x
  refine upholds_bind hdisclose fun _ => upholds_bind (unbooked_onWorld _) fun _ => ?_
  exact upholds_bind (unbooked_onWorld _) fun _ => upholds_pure _

theorem unbooked_attempt (step : Step) {work : Guarded σ Unit} (h : Upholds Unbooked work.run) :
    Upholds Unbooked (attempt step work) := by
  refine upholds_bind (unbooked_onWorld _) fun _ => ?_
  exact upholds_bind h fun result => unbooked_settle step result

/-! ### Startup -/

theorem unbooked_loadListeners : Upholds (Unbooked (σ := σ)) loadListeners.run := by
  refine upholds_bind_run (upholds_lift upholds_get) fun s => ?_
  refine upholds_bind_run (unbooked_collaborate _ _) fun ls => ?_
  have hregister : Upholds (Unbooked (σ := σ)) (registerCore ls) :=
    unbooked_modify fun _ => ⟨⟨rfl, rfl, rfl, rfl⟩, rfl⟩
  refine upholds_bind_run (upholds_lift hregister) fun _ => ?_
  exact unbooked_collaborate _ _

theorem unbooked_writeConfiguration : Upholds (Unbooked (σ := σ)) writeConfiguration.run := by
  refine upholds_bind_run (upholds_lift upholds_get) fun s => ?_
  refine upholds_bind_run (upholds_lift (unbooked_onWorld _)) fun _ => ?_
  refine upholds_bind_run (upholds_lift (unbooked_onWorld _)) fun written => ?_
  cases written with
  | ok _ => exact upholds_pure _
  | error reason => exact upholds_pure _

theorem unbooked_checkConfiguration : Upholds (Unbooked (σ := σ)) checkConfiguration.run := by
  refine upholds_bind_run (upholds_lift upholds_get) fun s => ?_
  cases s.controller.context.configuration.check with
  | error i => exact upholds_pure _
  | ok warnings =>
      induction warnings with
      | nil => exact upholds_pure _
      | cons w rest ih =>
          exact upholds_bind_run (upholds_lift (unbooked_onWorld _)) fun _ => ih

theorem unbooked_startUp : Upholds (Unbooked (σ := σ)) startUp := by
  have hcheck := unbooked_attempt (σ := σ) .check
    (upholds_bind_run unbooked_writeConfiguration fun _ => unbooked_checkConfiguration)
  have hprepare : Upholds (Unbooked (σ := σ)) (attempt .prepare prepare) :=
    unbooked_attempt _
      (upholds_bind_run (upholds_lift upholds_get) fun _ => unbooked_collaborate _ _)
  refine upholds_bind (unbooked_onWorld _) fun _ => ?_
  refine upholds_andThen (unbooked_attempt _ unbooked_loadListeners) ?_
  refine upholds_bind (unbooked_onWorld _) fun _ => ?_
  exact upholds_andThen (unbooked_attempt _ (unbooked_announce _))
    (upholds_andThen hcheck hprepare)

/-! ### The work of phases -/

theorem unbooked_makeDirectory (i : IterationIndex) :
    Upholds (Unbooked (σ := σ)) (makeDirectory i).run := by
  refine upholds_bind_run (upholds_lift upholds_get) fun s => ?_
  dsimp only
  split
  · refine upholds_bind_run (upholds_lift (unbooked_onWorld _)) fun made => ?_
    cases made with
    | ok _ => exact upholds_pure _
    | error f => exact upholds_pure _
  · exact upholds_pure _

theorem unbooked_round (p : Phase) (i : IterationIndex) :
    Upholds (Unbooked (σ := σ)) (match p.event? i with
      | some e => announce e
      | none => return : Guarded σ Unit).run := by
  cases p with
  | mobsim => exact upholds_pure _
  | _ => exact unbooked_announce _

theorem unbooked_beginning (i : IterationIndex) : Upholds (Unbooked (σ := σ)) (do
    makeDirectory i
    Guarded.of (seedAfresh i)
    announce (.iterationStart i) : Guarded σ Unit).run := by
  refine upholds_bind_run (unbooked_makeDirectory i) fun _ => ?_
  exact upholds_bind_run (upholds_lift (unbooked_seedAfresh i)) fun _ => unbooked_announce _

theorem unbooked_simulate (i : IterationIndex) :
    Upholds (Unbooked (σ := σ)) (simulate i).run := by
  refine upholds_bind_run (upholds_lift (unbooked_seedAfresh i)) fun _ => ?_
  refine upholds_bind_run (upholds_lift upholds_get) fun s => ?_
  refine upholds_bind_run (upholds_lift (unbooked_onWorld _)) fun _ => ?_
  exact unbooked_collaborate _ _

/-! ### Between iterations -/

theorem unbooked_writeTimes : Upholds (Unbooked (σ := σ)) writeTimes := by
  have hwrite : ∀ name text message,
      Upholds (Unbooked (σ := σ)) (writeOrWarn name text message) := by
    intro name text message
    refine upholds_bind upholds_get fun s => upholds_bind (unbooked_onWorld _) fun written => ?_
    cases written with
    | ok _ => exact upholds_pure _
    | error _ => exact unbooked_onWorld _
  refine upholds_bind upholds_get fun s => upholds_bind (unbooked_onWorld _) fun _ => ?_
  exact upholds_bind (hwrite _ _ _) fun _ => upholds_ite (hwrite _ _ _) (upholds_pure _)

theorem unbooked_wantsIteration (i : IterationIndex) :
    Upholds (Unbooked (σ := σ)) (wantsIteration i) := by
  have hheed : ∀ answer, Upholds (Unbooked (σ := σ)) (heed i answer) := by
    intro answer
    have hnote : Upholds (Unbooked (σ := σ)) (do
        onWorld (World.note (.answered i answer))
        return answer.toOption.getD false) :=
      upholds_bind (unbooked_onWorld _) fun _ => upholds_pure _
    cases answer with
    | ok b => exact hnote
    | error a =>
        cases a with
        | failure e => exact nomatch e
        | panic x => exact upholds_bind (unbooked_reportPanic _ x) fun _ => hnote
  refine upholds_bind (unbooked_onWorld _) fun _ => upholds_ite (upholds_pure _) ?_
  refine upholds_bind upholds_get fun s => upholds_bind (unbooked_onWorld _) fun _ => ?_
  exact upholds_bind (unbooked_onWorld _) hheed

theorem unbooked_sayStopped : Upholds (Unbooked (σ := σ)) sayStopped :=
  upholds_bind (unbooked_onWorld _) fun _ =>
    upholds_ite (unbooked_onWorld _) (unbooked_onWorld _)

/-! ### Teardown -/

theorem unbooked_tearDown : Upholds (Unbooked (σ := σ)) tearDown := by
  have hline : ∀ line, Upholds (Unbooked (σ := σ)) (sayLine line) := fun _ => unbooked_onWorld _
  have hclaimed : ∀ first, Upholds (Unbooked (σ := σ)) (sayClaimed first) := fun _ =>
    upholds_ite (unbooked_onWorld _) (upholds_pure _)
  have hstarted : ∀ unexpected, Upholds (Unbooked (σ := σ)) (sayStarted unexpected) := fun _ =>
    upholds_bind (unbooked_onWorld _) fun _ => upholds_ite (hline _) (upholds_pure _)
  have htold : ∀ told, Upholds (Unbooked (σ := σ)) (sayTold told) := by
    intro told
    cases told with
    | ok _ => exact upholds_pure _
    | error a =>
        cases a with
        | failure _ => exact unbooked_onWorld _
        | panic x => exact unbooked_onWorld _
  have hnotify : ∀ unexpected, Upholds (Unbooked (σ := σ)) (notifyShutdown unexpected) := by
    intro unexpected s
    let e := Event.shutdown unexpected
    have hround : Unbooked s (s.noted (.round e)) := unbooked_onWorld (World.note (.round e)) s
    rw [notifyShutdown_run]
    exact (hround.trans (unbooked_onWorld (s.controller.bus.notify e) _)).trans (htold _ _)
  have hended : ∀ unexpected faulty, Upholds (Unbooked (σ := σ)) (sayEnded unexpected faulty) := by
    intro unexpected faulty
    have hlines : Upholds (Unbooked (σ := σ)) (sayEnded unexpected false) := by
      cases unexpected with
      | true => exact upholds_bind (hline _) fun _ => hline _
      | false => exact hline _
    cases faulty with
    | true => exact upholds_bind (unbooked_onWorld _) fun _ => hlines
    | false => exact hlines
  refine upholds_bind (unbooked_onWorld _) fun first => upholds_bind (hclaimed first) fun _ => ?_
  refine upholds_bind (unbooked_onWorld _) fun _ => upholds_bind (unbooked_onWorld _) fun _ => ?_
  refine upholds_bind (hstarted _) fun _ => upholds_bind (hnotify _) fun _ => ?_
  exact upholds_bind (hended _ _) fun _ => upholds_bind upholds_get fun _ => upholds_pure _

theorem unbooked_enter (stage : Stage) : Upholds (Unbooked (σ := σ)) (enter stage) :=
  unbooked_modify fun _ => ⟨⟨rfl, rfl, rfl, rfl⟩, rfl⟩

end Unbooked

/-! ## Phases -/

/-- The step that begins, if a moment tells. -/
def begun? : Moment σ → Option Step
  | .began step => some step
  | _ => none

/-- The steps that begin in a history, in order. -/
def begun (l : List (Moment σ)) : List Step := l.filterMap begun?

@[simp] theorem begun_append (l m : List (Moment σ)) : begun (l ++ m) = begun l ++ begun m :=
  List.filterMap_append ..

theorem begun_milestones (l : List (Moment σ)) : begun (milestones l) = begun l := by
  refine filterMap_milestones (fun m hm => ?_) l
  cases m with
  | began step => cases hm
  | _ => rfl

/-- Of an iteration some phases have begun, and they were timed one after the other. -/
def Tracks (i : IterationIndex) (s u : Session σ) : Prop :=
  ∃ l ps, u.world.past = s.world.past ++ l ∧ begun l = ps.map (Step.phase · i) ∧
    TimingLedger.Timed ps s.controller.ledger u.controller.ledger

instance (i : IterationIndex) : Std.Refl (Tracks (σ := σ) i) :=
  ⟨fun _ => ⟨[], [], (List.append_nil _).symm, rfl, .nil _⟩⟩

instance (i : IterationIndex) : Trans (Tracks (σ := σ) i) (Tracks i) (Tracks i) where
  trans := by
    rintro s t u ⟨l, ps, hl, hps, htimed⟩ ⟨m, qs, hm, hqs, htimed'⟩
    refine ⟨l ++ m, ps ++ qs, ?_, ?_, htimed.append htimed'⟩
    · rw [hm, hl, List.append_assoc]
    · rw [begun_append, hps, hqs, List.map_append]

section Phases

variable {i : IterationIndex}

theorem uncounted_time (f : TimingLedger → Instant → TimingLedger) :
    Upholds (Uncounted (σ := σ)) (time f) :=
  fun _ => ⟨rfl, rfl, rfl, rfl⟩

/-- What the steps of an iteration uphold is upheld by the iteration. -/
theorem upholds_phases {R : Session σ → Session σ → Prop} [Std.Refl R] [Trans R R R]
    (hbegin : Upholds R (beginIteration i)) (hround : ∀ p, Upholds R (listenerStep p i))
    (hmobsim : Upholds R (mobsimStep i)) : Upholds R (phases i) := by
  have hafter : ∀ mobsim : Progress, Upholds R (do
      let after ← listenerStep .afterMobsim i
      return if mobsim = .aborted then .aborted else after) :=
    fun _ => upholds_bind (hround _) fun _ => upholds_pure _
  have hsteps : Upholds R (mobsimSteps i) := by
    refine upholds_bind (hround _) fun _ => upholds_ite ?_ ?_
    · exact upholds_bind hmobsim hafter
    · exact upholds_bind (upholds_pure _) hafter
  have hrest : Upholds R (do
      if (← mobsimSteps i) = .aborted then return .aborted
      if (← listenerStep .scoring i) = .aborted then return .aborted
      listenerStep .iterationEnd i) :=
    upholds_andThen hsteps (upholds_andThen (hround _) (hround _))
  refine upholds_bind upholds_get fun s => upholds_andThen hbegin ?_
  exact upholds_ite (upholds_andThen (hround _) hrest) hrest

theorem uncounted_phaseStep {p : Phase} {work : Guarded σ Unit} (h : Upholds Unbooked work.run) :
    Upholds Uncounted (phaseStep p i work) := by
  have hstep : Upholds Uncounted (attempt (.phase p i) work) :=
    uncounted_of_unbooked (unbooked_attempt _ h)
  refine upholds_bind (uncounted_time _) fun _ => upholds_bind hstep fun _ => ?_
  exact upholds_bind (uncounted_time _) fun _ => upholds_pure _

/-- No iteration is counted in the course of one. -/
theorem uncounted_phases (i : IterationIndex) : Upholds (Uncounted (σ := σ)) (phases i) :=
  upholds_phases (uncounted_phaseStep (unbooked_beginning i))
    (fun p => uncounted_phaseStep (unbooked_round p i))
    (uncounted_phaseStep (unbooked_simulate i))

/-- A phase is timed, however its step ends. -/
theorem tracks_phaseStep {p : Phase} {work : Guarded σ Unit}
    {R : Outcome Fault Unit → List (Moment σ) → Prop}
    (h : ∀ k, Follows .opening k (phaseStep p i work) (stepCourse (.phase p i) R))
    (hR : ∀ result l, R result l → begun l = []) (hwork : Upholds Unbooked work.run) :
    Upholds (Tracks i) (phaseStep p i work) := by
  intro s
  obtain ⟨l, hl, result, inner, hinner, hcourse⟩ := h s.controller.context s rfl
  refine ⟨l, [p], Session.past_journey hl, ?_, ?_⟩
  · rw [← begun_milestones, hcourse, ← List.singleton_append, begun_append, begun_append,
      hR result inner hinner]
    rfl
  · let started := (time (fun l now => l.startOperation p.operation now) s).2
    let ended := (attempt (.phase p i) work started).2
    have hkept : ended.controller.ledger = started.controller.ledger :=
      (unbooked_attempt (.phase p i) hwork started).ledger
    have hledger : (phaseStep p i work s).2.controller.ledger =
        ended.controller.ledger.finishOperation p.operation ended.world.clock := rfl
    rw [hledger, hkept]
    exact .cons s.world.clock ended.world.clock (.nil _)

theorem begun_rounds (es : List Event) : begun (σ := σ) (es.map .round) = [] := by
  unfold begun
  rw [List.filterMap_map]
  exact List.filterMap_eq_nil_iff.mpr fun _ _ => rfl

theorem tracks_listenerStep (p : Phase) : Upholds (Tracks (σ := σ) i) (listenerStep p i) := by
  refine tracks_phaseStep (fun _ => follows_listenerStep p i) (fun _ l hl => ?_) ?_
  · rw [show l = _ from hl]
    exact begun_rounds _
  · exact unbooked_round p i

theorem tracks_beginIteration : Upholds (Tracks (σ := σ) i) (beginIteration i) := by
  refine tracks_phaseStep (fun _ => follows_beginIteration i) (fun _ l hl => ?_) ?_
  · rcases hl with rfl | ⟨rfl, -⟩ <;> rfl
  · exact unbooked_beginning i

theorem tracks_mobsimStep : Upholds (Tracks (σ := σ) i) (mobsimStep i) := by
  refine tracks_phaseStep (fun _ => follows_mobsimStep i) (fun _ l hl => ?_) ?_
  · obtain ⟨g, rfl⟩ := hl
    rfl
  · exact unbooked_simulate i

/-- Whatever happens in an iteration, each phase that begins is timed. -/
theorem tracks_phases (i : IterationIndex) : Upholds (Tracks (σ := σ) i) (phases i) :=
  upholds_phases tracks_beginIteration tracks_listenerStep tracks_mobsimStep

end Phases

end Controller

end CommuteSim
