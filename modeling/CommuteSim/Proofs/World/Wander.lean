import CommuteSim.Proofs.World.Path

/-!
# Work that only wanders

Work on the world wanders if, wherever it begins, it goes along a path. All that collaborators do
wanders, because each of their deeds does; so does what the controller does on the files.

Main statements: `wanders_perform` for deeds, `wanders_run` for programs by induction on their
trees, `wanders_notify` for rounds by induction on the listeners that are told. -/

namespace CommuteSim

variable {σ α β ε τ : Type}

/-- Work with a state that can fail, put one behind the other: a failure ends it. -/
theorem run_bind_except (work : ExceptT ε (StateM τ) α) (next : α → ExceptT ε (StateM τ) β)
    (t : τ) :
    (work >>= next).run t = match (work.run t).1 with
      | .ok a => (next a).run (work.run t).2
      | .error e => (.error e, (work.run t).2) := by
  simp only [bind, ExceptT.bind, ExceptT.mk, ExceptT.run, StateT.bind, ExceptT.bindCont]
  cases work t with
  | mk result t' => cases result <;> rfl

namespace World

/-- Work on the world that goes along a path. -/
def Wanders (work : StateM (World σ) α) : Prop := ∀ w, ∃ l, Path w l (work w).2

/-! ## Rules -/

theorem wanders_pure (a : α) : Wanders (σ := σ) (pure a) := fun w => ⟨[], .refl w⟩

theorem wanders_bind {work : StateM (World σ) α} {next : α → StateM (World σ) β}
    (h : Wanders work) (h' : ∀ a, Wanders (next a)) : Wanders (work >>= next) := by
  intro w
  obtain ⟨l, hl⟩ := h w
  obtain ⟨m, hm⟩ := h' (work w).1 (work w).2
  exact ⟨l ++ m, hl.trans hm⟩

theorem wanders_get : Wanders (get : StateM (World σ) (World σ)) := fun w => ⟨[], .refl w⟩

/-- A change that other threads do not see and the history does not tell. -/
theorem wanders_modify {f : World σ → World σ} (history : ∀ w, (f w).history = w.history)
    (process : ∀ w, (f w).process = w.process) (self : ∀ w, (f w).self = w.self) :
    Wanders (modify f : StateM (World σ) PUnit) :=
  fun w => ⟨[], Move.path (.silent (history w) (process w) (self w))⟩

theorem wanders_note {m : Moment σ} (h : m.remark = true) : Wanders (note m) :=
  fun _ => ⟨[m], Move.path (.note h)⟩

/-- The controller may log any line but those that tell whether a shutdown was expected. -/
theorem wanders_say {level : LogLevel} {message : String}
    (h : ⟨level, message⟩ ∉ verdictLines) : Wanders (σ := σ) (say level message) :=
  wanders_note (by simpa [Moment.remark] using h)

/-! ## Accesses to the coordinator -/

theorem path_undergo (w : World σ) (a : ThreadAct) : ∃ l, Path w l (w.undergo a) :=
  ⟨_, (Move.thread w a).path⟩

theorem path_undergo_all (w : World σ) (as : List ThreadAct) :
    ∃ l, Path w l (as.foldl undergo w) := by
  induction as generalizing w with
  | nil => exact ⟨[], .refl w⟩
  | cons a rest ih =>
      obtain ⟨l, hl⟩ := path_undergo w a
      obtain ⟨m, hm⟩ := ih (w.undergo a)
      exact ⟨l ++ m, hl.trans hm⟩

theorem wanders_yield : Wanders (σ := σ) yield := by
  intro w
  obtain ⟨l, hl⟩ := path_undergo_all w (w.others w.turn)
  exact ⟨l ++ [], hl.trans (Move.path (.silent rfl rfl rfl))⟩

/-- A look leads along a path, and gives the coordinator at its end. -/
theorem path_look (w : World σ) :
    ∃ l, Path w l (look w).2 ∧ (look w).1 = (look w).2.coordinator := by
  obtain ⟨l, hl⟩ := wanders_yield w
  exact ⟨l, hl, rfl⟩

theorem wanders_look : Wanders (σ := σ) look :=
  wanders_bind wanders_yield fun _ => wanders_bind wanders_get fun _ => wanders_pure _

theorem wanders_flag : Wanders (σ := σ) flag := wanders_bind wanders_look fun _ => wanders_pure _

/-- A collaborator changes the coordinator as its act says. -/
theorem wanders_actHere (a : ThreadAct) (now : Instant) {f : Coordinator → α × Coordinator}
    (hf : ∀ c, (f c).2 = a.here now c) : Wanders (σ := σ) (actHere a f) := by
  refine wanders_bind wanders_yield fun _ w => ?_
  have h := (Move.here w a now).path
  rw [← hf] at h
  exact ⟨_, h⟩

theorem line_capture (k : Capture) : k.line ∉ verdictLines := by
  cases k <;> decide

/-- A collaborator reports a fault. -/
theorem wanders_reportHere (origin : String) (f : Fault) :
    Wanders (σ := σ) (reportBy (actHere (.report origin f)) origin f) := by
  refine wanders_bind wanders_get fun w => ?_
  refine wanders_bind (wanders_actHere (.report origin f) w.clock fun _ => rfl) fun k => ?_
  refine wanders_bind (wanders_note ?_) fun _ => wanders_pure _
  simpa [Moment.remark] using line_capture k

/-- The world once a fault is recorded and a line tells what became of it. -/
def reported (w : World σ) (r : FaultRecord) : World σ :=
  (w.setCoordinator (w.coordinator.record r).2).noted
    (.said .controller (w.coordinator.record r).1.line)

/-- A report lets the other threads act, and then records the fault. -/
theorem report_world (origin : String) (f : Fault) (w : World σ) :
    (report origin f w).2 = (yield w).2.reported ⟨f, origin, w.clock⟩ := rfl

theorem panic_of_watching {w : World σ} (h : w.process.handler = .watching w.self) (x : Panic) :
    (panic x w).2 = (yield w).2.reported ⟨Process.panicFault (some controllerThread) x,
      x.origin (some controllerThread), w.clock⟩ := by
  change ((if w.process.handler = .watching w.self then _ else _ : StateM (World σ) Unit) w).2 = _
  rw [if_pos h]
  rfl

theorem panic_of_not_watching {w : World σ} (h : w.process.handler ≠ .watching w.self)
    (x : Panic) :
    (panic x w).2 = (yield w).2.setProcess
      ((yield w).2.process.panic (some controllerThread) x (yield w).2.clock) := by
  change ((if w.process.handler = .watching w.self then _ else _ : StateM (World σ) Unit) w).2 = _
  rw [if_neg h]
  rfl

/-- A panic goes to the handler in place. -/
theorem wanders_panic (x : Panic) : Wanders (σ := σ) (panic x) := by
  intro w
  obtain ⟨l, hl⟩ := wanders_yield w
  by_cases h : w.process.handler = .watching w.self
  · rw [panic_of_watching h]
    -- other threads act between the panic and the report, but the handler stays
    have hcaught := Move.caught ⟨Process.panicFault (some controllerThread) x,
      x.origin (some controllerThread), w.clock⟩ ((watching_path hl).mpr h)
    refine ⟨_, (hl.trans hcaught.path).trans (Move.note ?_).path⟩
    simpa [Moment.remark] using line_capture _
  · rw [panic_of_not_watching h]
    exact ⟨_, hl.trans (Move.uncaught x (mt (watching_path hl).mp h)).path⟩

theorem wanders_interrupt : Wanders (σ := σ) interrupt := by
  refine wanders_bind (wanders_say (by decide)) fun _ => ?_
  refine wanders_bind (wanders_actHere .interrupt ⟨0⟩ fun _ => rfl) fun c => ?_
  split
  · exact wanders_say (by decide)
  · exact wanders_pure _

theorem wanders_elsewhere (a : ThreadAct) : Wanders (σ := σ) (elsewhere a) :=
  wanders_bind wanders_yield fun _ w => path_undergo w a

/-! ## Collaborators -/

/-- Every deed of a collaborator leads along a path. -/
theorem wanders_perform (d : Deed σ) : Wanders (perform d) := by
  cases d with
  | memory => exact wanders_bind wanders_get fun _ => wanders_pure _
  | remember m => exact wanders_modify (fun _ => rfl) (fun _ => rfl) fun _ => rfl
  | clock => exact wanders_bind wanders_get fun _ => wanders_pure _
  | elapse n => exact wanders_modify (fun _ => rfl) (fun _ => rfl) fun _ => rfl
  | generator => exact wanders_bind wanders_get fun _ => wanders_pure _
  | setGenerator g => exact wanders_modify (fun _ => rfl) (fun _ => rfl) fun _ => rfl
  | files => exact wanders_bind wanders_get fun _ => wanders_pure _
  | setFiles f => exact wanders_modify (fun _ => rfl) (fun _ => rfl) fun _ => rfl
  | say l => exact wanders_note rfl
  | coordinator => exact wanders_look
  | report origin f => exact wanders_reportHere origin f
  | interrupt => exact wanders_interrupt
  | claimTeardown => exact wanders_actHere .claimTeardown ⟨0⟩ fun _ => rfl
  | terminate => exact wanders_actHere .terminate ⟨0⟩ fun _ => rfl
  | elsewhere a => exact wanders_elsewhere a

/-- Every program of a collaborator leads along a path. -/
theorem wanders_run (p : Program σ ε α) : Wanders p.run := by
  induction p with
  | done a => exact wanders_pure _
  | fail e => exact wanders_pure _
  | panic x => exact wanders_bind (wanders_panic x) fun _ => wanders_pure _
  | act d next ih => exact wanders_bind (wanders_perform d) ih

/-! ## Rounds -/

theorem wanders_tell (e : Event) (r : Registration σ) : Wanders (ListenerBus.tell e r) :=
  wanders_bind wanders_get fun _ => wanders_bind (wanders_note rfl) fun _ =>
    wanders_bind (wanders_run _) fun _ => wanders_pure _

theorem wanders_tellAll (e : Event) (rs : List (Registration σ)) :
    Wanders (ListenerBus.tellAll e rs) := by
  induction rs with
  | nil => exact wanders_pure _
  | cons r rest ih =>
      refine wanders_bind (wanders_tell e r) fun told => ?_
      cases told with
      | ok _ => exact ih
      | error a => exact wanders_pure _

/-- A round leads along a path, whatever listeners there are. -/
theorem wanders_notify (b : ListenerBus σ) (e : Event) : Wanders (b.notify e) :=
  wanders_bind (wanders_tellAll e _) fun _ => wanders_pure _

/-! ## Files -/

theorem wanders_writeText (path text : String) : Wanders (σ := σ) (writeText path text) := by
  refine wanders_bind wanders_get fun w => ?_
  cases w.files.writeText path text with
  | ok files =>
      exact wanders_bind (wanders_modify (fun _ => rfl) (fun _ => rfl) fun _ => rfl)
        fun _ => wanders_pure _
  | error reason => exact wanders_pure _

end World

/-! ## Work on the files -/

namespace FileWork

/-- Work on the files that logs no line from which one reads off how a run ended. -/
def Quiet (work : FileWork α) : Prop :=
  ∀ j : FileJournal, (∀ line ∈ j.lines, line ∉ verdictLines) →
    ∀ line ∈ (work.run.run j).2.lines, line ∉ verdictLines

theorem quiet_bind {work : FileWork α} {next : α → FileWork β} (h : Quiet work)
    (h' : ∀ a, Quiet (next a)) : Quiet (work >>= next) := by
  intro j hj
  have hwork := h j hj
  rw [StateT.run, run_bind_except]
  cases (work.run j).1 with
  | ok a => exact h' a _ hwork
  | error f => exact hwork

theorem quiet_say {level : LogLevel} {message : String} (h : ⟨level, message⟩ ∉ verdictLines) :
    Quiet (say level message) := by
  intro j hj line hline
  rcases List.mem_append.mp hline with hline | hline
  · exact hj line hline
  · rw [List.mem_singleton.mp hline]
    exact h

theorem quiet_get : Quiet (getThe FileJournal) := fun _ hj => hj

theorem quiet_pure (a : α) : Quiet (pure a) := fun _ hj => hj

theorem quiet_throw (f : OutputFailure) : Quiet (α := α) (throw f) := fun _ hj => hj

theorem quiet_attempt (path : String)
    (operation : FileSystem → FileSystem.FileResult Unit × FileSystem) :
    Quiet (attempt path operation) := by
  refine quiet_bind quiet_get fun j => quiet_bind (fun _ hj => hj) fun _ => ?_
  split
  · exact quiet_pure _
  · exact quiet_throw _

/-- Making the directory of an iteration logs nothing that tells how the run ended. -/
theorem quiet_createIteration (d : OutputDirectory) (i : IterationIndex) :
    Quiet (d.createIteration i) := by
  refine quiet_bind quiet_get fun j => ?_
  have hcreate := quiet_attempt (d.iterationDirectory i) (·.createAll (d.iterationDirectory i))
  split
  · refine quiet_bind (quiet_say (by decide)) fun _ => ?_
    exact quiet_bind (quiet_attempt _ _) fun _ => hcreate
  · exact hcreate

end FileWork

namespace World

theorem wanders_lines {lines : List LogLine} (h : ∀ line ∈ lines, line ∉ verdictLines) :
    Wanders (σ := σ) (lines.forM fun line => note (.said .controller line)) := by
  induction lines with
  | nil => exact wanders_pure _
  | cons line rest ih =>
      refine wanders_bind (wanders_note ?_) fun _ =>
        ih fun other hother => h other (List.mem_cons_of_mem _ hother)
      simpa [Moment.remark] using h line List.mem_cons_self

theorem wanders_onFiles {work : FileWork α} (h : FileWork.Quiet work) :
    Wanders (σ := σ) (onFiles work) := by
  refine wanders_bind wanders_get fun w => ?_
  refine wanders_bind (wanders_modify (fun _ => rfl) (fun _ => rfl) fun _ => rfl) fun _ => ?_
  exact wanders_bind (wanders_lines (h _ (fun _ hline => nomatch hline))) fun _ => wanders_pure _

end World

end CommuteSim
