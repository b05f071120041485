import CommuteSim.Commute.Simulation
import CommuteSim.Proofs.Controller.Subtree
import CommuteSim.Proofs.World.Aside

/-!
# Who claims the teardown

The controller claims the teardown of its run at the end. Another thread or a collaborator could do
so earlier, but the simulation of commuters does not, nor do its workers.

Main statements: `unclaimed_run` for runs in which nobody but the controller claims the teardown,
and `claimless_simulation` for the simulation of commuters.
-/

namespace CommuteSim

variable {σ ε α β : Type}

/-! ## Deeds that claim nothing -/

/-- A deed that does not claim the teardown, neither itself nor through another thread. -/
def Deed.Claimless : Deed σ → Prop
  | .claimTeardown | .elsewhere .claimTeardown => False
  | _ => True

namespace World

/-- No other thread will ever claim the teardown. -/
def Claimless (w : World σ) : Prop := ∀ n, .claimTeardown ∉ w.others n

/-- The world has gone on. If no other thread claims the teardown, nobody has. -/
structure Unclaiming (w u : World σ) : Prop where
  others : u.others = w.others
  past : w.Claimless → ∃ l, u.past = w.past ++ l ∧ Unclaimed l

section Unclaiming

variable {w v u : World σ}

theorem Unclaiming.claimless (h : Unclaiming w u) (hw : w.Claimless) : u.Claimless := by
  intro n
  rw [h.others]
  exact hw n

theorem Unclaiming.refl (w : World σ) : Unclaiming w w :=
  ⟨rfl, fun _ => ⟨[], (List.append_nil _).symm, List.not_mem_nil⟩⟩

theorem Unclaiming.trans (h : Unclaiming w v) (h' : Unclaiming v u) : Unclaiming w u where
  others := h'.others.trans h.others
  past := by
    intro hw
    obtain ⟨l, hl, hunclaimed⟩ := h.past hw
    obtain ⟨m, hm, hunclaimed'⟩ := h'.past (h.claimless hw)
    refine ⟨l ++ m, by rw [hm, hl, List.append_assoc], fun hclaim => ?_⟩
    rcases List.mem_append.mp hclaim with hclaim | hclaim
    · exact hunclaimed hclaim
    · exact hunclaimed' hclaim

instance : Std.Refl (Unclaiming (σ := σ)) := ⟨Unclaiming.refl⟩

instance : Trans (Unclaiming (σ := σ)) Unclaiming Unclaiming := ⟨Unclaiming.trans⟩

theorem unclaiming_of_eq (hothers : u.others = w.others) (hhistory : u.history = w.history) :
    Unclaiming w u :=
  ⟨hothers, fun _ => ⟨[], by rw [past, hhistory, List.append_nil, past], List.not_mem_nil⟩⟩

theorem unclaiming_noted (w : World σ) {m : Moment σ} (h : m ≠ .acted .claimTeardown) :
    Unclaiming w (w.noted m) :=
  ⟨rfl, fun _ => ⟨[m], past_noted w m, fun hclaim => h (List.mem_singleton.mp hclaim).symm⟩⟩

theorem unclaiming_setProcess (w : World σ) (p : Process) : Unclaiming w (w.setProcess p) := by
  refine ⟨rfl, fun _ => ⟨_, past_setProcess w p, fun hclaim => ?_⟩⟩
  rcases mem_changes hclaim with h | h | h <;> cases h

theorem unclaiming_setCoordinator (w : World σ) (c : Coordinator) :
    Unclaiming w (w.setCoordinator c) :=
  unclaiming_setProcess w _

theorem unclaiming_undergo (w : World σ) {a : ThreadAct} (h : a ≠ .claimTeardown) :
    Unclaiming w (w.undergo a) :=
  (unclaiming_noted w fun hm => h (Moment.acted.inj hm)).trans (unclaiming_setProcess _ _)

theorem unclaiming_undergo_all {as : List ThreadAct} (h : .claimTeardown ∉ as) (w : World σ) :
    Unclaiming w (as.foldl undergo w) := by
  induction as generalizing w with
  | nil => exact .refl w
  | cons a rest ih =>
      have ha : a ≠ .claimTeardown := fun ha => h (ha ▸ List.mem_cons_self)
      exact (unclaiming_undergo w ha).trans (ih (fun hm => h (List.mem_cons_of_mem a hm)) _)

theorem unclaiming_yield : Upholds (Unclaiming (σ := σ)) yield := by
  intro w
  refine ⟨(still_yield w).others, fun hw => ?_⟩
  have hturn : Unclaiming ((w.others w.turn).foldl undergo w) (yield w).2 :=
    unclaiming_of_eq rfl rfl
  exact ((unclaiming_undergo_all (hw w.turn) w).trans hturn).past hw

theorem unclaiming_note {m : Moment σ} (h : m ≠ .acted .claimTeardown) :
    Upholds Unclaiming (note m) :=
  fun w => unclaiming_noted w h

theorem unclaiming_actHere (a : ThreadAct) (h : a ≠ .claimTeardown)
    (f : Coordinator → α × Coordinator) : Upholds (Unclaiming (σ := σ)) (actHere a f) := by
  refine upholds_bind unclaiming_yield fun _ => ?_
  refine upholds_bind (unclaiming_note fun hm => h (Moment.acted.inj hm)) fun _ w => ?_
  exact unclaiming_setCoordinator w _

theorem unclaiming_look : Upholds (Unclaiming (σ := σ)) look :=
  upholds_bind unclaiming_yield fun _ => upholds_bind upholds_get fun _ => upholds_pure _

theorem unclaiming_report (origin : String) (f : Fault) :
    Upholds (Unclaiming (σ := σ)) (reportBy (actHere (.report origin f)) origin f) := by
  refine upholds_bind upholds_get fun w => ?_
  refine upholds_bind (unclaiming_actHere (.report origin f) nofun _) fun _ => ?_
  exact upholds_bind (unclaiming_note nofun) fun _ => upholds_pure _

theorem unclaiming_interrupt : Upholds (Unclaiming (σ := σ)) interrupt := by
  refine upholds_bind (unclaiming_note nofun) fun _ => ?_
  refine upholds_bind (unclaiming_actHere .interrupt nofun _) fun _ => ?_
  exact upholds_ite (unclaiming_note nofun) (upholds_pure _)

theorem unclaiming_panic (x : Panic) : Upholds (Unclaiming (σ := σ)) (panic x) := by
  intro w
  have hyield := unclaiming_yield w
  by_cases h : w.process.handler = .watching w.self
  · rw [panic_of_watching h]
    exact (hyield.trans (unclaiming_setCoordinator _ _)).trans (unclaiming_noted _ nofun)
  · rw [panic_of_not_watching h]
    exact hyield.trans (unclaiming_setProcess _ _)

/-- A deed that claims nothing. -/
theorem unclaiming_perform {d : Deed σ} (h : d.Claimless) : Upholds Unclaiming (perform d) := by
  have hget : ∀ {γ : Type} (f : World σ → γ),
      Upholds (Unclaiming (σ := σ)) (do return f (← get)) :=
    fun f => upholds_bind upholds_get fun _ => upholds_pure _
  have hmodify : ∀ f : World σ → World σ, (∀ w, (f w).others = w.others) →
      (∀ w, (f w).history = w.history) → Upholds Unclaiming (modify f : StateM (World σ) PUnit) :=
    fun f hothers hhistory w => unclaiming_of_eq (hothers w) (hhistory w)
  cases d with
  | memory => exact hget _
  | remember m => exact hmodify _ (fun _ => rfl) fun _ => rfl
  | clock => exact hget _
  | elapse n => exact hmodify _ (fun _ => rfl) fun _ => rfl
  | generator => exact hget _
  | setGenerator g => exact hmodify _ (fun _ => rfl) fun _ => rfl
  | files => exact hget _
  | setFiles f => exact hmodify _ (fun _ => rfl) fun _ => rfl
  | say l => exact unclaiming_note nofun
  | coordinator => exact unclaiming_look
  | report origin f => exact unclaiming_report origin f
  | interrupt => exact unclaiming_interrupt
  | claimTeardown => exact h.elim
  | terminate => exact unclaiming_actHere .terminate nofun _
  | elsewhere a =>
      have ha : a ≠ .claimTeardown := by
        rintro rfl
        exact h
      exact upholds_bind unclaiming_yield fun _ w => unclaiming_undergo w ha

theorem unclaiming_lines (lines : List LogLine) :
    Upholds (Unclaiming (σ := σ)) (lines.forM fun line => note (.said .controller line)) := by
  induction lines with
  | nil => exact upholds_pure _
  | cons line rest ih => exact upholds_bind (unclaiming_note nofun) fun _ => ih

theorem unclaiming_stir {k : Context} (h : Stir k Deed.Claimless w u) : Unclaiming w u := by
  cases h with
  | deed h => exact unclaiming_perform h w
  | panic x => exact unclaiming_panic x w
  | yield => exact unclaiming_yield w
  | note h =>
      refine unclaiming_noted w ?_
      rintro rfl
      cases h
  | bind => exact unclaiming_setCoordinator w _
  | record r => exact unclaiming_setCoordinator w _
  | claim => exact unclaiming_setCoordinator w _
  | seed g => exact unclaiming_of_eq rfl rfl
  | write text h =>
      rw [run_writeText]
      split
      · exact unclaiming_of_eq rfl rfl
      · exact .refl w
  | directory i =>
      rw [onFiles_world]
      let j := ((k.output.createIteration i).run.run { files := w.files }).2
      have hfiles : Unclaiming w { w with files := j.files } := unclaiming_of_eq rfl rfl
      exact hfiles.trans (unclaiming_lines j.lines _)

theorem unclaiming_strides {k : Context} (h : Strides k Deed.Claimless w u) : Unclaiming w u := by
  induction h with
  | refl => exact .refl w
  | tail _ hstride ih =>
      refine ih.trans ?_
      cases hstride with
      | stir h => exact unclaiming_stir h
      | release => exact unclaiming_setCoordinator _ _
      | handler x => exact unclaiming_setProcess _ _

end Unclaiming

end World

/-- Where neither a collaborator nor another thread claims the teardown, only the controller
does. -/
theorem Controller.unclaimed_run {s : Session σ} (hc : s.controller.Confined Deed.Claimless)
    (hw : s.world.Claimless) : World.Unclaimed (runHistory s) := by
  obtain ⟨l, hl, hunclaimed⟩ := (World.unclaiming_strides (strides_run s hc)).past hw
  rw [runHistory, hl, List.drop_left]
  exact hunclaimed

/-! ## The simulation of commuters -/

section Programs

variable {P : Deed σ → Prop} {Q : α → Prop} {R : β → Prop}

theorem Program.confined_bind {p : Program σ ε α} {f : α → Program σ ε β} (h : p.Confined P Q)
    (h' : ∀ a, Q a → (f a).Confined P R) : (p.bind f).Confined P R := by
  induction p with
  | done a => exact h' a h
  | fail e => trivial
  | panic x => trivial
  | act d next ih => exact ⟨h.1, fun answer => ih answer (h.2 answer)⟩

theorem Program.restrained_bind {p : Program σ ε α} {f : α → Program σ ε β} (h : p.Restrained P)
    (h' : ∀ a, (f a).Confined P R) : (p.bind f).Confined P R :=
  confined_bind h fun a _ => h' a

end Programs

section Claimless

variable {part : Part σ CommuteMemory}

theorem claimless_say (level : LogLevel) (message : String) :
    (Program.say level message : Program σ ε Unit).Restrained Deed.Claimless :=
  ⟨trivial, fun _ => trivial⟩

theorem claimless_flag : (Program.flag : Program σ ε Bool).Restrained Deed.Claimless :=
  ⟨trivial, fun _ => trivial⟩

theorem claimless_memoryOf : (Program.memoryOf (ε := ε) part).Restrained Deed.Claimless :=
  ⟨trivial, fun _ => trivial⟩

theorem claimless_draw (f : Generator → α × Generator) :
    (Program.draw f : Program σ ε α).Restrained Deed.Claimless :=
  ⟨trivial, fun _ => ⟨trivial, fun _ => trivial⟩⟩

theorem claimless_memorize (f : σ → σ) :
    (Program.memorize f : Program σ ε Unit).Restrained Deed.Claimless :=
  ⟨trivial, fun _ => ⟨trivial, fun _ => trivial⟩⟩

theorem claimless_drawPopulation (f : Population → Generator → Population × Generator) :
    (Program.drawPopulation (ε := ε) part f).Restrained Deed.Claimless :=
  Program.restrained_bind claimless_memoryOf fun _ =>
    Program.restrained_bind (claimless_draw _) fun _ => claimless_memorize _

theorem claimless_write (path text : String) :
    (Scoring.write (σ := σ) path text).Restrained Deed.Claimless := by
  refine Program.restrained_bind (p := Program.writeText path text)
    ⟨trivial, fun _ => ⟨trivial, fun _ => trivial⟩⟩ fun written => ?_
  cases written with
  | ok _ => trivial
  | error reason => trivial

theorem claimless_scoring (s : Scoring σ) : s.listener.Confined Deed.Claimless := by
  intro e
  cases e with
  | scoring i =>
      refine Program.restrained_bind claimless_memoryOf fun m => ?_
      refine Program.restrained_bind (claimless_memorize _) fun _ => ?_
      refine Program.restrained_bind (claimless_say _ _) fun _ => ?_
      refine Program.restrained_bind (claimless_write _ _) fun _ => ?_
      split
      · exact claimless_write _ _
      · trivial
  | shutdown unexpected =>
      refine Program.restrained_bind claimless_memoryOf fun m => ?_
      split
      · exact claimless_say _ _
      · exact claimless_say _ _
  | _ => trivial

/-- What a worker that ends has done does not claim the teardown. -/
theorem claimless_elsewhere (name : String) (outcome : Outcome Cause Unit) :
    (Program.elsewhere (workerActs name outcome) : Program σ ε Unit).Restrained
      Deed.Claimless := by
  cases outcome with
  | ok _ => trivial
  | error a =>
      cases a with
      | failure c => exact ⟨trivial, fun _ => trivial⟩
      | panic x => exact ⟨trivial, fun _ => ⟨trivial, fun _ => trivial⟩⟩

/-- Workers do not claim the teardown. By induction on the moves. -/
theorem claimless_work (minutes : List Float) (i : IterationIndex) (schedule : Schedule) (n : Nat)
    (ws : List Worker) (arrived : Array SimulatedTrip) :
    (Mobsim.work (σ := σ) minutes i schedule n ws arrived).Restrained Deed.Claimless := by
  induction n generalizing ws arrived with
  | zero => trivial
  | succ n ih =>
      unfold Mobsim.work
      dsimp only
      split
      · trivial
      · refine Program.restrained_bind claimless_flag fun flag => ?_
        split
        · exact ih _ _
        · exact ih _ _
        · exact Program.restrained_bind (claimless_elsewhere _ _) fun _ => ih _ _

/-- The same holds where a thread is refused. -/
theorem claimless_crewWork (minutes : List Float) (i : IterationIndex) (ws : List Worker)
    (launch : Launch) :
    (Mobsim.crewWork (σ := σ) minutes i ws launch).Restrained Deed.Claimless := by
  cases launch with
  | all schedule => exact claimless_work _ _ _ _ _ _
  | refused started n schedule reason =>
      unfold Mobsim.crewWork
      dsimp only
      split
      · exact Program.restrained_bind (claimless_work _ _ _ _ _ _) fun _ => trivial
      · exact claimless_work _ _ _ _ _ _

theorem claimless_mobsim (s : PopulationSettings) (launch : Launch)
    (part : Part σ CommuteMemory) (i : IterationIndex) :
    (CommuterSimulation.mobsim s launch part i).Restrained Deed.Claimless := by
  have hrun : (Mobsim.run s launch part i).Restrained Deed.Claimless := by
    refine Program.restrained_bind claimless_memoryOf fun m => ?_
    refine Program.restrained_bind (claimless_draw _) fun deviations => ?_
    refine Program.restrained_bind (claimless_crewWork _ _ _ _) fun trips => ?_
    refine Program.restrained_bind claimless_flag fun flag => ?_
    split
    · trivial
    · refine Program.restrained_bind claimless_memoryOf fun m => ?_
      refine Program.restrained_bind (claimless_memorize _) fun _ => ?_
      exact Program.restrained_bind (claimless_say _ _) fun _ => trivial
  refine Program.restrained_bind hrun fun statistics => ?_
  split
  · refine Program.restrained_bind claimless_flag fun flag => ?_
    split
    · exact claimless_say _ _
    · trivial
  · trivial

/-- No part of the simulation of commuters claims the teardown. -/
theorem claimless_simulation (s : PopulationSettings) (launch : IterationIndex → Launch)
    (part : Part σ CommuteMemory) :
    (CommuterSimulation.simulation s launch part).Confined Deed.Claimless where
  listeners := by
    intro k l hl
    rcases List.mem_cons.mp hl with rfl | hl
    · exact fun _ => claimless_drawPopulation _
    · rw [List.mem_singleton.mp hl]
      exact claimless_scoring _
  load := fun _ => trivial
  prepare := by
    intro k
    refine Program.restrained_bind claimless_memoryOf fun m => ?_
    have hrest : (do
        Program.drawPopulation part (Population.assignRoutes s.routes.length)
        Program.say .info "initial routes assigned" : Program σ Cause Unit).Restrained
        Deed.Claimless :=
      Program.restrained_bind (claimless_drawPopulation _) fun _ => claimless_say _ _
    split
    · exact Program.restrained_bind (claimless_say _ _) fun _ => hrest
    · exact hrest
  mobsim := fun _ i => claimless_mobsim s (launch i) part i
  continues := fun _ _ => trivial

end Claimless

end CommuteSim
