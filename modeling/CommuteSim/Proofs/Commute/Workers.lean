import CommuteSim.Proofs.Commute.Sharing
import CommuteSim.Proofs.World.Aside

/-!
# What workers come to

Workers move in any order, and other threads act between their moves. While they work, the
controller's thread only waits. A worker stops early for three reasons: a shutdown was requested, it
is made to fail, or a route is unknown; in the last two cases it comes to report a fault. So if
neither a shutdown was requested nor the teardown claimed by the time when all have ended, all trips
have arrived, whatever the order of the moves was.

Main statements: `works_work` says that workers never fail as a whole, `Works.reported` that failing
ones do not go unnoticed, `Works.complete` that all trips arrive unless a shutdown is requested,
`Works.bears` what the coordinator bears if no other thread acts.
-/

namespace CommuteSim

variable {σ ε α : Type}

/-! ## Waiting -/

namespace World

/-- The controller's thread has only waited. -/
structure Waits (w u : World σ) : Prop extends Aside w u where
  files : u.files = w.files
  others : u.others = w.others

section Waits

variable {w v u : World σ}

theorem Waits.refl (w : World σ) : Waits w w := ⟨.refl w, rfl, rfl⟩

theorem Waits.trans (h : Waits w v) (h' : Waits v u) : Waits w u :=
  ⟨h.toAside.trans h'.toAside, h'.files.trans h.files, h'.others.trans h.others⟩

theorem Waits.alone (h : Waits w u) (hw : w.Alone) : u.Alone := by
  intro n
  rw [h.others]
  exact hw n

theorem Still.waits (h : Still w u) : Waits w u := ⟨h.aside, h.files, h.others⟩

theorem waits_flag (w : World σ) : Waits w (flag w).2 := (still_flag w).waits

/-- The world after other threads have acted one after the other. -/
def endure (as : List ThreadAct) (w : World σ) : World σ :=
  as.foldl (fun w a => (elsewhere a w).2) w

theorem waits_endure (as : List ThreadAct) (w : World σ) : Waits w (endure as w) := by
  induction as generalizing w with
  | nil => exact .refl w
  | cons a rest ih =>
      have hundergo : Waits (yield w).2 ((yield w).2.undergo a) :=
        ⟨⟨onward_undergo _ a, rfl, rfl⟩, rfl, rfl⟩
      exact ((still_yield w).waits.trans hundergo).trans (ih _)

/-- What the coordinator becomes when another thread reports a fault. -/
theorem coordinator_endure_report (hw : w.Present) (origin : String) (f : Fault) :
    (endure [.report origin f] w).coordinator =
      ((yield w).2.coordinator.record ⟨f, origin, (yield w).2.clock⟩).2 :=
  coordinator_update_self ((still_yield w).present hw) _

/-- A fault that is reported requests a shutdown unless the teardown is claimed. -/
theorem flag_endure_report (hw : w.Present) (origin : String) (f : Fault) :
    (endure [.report origin f] w).coordinator.flag = true ∨
      (endure [.report origin f] w).coordinator.teardown = true := by
  rw [coordinator_endure_report hw]
  exact Coordinator.flag_record _ _

end Waits

end World

/-! ## Programs that look at the flag and wait for others -/

namespace Program

theorem run_flag_bind (next : Bool → Program σ ε α) (w : World σ) :
    (Program.flag >>= next).run w = (next (World.flag w).1).run (World.flag w).2 := rfl

theorem run_elsewhere_bind (as : List ThreadAct) (p : Program σ ε α) (w : World σ) :
    (Program.elsewhere as >>= fun _ => p).run w = p.run (World.endure as w) := by
  induction as generalizing w with
  | nil => rfl
  | cons a rest ih => exact ih (World.elsewhere a w).2

/-- A failure behind a program that is only run for what it does. -/
theorem run_bind_fail {β : Type} {p : Program σ ε α} {a : α} {e : ε} {w : World σ}
    (h : (p.run w).1 = .ok a) :
    (p >>= fun _ => (Program.fail e : Program σ ε β)).run w =
      (.error (.failure e), (p.run w).2) := by
  have hrun : p.run w = (.ok a, (p.run w).2) := Prod.ext h rfl
  change (p.bind fun _ => Program.fail e).run w = _
  rw [Program.run_bind]
  dsimp only [bind, StateT.bind]
  rw [hrun]
  rfl

end Program

/-! ## What a coordinator bears -/

/-- A coordinator bears a trouble, a fault with its origin, or none: a shutdown is requested exactly
if there is one. The teardown is still to come. -/
structure Coordinator.Bears (trouble : Option (String × Fault)) (c : Coordinator) : Prop where
  flag : c.flag = trouble.isSome
  teardown : c.teardown = false
  fault : c.fault.map (fun r => (r.origin, r.fault)) = trouble

section Bears

variable {trouble : Option (String × Fault)} {c d : Coordinator}

theorem Coordinator.Bears.of_resembles (h : c.Bears trouble) (h' : c.Resembles d) :
    d.Bears trouble :=
  ⟨h'.flag.trans h.flag, h'.teardown.trans h.teardown, h'.fault ▸ h.fault⟩

/-- The first trouble that is reported is borne from then on. -/
theorem Coordinator.Bears.record (h : c.Bears trouble) (r : FaultRecord) :
    (c.record r).2.Bears (trouble.or (some (r.origin, r.fault))) := by
  have hopen := h.teardown
  have hflag := h.flag
  have hfault := h.fault
  unfold Coordinator.record Coordinator.capture Coordinator.countDiscarded
  cases hslot : c.fault with
  | none =>
      rw [hslot] at hfault
      obtain rfl : none = trouble := hfault
      constructor <;> simp [hopen]
  | some x =>
      rw [hslot] at hfault
      obtain rfl : some (x.origin, x.fault) = trouble := hfault
      constructor <;> simp [hopen]

end Bears

/-! ## Moves -/

/-- A worker is not about to fail: it is not made to, and has met no unknown route. -/
structure Worker.Well (v : Worker) : Prop where
  willing : v.sabotaged = false
  found : v.lost = none

namespace Mobsim

variable {minutes : List Float} {i : IterationIndex} {schedule : Schedule} {ws : List Worker}

/-- What a move can be. -/
inductive Moves (minutes : List Float) (i : IterationIndex) (flag : Bool) (v : Worker) :
    Move → Prop where
  | trip {t : SimulatedTrip} {task : Task} {rest : List Task} (hwell : v.Well)
      (hflag : flag = false) (htasks : v.tasks = task :: rest) (ht : trip? minutes task = some t) :
      Moves minutes i flag v (.trip t { v with tasks := rest })
  | lost {task : Task} {rest : List Task} (hwell : v.Well) (hflag : flag = false)
      (htasks : v.tasks = task :: rest) (ht : trip? minutes task = none) :
      Moves minutes i flag v (.lost { v with tasks := rest, lost := some task })
  | done (hwell : v.Well) (htasks : v.tasks = []) : Moves minutes i flag v (.ended (.ok ()))
  | stopped (hwell : v.Well) (hflag : flag = true) : Moves minutes i flag v (.ended (.ok ()))
  | sabotaged (hsick : v.sabotaged = true) :
      Moves minutes i flag v (.ended (.error (.failure (injected i))))
  | failed {task : Task} (hlost : v.lost = some task) :
      Moves minutes i flag v (.ended (.error (.failure (unknown task))))

theorem moves_move (minutes : List Float) (i : IterationIndex) (flag : Bool) (v : Worker) :
    Moves minutes i flag v (move minutes i flag v) := by
  obtain ⟨number, tasks, sabotaged, lost⟩ := v
  cases sabotaged with
  | true => exact .sabotaged rfl
  | false =>
      cases lost with
      | some task => exact .failed rfl
      | none =>
          cases tasks with
          | nil => exact .done ⟨rfl, rfl⟩ rfl
          | cons task rest =>
              cases flag with
              | true => exact .stopped ⟨rfl, rfl⟩ rfl
              | false =>
                  unfold move
                  dsimp only
                  rw [if_neg Bool.false_ne_true, if_neg Bool.false_ne_true]
                  cases hroute : minutes[task.route]? with
                  | none => exact .lost ⟨rfl, rfl⟩ rfl rfl (by rw [trip?, hroute]; rfl)
                  | some base => exact .trip ⟨rfl, rfl⟩ rfl rfl (by rw [trip?, hroute]; rfl)

/-! ## Work -/

variable {n : Nat} {arrived : Array SimulatedTrip} {w : World σ}

theorem run_work_nil :
    (work (σ := σ) minutes i schedule n [] arrived).run w = (.ok arrived, w) := by
  cases n <;> rfl

/-- The worker that is chosen looks at the flag and moves; if it ends, others learn how. -/
theorem run_work_succ {v : Worker} (h : ws[schedule n % ws.length]? = some v) :
    (work minutes i schedule (n + 1) ws arrived).run w =
      match move minutes i (World.flag w).1 v with
      | .trip t v =>
        (work minutes i schedule n (ws.set (schedule n % ws.length) v) (arrived.push t)).run
          (World.flag w).2
      | .lost v =>
        (work minutes i schedule n (ws.set (schedule n % ws.length) v) arrived).run
          (World.flag w).2
      | .ended outcome =>
        (work minutes i schedule n (ws.eraseIdx (schedule n % ws.length)) arrived).run
          (World.endure (workerActs v.name outcome) (World.flag w).2) := by
  rw [work]
  simp only [h]
  rw [Program.run_flag_bind]
  cases move minutes i (World.flag w).1 v with
  | trip t v => rfl
  | lost v => rfl
  | ended outcome => exact Program.run_elsewhere_bind _ _ _

/-- Whatever workers have done after some moves, the controller's thread has only waited. -/
theorem waits_work (schedule : Schedule) (n : Nat) (ws : List Worker)
    (arrived : Array SimulatedTrip) (w : World σ) :
    ∃ ts, ((work minutes i schedule n ws arrived).run w).1 = .ok ts ∧
      World.Waits w ((work minutes i schedule n ws arrived).run w).2 := by
  induction n generalizing ws arrived w with
  | zero => exact ⟨arrived, rfl, .refl w⟩
  | succ n ih =>
      by_cases hws : ws = []
      · subst hws
        rw [run_work_nil]
        exact ⟨arrived, rfl, .refl w⟩
      · obtain ⟨v, hv⟩ := chosen_worker (n := schedule n) hws
        have hlook := World.waits_flag w
        rw [run_work_succ hv]
        cases move minutes i (World.flag w).1 v with
        | trip t v' =>
            obtain ⟨ts, hts, hwaits⟩ := ih (ws.set (schedule n % ws.length) v') (arrived.push t)
              (World.flag w).2
            exact ⟨ts, hts, hlook.trans hwaits⟩
        | lost v' =>
            obtain ⟨ts, hts, hwaits⟩ := ih (ws.set (schedule n % ws.length) v') arrived
              (World.flag w).2
            exact ⟨ts, hts, hlook.trans hwaits⟩
        | ended outcome =>
            have hendure := World.waits_endure (workerActs v.name outcome) (World.flag w).2
            obtain ⟨ts, hts, hwaits⟩ := ih (ws.eraseIdx (schedule n % ws.length)) arrived
              (World.endure (workerActs v.name outcome) (World.flag w).2)
            exact ⟨ts, hts, (hlook.trans hendure).trans hwaits⟩

/-- Workers move one after the other, in the order that a schedule has chosen, until all have ended:
the trips `ts` have arrived then, and the world is `u`. -/
inductive Works (minutes : List Float) (i : IterationIndex) : List Worker → Array SimulatedTrip →
    World σ → Array SimulatedTrip → World σ → Prop where
  | ended (ts : Array SimulatedTrip) (w : World σ) : Works minutes i [] ts w ts w
  | trip {a b : List Worker} {v v' : Worker} {t : SimulatedTrip} {arrived ts : Array SimulatedTrip}
      {w u : World σ} (hmove : Moves minutes i (World.flag w).1 v (.trip t v'))
      (h : Works minutes i (a ++ v' :: b) (arrived.push t) (World.flag w).2 ts u) :
      Works minutes i (a ++ v :: b) arrived w ts u
  | lost {a b : List Worker} {v v' : Worker} {arrived ts : Array SimulatedTrip} {w u : World σ}
      (hmove : Moves minutes i (World.flag w).1 v (.lost v'))
      (h : Works minutes i (a ++ v' :: b) arrived (World.flag w).2 ts u) :
      Works minutes i (a ++ v :: b) arrived w ts u
  | left {a b : List Worker} {v : Worker} {outcome : Outcome Cause Unit}
      {arrived ts : Array SimulatedTrip} {w u : World σ}
      (hmove : Moves minutes i (World.flag w).1 v (.ended outcome))
      (h : Works minutes i (a ++ b) arrived
        (World.endure (workerActs v.name outcome) (World.flag w).2) ts u) :
      Works minutes i (a ++ v :: b) arrived w ts u

/-- Workers that have moves enough never fail as a whole, and move until all have ended. -/
theorem works_work (schedule : Schedule) (arrived : Array SimulatedTrip) (w : World σ)
    (hmoves : moves ws ≤ n) : ∃ ts, ((work minutes i schedule n ws arrived).run w).1 = .ok ts ∧
      Works minutes i ws arrived w ts ((work minutes i schedule n ws arrived).run w).2 := by
  induction n generalizing ws arrived w with
  | zero =>
      obtain rfl := moves_eq_zero (Nat.le_zero.mp hmoves)
      exact ⟨arrived, rfl, .ended arrived w⟩
  | succ n ih =>
      by_cases hws : ws = []
      · subst hws
        rw [run_work_nil]
        exact ⟨arrived, rfl, .ended arrived w⟩
      · obtain ⟨v, hv⟩ := chosen_worker (n := schedule n) hws
        obtain ⟨a, b, rfl, hset, herase⟩ := split_workers hv
        rw [run_work_succ hv]
        have hmove := moves_move minutes i (World.flag w).1 v
        cases hm : move minutes i (World.flag w).1 v with
        | trip t v' =>
            rw [hm] at hmove
            have htasks : v.tasks.length = v'.tasks.length + 1 := by
              cases hmove with
              | trip _ _ htasks => rw [htasks, List.length_cons]
            have hless := moves_set hv htasks
            rw [hset] at hless
            dsimp only
            rw [hset]
            obtain ⟨ts, hts, hworks⟩ := ih (arrived.push t) (World.flag w).2
              (show moves (a ++ v' :: b) ≤ n by omega)
            exact ⟨ts, hts, .trip hmove hworks⟩
        | lost v' =>
            rw [hm] at hmove
            have htasks : v.tasks.length = v'.tasks.length + 1 := by
              cases hmove with
              | lost _ _ htasks => rw [htasks, List.length_cons]
            have hless := moves_set hv htasks
            rw [hset] at hless
            dsimp only
            rw [hset]
            obtain ⟨ts, hts, hworks⟩ := ih arrived (World.flag w).2
              (show moves (a ++ v' :: b) ≤ n by omega)
            exact ⟨ts, hts, .lost hmove hworks⟩
        | ended outcome =>
            rw [hm] at hmove
            have hless := moves_eraseIdx hv
            rw [herase] at hless
            dsimp only
            rw [herase]
            obtain ⟨ts, hts, hworks⟩ := ih arrived
              (World.endure (workerActs v.name outcome) (World.flag w).2)
              (show moves (a ++ b) ≤ n by omega)
            exact ⟨ts, hts, .left hmove hworks⟩

section Works

variable {a b : List Worker} {v : Worker} {ts : Array SimulatedTrip} {u : World σ}

/-- While workers move, the controller's thread waits. -/
theorem Works.waits (h : Works minutes i ws arrived w ts u) : World.Waits w u := by
  induction h with
  | ended ts w => exact .refl w
  | trip hmove h ih => exact (World.waits_flag _).trans ih
  | lost hmove h ih => exact (World.waits_flag _).trans ih
  | left hmove h ih => exact ((World.waits_flag _).trans (World.waits_endure _ _)).trans ih

theorem mem_moved : v ∈ a ++ v :: b := List.mem_append_right a List.mem_cons_self

/-- The workers around one that has ended. -/
theorem forall_mem_erase {P : Worker → Prop} (h : ∀ x ∈ a ++ v :: b, P x) : ∀ x ∈ a ++ b, P x := by
  obtain ⟨ha, hb⟩ := List.forall_mem_append.mp h
  exact List.forall_mem_append.mpr ⟨ha, (List.forall_mem_cons.mp hb).2⟩

/-- Another worker than the one that has ended is still there. -/
theorem mem_erase_of_ne {x : Worker} (hx : x ∈ a ++ v :: b) (h : x ≠ v) : x ∈ a ++ b := by
  rcases List.mem_append.mp hx with hx | hx
  · exact List.mem_append_left b hx
  · exact List.mem_append_right a ((List.mem_cons.mp hx).resolve_left h)

/-- Another worker than the one that has moved is still there. -/
theorem mem_advance_of_ne {x v' : Worker} (hx : x ∈ a ++ v :: b) (h : x ≠ v) :
    x ∈ a ++ v' :: b := by
  rcases List.mem_append.mp (mem_erase_of_ne hx h) with hx | hx
  · exact List.mem_append_left _ hx
  · exact List.mem_append_right a (List.mem_cons_of_mem v' hx)

/-- The workers around one that has moved, and that one. -/
theorem forall_mem_advance {P : Worker → Prop} {v' : Worker} (h : ∀ x ∈ a ++ v :: b, P x)
    (hv : P v → P v') : ∀ x ∈ a ++ v' :: b, P x := by
  obtain ⟨ha, hb⟩ := List.forall_mem_append.mp h
  obtain ⟨hv', hb⟩ := List.forall_mem_cons.mp hb
  exact List.forall_mem_append.mpr ⟨ha, List.forall_mem_cons.mpr ⟨hv hv', hb⟩⟩

end Works

/-- If a worker is about to fail, then by the time when all workers have ended a shutdown was
requested or the teardown claimed: its fault is reported before it ends. By induction on the moves;
what is raised or claimed is never taken back. -/
theorem Works.reported {x : Worker} {ts : Array SimulatedTrip} {u : World σ}
    (h : Works minutes i ws arrived w ts u) (hw : w.Present) (hx : x ∈ ws) (hsick : ¬ x.Well) :
    u.coordinator.flag = true ∨ u.coordinator.teardown = true := by
  induction h with
  | ended ts w => cases hx
  | @trip a b v v' t arrived ts w u hmove h ih =>
      have hpresent := (World.still_flag w).present hw
      cases hmove with
      | trip hwell _ _ _ => exact ih hpresent (mem_advance_of_ne hx fun hv => hsick (hv ▸ hwell))
  | @lost a b v v' arrived ts w u hmove h ih =>
      have hpresent := (World.still_flag w).present hw
      cases hmove with
      | lost hwell _ _ _ => exact ih hpresent (mem_advance_of_ne hx fun hv => hsick (hv ▸ hwell))
  | @left a b v outcome arrived ts w u hmove h ih =>
      have hpresent := (World.still_flag w).present hw
      have hnext := World.waits_endure (workerActs v.name outcome) (World.flag w).2
      by_cases hv : x = v
      · -- the worker that ends is the one that fails
        subst hv
        obtain ⟨c, rfl⟩ : ∃ c, outcome = .error (.failure c) := by
          cases hmove with
          | done hwell _ => exact absurd hwell hsick
          | stopped hwell _ => exact absurd hwell hsick
          | sabotaged _ => exact ⟨_, rfl⟩
          | failed _ => exact ⟨_, rfl⟩
        have hreport := World.flag_endure_report hpresent x.name (.worker x.name c)
        exact hreport.imp h.waits.later.flag h.waits.later.teardown
      · exact ih (hnext.present hpresent) (mem_erase_of_ne hx hv)

/-- Workers that have no reason of their own to fail: none is about to, and the routes of all their
tasks are known. -/
def Sound (minutes : List Float) (ws : List Worker) : Prop :=
  ∀ v ∈ ws, v.Well ∧ ∀ t ∈ v.tasks, trip? minutes t ≠ none

section Sound

variable {a b : List Worker} {v : Worker}

theorem Sound.erase (h : Sound minutes (a ++ v :: b)) : Sound minutes (a ++ b) :=
  forall_mem_erase h

theorem Sound.advance {t : Task} {rest : List Task} (h : Sound minutes (a ++ v :: b))
    (htasks : v.tasks = t :: rest) : Sound minutes (a ++ { v with tasks := rest } :: b) :=
  forall_mem_advance h fun ⟨hwell, hknown⟩ =>
    ⟨⟨hwell.willing, hwell.found⟩, fun t' ht' => hknown t' (htasks ▸ List.mem_cons_of_mem t ht')⟩

/-- If no shutdown was requested by the end, and either the teardown was not claimed or the workers
are sound, none of them was about to fail. -/
theorem Works.well {ts : Array SimulatedTrip} {u : World σ}
    (h : Works minutes i ws arrived w ts u) (hw : w.Present) (hflag : u.coordinator.flag = false)
    (hsound : u.coordinator.teardown = false ∨ Sound minutes ws) : ∀ v ∈ ws, v.Well := by
  intro v hv
  rcases hsound with hopen | hsound
  · refine Classical.byContradiction fun hsick => ?_
    rcases h.reported hw hv hsick with hup | hclaimed
    · exact Bool.false_ne_true (hflag.symm.trans hup)
    · exact Bool.false_ne_true (hopen.symm.trans hclaimed)
  · exact (hsound v hv).1

end Sound

/-- All trips of workers have arrived behind those that had arrived before, in some order. -/
def AllArrived (minutes : List Float) (ws : List Worker) (arrived ts : Array SimulatedTrip) :
    Prop :=
  ∃ trips : List SimulatedTrip, (ws.flatMap Worker.tasks).map (trip? minutes) = trips.map some ∧
    ts.toList.Perm (arrived.toList ++ trips)

section Complete

variable {a b : List Worker} {v : Worker} {ts : Array SimulatedTrip} {u : World σ}

theorem AllArrived.of_trip {t : SimulatedTrip} {task : Task} {rest : List Task}
    (h : AllArrived minutes (a ++ { v with tasks := rest } :: b) (arrived.push t) ts)
    (htasks : v.tasks = task :: rest) (ht : trip? minutes task = some t) :
    AllArrived minutes (a ++ v :: b) arrived ts := by
  obtain ⟨trips, htrips, hperm⟩ := h
  rw [List.flatMap_append, List.flatMap_cons, List.map_append, List.map_append] at htrips
  obtain ⟨before, after, rfl, hbefore, hafter⟩ := List.map_eq_append_iff.mp htrips.symm
  refine ⟨before ++ t :: after, ?_, hperm.trans ?_⟩
  · rw [List.flatMap_append, List.flatMap_cons, htasks, List.cons_append, List.map_append,
      List.map_cons, List.map_append, ht, ← hafter, ← hbefore, List.map_append, List.map_cons]
  · rw [Array.toList_push, List.append_assoc, List.singleton_append]
    exact List.Perm.append_left _ List.perm_middle.symm

theorem AllArrived.of_done (h : AllArrived minutes (a ++ b) arrived ts) (htasks : v.tasks = []) :
    AllArrived minutes (a ++ v :: b) arrived ts := by
  rw [AllArrived, List.flatMap_append] at h ⊢
  rwa [List.flatMap_cons, htasks, List.nil_append]

/-- If no shutdown was requested by the time when all workers have ended, and either the teardown
was not claimed or the workers are sound, all trips have arrived. By induction on the moves; a
worker that is about to fail would be noticed by the end. -/
theorem Works.complete (h : Works minutes i ws arrived w ts u) (hw : w.Present)
    (hflag : u.coordinator.flag = false)
    (hsound : u.coordinator.teardown = false ∨ Sound minutes ws) :
    AllArrived minutes ws arrived ts := by
  induction h with
  | ended ts w => exact ⟨[], rfl, by simp⟩
  | trip hmove h ih =>
      have hpresent := (World.still_flag _).present hw
      cases hmove with
      | trip hwell hdown htasks ht =>
          exact (ih hpresent hflag (hsound.imp_right (·.advance htasks))).of_trip htasks ht
  | lost hmove h ih =>
      have hpresent := (World.still_flag _).present hw
      cases hmove with
      | @lost task rest hwell hdown htasks ht =>
          rcases hsound with hopen | hsound
          · have hnow := h.well hpresent hflag (.inl hopen) _ mem_moved
            cases hnow.found
          · exact absurd ht ((hsound _ mem_moved).2 task (htasks ▸ List.mem_cons_self))
  | @left a b v _ arrived ts w u hmove h ih =>
      have hpresent := (World.still_flag w).present hw
      have hwell := (Works.left hmove h).well hw hflag hsound v mem_moved
      cases hmove with
      | done _ htasks =>
          exact (ih hpresent hflag (hsound.imp_right Sound.erase)).of_done htasks
      | stopped _ hup =>
          have hseen : (World.flag w).2.coordinator.flag = true := hup
          exact absurd (hflag.symm.trans (h.waits.later.flag hseen)) Bool.false_ne_true
      | sabotaged hsick => exact absurd (hwell.willing.symm.trans hsick) Bool.false_ne_true
      | failed hlost => cases hwell.found.symm.trans hlost

end Complete

/-! ## Undisturbed work -/

/-- A worker knows the routes of all its tasks, and has this name if it is made to fail. -/
structure Ready (minutes : List Float) (name : String) (v : Worker) : Prop where
  found : v.lost = none
  known : ∀ t ∈ v.tasks, trip? minutes t ≠ none
  name : v.sabotaged = true → v.name = name

/-- Workers that are all ready. -/
def Prepared (minutes : List Float) (name : String) (ws : List Worker) : Prop :=
  ∀ v ∈ ws, Ready minutes name v

/-- The trouble that workers come to if they are not disturbed: the failure of one that is made to
fail. -/
def injury (name : String) (i : IterationIndex) (ws : List Worker) : Option (String × Fault) :=
  if ws.any Worker.sabotaged then some (name, .worker name (injected i)) else none

section Undisturbed

variable {name : String} {trouble : Option (String × Fault)} {a b : List Worker} {v : Worker}

theorem Prepared.erase (h : Prepared minutes name (a ++ v :: b)) :
    Prepared minutes name (a ++ b) :=
  forall_mem_erase h

theorem Prepared.advance {t : Task} {rest : List Task}
    (h : Prepared minutes name (a ++ v :: b)) (htasks : v.tasks = t :: rest) :
    Prepared minutes name (a ++ { v with tasks := rest } :: b) :=
  forall_mem_advance h fun hv =>
    ⟨hv.found, fun t' ht' => hv.known t' (htasks ▸ List.mem_cons_of_mem t ht'), hv.name⟩

theorem any_sabotaged (a b : List Worker) (v : Worker) : (a ++ v :: b).any Worker.sabotaged =
    (v.sabotaged || (a ++ b).any Worker.sabotaged) := by
  rw [List.any_append, List.any_cons, List.any_append, Bool.or_left_comm]

theorem injury_of_well (h : v.sabotaged = false) (name : String) (i : IterationIndex) :
    injury name i (a ++ v :: b) = injury name i (a ++ b) := by
  rw [injury, any_sabotaged, h, Bool.false_or, injury]

theorem injury_of_sabotaged (h : v.sabotaged = true) (name : String) (i : IterationIndex) :
    injury name i (a ++ v :: b) = some (name, .worker name (injected i)) := by
  rw [injury, any_sabotaged, h, Bool.true_or, if_pos rfl]

/-- A fault that is reported while no other thread acts is borne, unless there was one before. -/
theorem bears_endure_report {u : World σ} (hu : u.Present) (halone : u.Alone)
    (hbears : u.coordinator.Bears trouble) (origin : String) (f : Fault) :
    (World.endure [.report origin f] u).coordinator.Bears (trouble.or (some (origin, f))) := by
  have hyield := World.still_yield u
  rw [World.coordinator_endure_report hu]
  exact (hbears.of_resembles (hyield.resembles halone)).record
    ⟨f, origin, (World.yield u).2.clock⟩

/-- Where no other thread acts, the coordinator bears in the end what it bore before, or else the
failure of a worker that was made to fail. By induction on the moves. -/
theorem Works.bears {ts : Array SimulatedTrip} {u : World σ}
    (h : Works minutes i ws arrived w ts u) (hw : w.Present) (halone : w.Alone)
    (hbears : w.coordinator.Bears trouble) (hready : Prepared minutes name ws) :
    u.coordinator.Bears (trouble.or (injury name i ws)) := by
  induction h generalizing trouble with
  | ended ts w => simpa [injury] using hbears
  | @trip a b v v' t arrived ts w u hmove h ih =>
      have hlook := World.still_flag w
      have hbears' := hbears.of_resembles (hlook.resembles halone)
      cases hmove with
      | @trip t task rest hwell hdown htasks ht =>
          have hend := ih (hlook.present hw) (hlook.alone halone) hbears' (hready.advance htasks)
          rwa [injury_of_well (v := { v with tasks := rest }) hwell.willing,
            ← injury_of_well hwell.willing] at hend
  | @lost a b v v' arrived ts w u hmove h ih =>
      cases hmove with
      | @lost task rest hwell hdown htasks ht =>
          exact absurd ht ((hready v mem_moved).known task (htasks ▸ List.mem_cons_self))
  | @left a b v outcome arrived ts w u hmove h ih =>
      have hlook := World.still_flag w
      have hpresent := hlook.present hw
      have halone' := hlook.alone halone
      have hbears' := hbears.of_resembles (hlook.resembles halone)
      cases hmove with
      | done hwell htasks =>
          rw [injury_of_well hwell.willing]
          exact ih hpresent halone' hbears' hready.erase
      | stopped hwell hup =>
          rw [injury_of_well hwell.willing]
          exact ih hpresent halone' hbears' hready.erase
      | sabotaged hsick =>
          let report : ThreadAct := .report v.name (.worker v.name (injected i))
          have hwaits := World.waits_endure [report] (World.flag w).2
          have hreport := bears_endure_report hpresent halone' hbears' v.name
            (.worker v.name (injected i))
          have hend := ih (hwaits.present hpresent) (hwaits.alone halone') hreport hready.erase
          -- what is reported later is not the first trouble any more
          have hfirst : ∀ (x : String × Fault) (y : Option (String × Fault)),
              (trouble.or (some x)).or y = trouble.or (some x) := by
            intro x y
            cases trouble <;> rfl
          rw [hfirst, (hready v mem_moved).name hsick] at hend
          rw [injury_of_sabotaged hsick]
          exact hend
      | failed hlost => cases (hready v mem_moved).found.symm.trans hlost

end Undisturbed

end Mobsim

end CommuteSim
