import CommuteSim.Commute.Simulation
import CommuteSim.Proofs.Commute.Workers

/-!
# What a mobsim comes to

A mobsim stores the trips of all commuters or none. If neither a shutdown was requested nor the
teardown claimed by its end, and it has not failed because a thread was refused, every commuter has
made its trip of the iteration, on a route that is known; which worker simulated which trip, and
when, leaves no trace in the population.

Main statements: `travels_run` for a mobsim among other threads, and `run_alone` for one that no
other thread disturbs.
-/

namespace CommuteSim

variable {σ : Type}

namespace Mobsim

/-! ## Trips of an iteration -/

/-- The travel times on all routes under the loads of a population. -/
def minutes (s : PopulationSettings) (p : Population) : List Float :=
  s.routes.zipWith Route.travelTime (p.loads s.routes.length)

/-- The deviations of all trips, and the generator after they are drawn. -/
def deviations (p : Population) (g : Generator) : List Float × Generator :=
  Generator.many deviation p.length g

/-- The population once all commuters have made the trips of an iteration that finds this
generator. -/
def simulated (s : PopulationSettings) (i : IterationIndex) (p : Population) (g : Generator) :
    Population :=
  travelled (minutes s p) i p (deviations p g).1

section Pure

variable {s : PopulationSettings} {i : IterationIndex} {p : Population} {g : Generator}

theorem length_many {α : Type} (draw : Generator → α × Generator) (n : Nat) (g : Generator) :
    (Generator.many draw n g).1.length = n := by
  induction n generalizing g with
  | zero => rfl
  | succ n ih => exact congrArg Nat.succ (ih _)

theorem length_deviations (p : Population) (g : Generator) : (deviations p g).1.length = p.length :=
  length_many _ _ _

theorem length_minutes (s : PopulationSettings) (p : Population) :
    (minutes s p).length = s.routes.length := by
  simp [minutes, Population.loads]

theorem length_travelled (ms : List Float) (ds : List Float) (hds : ds.length = p.length) :
    (travelled ms i p ds).length = p.length := by
  simp [travelled, hds]

/-- Routes and scores are as before the trips. -/
theorem map_travelled {β : Type} (f : Commuter → β) (hf : ∀ c t, f { c with trip := t } = f c)
    (ms ds : List Float) (hds : ds.length = p.length) :
    (travelled ms i p ds).map f = p.map f := by
  induction p generalizing ds with
  | nil => rfl
  | cons c rest ih =>
      cases ds with
      | nil => cases hds
      | cons x ds =>
          have hrest := ih ds (Nat.succ.inj hds)
          unfold travelled at hrest ⊢
          rw [List.zipWith_cons_cons, List.map_cons, List.map_cons, hf, hrest]

/-- A commuter whose route is known has made its trip of the iteration. -/
theorem trip_travelled {ms ds : List Float} (hds : ds.length = p.length)
    (hknown : ∀ c ∈ p, c.route < ms.length) :
    ∀ c ∈ travelled ms i p ds, ∃ t, c.trip = some t ∧ t.iteration = i := by
  induction p generalizing ds with
  | nil => exact fun c hc => nomatch hc
  | cons c rest ih =>
      cases ds with
      | nil => cases hds
      | cons x ds =>
          intro d hd
          rw [travelled, List.zipWith_cons_cons] at hd
          rcases List.mem_cons.mp hd with rfl | hd
          · have hroute := hknown c List.mem_cons_self
            exact ⟨⟨i, ms[c.route] * (1.0 + x)⟩, by simp [hroute], rfl⟩
          · exact ih (Nat.succ.inj hds) (fun c hc => hknown c (List.mem_cons_of_mem _ hc)) d hd

/-- Tasks of commuters on known routes come to trips, and only those. -/
theorem trips_iff {ms ds : List Float} {k : Nat} (hds : ds.length = p.length) :
    (∃ trips : List SimulatedTrip,
      (tasksFrom k p ds).map (trip? ms) = trips.map some) ↔ ∀ c ∈ p, c.route < ms.length := by
  induction p generalizing ds k with
  | nil =>
      constructor
      · exact fun _ c hc => nomatch hc
      · exact fun _ => ⟨[], rfl⟩
  | cons c rest ih =>
      cases ds with
      | nil => cases hds
      | cons x ds =>
          have hlength : ds.length = rest.length := Nat.succ.inj hds
          have hrest := ih (k := k + 1) hlength
          constructor
          · rintro ⟨trips, htrips⟩ d hd
            obtain ⟨base, others, hbase, -, hothers⟩ := trips_cons htrips
            rcases List.mem_cons.mp hd with rfl | hd
            · exact (List.getElem?_eq_some_iff.mp hbase).1
            · exact hrest.mp ⟨others, hothers⟩ d hd
          · intro hknown
            obtain ⟨others, hothers⟩ := hrest.mpr fun d hd => hknown d (List.mem_cons_of_mem _ hd)
            have hroute := hknown c List.mem_cons_self
            refine ⟨⟨k, ms[c.route] * (1.0 + x)⟩ :: others, ?_⟩
            rw [tasksFrom_cons, List.map_cons, List.map_cons, hothers]
            simp [trip?, hroute]

/-- The trips of all commuters, in whatever order they arrive, make the population that all
commuters have travelled in. -/
theorem storeAll_inOrder {ms ds : List Float} {arrived : List SimulatedTrip}
    {trips : List SimulatedTrip} (hds : ds.length = p.length)
    (htrips : (tasks (choices p) ds).map (trip? ms) = trips.map some) (h : arrived.Perm trips) :
    storeAll i (inOrder arrived) p = travelled ms i p ds := by
  rw [inOrder_of_perm (pairwise_trips hds htrips).1 h]
  exact storeAll_trips hds htrips

end Pure

/-! ## The mobsim as a program -/

section Run

variable {s : PopulationSettings} {launch : Launch} {part : Part σ CommuteMemory}
  {i : IterationIndex} {w : World σ}

/-- The population that a mobsim finds. -/
def found (part : Part σ CommuteMemory) (w : World σ) : Population := (part.get w.memory).population

/-- The workers of a mobsim. -/
def crew (s : PopulationSettings) (i : IterationIndex) (p : Population) (g : Generator) :
    List Worker :=
  workers s i (choices p) (deviations p g).1

/-- The world in which the workers of a mobsim begin. -/
def drawn (part : Part σ CommuteMemory) (w : World σ) : World σ :=
  { w with generator := (deviations (found part w) w.generator).2 }

/-- What the workers of a mobsim come to. -/
def worked (s : PopulationSettings) (launch : Launch) (part : Part σ CommuteMemory)
    (i : IterationIndex) (w : World σ) : Outcome Cause (Array SimulatedTrip) × World σ :=
  let p := found part w
  (crewWork (minutes s p) i (crew s i p w.generator) launch).run (drawn part w)

/-- A memory with another population. -/
def repopulated (part : Part σ CommuteMemory) (p : Population) (m : σ) : σ :=
  part.set { part.get m with population := p } m

/-- The world once the trips of a mobsim are stored. -/
def stored (part : Part σ CommuteMemory) (i : IterationIndex) (ts : Array SimulatedTrip)
    (w : World σ) : World σ :=
  let p := storeAll i (inOrder ts.toList) (found part w)
  { w with memory := repopulated part p w.memory }.noted
    (.said .collaborator ⟨.info, "mobsim finished"⟩)

/-- What a mobsim counts if it stores no trips. -/
def idle (s : PopulationSettings) (i : IterationIndex) (p : Population) : MobsimStatistics :=
  { iteration := i, loads := p.loads s.routes.length, meanMinutes := 0.0, trips := 0 }

/-- What a mobsim counts if it stores trips. -/
def tally (s : PopulationSettings) (i : IterationIndex) (p : Population)
    (trips : List SimulatedTrip) : MobsimStatistics :=
  { iteration := i, loads := p.loads s.routes.length, meanMinutes := mean trips,
    trips := trips.length }

/-- What a mobsim does with the trips of its workers: it looks at the flag, and stores all or
none. -/
def finish (s : PopulationSettings) (part : Part σ CommuteMemory) (i : IterationIndex)
    (p : Population) (arrived : Array SimulatedTrip) : Program σ Cause MobsimStatistics := do
  if ← Program.flag then return idle s i p
  let trips := inOrder arrived.toList
  let q := (← Program.memoryOf part).population
  Program.setPopulation part (storeAll i trips q)
  Program.say .info "mobsim finished"
  return { tally s i p trips with trips := arrived.size }

/-- A mobsim draws, lets its workers work, and does with their trips what it does, unless a thread
was refused. -/
theorem run_worked (s : PopulationSettings) (launch : Launch) (part : Part σ CommuteMemory)
    (i : IterationIndex) (w : World σ) :
    (run s launch part i).run w =
      match worked s launch part i w with
      | (.ok ts, u) => (finish s part i (found part w) ts).run u
      | (.error e, u) => (.error e, u) := by
  let p := found part w
  have hrun : (run s launch part i).run w =
      ((crewWork (minutes s p) i (crew s i p w.generator) launch).bind (finish s part i p)).run
        (drawn part w) := rfl
  rw [hrun, Program.run_bind]
  unfold worked
  dsimp only [bind, StateT.bind]
  cases (crewWork (minutes s p) i (crew s i p w.generator) launch).run (drawn part w) with
  | mk result u => cases result <;> rfl

/-- A mobsim whose workers have all ended stores all trips or none. -/
theorem run_eq {ts : Array SimulatedTrip} (h : (worked s launch part i w).1 = .ok ts) :
    (run s launch part i).run w =
      if (World.flag (worked s launch part i w).2).1 then
        (.ok (idle s i (found part w)), (World.flag (worked s launch part i w).2).2)
      else
        (.ok (tally s i (found part w) (inOrder ts.toList)),
          stored part i ts (World.flag (worked s launch part i w).2).2) := by
  have hworked : worked s launch part i w = (.ok ts, (worked s launch part i w).2) := Prod.ext h rfl
  rw [run_worked, hworked]
  dsimp only
  rw [finish, Program.run_flag_bind]
  cases (World.flag (worked s launch part i w).2).1 with
  | true => rfl
  | false =>
      have hsize : (inOrder ts.toList).length = ts.size := List.length_mergeSort ts.toList
      rw [tally, hsize]
      rfl

/-- A mobsim that was refused a thread stores nothing. -/
theorem run_refused {e : Abort Cause} (h : (worked s launch part i w).1 = .error e) :
    (run s launch part i).run w = (.error e, (worked s launch part i w).2) := by
  have hworked : worked s launch part i w = (.error e, (worked s launch part i w).2) :=
    Prod.ext h rfl
  rw [run_worked, hworked]

/-- The world that a mobsim leaves whose workers have all ended. -/
theorem run_world {ts : Array SimulatedTrip} (h : (worked s launch part i w).1 = .ok ts) :
    ∃ statistics, (run s launch part i).run w = (.ok statistics,
      if (World.flag (worked s launch part i w).2).1 then
        (World.flag (worked s launch part i w).2).2
      else stored part i ts (World.flag (worked s launch part i w).2).2) := by
  rw [run_eq h]
  cases (World.flag (worked s launch part i w).2).1 with
  | true => exact ⟨_, rfl⟩
  | false => exact ⟨_, rfl⟩

/-- What the launch of workers comes to: all have ended, or one was refused its thread. -/
inductive Worked (s : PopulationSettings) (part : Part σ CommuteMemory) (i : IterationIndex)
    (w : World σ) : Outcome Cause (Array SimulatedTrip) → World σ → Prop where
  | ended {ts : Array SimulatedTrip} {u : World σ}
      (h : Works (minutes s (found part w)) i (crew s i (found part w) w.generator) #[]
        (drawn part w) ts u) : Worked s part i w (.ok ts) u
  | refused {u : World σ} (reason : String) (h : World.Waits (drawn part w) u) :
      Worked s part i w (.error (.failure (refusal reason))) u

theorem worked_worked (s : PopulationSettings) (launch : Launch) (part : Part σ CommuteMemory)
    (i : IterationIndex) (w : World σ) :
    Worked s part i w (worked s launch part i w).1 (worked s launch part i w).2 := by
  let p := found part w
  let ws := crew s i p w.generator
  have hall : ∀ schedule, Worked s part i w
      ((work (minutes s p) i schedule (moves ws) ws #[]).run (drawn part w)).1
      ((work (minutes s p) i schedule (moves ws) ws #[]).run (drawn part w)).2 := by
    intro schedule
    obtain ⟨ts, hts, hworks⟩ := works_work schedule #[] (drawn part w) (Nat.le_refl (moves ws))
    rw [hts]
    exact .ended hworks
  cases launch with
  | all schedule => exact hall schedule
  | refused started n schedule reason =>
      unfold worked
      dsimp only [crewWork]
      split
      · let begun := work (σ := σ) (minutes s p) i schedule n (ws.take started) #[]
        obtain ⟨ts, hts, hwaits⟩ : ∃ ts, (begun.run (drawn part w)).1 = .ok ts ∧
            World.Waits (drawn part w) (begun.run (drawn part w)).2 := waits_work ..
        rw [Program.run_bind_fail hts]
        exact .refused reason hwaits
      · exact hall schedule

/-- If all workers get their threads, they move until all have ended. -/
theorem works_worked (s : PopulationSettings) (schedule : Schedule) (part : Part σ CommuteMemory)
    (i : IterationIndex) (w : World σ) :
    ∃ ts, (worked s (.all schedule) part i w).1 = .ok ts ∧
      Works (minutes s (found part w)) i (crew s i (found part w) w.generator) #[] (drawn part w) ts
        (worked s (.all schedule) part i w).2 :=
  works_work schedule #[] (drawn part w) (Nat.le_refl _)

/-- While workers work, the controller's thread waits. -/
theorem Worked.waits {result : Outcome Cause (Array SimulatedTrip)} {u : World σ}
    (h : Worked s part i w result u) : World.Waits (drawn part w) u := by
  cases h with
  | ended hworks => exact hworks.waits
  | refused _ hwaits => exact hwaits

theorem waits_worked (s : PopulationSettings) (launch : Launch) (part : Part σ CommuteMemory)
    (i : IterationIndex) (w : World σ) :
    World.Waits (drawn part w) (World.flag (worked s launch part i w).2).2 :=
  (worked_worked s launch part i w).waits.trans (World.waits_flag _)

/-- Where the trips of all commuters have arrived, what is stored is the population that all
commuters have travelled in. -/
theorem memory_stored {ts : Array SimulatedTrip} {trips : List SimulatedTrip} {u : World σ}
    (hu : World.Waits (drawn part w) u)
    (htrips : (tasks (choices (found part w)) (deviations (found part w) w.generator).1).map
      (trip? (minutes s (found part w))) = trips.map some)
    (hperm : ts.toList.Perm trips) :
    (stored part i ts u).memory =
      repopulated part (simulated s i (found part w) w.generator) w.memory := by
  have hmemory : u.memory = w.memory := hu.memory
  have hfound : found part u = found part w := by rw [found, hmemory, found]
  have hstored : storeAll i (inOrder ts.toList) (found part u) =
      simulated s i (found part w) w.generator := by
    rw [hfound]
    exact storeAll_inOrder (length_deviations _ _) htrips hperm
  have hafter : (stored part i ts u).memory =
      repopulated part (storeAll i (inOrder ts.toList) (found part u)) u.memory := rfl
  rw [hafter, hstored, hmemory]

/-- If no shutdown was requested by the time when all workers have ended, and either the teardown
was not claimed or the workers are sound, the trips of all commuters have arrived in some order. -/
theorem trips_worked {ts : Array SimulatedTrip} (hw : w.Present)
    (hts : (worked s launch part i w).1 = .ok ts)
    (hflag : (World.flag (worked s launch part i w).2).1 = false)
    (hsound : (World.flag (worked s launch part i w).2).2.coordinator.teardown = false ∨
      Sound (minutes s (found part w)) (crew s i (found part w) w.generator)) :
    ∃ trips : List SimulatedTrip,
      (tasks (choices (found part w)) (deviations (found part w) w.generator).1).map
        (trip? (minutes s (found part w))) = trips.map some ∧ ts.toList.Perm trips := by
  have hlook := World.still_flag (worked s launch part i w).2
  -- what holds at the end held when the last worker had ended
  have hflag' : (worked s launch part i w).2.coordinator.flag = false :=
    Bool.eq_false_iff.mpr fun h => Bool.false_ne_true (hflag.symm.trans (hlook.later.flag h))
  have hsound' := hsound.imp_left fun hopen => Bool.eq_false_iff.mpr fun h =>
    Bool.false_ne_true (hopen.symm.trans (hlook.later.teardown h))
  have hworked := worked_worked s launch part i w
  rw [hts] at hworked
  cases hworked with
  | ended hworks =>
      obtain ⟨trips, htrips, hperm⟩ := hworks.complete hw hflag' hsound'
      rw [crew, tasks_workers] at htrips
      rw [Array.toList_empty, List.nil_append] at hperm
      exact ⟨trips, htrips, hperm⟩

/-- A mobsim that has not failed has waited for all its workers. -/
theorem worked_of_run {statistics : MobsimStatistics}
    (h : ((run s launch part i).run w).1 = .ok statistics) :
    ∃ ts, (worked s launch part i w).1 = .ok ts := by
  cases hworked : (worked s launch part i w).1 with
  | ok ts => exact ⟨ts, rfl⟩
  | error e =>
      rw [run_refused hworked] at h
      cases h

/-- If a mobsim has not failed, and neither was a shutdown requested nor the teardown claimed by its
end, all routes were known, and all commuters have travelled. -/
theorem travels_run {statistics : MobsimStatistics} (hw : w.Present)
    (h : ((run s launch part i).run w).1 = .ok statistics)
    (hflag : ((run s launch part i).run w).2.coordinator.flag = false)
    (hopen : ((run s launch part i).run w).2.coordinator.teardown = false) :
    (∀ c ∈ found part w, c.route < s.routes.length) ∧
      ((run s launch part i).run w).2.memory =
        repopulated part (simulated s i (found part w) w.generator) w.memory := by
  obtain ⟨ts, hts⟩ := worked_of_run h
  have hwaits := waits_worked s launch part i w
  obtain ⟨statistics, hrun⟩ := run_world hts
  rw [hrun] at hflag hopen ⊢
  dsimp only at hflag hopen ⊢
  cases hlook : (World.flag (worked s launch part i w).2).1 with
  | true =>
      rw [hlook, if_pos rfl] at hflag
      exact absurd (hflag.symm.trans hlook) Bool.false_ne_true
  | false =>
      rw [hlook, if_neg Bool.false_ne_true] at hopen
      rw [if_neg Bool.false_ne_true]
      obtain ⟨trips, htrips, hperm⟩ := trips_worked hw hts hlook (.inl hopen)
      refine ⟨?_, memory_stored hwaits htrips hperm⟩
      rw [← length_minutes s (found part w)]
      exact (trips_iff (length_deviations _ _)).mp ⟨trips, htrips⟩

/-- Whether the first worker of a mobsim is made to fail. Without commuters there is none. -/
def Fails (s : PopulationSettings) (i : IterationIndex) (p : Population) : Prop :=
  p ≠ [] ∧ s.failMobsimAt = some i

instance : Decidable (Fails s i p) := inferInstanceAs (Decidable (_ ∧ _))

/-- The trouble that a mobsim comes to if no other thread disturbs it: the failure of its first
worker, if that is made to fail. -/
def trouble (s : PopulationSettings) (i : IterationIndex) (p : Population) :
    Option (String × Fault) :=
  if Fails s i p then some ("mobsim-worker-0", .worker "mobsim-worker-0" (injected i)) else none

/-- The memory after a mobsim that no other thread disturbs. -/
def after (s : PopulationSettings) (i : IterationIndex) (g : Generator) (m : CommuteMemory) :
    CommuteMemory :=
  if Fails s i m.population then m
  else { m with population := simulated s i m.population g }

theorem any_sabotaged_crew (s : PopulationSettings) (i : IterationIndex) (p : Population)
    (g : Generator) : (crew s i p g).any Worker.sabotaged = decide (Fails s i p) := by
  have htasks : tasks (choices p) (deviations p g).1 ≠ [] ↔ p ≠ [] := by
    have hlength : (tasks (choices p) (deviations p g).1).length = p.length := by
      simp [tasks, choices, length_deviations]
    rw [← List.length_pos_iff, ← List.length_pos_iff, hlength]
  rw [crew, any_sabotaged_workers]
  exact decide_eq_decide.mpr (and_congr_left' htasks)

theorem injury_crew (s : PopulationSettings) (i : IterationIndex) (p : Population) (g : Generator) :
    injury "mobsim-worker-0" i (crew s i p g) = trouble s i p := by
  rw [injury, any_sabotaged_crew, trouble]
  simp only [decide_eq_true_eq]

/-- If all routes are known, all tasks of workers come to trips. -/
theorem known_crew {p : Population} {g : Generator} (hknown : ∀ c ∈ p, c.route < s.routes.length)
    {v : Worker} (hv : v ∈ crew s i p g) : ∀ t ∈ v.tasks, trip? (minutes s p) t ≠ none := by
  intro t ht hnone
  rw [← length_minutes s p] at hknown
  obtain ⟨trips, htrips⟩ := (trips_iff (k := 0) (length_deviations p g)).mpr hknown
  have hmem : t ∈ (crew s i p g).flatMap Worker.tasks := List.mem_flatMap.mpr ⟨v, hv, ht⟩
  rw [crew, tasks_workers] at hmem
  have hsome := List.mem_map_of_mem (f := trip? (minutes s p)) hmem
  rw [tasks_eq, htrips, hnone] at hsome
  obtain ⟨x, -, hx⟩ := List.mem_map.mp hsome
  cases hx

/-- If all routes are known, the workers are prepared. -/
theorem prepared_crew {p : Population} {g : Generator}
    (hknown : ∀ c ∈ p, c.route < s.routes.length) :
    Prepared (minutes s p) "mobsim-worker-0" (crew s i p g) := by
  intro v hv
  refine ⟨lost_workers hv, known_crew hknown hv, fun hsick => ?_⟩
  rw [Worker.name, (sabotaged_workers hv hsick).1]
  rfl

/-- If all routes are known and no worker is made to fail, the workers are sound. -/
theorem sound_crew {p : Population} {g : Generator}
    (hknown : ∀ c ∈ p, c.route < s.routes.length) (hwell : ¬ Fails s i p) :
    Sound (minutes s p) (crew s i p g) := by
  intro v hv
  have hany := any_sabotaged_crew s i p g
  rw [decide_eq_false hwell, List.any_eq_false] at hany
  exact ⟨⟨Bool.eq_false_iff.mpr (hany v hv), lost_workers hv⟩, known_crew hknown hv⟩

/-- What the workers come to if no other thread disturbs them and all routes are known. -/
theorem bears_worked (schedule : Schedule) (i : IterationIndex) (hw : w.Present) (halone : w.Alone)
    (hbears : w.coordinator.Bears none)
    (hknown : ∀ c ∈ found part w, c.route < s.routes.length) :
    (World.flag (worked s (.all schedule) part i w).2).2.coordinator.Bears
      (trouble s i (found part w)) := by
  obtain ⟨ts, -, hworks⟩ := works_worked s schedule part i w
  have hbears' := hworks.bears hw halone hbears (prepared_crew hknown)
  rw [injury_crew] at hbears'
  have hlook := World.still_flag (worked s (.all schedule) part i w).2
  exact hbears'.of_resembles (hlook.resembles (hworks.waits.alone halone))

/-- A mobsim that no other thread disturbs and that knows all routes comes to what is foreseen,
whatever the number of workers and their schedule are. -/
theorem run_alone (schedule : Schedule) (i : IterationIndex) (hw : w.Present) (halone : w.Alone)
    (hbears : w.coordinator.Bears none)
    (hknown : ∀ c ∈ found part w, c.route < s.routes.length) :
    ∃ statistics, ((run s (.all schedule) part i).run w).1 = .ok statistics ∧
      ((run s (.all schedule) part i).run w).2.coordinator.Bears (trouble s i (found part w)) ∧
      World.Waits
        { drawn part w with
          memory := if Fails s i (found part w) then w.memory
            else repopulated part (simulated s i (found part w) w.generator) w.memory }
        ((run s (.all schedule) part i).run w).2 := by
  obtain ⟨ts, hts, -⟩ := works_worked s schedule part i w
  have hwaits := waits_worked s (.all schedule) part i w
  obtain ⟨statistics, hrun⟩ := run_world hts
  have hend := bears_worked schedule i hw halone hbears hknown
  have hseen : (World.flag (worked s (.all schedule) part i w).2).1 =
      (trouble s i (found part w)).isSome :=
    hend.flag
  rw [hrun, hseen]
  refine ⟨statistics, rfl, ?_⟩
  by_cases hfails : Fails s i (found part w)
  · have htrouble : (trouble s i (found part w)).isSome = true := by simp [trouble, hfails]
    rw [if_pos hfails, htrouble]
    exact ⟨hend, hwaits⟩
  · have htrouble : trouble s i (found part w) = none := if_neg hfails
    rw [htrouble] at hend ⊢
    rw [if_neg hfails]
    -- with the flag down and the teardown unclaimed all trips have arrived
    have hok : ((run s (.all schedule) part i).run w).1 = .ok statistics := by rw [hrun]
    have htravels := travels_run hw hok
    rw [hrun, hseen, htrouble] at htravels
    obtain ⟨-, hmemory⟩ := htravels hend.flag hend.teardown
    refine ⟨hend, ?_⟩
    have hnoted := World.onward_noted
      (World.flag (worked s (.all schedule) part i w).2).2 (m := .said .collaborator
        ⟨.info, "mobsim finished"⟩) rfl
    have honward := hwaits.toOnward.trans hnoted
    exact ⟨⟨⟨honward.past, honward.later, honward.present⟩, hmemory, hwaits.generator⟩,
      hwaits.files, hwaits.others⟩

/-- What the simulation does once its mobsim is over is to log, if anything. It fails if the mobsim
does. -/
theorem still_mobsim (s : PopulationSettings) (launch : Launch) (part : Part σ CommuteMemory)
    (i : IterationIndex) (w : World σ) :
    ((CommuterSimulation.mobsim s launch part i).run w).1 =
        ((run s launch part i).run w).1.map (fun _ => ()) ∧
      World.Still ((run s launch part i).run w).2
        ((CommuterSimulation.mobsim s launch part i).run w).2 := by
  let rest : Program σ Cause Unit := do
    if !(← Program.flag) then Program.say .warning "mobsim executed no trips"
  have hbind : CommuterSimulation.mobsim s launch part i =
      (run s launch part i).bind fun statistics =>
        if statistics.trips = 0 then rest else .done () := rfl
  rw [hbind, Program.run_bind]
  simp only [bind, StateT.bind]
  cases (run s launch part i).run w with
  | mk result u =>
      cases result with
      | error e => exact ⟨rfl, .refl u⟩
      | ok statistics =>
          dsimp only
          by_cases hnone : statistics.trips = 0
          · rw [if_pos hnone]
            have hlook := World.still_flag u
            have hrest : rest.run u = (if !(World.flag u).1 then
                (Program.say .warning "mobsim executed no trips" : Program σ Cause Unit)
                else .done ()).run (World.flag u).2 := rfl
            rw [hrest]
            cases (World.flag u).1 with
            | true => exact ⟨rfl, hlook⟩
            | false => exact ⟨rfl, hlook.trans (World.still_note rfl _)⟩
          · rw [if_neg hnone]
            exact ⟨rfl, .refl u⟩

/-- A mobsim ends well, or fails because a thread was refused. -/
theorem mobsim_ends (s : PopulationSettings) (launch : Launch) (part : Part σ CommuteMemory)
    (i : IterationIndex) (w : World σ) :
    (∃ reason, ((CommuterSimulation.mobsim s launch part i).run w).1 =
        .error (.failure (refusal reason))) ∨
      ((CommuterSimulation.mobsim s launch part i).run w).1 = .ok () := by
  rw [(still_mobsim s launch part i w).1]
  have hworked := worked_worked s launch part i w
  cases hresult : (worked s launch part i w).1 with
  | ok ts =>
      obtain ⟨statistics, hrun⟩ := run_world hresult
      rw [hrun]
      exact .inr rfl
  | error e =>
      rw [hresult] at hworked
      rw [run_refused hresult]
      cases hworked with
      | refused reason _ => exact .inl ⟨reason, rfl⟩

end Run

end Mobsim

end CommuteSim
