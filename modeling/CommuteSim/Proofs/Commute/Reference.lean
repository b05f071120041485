import CommuteSim.Proofs.Commute.Crew
import CommuteSim.Proofs.Commute.Travel
import Mathlib.Logic.Function.Iterate

/-!
# The mobsim and its sequential reference

Without workers the trips of an iteration are a simple loop: one commuter after the other draws a
deviation, makes its trip, and adds its time to a total. The mobsim shares the trips out among
workers that move in any order, and puts together what they send. As long as no shutdown is
requested this comes to what the loop comes to, to the last bit: the same trips, the same sum, the
same generator. And whatever happens meanwhile, what is stored is all of it or nothing.

Main statements: `parallel_sequential` for an undisturbed mobsim, and `all_or_nothing` for one that
failures, unknown routes and other threads may disturb.
-/

namespace CommuteSim

variable {σ : Type}

namespace Mobsim

/-! ## One commuter after the other -/

/-- What the trips of commuters come to. -/
structure Tour where
  population : Population
  /-- The sum of travel times. -/
  total : Float
  generator : Generator

/-- The trips of commuters one after the other: each draws its deviation when its turn comes, and
its time is added to the total. -/
def tour (minutes : List Float) (i : IterationIndex) : Population → Float → Generator → Tour
  | [], total, g => ⟨[], total, g⟩
  | c :: rest, total, g =>
    let (x, g) := deviation g
    let time := minutes.getD c.route 0.0 * (1.0 + x)
    let t := tour minutes i rest (total + time) g
    { t with population := { c with trip := some ⟨i, time⟩ } :: t.population }

/-- The generator after a number of deviations are drawn. -/
def skip (n : Nat) (g : Generator) : Generator := (fun g => (deviation g).2)^[n] g

/-- The average of times that sum up to a total, zero if there are none. Their number is taken as a
word; no population of the settings is larger. -/
def average (total : Float) (n : Nat) : Float :=
  if n = 0 then 0.0 else total / Binary64.ofInt (min n 0xFFFFFFFF : Nat)

section Tour

variable {minutes : List Float} {i : IterationIndex} {p : Population} {g : Generator}
  {total : Float}

theorem tour_cons (minutes : List Float) (i : IterationIndex) (c : Commuter) (p : Population)
    (total : Float) (g : Generator) :
    let time := minutes.getD c.route 0.0 * (1.0 + (deviation g).1)
    let t := tour minutes i p (total + time) (deviation g).2
    tour minutes i (c :: p) total g =
      { t with population := { c with trip := some ⟨i, time⟩ } :: t.population } := rfl

/-- One deviation is drawn for each commuter. -/
theorem generator_tour : (tour minutes i p total g).generator = skip p.length g := by
  induction p generalizing total g with
  | nil => rfl
  | cons c rest ih =>
      rw [tour_cons]
      exact ih

theorem length_tour : (tour minutes i p total g).population.length = p.length := by
  induction p generalizing total g with
  | nil => rfl
  | cons c rest ih =>
      rw [tour_cons]
      exact congrArg Nat.succ ih

/-- A commuter makes its trip with the deviation that is drawn after those of all commuters before
it; its route and its score are as before. -/
theorem getElem?_tour (k : Nat) : (tour minutes i p total g).population[k]? = p[k]?.map fun c =>
    { c with trip := some ⟨i, minutes.getD c.route 0.0 * (1.0 + (deviation (skip k g)).1)⟩ } := by
  induction p generalizing total g k with
  | nil => rfl
  | cons c rest ih =>
      rw [tour_cons]
      cases k with
      | zero => rfl
      | succ k => exact ih k

/-- What workers put together is what the commuters do one after the other: the population, the sum
of travel times and the generator are the same. By induction on the commuters, the first of which
stands behind `k` others. -/
theorem tour_eq {k : Nat} {trips : List SimulatedTrip}
    (h : (tasksFrom k p (deviations p g).1).map (trip? minutes) = trips.map some) :
    tour minutes i p total g = ⟨travelled minutes i p (deviations p g).1,
      trips.foldl (fun total t => total + t.minutes) total, (deviations p g).2⟩ := by
  induction p generalizing k total g trips with
  | nil =>
      rw [trips_nil h]
      rfl
  | cons c rest ih =>
      have hdraws : deviations (c :: rest) g =
          ((deviation g).1 :: (deviations rest (deviation g).2).1,
            (deviations rest (deviation g).2).2) := rfl
      rw [hdraws] at h ⊢
      obtain ⟨base, others, hbase, rfl, hothers⟩ := trips_cons h
      have htime : minutes.getD c.route 0.0 = base := by
        rw [List.getD_eq_getElem?_getD, hbase, Option.getD_some]
      rw [tour_cons, ih hothers, htime, travelled_cons hbase]
      rfl

/-- The trips of all commuters are as many as the commuters. -/
theorem length_trips {ds : List Float} {trips : List SimulatedTrip} (hds : ds.length = p.length)
    (h : (tasks (choices p) ds).map (trip? minutes) = trips.map some) :
    trips.length = p.length := by
  have hlength := congrArg List.length h
  rw [List.length_map, List.length_map] at hlength
  rw [← hlength]
  simp [tasks, choices, hds]

/-- The mean of the trips of all commuters is the average of their times. -/
theorem mean_trips {ds : List Float} {trips : List SimulatedTrip} (hds : ds.length = p.length)
    (h : (tasks (choices p) ds).map (trip? minutes) = trips.map some) :
    mean trips = average (trips.foldl (fun total t => total + t.minutes) 0.0) p.length := by
  rw [← length_trips hds h]
  cases trips with
  | nil => rfl
  | cons t rest => rfl

/-- As long as the number of times is a word, the average is taken over that number. -/
theorem average_eq {n : Nat} (h : n < UInt32.size) (total : Float) :
    average total n = if n = 0 then 0.0 else total / Binary64.ofInt n := by
  rw [average, Nat.min_eq_left (Nat.le_of_lt_succ h)]

end Tour

/-- The travel time on a route under the loads of a population. -/
theorem getD_minutes {s : PopulationSettings} {p : Population} {k : Nat}
    (h : k < s.routes.length) :
    ∃ r, s.routes[k]? = some r ∧ (minutes s p).getD k 0.0 =
      r.travelTime (Population.saturated (p.countP (·.route = k))) := by
  refine ⟨s.routes[k], List.getElem?_eq_getElem h, ?_⟩
  rw [List.getD_eq_getElem?_getD, minutes, List.getElem?_zipWith, List.getElem?_eq_getElem h]
  simp [Population.loads, h]

/-! ## The mobsim -/

section Run

variable {s : PopulationSettings} {schedule : Schedule} {part : Part σ CommuteMemory}
  {i : IterationIndex} {w : World σ}

/-- The trips of all commuters that a mobsim finds, one after the other. -/
def reference (s : PopulationSettings) (part : Part σ CommuteMemory) (i : IterationIndex)
    (w : World σ) : Tour :=
  tour (minutes s (found part w)) i (found part w) 0.0 w.generator

/-- In a population, each commuter that a mobsim finds has made its trip of the iteration: its time
is the travel time of the route under the loads that the mobsim finds, with the deviation that is
drawn after those of all commuters before it. Nothing else of a commuter has changed. -/
structure Served (s : PopulationSettings) (part : Part σ CommuteMemory) (i : IterationIndex)
    (w : World σ) (p : Population) : Prop where
  length : p.length = (found part w).length
  trip : ∀ (k : Nat) (c : Commuter), (found part w)[k]? = some c →
    ∃ r, s.routes[c.route]? = some r ∧
      let base := r.travelTime (Population.saturated ((found part w).countP (·.route = c.route)))
      let x := (deviation (skip k w.generator)).1
      p[k]? = some { c with trip := some ⟨i, base * (1.0 + x)⟩ }

/-- The reference serves all commuters if it knows their routes. -/
theorem served_reference (hknown : ∀ c ∈ found part w, c.route < s.routes.length) :
    Served s part i w (reference s part i w).population := by
  refine ⟨length_tour, fun k c hc => ?_⟩
  obtain ⟨r, hr, hbase⟩ := getD_minutes (p := found part w) (hknown c (List.mem_of_getElem? hc))
  refine ⟨r, hr, ?_⟩
  rw [reference, getElem?_tour, hc, Option.map_some, hbase]

/-- What the mobsim counts and stores once the trips of all commuters have arrived is what the
reference comes to. -/
theorem tally_stored {ts : Array SimulatedTrip} {trips : List SimulatedTrip} {u : World σ}
    (hu : World.Waits (drawn part w) u)
    (htrips : (tasks (choices (found part w)) (deviations (found part w) w.generator).1).map
      (trip? (minutes s (found part w))) = trips.map some)
    (hperm : ts.toList.Perm trips) :
    let n := (found part w).length
    let t := reference s part i w
    tally s i (found part w) (inOrder ts.toList) =
        { iteration := i, loads := (found part w).loads s.routes.length,
          meanMinutes := average t.total n, trips := n } ∧
      (stored part i ts u).memory = repopulated part t.population w.memory ∧
      (stored part i ts u).generator = t.generator := by
  intro n t
  have hds := length_deviations (found part w) w.generator
  have ht : t = ⟨travelled (minutes s (found part w)) i (found part w)
        (deviations (found part w) w.generator).1,
      trips.foldl (fun total t => total + t.minutes) 0.0,
      (deviations (found part w) w.generator).2⟩ := tour_eq htrips
  have horder : inOrder ts.toList = trips := inOrder_of_perm (pairwise_trips hds htrips).1 hperm
  rw [horder, ht, tally, mean_trips hds htrips, length_trips hds htrips]
  exact ⟨rfl, memory_stored hu htrips hperm, hu.generator⟩

/-- If all routes are known, no worker is made to fail and no shutdown is requested until the end,
the mobsim comes to what its sequential reference comes to, whatever the number of workers is, and
in whatever order they and other threads move. Every commuter is served, with one draw for each in
the order of commuters, and all commuters are shared out among the workers. -/
theorem parallel_sequential (s : PopulationSettings) (schedule : Schedule)
    (part : Part σ CommuteMemory) (i : IterationIndex) (w : World σ) (hw : w.Present)
    (hknown : ∀ c ∈ found part w, c.route < s.routes.length)
    (hwell : s.failMobsimAt ≠ some i)
    (hclear : ((run s (.all schedule) part i).run w).2.coordinator.flag = false) :
    let p := found part w
    let n := p.length
    let t := reference s part i w
    let u := ((run s (.all schedule) part i).run w).2
    ((run s (.all schedule) part i).run w).1 =
        .ok { iteration := i, loads := p.loads s.routes.length,
              meanMinutes := average t.total n, trips := n } ∧
      (n < UInt32.size →
        average t.total n = if n = 0 then 0.0 else t.total / Binary64.ofInt n) ∧
      u.memory = repopulated part t.population w.memory ∧
      u.generator = skip n w.generator ∧
      Served s part i w t.population ∧
      SharedOut s p (crew s i p w.generator) := by
  intro p n t u
  obtain ⟨ts, hts, -⟩ := works_worked s schedule part i w
  have hwaits := waits_worked s (.all schedule) part i w
  have hsound : Sound (minutes s p) (crew s i p w.generator) :=
    sound_crew hknown fun hfails => hwell hfails.2
  have hlook : (World.flag (worked s (.all schedule) part i w).2).1 = false := by
    cases hflag : (World.flag (worked s (.all schedule) part i w).2).1 with
    | false => rfl
    | true =>
        rw [run_eq hts, hflag] at hclear
        exact absurd (hclear.symm.trans hflag) Bool.false_ne_true
  obtain ⟨trips, htrips, hperm⟩ := trips_worked hw hts hlook (.inr hsound)
  obtain ⟨htally, hmemory, hgenerator⟩ := tally_stored (i := i) hwaits htrips hperm
  have hrun : (run s (.all schedule) part i).run w =
      (.ok (tally s i p (inOrder ts.toList)),
        stored part i ts (World.flag (worked s (.all schedule) part i w).2).2) := by
    rw [run_eq hts, hlook]
    rfl
  have hend : u = stored part i ts (World.flag (worked s (.all schedule) part i w).2).2 :=
    congrArg Prod.snd hrun
  refine ⟨?_, fun h => average_eq h _, ?_, ?_, served_reference hknown, ?_⟩
  · rw [hrun, htally]
  · rw [hend, hmemory]
  · rw [hend, hgenerator]
    exact generator_tour
  · exact shared_workers (length_deviations p w.generator)

/-- Two workers that take turns serve three commuters. -/
theorem parallel_sequential_of_three :
    let s : PopulationSettings := { mobsimWorkers := 2 }
    let w : World CommuteMemory :=
      { memory := { population := [{}, { route := 2 }, { route := 1 }] } }
    let u := ((run s (.all id) .whole 4).run w).2
    (∃ minutes, ((run s (.all id) .whole 4).run w).1 = .ok ⟨4, [1, 1, 1], minutes, 3⟩) ∧
      u.generator = skip 3 w.generator ∧ Served s .whole 4 w u.memory.population := by
  intro s w u
  obtain ⟨hresult, -, hmemory, hgenerator, hserved, -⟩ := parallel_sequential s id .whole 4 w rfl
    (by decide) (by decide) (by decide +kernel)
  refine ⟨⟨_, hresult⟩, hgenerator, ?_⟩
  rw [hmemory]
  exact hserved

/-- Whatever routes commuters have chosen, whether or not a worker is made to fail, and whatever
other threads do, as long as the teardown is not claimed a mobsim stores the trips of all commuters
or none. If it stores them, they are those of the sequential reference, and all are counted; if it
stores none, it counts none, and a shutdown is requested. -/
theorem all_or_nothing (s : PopulationSettings) (schedule : Schedule)
    (part : Part σ CommuteMemory) (i : IterationIndex) (w : World σ) (hw : w.Present)
    (hopen : ((run s (.all schedule) part i).run w).2.coordinator.teardown = false) :
    let p := found part w
    let t := reference s part i w
    let u := ((run s (.all schedule) part i).run w).2
    ∃ statistics : MobsimStatistics, ((run s (.all schedule) part i).run w).1 = .ok statistics ∧
      ((statistics = ⟨i, p.loads s.routes.length, average t.total p.length, p.length⟩ ∧
          u.memory = repopulated part t.population w.memory ∧
          Served s part i w t.population) ∨
        (statistics.trips = 0 ∧ u.memory = w.memory ∧ u.coordinator.flag = true)) := by
  intro p t u
  obtain ⟨ts, hts, -⟩ := works_worked s schedule part i w
  have hwaits := waits_worked s (.all schedule) part i w
  have hrun := run_eq hts
  cases hflag : (World.flag (worked s (.all schedule) part i w).2).1 with
  | true =>
      rw [hflag, if_pos rfl] at hrun
      have hend : u = (World.flag (worked s (.all schedule) part i w).2).2 := congrArg Prod.snd hrun
      refine ⟨idle s i p, congrArg Prod.fst hrun, .inr ⟨rfl, ?_, ?_⟩⟩
      · rw [hend]
        exact hwaits.memory
      · rw [hend]
        exact hflag
  | false =>
      rw [hflag, if_neg Bool.false_ne_true] at hrun
      have hend : u = stored part i ts (World.flag (worked s (.all schedule) part i w).2).2 :=
        congrArg Prod.snd hrun
      -- storing leaves the coordinator as the last look at the flag has found it
      let u := (worked s (.all schedule) part i w).2
      have hopen' : (World.flag u).2.coordinator.teardown = false := by
        rw [hrun] at hopen
        exact hopen
      obtain ⟨trips, htrips, hperm⟩ := trips_worked hw hts hflag (.inl hopen')
      obtain ⟨htally, hmemory, -⟩ := tally_stored (i := i) hwaits htrips hperm
      have hknown : ∀ c ∈ p, c.route < s.routes.length := by
        rw [← length_minutes s p]
        exact (trips_iff (length_deviations _ _)).mp ⟨trips, htrips⟩
      refine ⟨tally s i p (inOrder ts.toList), congrArg Prod.fst hrun,
        .inl ⟨htally, ?_, served_reference hknown⟩⟩
      rw [hend, hmemory]

/-- An interrupt while a worker is on its way keeps all three trips from being stored, the one that
has arrived included. -/
theorem all_or_nothing_of_three :
    let s : PopulationSettings := { mobsimWorkers := 2 }
    let w : World CommuteMemory :=
      { memory := { population := [{}, { route := 2 }, { route := 1 }] }
        others := fun n => if n = 1 then [.interrupt] else [] }
    let u := ((run s (.all id) .whole 4).run w).2
    ∃ statistics, ((run s (.all id) .whole 4).run w).1 = .ok statistics ∧ statistics.trips = 0 ∧
      u.memory = w.memory ∧ u.coordinator.flag = true := by
  intro s w u
  have hlook : (World.flag (worked s (.all id) .whole 4 w).2).1 = true := by decide +kernel
  obtain ⟨statistics, hresult, ⟨hall, -⟩ | hnone⟩ := all_or_nothing s id .whole 4 w rfl
    (by decide +kernel)
  · obtain ⟨ts, hts, -⟩ := works_worked s id .whole 4 w
    rw [run_eq hts, hlook, if_pos rfl, hall] at hresult
    have htrips : 0 = 3 := congrArg MobsimStatistics.trips (Except.ok.inj hresult)
    exact absurd htrips (by decide)
  · exact ⟨statistics, hresult, hnone⟩

end Run

end Mobsim

end CommuteSim
