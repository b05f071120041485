import CommuteSim.Commute.Mobsim
import Mathlib.Algebra.GroupWithZero.Nat

/-!
# Sharing out trips and putting them together

The tasks of a mobsim are shared out among workers in runs. It makes no difference that commuters
and deviations are cut before they are put together, since both are cut into runs of one length. So
all tasks are shared out, whatever the number of workers is, and the trips that come back in any
order are stored where they belong.

Main statements: `tasks_apart` and `tasks_workers` for the sharing out; `inOrder_of_perm` for the
order in which trips are stored; `storeAll_trips` for the population that results.
-/

namespace CommuteSim

namespace Mobsim

/-! ## Runs -/

/-- Whatever the size of runs is, put together they are what was cut. -/
theorem flatten_runs {α : Type} {size : Nat} (hsize : size ≠ 0) (xs : List α) :
    (runs size xs).flatten = xs := by
  induction xs using runs.induct size with
  | case1 xs h =>
      rw [runs, if_pos h]
      rcases h with h | rfl
      · exact absurd h hsize
      · rfl
  | case2 xs h ih =>
      rw [runs, if_neg h, List.flatten_cons, ih]
      exact List.take_append_drop size xs

theorem runLength_ne_zero (tasks workers : Nat) : runLength tasks workers ≠ 0 := by
  unfold runLength
  omega

/-- There is a first run unless there is nothing to cut. -/
theorem runs_eq_nil_iff {α : Type} {size : Nat} (hsize : size ≠ 0) {xs : List α} :
    runs size xs = [] ↔ xs = [] := by
  constructor
  · intro h
    have hflatten := flatten_runs hsize xs
    rw [h] at hflatten
    exact hflatten.symm
  · rintro rfl
    rw [runs, if_pos (.inr rfl)]

/-- Two lists that are cut into runs of one length can be put together run by run. -/
theorem runs_zipWith {α β γ : Type} {size : Nat} (f : α → β → γ) (xs : List α) (ys : List β) :
    runs size (xs.zipWith f ys) = (runs size xs).zipWith (List.zipWith f) (runs size ys) := by
  induction xs using runs.induct size generalizing ys with
  | case1 xs hnone =>
      have hnone' : size = 0 ∨ xs.zipWith f ys = [] := by
        refine hnone.imp_right ?_
        rintro rfl
        rfl
      rw [runs, if_pos hnone', runs, if_pos hnone]
      rfl
  | case2 xs hsome ih =>
      by_cases hys : ys = []
      · subst hys
        have hempty : runs size ([] : List β) = [] := by rw [runs, if_pos (.inr rfl)]
        rw [List.zipWith_nil_right, hempty, List.zipWith_nil_right, runs, if_pos (.inr rfl)]
      · rw [not_or] at hsome
        have hcut : ¬ (size = 0 ∨ ys = []) := not_or.mpr ⟨hsome.1, hys⟩
        have hboth : ¬ (size = 0 ∨ xs.zipWith f ys = []) := by
          rw [List.zipWith_eq_nil_iff]
          simp [hsome, hys]
        rw [runs, if_neg hboth, runs.eq_def size xs, if_neg (not_or.mpr hsome),
          runs.eq_def size ys, if_neg hcut, List.zipWith_cons_cons, List.take_zipWith,
          List.drop_zipWith, ih]

/-! ## Workers -/

section Workers

variable {s : PopulationSettings} {i : IterationIndex} {cs : List (Nat × Nat)} {xs : List Float}

/-- What comes of cutting choices and deviations apart from each other and putting them together run
by run is what comes of cutting the tasks. -/
theorem tasks_apart (s : PopulationSettings) (i : IterationIndex) (cs : List (Nat × Nat))
    (xs : List Float) : (workers s i cs xs).map Worker.tasks =
      runs (runLength cs.length (max s.mobsimWorkers 1).toNat) (tasks cs xs) := by
  unfold workers
  rw [List.map_map]
  exact (List.zipIdx_map_fst 0 _).trans (runs_zipWith _ cs xs).symm

/-- The tasks of all workers are all tasks, in order. -/
theorem tasks_workers (s : PopulationSettings) (i : IterationIndex) (cs : List (Nat × Nat))
    (xs : List Float) : (workers s i cs xs).flatMap Worker.tasks = tasks cs xs := by
  rw [List.flatMap_def, tasks_apart, flatten_runs (runLength_ne_zero _ _)]

/-- A worker that is made to fail is the first one, and fails in the iteration that the settings
name. -/
theorem sabotaged_workers {w : Worker} (hw : w ∈ workers s i cs xs) (h : w.sabotaged = true) :
    w.number = 0 ∧ s.failMobsimAt = some i := by
  unfold workers at hw
  obtain ⟨⟨ts, k⟩, -, rfl⟩ := List.mem_map.mp hw
  simpa using h

/-- No worker has met an unknown route before it begins. -/
theorem lost_workers {w : Worker} (hw : w ∈ workers s i cs xs) : w.lost = none := by
  unfold workers at hw
  obtain ⟨⟨ts, k⟩, -, rfl⟩ := List.mem_map.mp hw
  rfl

/-- The first worker is made to fail in the iteration that the settings name. -/
theorem sabotaged_head {w : Worker} {rest : List Worker} (h : workers s i cs xs = w :: rest)
    (hfail : s.failMobsimAt = some i) : w.sabotaged = true := by
  unfold workers at h
  dsimp only at h
  obtain ⟨⟨ts, k⟩, others, hshares, rfl, -⟩ := List.map_eq_cons_iff.mp h
  obtain ⟨_, _, -, hfirst, -⟩ := List.zipIdx_eq_cons_iff.mp hshares
  obtain ⟨rfl, rfl⟩ := Prod.mk.inj hfirst
  simp [hfail]

/-- Whether some worker is made to fail. Without tasks there are no workers. -/
theorem any_sabotaged_workers (s : PopulationSettings) (i : IterationIndex)
    (cs : List (Nat × Nat)) (xs : List Float) : (workers s i cs xs).any Worker.sabotaged =
      decide (tasks cs xs ≠ [] ∧ s.failMobsimAt = some i) := by
  have hnil : workers s i cs xs = [] ↔ tasks cs xs = [] := by
    rw [← List.map_eq_nil_iff (f := Worker.tasks), tasks_apart,
      runs_eq_nil_iff (runLength_ne_zero _ _)]
  cases hworkers : workers s i cs xs with
  | nil => simp [hnil.mp hworkers]
  | cons first rest =>
      have hsome : tasks cs xs ≠ [] := fun h => by
        rw [hnil.mpr h] at hworkers
        cases hworkers
      by_cases hfail : s.failMobsimAt = some i
      · simp [sabotaged_head hworkers hfail, hsome, hfail]
      · have hnone : (first :: rest).any Worker.sabotaged = false := by
          rw [List.any_eq_false]
          intro w hw h
          exact hfail (sabotaged_workers (hworkers ▸ hw) h).2
        rw [hnone]
        simp [hfail]

end Workers

/-! ## Moves -/

section Moves

variable {ws : List Worker} {w : Worker} {k : Nat}

theorem moves_eq (ws : List Worker) : moves ws = (ws.map fun w => w.tasks.length + 1).sum := by
  have hfold : ∀ n, ws.foldl (fun n w => n + (w.tasks.length + 1)) n =
      n + (ws.map fun w => w.tasks.length + 1).sum := by
    induction ws with
    | nil => exact fun n => rfl
    | cons w rest ih =>
        intro n
        rw [List.foldl_cons, ih, List.map_cons, List.sum_cons]
        omega
  rw [moves, hfold, Nat.zero_add]

/-- A worker stands between those before it and those after it, also once it has moved. -/
theorem split_workers (h : ws[k]? = some w) :
    ∃ a b, ws = a ++ w :: b ∧ (∀ v, ws.set k v = a ++ v :: b) ∧ ws.eraseIdx k = a ++ b := by
  obtain ⟨hk, hw⟩ := List.getElem?_eq_some_iff.mp h
  refine ⟨ws.take k, ws.drop (k + 1), ?_, fun v => ?_, List.eraseIdx_eq_take_drop_succ ws k⟩
  · rw [← hw, List.getElem_cons_drop hk, List.take_append_drop]
  · rw [List.set_eq_take_append_cons_drop, if_pos hk]

/-- A worker that has done with a task has one task less to do. -/
theorem moves_set {v : Worker} (h : ws[k]? = some w) (hv : w.tasks.length = v.tasks.length + 1) :
    moves (ws.set k v) + 1 = moves ws := by
  obtain ⟨a, b, rfl, hset, -⟩ := split_workers h
  rw [hset, moves_eq, moves_eq]
  simp only [List.map_append, List.map_cons, List.sum_append, List.sum_cons]
  omega

/-- A worker that ends makes no more moves. -/
theorem moves_eraseIdx (h : ws[k]? = some w) : moves (ws.eraseIdx k) < moves ws := by
  obtain ⟨a, b, rfl, -, herase⟩ := split_workers h
  rw [herase, moves_eq, moves_eq]
  simp only [List.map_append, List.map_cons, List.sum_append, List.sum_cons]
  omega

/-- As long as workers are left, a move is made by one of them. -/
theorem chosen_worker {n : Nat} (hws : ws ≠ []) : ∃ w, ws[n % ws.length]? = some w := by
  have hlength : n % ws.length < ws.length := Nat.mod_lt _ (List.length_pos_iff.mpr hws)
  exact ⟨ws[n % ws.length], List.getElem?_eq_getElem hlength⟩

theorem moves_eq_zero (h : moves ws = 0) : ws = [] := by
  cases ws with
  | nil => rfl
  | cons w rest =>
      rw [moves_eq, List.map_cons, List.sum_cons] at h
      omega

end Moves

/-! ## Trips -/

/-- The trip that a task comes to, if its route is known. -/
def trip? (minutes : List Float) (t : Task) : Option SimulatedTrip :=
  minutes[t.route]?.map fun base => ⟨t.commuter, base * (1.0 + t.deviation)⟩

/-- The population once every commuter has made a trip. -/
def travelled (minutes : List Float) (i : IterationIndex) (p : Population)
    (deviations : List Float) : Population :=
  p.zipWith
    (fun c x => { c with trip := minutes[c.route]?.map fun base => ⟨i, base * (1.0 + x)⟩ })
    deviations

/-- The tasks of commuters that stand behind `k` others. -/
def tasksFrom (k : Nat) (p : Population) (deviations : List Float) : List Task :=
  tasks ((p.zipIdx k).map fun (c, k) => (k, c.route)) deviations

section Trips

variable {minutes : List Float} {i : IterationIndex} {p : Population} {deviations : List Float}
  {trips : List SimulatedTrip} {k : Nat}

theorem tasks_eq (p : Population) (deviations : List Float) :
    tasks (choices p) deviations = tasksFrom 0 p deviations := rfl

theorem tasksFrom_cons (k : Nat) (c : Commuter) (p : Population) (x : Float)
    (deviations : List Float) :
    tasksFrom k (c :: p) (x :: deviations) =
      ⟨k, c.route, x⟩ :: tasksFrom (k + 1) p deviations := rfl

/-- What is needed of the trips of the commuters behind `k` others: the first one has a trip, and
the rest as well. -/
theorem trips_cons {c : Commuter} {x : Float}
    (h : (tasksFrom k (c :: p) (x :: deviations)).map (trip? minutes) = trips.map some) :
    ∃ base rest, minutes[c.route]? = some base ∧ trips = ⟨k, base * (1.0 + x)⟩ :: rest ∧
      (tasksFrom (k + 1) p deviations).map (trip? minutes) = rest.map some := by
  rw [tasksFrom_cons, List.map_cons] at h
  cases trips with
  | nil => cases h
  | cons t rest =>
      rw [List.map_cons] at h
      obtain ⟨hfirst, hrest⟩ := List.cons.inj h
      obtain ⟨base, hbase, rfl⟩ := Option.map_eq_some_iff.mp hfirst
      exact ⟨base, rest, hbase, rfl, hrest⟩

theorem trips_nil (h : (tasksFrom k [] deviations).map (trip? minutes) = trips.map some) :
    trips = [] :=
  List.map_eq_nil_iff.mp h.symm

/-- A commuter on a known route makes its trip, and the others make theirs. -/
theorem travelled_cons {c : Commuter} {x base : Float} (h : minutes[c.route]? = some base) :
    travelled minutes i (c :: p) (x :: deviations) =
      { c with trip := some ⟨i, base * (1.0 + x)⟩ } :: travelled minutes i p deviations := by
  unfold travelled
  rw [List.zipWith_cons_cons, h]
  rfl

/-- The trips of all commuters come in the order of commuters. -/
theorem pairwise_trips (hlength : deviations.length = p.length)
    (h : (tasksFrom k p deviations).map (trip? minutes) = trips.map some) :
    trips.Pairwise (fun a b => a.commuter < b.commuter) ∧ ∀ t ∈ trips, k ≤ t.commuter := by
  induction p generalizing k deviations trips with
  | nil =>
      rw [trips_nil h]
      exact ⟨.nil, fun t ht => nomatch ht⟩
  | cons c rest ih =>
      cases deviations with
      | nil => cases hlength
      | cons x deviations =>
          obtain ⟨base, others, -, rfl, hothers⟩ := trips_cons h
          obtain ⟨hpairwise, hbound⟩ := ih (Nat.succ.inj hlength) hothers
          refine ⟨.cons (fun t ht => hbound t ht) hpairwise, fun t ht => ?_⟩
          rcases List.mem_cons.mp ht with rfl | ht
          · exact Nat.le_refl k
          · exact Nat.le_of_succ_le (hbound t ht)

/-- No commuter makes two trips. -/
theorem eq_of_commuter {a b : SimulatedTrip}
    (hpairwise : trips.Pairwise fun a b => a.commuter < b.commuter) (ha : a ∈ trips)
    (hb : b ∈ trips) (h : a.commuter = b.commuter) : a = b := by
  obtain ⟨m, hm, rfl⟩ := List.mem_iff_getElem.mp ha
  obtain ⟨n, hn, rfl⟩ := List.mem_iff_getElem.mp hb
  have horder := List.pairwise_iff_getElem.mp hpairwise
  rcases Nat.lt_trichotomy m n with hlt | rfl | hlt
  · have := horder m n hm hn hlt
    omega
  · rfl
  · have := horder n m hn hm hlt
    omega

/-- In whatever order the trips arrive, in the order of commuters they are one and the same
list. -/
theorem inOrder_of_perm {arrived : List SimulatedTrip}
    (hpairwise : trips.Pairwise fun a b => a.commuter < b.commuter) (h : arrived.Perm trips) :
    inOrder arrived = trips := by
  have hsorted : (inOrder arrived).Pairwise fun a b => a.commuter ≤ b.commuter := by
    let before (a b : SimulatedTrip) : Bool := a.commuter ≤ b.commuter
    have htrans : ∀ a b c, before a b → before b c → before a c := by
      intro a b c
      simpa [before] using Nat.le_trans
    have htotal : ∀ a b, before a b || before b a := by
      intro a b
      simpa [before] using Nat.le_total _ _
    exact (List.pairwise_mergeSort htrans htotal arrived).imp fun h => by simpa [before] using h
  have hperm : (inOrder arrived).Perm trips := (List.mergeSort_perm arrived _).trans h
  refine List.Perm.eq_of_pairwise (fun a b ha hb hab hba => ?_) hsorted
    (hpairwise.imp Nat.le_of_lt) hperm
  exact eq_of_commuter hpairwise (hperm.mem_iff.mp ha) hb (Nat.le_antisymm hab hba)

/-- Stored in order, the trips of the commuters behind `done` go to those commuters. By induction
on the commuters that are left. -/
theorem foldl_store (done : Population) (hlength : deviations.length = p.length)
    (h : (tasksFrom done.length p deviations).map (trip? minutes) = trips.map some) :
    trips.foldl (store i) (done ++ p).toArray =
      (done ++ travelled minutes i p deviations).toArray := by
  induction p generalizing done deviations trips with
  | nil =>
      rw [trips_nil h]
      rfl
  | cons c rest ih =>
      cases deviations with
      | nil => cases hlength
      | cons x deviations =>
          obtain ⟨base, others, hbase, rfl, hothers⟩ := trips_cons h
          let served : Commuter := { c with trip := some ⟨i, base * (1.0 + x)⟩ }
          have hstore : store i (done ++ c :: rest).toArray ⟨done.length, base * (1.0 + x)⟩ =
              ((done ++ [served]) ++ rest).toArray := by
            unfold store
            rw [List.modify_toArray, List.modify_eq_take_cons_drop (by simp)]
            simp [served]
          have hrest := ih (done ++ [served]) (Nat.succ.inj hlength)
            (by rw [List.length_append]; exact hothers)
          rw [List.foldl_cons, hstore, hrest, travelled_cons hbase, List.append_assoc]
          rfl

/-- Once the trips of all commuters are stored, every commuter has made its own trip. -/
theorem storeAll_trips (hlength : deviations.length = p.length)
    (h : (tasks (choices p) deviations).map (trip? minutes) = trips.map some) :
    storeAll i trips p = travelled minutes i p deviations := by
  have hfold := foldl_store (i := i) [] hlength h
  rw [storeAll]
  rw [List.nil_append, List.nil_append] at hfold
  rw [hfold]

end Trips

end Mobsim

end CommuteSim
