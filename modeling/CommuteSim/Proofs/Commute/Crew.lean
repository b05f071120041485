import CommuteSim.Proofs.Commute.Sharing
import Mathlib.Data.UInt

/-!
# The shares of workers

The length of runs is the number of tasks divided by the number of workers that are allowed, rounded
up. So the runs are no more than the workers that are allowed, whether the division comes out even
or not, and none of them is empty; together with the sharing out of all tasks this gives every
commuter to one worker.

Main statement: `shared_workers` for the shares of workers.
-/

namespace CommuteSim

namespace Mobsim

/-! ## Runs -/

section Runs

variable {α : Type} {size k : Nat}

/-- Whatever can be covered by `k` runs is cut into `k` runs at most. -/
theorem length_runs_le (xs : List α) (h : xs.length ≤ k * size) : (runs size xs).length ≤ k := by
  induction xs using runs.induct size generalizing k with
  | case1 xs hnone =>
      rw [runs, if_pos hnone]
      exact Nat.zero_le k
  | case2 xs hsome ih =>
      rw [not_or] at hsome
      have hlength : 0 < xs.length := List.length_pos_iff.mpr hsome.2
      obtain ⟨j, rfl⟩ : ∃ j, k = j + 1 := by
        refine Nat.exists_eq_add_one.mpr (Nat.pos_of_ne_zero ?_)
        rintro rfl
        omega
      have hrest : (xs.drop size).length ≤ j * size := by
        rw [Nat.add_one_mul] at h
        rw [List.length_drop]
        omega
      rw [runs, if_neg (not_or.mpr hsome), List.length_cons]
      exact Nat.succ_le_succ (ih hrest)

theorem ne_nil_of_mem_runs {xs run : List α} (h : run ∈ runs size xs) : run ≠ [] := by
  induction xs using runs.induct size with
  | case1 xs hnone =>
      rw [runs, if_pos hnone] at h
      exact absurd h List.not_mem_nil
  | case2 xs hsome ih =>
      rw [runs, if_neg hsome] at h
      rcases List.mem_cons.mp h with rfl | h
      · rw [not_or] at hsome
        simp [List.take_eq_nil_iff, hsome]
      · exact ih h

end Runs

/-- Runs of this length cover all tasks with the workers that are allowed. -/
theorem le_mul_runLength (tasks : Nat) {workers : Nat} (h : 0 < workers) :
    tasks ≤ workers * runLength tasks workers := by
  have hceiling : tasks ≤ workers * ((tasks + workers - 1) / workers) := by
    have hdiv := Nat.div_add_mod (tasks + workers - 1) workers
    have hmod := Nat.mod_lt (tasks + workers - 1) h
    omega
  exact Nat.le_trans hceiling (Nat.mul_le_mul_left workers (Nat.le_max_left _ _))

/-! ## Shares -/

/-- Commuters are shared out among workers: the workers are no more than the settings allow, none is
idle, and in the order of workers every commuter has its turn once, in the order of commuters. -/
structure SharedOut (s : PopulationSettings) (p : Population) (ws : List Worker) : Prop where
  few : ws.length ≤ max s.mobsimWorkers.toNat 1
  busy : ∀ w ∈ ws, w.tasks ≠ []
  once : (ws.flatMap Worker.tasks).map Task.commuter = List.range p.length

section Shares

variable {s : PopulationSettings} {i : IterationIndex} {p : Population} {deviations : List Float}

/-- The tasks stand in the order of commuters, one for each. -/
theorem map_commuter_tasks (h : deviations.length = p.length) :
    (tasks (choices p) deviations).map Task.commuter = List.range p.length := by
  have hfrom : ∀ n, (tasksFrom n p deviations).map Task.commuter = List.range' n p.length := by
    induction p generalizing deviations with
    | nil => exact fun n => rfl
    | cons c rest ih =>
        intro n
        cases deviations with
        | nil => cases h
        | cons x deviations =>
            rw [tasksFrom_cons, List.map_cons, ih (Nat.succ.inj h), List.length_cons,
              List.range'_succ]
  rw [tasks_eq, hfrom, List.range_eq_range']

/-- All commuters are shared out among the workers of a mobsim. -/
theorem shared_workers (h : deviations.length = p.length) :
    SharedOut s p (workers s i (choices p) deviations) := by
  have hchoices : (choices p).length = (tasks (choices p) deviations).length := by
    simp [tasks, choices, h]
  have hcut := tasks_apart s i (choices p) deviations
  rw [hchoices] at hcut
  have hallowed : (max s.mobsimWorkers 1).toNat = max s.mobsimWorkers.toNat 1 :=
    UInt32.toNat_max _ _
  constructor
  · have hlength := congrArg List.length hcut
    rw [List.length_map, hallowed] at hlength
    rw [hlength]
    exact length_runs_le _ (le_mul_runLength _ (Nat.le_max_right _ 1))
  · intro w hw
    have hmem := List.mem_map_of_mem (f := Worker.tasks) hw
    rw [hcut] at hmem
    exact ne_nil_of_mem_runs hmem
  · rw [tasks_workers]
    exact map_commuter_tasks h

end Shares

end Mobsim

end CommuteSim
