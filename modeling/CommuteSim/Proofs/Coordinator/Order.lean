import CommuteSim.Coordinator.Process

/-!
# Earlier and later states of a coordinator

A coordinator goes one way: the flag, the claim and the mark that the teardown is over stay once
they are there, and the fault stays as it is once there is one or once the teardown is claimed.
Whatever a thread does to a coordinator leads to a later state.

Main statement: `Later` is a preorder, and every operation goes up in it (`later_act`).
-/

namespace CommuteSim

namespace Coordinator

/-- A state that a coordinator can be in after another one. -/
structure Later (c d : Coordinator) : Prop where
  flag : c.flag = true → d.flag = true
  teardown : c.teardown = true → d.teardown = true
  terminated : c.terminated = true → d.terminated = true
  fault_of_some : ∀ {r}, c.fault = some r → d.fault = some r
  fault_of_teardown : c.teardown = true → d.fault = c.fault

theorem Later.refl (c : Coordinator) : Later c c :=
  ⟨id, id, id, id, fun _ => rfl⟩

theorem Later.trans {c d e : Coordinator} (h : Later c d) (h' : Later d e) : Later c e where
  flag := fun hc => h'.flag (h.flag hc)
  teardown := fun hc => h'.teardown (h.teardown hc)
  terminated := fun hc => h'.terminated (h.terminated hc)
  fault_of_some := fun hc => h'.fault_of_some (h.fault_of_some hc)
  fault_of_teardown := fun hc => by
    rw [h'.fault_of_teardown (h.teardown hc), h.fault_of_teardown hc]

/-! ## Operations -/

theorem later_capture (c : Coordinator) (r : FaultRecord) : Later c (c.capture r).2 where
  flag := c.capture_flag r
  teardown := by
    intro hc
    simp [capture, hc]
  terminated := by
    intro hc
    unfold capture
    split
    · exact hc
    · split <;> exact hc
  fault_of_some := c.capture_fault_of_some r
  fault_of_teardown := by
    intro hc
    simp [capture, hc]

theorem later_countDiscarded (c : Coordinator) : Later c c.countDiscarded :=
  ⟨id, id, id, id, fun _ => rfl⟩

theorem later_record (c : Coordinator) (r : FaultRecord) : Later c (c.record r).2 := by
  have h := c.later_capture r
  unfold record
  split
  · rename_i d hd
    rw [hd] at h
    exact h
  · rename_i k d _ hd
    rw [hd] at h
    exact h.trans d.later_countDiscarded

/-- A report requests a shutdown unless the teardown is claimed. -/
theorem flag_record (c : Coordinator) (r : FaultRecord) :
    (c.record r).2.flag = true ∨ (c.record r).2.teardown = true := by
  unfold record capture countDiscarded
  cases hc : c.teardown with
  | true => exact .inr (by simp [hc])
  | false => cases hf : c.fault <;> exact .inl (by simp)

theorem later_claim (c : Coordinator) : Later c c.claim.2 :=
  ⟨id, fun _ => rfl, id, id, fun _ => rfl⟩

theorem later_raiseFlag (c : Coordinator) : Later c c.raiseFlag :=
  ⟨fun _ => rfl, id, id, id, fun _ => rfl⟩

theorem later_wait (c : Coordinator) : Later c c.wait :=
  ⟨id, id, id, id, fun _ => rfl⟩

theorem later_terminate (c : Coordinator) : Later c c.terminate := by
  unfold terminate
  split
  · exact Later.refl c
  · exact ⟨id, id, fun _ => rfl, id, fun _ => rfl⟩

end Coordinator

/-! ## Threads -/

namespace Process

open Coordinator (Later)

/-- The coordinator with a number, as new if there is none. -/
def coordinator (p : Process) (i : CoordinatorId) : Coordinator := (p.coordinators i).getD {}

theorem later_update (p : Process) (i j : CoordinatorId) {f : Coordinator → Coordinator}
    (hf : ∀ c, Later c (f c)) : Later (p.coordinator i) ((p.update j f).coordinator i) := by
  unfold coordinator update put
  dsimp only
  split
  · rename_i hij
    rw [hij]
    cases p.coordinators j with
    | none => exact Later.refl _
    | some c => exact hf c
  · exact Later.refl _

theorem later_report (p : Process) (i j : CoordinatorId) (origin : String) (f : Fault)
    (now : Instant) : Later (p.coordinator i) ((p.report j origin f now).coordinator i) :=
  p.later_update i j fun c => c.later_record _

theorem later_panic (p : Process) (i : CoordinatorId) (thread : Option String) (x : Panic)
    (now : Instant) : Later (p.coordinator i) ((p.panic thread x now).coordinator i) := by
  unfold panic
  split
  · exact Later.refl _
  · exact p.later_report i _ _ _ now

/-- Whatever a thread does leads every coordinator to a later state. -/
theorem later_act (p : Process) (i j : CoordinatorId) (now : Instant) (a : ThreadAct) :
    Later (p.coordinator i) ((p.act j now a).coordinator i) := by
  cases a with
  | report origin f => exact p.later_report i j origin f now
  | panic thread x => exact p.later_panic i thread x now
  | interrupt =>
      exact p.later_update i j fun c => c.later_raiseFlag.trans c.raiseFlag.later_wait
  | claimTeardown => exact p.later_update i j fun c => c.later_claim
  | terminate => exact p.later_update i j fun c => c.later_terminate

theorem later_acts (p : Process) (i j : CoordinatorId) (now : Instant) (as : List ThreadAct) :
    Later (p.coordinator i) ((p.acts j now as).coordinator i) := by
  induction as generalizing p with
  | nil => exact Later.refl _
  | cons a rest ih => exact (p.later_act i j now a).trans (ih (p.act j now a))

end Process

end CommuteSim
