import CommuteSim.Proofs.Controller.Account

/-!
# Failures and the result of a run

The failures of a run are those of its steps and the panics of its criterion, in the order in which
they happen. Where nobody else reports faults or claims the teardown and panics are not watched for,
the coordinator keeps book of them: the slot holds the first, the count has the number of the
others, and the flag is up as soon as there is one. So a step that fails ends the run, and there can
be a second failure only in the round after the mobsim, which is never left out.

Main statement: `first_failure`.
-/

namespace CommuteSim

variable {σ : Type}

/-! ## Failures -/

/-- The failure that a moment tells of: the origin that it is reported with, and the fault. -/
def Moment.failure? (m : Moment σ) : Option (String × Fault) :=
  m.abort?.map fun (origin, a) => (origin, a.fault origin)

/-- The failures in a history. -/
def failures (l : List (Moment σ)) : List (String × Fault) := l.filterMap Moment.failure?

@[simp] theorem failures_append (l m : List (Moment σ)) :
    failures (l ++ m) = failures l ++ failures m :=
  List.filterMap_append ..

theorem failures_singleton (m : Moment σ) : failures [m] = m.failure?.toList := by
  cases h : m.failure? with
  | none => exact List.filterMap_cons_none h
  | some x => exact List.filterMap_cons_some h

/-- The step that a moment tells of as failed. -/
def Moment.failedStep? : Moment σ → Option Step
  | .ended step (.error _) _ => some step
  | _ => none

/-- The steps that failed in a history. -/
def failedSteps (l : List (Moment σ)) : List Step := l.filterMap Moment.failedStep?

@[simp] theorem failedSteps_append (l m : List (Moment σ)) :
    failedSteps (l ++ m) = failedSteps l ++ failedSteps m :=
  List.filterMap_append ..

/-- The round after the mobsim of an iteration fails after the round before it or the mobsim did. -/
def FailsAfterMobsim (l : List (Moment σ)) : Prop :=
  ∃ i p, (p = .beforeMobsim ∨ p = .mobsim) ∧
    [.phase p i, .phase .afterMobsim i].Sublist (failedSteps l)

theorem failure?_of_not_milestone {m : Moment σ} (h : m.milestone = false) : m.failure? = none := by
  cases m with
  | ended step result progress => cases h
  | answered i answer => cases h
  | _ => rfl

theorem failedStep?_of_not_milestone {m : Moment σ} (h : m.milestone = false) :
    m.failedStep? = none := by
  cases m with
  | ended step result progress => cases h
  | _ => rfl

theorem failure?_of_plain {stretch : Stretch} {m : Moment σ} (h : m.plain stretch = true) :
    m.failure? = none := by
  cases m with
  | ended step result progress => cases h
  | answered i answer => cases h
  | _ => rfl

theorem failures_milestones (l : List (Moment σ)) : failures (milestones l) = failures l :=
  filterMap_milestones (fun _ => failure?_of_not_milestone) l

theorem failedSteps_milestones (l : List (Moment σ)) :
    failedSteps (milestones l) = failedSteps l :=
  filterMap_milestones (fun _ => failedStep?_of_not_milestone) l

theorem failures_of_no_milestone {l : List (Moment σ)} (h : milestones l = []) :
    failures l = [] := by
  rw [← failures_milestones, h]
  rfl

theorem failure?_of_failedStep? {m : Moment σ} {step : Step} (h : m.failedStep? = some step) :
    ∃ x, m.failure? = some x := by
  cases m with
  | ended _ result _ =>
      cases result with
      | ok _ => cases h
      | error a => exact ⟨_, rfl⟩
  | _ => cases h

/-- Each step that failed is a failure. -/
theorem length_failedSteps_le (l : List (Moment σ)) :
    (failedSteps l).length ≤ (failures l).length := by
  induction l with
  | nil => exact Nat.le_refl _
  | cons m rest ih =>
      unfold failedSteps failures at ih ⊢
      cases hm : m.failedStep? with
      | none =>
          rw [List.filterMap_cons_none hm]
          exact Nat.le_trans ih ((List.sublist_cons_self m rest).filterMap _).length_le
      | some step =>
          obtain ⟨x, hx⟩ := failure?_of_failedStep? hm
          rw [List.filterMap_cons_some hm, List.filterMap_cons_some hx]
          exact Nat.succ_le_succ ih

/-! ## Books -/

/-- The coordinator keeps book of these failures, which came up since the count was `d`. -/
structure Books (d : Nat) (F : List (String × Fault)) (c : Coordinator) : Prop where
  slot : c.fault.map (fun r => (r.origin, r.fault)) = F.head?
  discarded : c.discarded = d + (F.length - 1)
  teardown : c.teardown = false

theorem books_new {c : Coordinator} (hfault : c.fault = none) (hteardown : c.teardown = false) :
    Books c.discarded [] c :=
  ⟨by rw [hfault]; rfl, rfl, hteardown⟩

theorem Books.of_steady {d : Nat} {F : List (String × Fault)} {c e : Coordinator}
    (h : Books d F c) (hsteady : c.Steady e) : Books d F e where
  slot := by
    rw [hsteady.fault]
    exact h.slot
  discarded := hsteady.discarded.trans h.discarded
  teardown := hsteady.teardown.trans h.teardown

/-- The first fault goes into the slot. -/
theorem record_of_none {c : Coordinator} (hteardown : c.teardown = false) (hfault : c.fault = none)
    (r : FaultRecord) : (c.record r).2 = { c with flag := true, fault := some r } := by
  simp [Coordinator.record, Coordinator.capture, hteardown, hfault]

/-- A later one is only counted. -/
theorem record_of_some {c : Coordinator} {r₀ : FaultRecord} (hteardown : c.teardown = false)
    (hfault : c.fault = some r₀) (r : FaultRecord) :
    (c.record r).2 = { c with flag := true, discarded := c.discarded + 1 } := by
  simp [Coordinator.record, Coordinator.capture, Coordinator.countDiscarded, hteardown, hfault]

/-- A fault is entered at the end of the books. -/
theorem books_record {d : Nat} {F : List (String × Fault)} {c : Coordinator} (h : Books d F c)
    (r : FaultRecord) : Books d (F ++ [(r.origin, r.fault)]) (c.record r).2 := by
  obtain ⟨hslot, hdiscarded, hteardown⟩ := h
  cases hfault : c.fault with
  | none =>
      -- the slot is empty, so nothing was entered before
      rw [hfault] at hslot
      obtain rfl : F = [] := List.head?_eq_none_iff.mp hslot.symm
      rw [record_of_none hteardown hfault]
      exact ⟨rfl, hdiscarded, hteardown⟩
  | some r₀ =>
      rw [hfault] at hslot
      cases F with
      | nil => cases hslot
      | cons x rest =>
          rw [record_of_some hteardown hfault]
          refine ⟨?_, ?_, hteardown⟩
          · rw [hfault]
            exact hslot
          · simp [hdiscarded, Nat.add_assoc]

/-! ## Books on the way -/

/-- Nobody but the controller reports a fault or claims the teardown. -/
structure Alone (l : List (Moment σ)) : Prop where
  unreported : World.Unreported l
  unclaimed : World.Unclaimed l

section Alone

variable {l m : List (Moment σ)}

theorem Alone.left (h : Alone (l ++ m)) : Alone l where
  unreported := fun origin f hm => h.unreported origin f (List.mem_append_left m hm)
  unclaimed := fun hm => h.unclaimed (List.mem_append_left m hm)

theorem Alone.right (h : Alone (l ++ m)) : Alone m where
  unreported := fun origin f hm => h.unreported origin f (List.mem_append_right l hm)
  unclaimed := fun hm => h.unclaimed (List.mem_append_right l hm)

/-- Whether a moment tells of someone but the controller who reports a fault or claims the
teardown. -/
def Moment.interferes : Moment σ → Bool
  | .acted (.report ..) | .acted .claimTeardown => true
  | _ => false

theorem alone_iff : Alone l ↔ ∀ m ∈ l, m.interferes = false := by
  refine ⟨fun h m hm => ?_, fun h => ⟨fun origin f hm => ?_, fun hm => ?_⟩⟩
  · cases m with
    | acted act =>
        cases act with
        | report origin f => exact absurd hm (h.unreported origin f)
        | claimTeardown => exact absurd hm h.unclaimed
        | _ => rfl
    | _ => rfl
  · cases h _ hm
  · cases h _ hm

instance : Decidable (Alone l) := decidable_of_iff _ alone_iff.symm

end Alone

namespace World

variable {w u : World σ} {l : List (Moment σ)}

theorem steady_path (h : Path w l u) (hl : Alone l)
    (hh : w.process.handler ≠ .watching w.self) : w.coordinator.Steady u.coordinator where
  later := later_path h
  teardown := teardown_path h hl.unclaimed
  fault := (fault_path h hl.unreported hh).1
  discarded := (fault_path h hl.unreported hh).2

/-- What is disclosed is entered in the books. -/
theorem books_disclosed {failure : Option (String × Abort Fault)} {d : Nat}
    {F : List (String × Fault)} (h : Disclosed false failure w l u) (hl : Alone l)
    (hh : w.process.handler ≠ .watching w.self) (hbooks : Books d F w.coordinator) :
    Books d (F ++ (failure.map fun (origin, a) => (origin, a.fault origin)).toList)
      u.coordinator := by
  cases h with
  | nothing h =>
      rw [Option.map_none, Option.toList_none, List.append_nil]
      exact hbooks.of_steady (steady_path h hl hh)
  | @recorded origin a _ _ _ now h =>
      rw [coordinator_reported]
      exact books_record (hbooks.of_steady (steady_path h hl.left hh)) ⟨a.fault origin, origin, now⟩
  | spared hw h hv => cases hw

end World

namespace Session

variable {s u : Session σ} {l : List (Moment σ)} {d : Nat} {F : List (String × Fault)}

theorem books_move (h : Move .opening s l u) (hl : Alone l) (hw : s.watches = false)
    (hh : s.world.process.handler ≠ .watching s.world.self)
    (hbooks : Books d F s.world.coordinator) :
    Books d (F ++ failures l) u.world.coordinator := by
  cases h with
  | path h =>
      rw [failures_of_no_milestone (World.milestones_path h), List.append_nil]
      exact hbooks.of_steady (World.steady_path h hl hh)
  | books c g h =>
      rw [show failures [] = [] from rfl, List.append_nil]
      exact hbooks
  | note h =>
      rw [failures_singleton, failure?_of_plain h, Option.toList_none, List.append_nil]
      exact hbooks
  | own h =>
      rw [failures_of_no_milestone (World.milestones_changes _ _), List.append_nil, inWorld,
        World.coordinator_setCoordinator]
      exact hbooks.of_steady h
  | handler x h =>
      rw [hw] at h
      cases h
  | @close _ n l m v w h h' hn =>
      -- the failure is entered when it is disclosed, and the history tells of it at the end
      have hlast : failures (l ++ m ++ [n]) = n.failure?.toList := by
        rw [failures_append, failures_append,
          failures_of_no_milestone (World.milestones_disclosed h),
          failures_of_no_milestone (World.milestones_path h'), failures_singleton]
        rfl
      rw [hw] at h
      have hv : v.process.handler ≠ .watching v.self := by
        rw [World.handler_disclosed h, World.self_disclosed h]
        exact hh
      have hdisclosed := World.books_disclosed h hl.left.left hh hbooks
      have hend : v.coordinator.Steady w.coordinator := World.steady_path h' hl.left.right hv
      rw [hlast]
      exact hdisclosed.of_steady hend

/-- Up to the claim the coordinator keeps book of all failures. -/
theorem books_journey (h : Journey .opening s l u) (hl : Alone l) (hw : s.watches = false)
    (hh : s.world.process.handler ≠ .watching s.world.self)
    (hbooks : Books d F s.world.coordinator) :
    Books d (F ++ failures l) u.world.coordinator := by
  induction h with
  | refl =>
      rw [show failures [] = [] from rfl, List.append_nil]
      exact hbooks
  | tail hjourney hmove ih =>
      rw [failures_append, ← List.append_assoc]
      refine books_move hmove hl.right ((watches_journey hjourney).trans hw) ?_ (ih hl.left)
      rw [handler_journey hjourney hw, self_journey hjourney]
      exact hh

end Session

/-! ## How many failures a course has -/

/-- Whoever fails is not followed by the next step. -/
def Heeded (l : List (Moment σ)) : Prop := ∀ step a p, .ended step (.error a) p ∈ l → p = .aborted

/-- There is one failure at most, or the round after the mobsim fails too. -/
inductive Few (l : List (Moment σ)) : Prop where
  | single (h : (failures l).length ≤ 1) : Few l
  | pair (h : (failures l).length = 2) (hafter : FailsAfterMobsim l) : Few l

section Few

variable {l m : List (Moment σ)}

theorem Heeded.left (h : Heeded (l ++ m)) : Heeded l :=
  fun step a p hmem => h step a p (List.mem_append_left m hmem)

theorem Heeded.right (h : Heeded (l ++ m)) : Heeded m :=
  fun step a p hmem => h step a p (List.mem_append_right l hmem)

/-- A second failure after the mobsim is a failure more than the first. -/
theorem two_le_of_failsAfterMobsim (h : FailsAfterMobsim l) : 2 ≤ (failures l).length := by
  obtain ⟨i, p, -, hsub⟩ := h
  exact Nat.le_trans hsub.length_le (length_failedSteps_le l)

theorem few_of_nil (h : failures l = []) : Few l :=
  .single (by rw [h]; exact Nat.zero_le 1)

/-- More of a history has few failures if there is none in what is new. -/
theorem Few.of_more (h : Few l) (hfailures : failures m = failures l)
    (hsteps : (failedSteps l).Sublist (failedSteps m)) : Few m := by
  cases h with
  | single h => exact .single (hfailures ▸ h)
  | pair h hafter =>
      obtain ⟨i, p, hp, hsub⟩ := hafter
      exact .pair (hfailures ▸ h) ⟨i, p, hp, hsub.trans hsteps⟩

theorem few_append_right (hl : failures l = []) (hm : Few m) : Few (l ++ m) := by
  refine Few.of_more hm ?_ ?_
  · rw [failures_append, hl, List.nil_append]
  · rw [failedSteps_append]
    exact List.sublist_append_right _ _

theorem few_append_left (hl : Few l) (hm : failures m = []) : Few (l ++ m) := by
  refine Few.of_more hl ?_ ?_
  · rw [failures_append, hm, List.append_nil]
  · rw [failedSteps_append]
    exact List.sublist_append_left _ _

/-- There is a failure behind the first exactly if the round after the mobsim fails too. -/
theorem excess_of_few (h : Few l) :
    (FailsAfterMobsim l → (failures l).length - 1 = 1) ∧
      (¬ FailsAfterMobsim l → (failures l).length - 1 = 0) := by
  cases h with
  | single hone =>
      refine ⟨fun hafter => ?_, fun _ => by omega⟩
      have htwo := two_le_of_failsAfterMobsim hafter
      omega
  | pair hlength hafter => exact ⟨fun _ => by rw [hlength], fun hnot => absurd hafter hnot⟩

end Few

namespace Controller

/-- A course that goes on only if nothing failed, and has few failures. -/
def Careful (A : Course σ) : Prop :=
  ∀ p l, A p l → Heeded l → Few l ∧ (p = .proceed → failures l = [])

/-- What a step leaves tells of its failure, if what it does tells of none. -/
theorem failures_step {step : Step} {R : Outcome Fault Unit → List (Moment σ) → Prop}
    {p : Progress} {l : List (Moment σ)} (hR : ∀ result inner, R result inner → failures inner = [])
    (h : stepCourse step R p l) (hl : Heeded l) :
    failures l = [] ∨ p = .aborted ∧ (failures l).length = 1 ∧ [step].Sublist (failedSteps l) := by
  obtain ⟨result, inner, hinner, rfl⟩ := h
  have hfailures : failures (.began step :: inner ++ [.ended step result p]) =
      failures [.ended (σ := σ) step result p] := by
    change failures (inner ++ _) = _
    rw [failures_append, hR result inner hinner, List.nil_append]
  cases result with
  | ok _ => exact .inl hfailures
  | error a =>
      have hp := hl step a p (List.mem_append_right _ List.mem_cons_self)
      refine .inr ⟨hp, by rw [hfailures]; rfl, ?_⟩
      rw [failedSteps_append]
      exact List.sublist_append_right _ _

theorem careful_step {step : Step} {R : Outcome Fault Unit → List (Moment σ) → Prop}
    (hR : ∀ result inner, R result inner → failures inner = []) : Careful (stepCourse step R) := by
  intro p l h hl
  rcases failures_step hR h hl with hnone | ⟨hp, hone, -⟩
  · exact ⟨few_of_nil hnone, fun _ => hnone⟩
  · refine ⟨.single (Nat.le_of_eq hone), fun hproceed => ?_⟩
    rw [hp] at hproceed
    cases hproceed

theorem careful_pass : Careful (σ := σ) Course.pass := by
  rintro p l ⟨-, rfl⟩ -
  exact ⟨few_of_nil rfl, fun _ => rfl⟩

theorem careful_andThen {A B : Course σ} (hA : Careful A) (hB : Careful B) :
    Careful (A.andThen B) := by
  rintro p l (⟨rfl, h⟩ | ⟨m, n, hm, hn, rfl⟩) hl
  · exact hA .aborted l h hl
  · have hfirst := (hA .proceed m hm hl.left).2 rfl
    obtain ⟨hfew, hnone⟩ := hB p n hn hl.right
    refine ⟨few_append_right hfirst hfew, fun hp => ?_⟩
    rw [failures_append, hfirst, hnone hp]
    rfl

theorem failures_quiet (result : Outcome Fault Unit) (inner : List (Moment σ))
    (h : Quietly result inner) : failures inner = [] := by
  rw [show inner = [] from h]
  rfl

theorem failures_announced (e : Event) (result : Outcome Fault Unit) (inner : List (Moment σ))
    (h : Announces e result inner) : failures inner = [] := by
  rw [show inner = [.round e] from h]
  rfl

theorem failures_begun (i : IterationIndex) (result : Outcome Fault Unit)
    (inner : List (Moment σ)) (h : Begins i result inner) : failures inner = [] := by
  rcases h with rfl | ⟨rfl, -⟩ <;> rfl

theorem failures_simulated (i : IterationIndex) (result : Outcome Fault Unit)
    (inner : List (Moment σ)) (h : Simulates i result inner) : failures inner = [] := by
  obtain ⟨g, rfl⟩ := h
  rfl

theorem failures_told (p : Phase) (i : IterationIndex) (_ : Outcome Fault Unit)
    (inner : List (Moment σ)) (h : inner = (p.event? i).toList.map .round) :
    failures inner = [] := by
  rw [h]
  cases p.event? i <;> rfl

theorem careful_round (p : Phase) (i : IterationIndex) : Careful (σ := σ) (roundCourse p i) :=
  careful_step (failures_told p i)

/-- A step that fails, with the round after the mobsim behind it. -/
theorem few_afterMobsim {i : IterationIndex} {p : Phase} {q : Progress} {l n : List (Moment σ)}
    (hp : p = .beforeMobsim ∨ p = .mobsim)
    (hl : failures l = [] ∨ (failures l).length = 1 ∧ [.phase p i].Sublist (failedSteps l))
    (hn : roundCourse .afterMobsim i q n) (hheeded : Heeded n) : Few (l ++ n) := by
  rcases hl with hl | ⟨hlength, hfailed⟩
  · exact few_append_right hl (careful_round .afterMobsim i q n hn hheeded).1
  · rcases failures_step (failures_told .afterMobsim i) hn hheeded with hn | ⟨-, hone, hlast⟩
    · exact few_append_left (.single (Nat.le_of_eq hlength)) hn
    · refine .pair ?_ ⟨i, p, hp, ?_⟩
      · rw [failures_append, List.length_append, hlength, hone]
      · rw [failedSteps_append]
        exact hfailed.append hlast

theorem careful_mobsim (i : IterationIndex) : Careful (σ := σ) (MobsimCourse i) := by
  intro p l h hl
  cases h with
  | @through _ l m n before mobsim after =>
      have hbefore := (careful_round .beforeMobsim i _ _ before hl.left.left).2 rfl
      have hmobsim := (careful_step (failures_simulated i) _ _ mobsim hl.left.right).2 rfl
      have hfirst : failures (l ++ m) = [] := by rw [failures_append, hbefore, hmobsim]; rfl
      obtain ⟨hfew, hnone⟩ := careful_round .afterMobsim i _ _ after hl.right
      refine ⟨few_append_right hfirst hfew, fun hp => ?_⟩
      rw [failures_append, hfirst, hnone hp]
      rfl
  | mobsimAborted before mobsim after =>
      have hbefore := (careful_round .beforeMobsim i _ _ before hl.left.left).2 rfl
      refine ⟨?_, nofun⟩
      rw [List.append_assoc] at hl ⊢
      refine few_append_right hbefore (few_afterMobsim (.inr rfl) ?_ after hl.right.right)
      exact (failures_step (failures_simulated i) mobsim hl.right.left).imp_right And.right
  | beforeAborted before after =>
      refine ⟨few_afterMobsim (.inl rfl) ?_ after hl.right, nofun⟩
      exact (failures_step (failures_told .beforeMobsim i) before hl.left).imp_right And.right

theorem careful_phases (first i : IterationIndex) : Careful (σ := σ) (phasesCourse first i) := by
  refine careful_andThen (careful_step (failures_begun i)) (careful_andThen ?_
    (careful_andThen (careful_mobsim i) (careful_andThen (careful_round _ i) (careful_round _ i))))
  split
  · exact careful_round .replanning i
  · exact careful_pass

theorem careful_iteration (first i : IterationIndex) :
    Careful (σ := σ) (IterationCourse first i) := by
  intro p l h hl
  cases h with
  | completed h ledger =>
      obtain ⟨hfew, hnone⟩ := careful_phases first i _ _ h hl.left
      refine ⟨few_append_left hfew rfl, fun _ => ?_⟩
      rw [failures_append, hnone rfl]
      rfl
  | cut h => exact careful_phases first i _ _ h hl

theorem careful_startUp : Careful (σ := σ) startUpCourse :=
  careful_andThen (careful_step failures_quiet)
    (careful_andThen (careful_step (failures_announced _))
      (careful_andThen (careful_step failures_quiet) (careful_step failures_quiet)))

/-- A loop has few failures, as the iteration in which one comes up is the last. -/
theorem few_loop {first i : IterationIndex} {l : List (Moment σ)} (h : LoopCourse first i l)
    (hl : Heeded l) : Few l := by
  induction h with
  | unasked i => exact few_of_nil rfl
  | @declined i answer h =>
      cases answer with
      | ok b => exact few_of_nil rfl
      | error a =>
          cases a with
          | failure e => exact nomatch e
          | panic x => exact .single (Nat.le_refl 1)
  | @last i p l h hp =>
      have hrest : Heeded ([.asked i, .answered i (.ok true)] ++ l) := hl
      exact few_append_right (l := [.asked i, .answered i (.ok true)]) rfl
        (careful_iteration first i p l h hrest.right).1
  | @more i j l m h hj hm ih =>
      have hrest : Heeded ([.asked i, .answered i (.ok true)] ++ (l ++ m)) := hl
      -- the loop went on, so nothing failed in the iteration
      have hnone := (careful_iteration first i _ l h hrest.right.left).2 rfl
      exact few_append_right (l := [.asked i, .answered i (.ok true)]) rfl
        (few_append_right hnone (ih hrest.right.right))

theorem few_opening {first : IterationIndex} {l : List (Moment σ)} (h : OpeningCourse first l)
    (hl : Heeded l) : Few l := by
  cases h with
  | cut h => exact (careful_startUp _ _ h hl).1
  | iterated h h' =>
      exact few_append_right ((careful_startUp _ _ h hl.left).2 rfl) (few_loop h' hl.right)

/-! ## The whole run -/

/-- The coordinator of a run is left to the controller: no handler watches for panics on its behalf,
it holds no fault and no claim before the run, and during the run nobody else reports a fault or
claims the teardown. Everyone may interrupt the run. -/
structure Unaided (s : Session σ) : Prop where
  unwatched : s.watches = false
  handler : s.world.process.handler ≠ .watching s.world.self
  fault : s.world.coordinator.fault = none
  teardown : s.world.coordinator.teardown = false
  alone : Alone (runHistory s)

/-- What a run with the history `l` and the result `r` has made of its failures. The count of
discarded faults was `d` before it and is `e` after it. -/
structure Attributes (l : List (Moment σ)) (r : Except RunFailure RunSummary) (d e : Nat) :
    Prop where
  first : ∀ origin f rest, failures l = (origin, f) :: rest → r = .error (.fault origin f)
  success : failures l = [] → ∃ summary, r = .ok summary
  discarded : FailsAfterMobsim l → e = d + 1
  none_discarded : ¬ FailsAfterMobsim l → e = d

section Account

variable {C : List (Moment σ) → Prop} {s u : Session σ} {r : Except RunFailure RunSummary}

/-- A step that fails aborts the run where nobody else claims the teardown. -/
theorem heeded_account (a : Account C s r u) (hw : s.watches = false)
    (hteardown : s.world.coordinator.teardown = false) (hl : Alone a.before) :
    Heeded (milestones a.before) := by
  intro step x p hmem
  cases p with
  | aborted => rfl
  | proceed =>
      obtain ⟨b, c, hsplit⟩ := List.append_of_mem ((mem_milestones rfl).mp hmem)
      -- only a claim of someone else lets the run go on after a failure
      rcases Session.claimed_of_proceed a.opening hsplit (.inr hw) with hclaimed | hclaimed
      · rw [hteardown] at hclaimed
        cases hclaimed
      · exact absurd (hsplit ▸ List.mem_append_left _ hclaimed) hl.unclaimed

/-- From the claim on nothing fails that belongs to a step or to a question. -/
theorem failures_account (a : Account C s r u) :
    failures (a.found.claimMoments ++ a.after) = [] ∧
      failedSteps (a.found.claimMoments ++ a.after) = [] := by
  rw [← failures_milestones, ← failedSteps_milestones, milestones_append, milestones_claim,
    a.farewell]
  cases a.unexpected <;> exact ⟨rfl, rfl⟩

/-- After the claim nothing is discarded. -/
theorem discarded_account (a : Account C s r u) (hw : s.watches = false)
    (hh : s.world.process.handler ≠ .watching s.world.self) (hl : Alone a.after) :
    u.world.coordinator.discarded = a.found.world.coordinator.discarded := by
  have hwatches : a.found.claim.watches = false := (Session.watches_journey a.opening).trans hw
  have hhandler : a.found.claim.world.process.handler ≠ .watching a.found.claim.world.self := by
    change a.found.world.process.handler ≠ .watching a.found.world.self
    rw [Session.handler_journey a.opening hw, Session.self_journey a.opening]
    exact hh
  rw [(Session.fault_journey a.closing hl.unreported hwatches hhandler).2,
    Session.coordinator_claim]
  rfl

end Account

theorem few_of_milestones {l : List (Moment σ)} (h : Few (milestones l)) : Few l :=
  Few.of_more h (failures_milestones l).symm (failedSteps_milestones l ▸ List.Sublist.refl _)

/-- The result goes by the books. -/
theorem result_of_books {d : Nat} {F : List (String × Fault)} {found : Coordinator}
    (h : Books d F found) (c : Controller σ) (unexpected : Bool) :
    (∀ origin f rest, F = (origin, f) :: rest →
        result c unexpected found.fault = .error (.fault origin f)) ∧
      (F = [] → ∃ summary, result c unexpected found.fault = .ok summary) := by
  refine ⟨?_, ?_⟩
  · rintro origin f rest rfl
    have hslot := h.slot
    cases hfault : found.fault with
    | none =>
        rw [hfault] at hslot
        cases hslot
    | some record =>
        rw [hfault] at hslot
        cases hslot
        rfl
  · rintro rfl
    have hslot := h.slot
    cases hfault : found.fault with
    | none => exact ⟨_, rfl⟩
    | some record =>
        rw [hfault] at hslot
        cases hslot

/-- No failure of a run is lost. Where the coordinator is left to the controller, whatever
interrupts the run, its result names the first failure of a step or of the criterion, and tells that
there was none only if there was none. A second failure, which is discarded, comes from the round
after the mobsim. -/
theorem first_failure (s : Session σ) (h : s.controller.stage = .idle) (hs : Unaided s) :
    Attributes (runHistory s) (run s).1 s.world.coordinator.discarded
      (run s).2.world.coordinator.discarded := by
  obtain ⟨a⟩ := account s h
  have hhistory : runHistory s = a.before ++ (a.found.claimMoments ++ a.after) := by
    rw [runHistory, past_account a, List.drop_left]
  have halone := hs.alone
  rw [hhistory] at halone ⊢
  obtain ⟨hnone, hsteps⟩ := failures_account a
  have hbooks := Session.books_journey a.opening halone.left hs.unwatched hs.handler
    (books_new hs.fault hs.teardown)
  have hfew := few_of_milestones
    (few_opening a.course (heeded_account a hs.unwatched hs.teardown halone.left))
  have hend : (run s).2.world.coordinator.discarded =
      s.world.coordinator.discarded + ((failures a.before).length - 1) :=
    (discarded_account a hs.unwatched hs.handler halone.right.right).trans hbooks.discarded
  have hfailures : failures (a.before ++ (a.found.claimMoments ++ a.after)) =
      failures a.before := by
    rw [failures_append, hnone, List.append_nil]
  have hafter : FailsAfterMobsim (a.before ++ (a.found.claimMoments ++ a.after)) ↔
      FailsAfterMobsim a.before := by
    unfold FailsAfterMobsim
    rw [failedSteps_append, hsteps, List.append_nil]
  obtain ⟨c, hr⟩ := a.result
  obtain ⟨hfirst, hsuccess⟩ := result_of_books hbooks c a.unexpected
  rw [← hr] at hfirst hsuccess
  refine ⟨?_, ?_, ?_, ?_⟩
  · rw [hfailures]
    exact hfirst
  · rw [hfailures]
    exact hsuccess
  · rw [hafter, hend]
    intro htwo
    rw [(excess_of_few hfew).1 htwo]
  · rw [hafter, hend]
    intro hnot
    rw [(excess_of_few hfew).2 hnot, Nat.add_zero]

/-! ## Two failures in one iteration -/

/-- A listener that panics after the mobsim. -/
def panicking : Listener Unit where
  name := "panicking"
  notify
    | .afterMobsim _ => .panic ⟨.text "no events", "events.rs:7"⟩
    | _ => return

/-- A session whose mobsim fails, with that listener. -/
def failingTwice : Session Unit where
  controller :=
    { context :=
        { configuration := { controller :=
            { lastIteration := 0, outputDirectory := "out", iterationDirectories := false,
              capturePanics := false } }
          output := { root := "out" } }
      simulation := { mobsim := fun _ _ => .fail ⟨"no route", []⟩ }
      bus := { user := [panicking] }
      seeding := { base := 4711 } }
  world := { memory := (), files := { entries := [(["out"], .directory)] } }

/-- The failure of the mobsim is the one that is reported, and the panic after it is discarded. -/
theorem first_failure_twice :
    failingTwice.controller.stage = .idle ∧ Unaided failingTwice ∧
      (run failingTwice).1 =
        .error (.fault "mobsim in iteration 0" (.phase .mobsim 0 ⟨"no route", []⟩)) ∧
      (run failingTwice).2.world.coordinator.discarded = 1 := by
  have hunaided : Unaided failingTwice := ⟨rfl, by decide, rfl, rfl, by decide +kernel⟩
  have hfailures : failures (runHistory failingTwice) =
      [("mobsim in iteration 0", .phase .mobsim 0 ⟨"no route", []⟩),
        ("after_mobsim_listeners in iteration 0",
          .panic "after_mobsim_listeners in iteration 0" "no events")] := by
    decide +kernel
  have hsteps : failedSteps (runHistory failingTwice) =
      [.phase .mobsim 0, .phase .afterMobsim 0] := by
    decide +kernel
  have hafter : FailsAfterMobsim (runHistory failingTwice) :=
    ⟨0, .mobsim, .inr rfl, hsteps ▸ List.Sublist.refl _⟩
  have h := first_failure failingTwice rfl hunaided
  exact ⟨rfl, hunaided, h.first _ _ _ hfailures, h.discarded hafter⟩

end Controller

end CommuteSim
