import CommuteSim.Controller.Teardown
import CommuteSim.Proofs.Coordinator.Order

/-!
# What collaborators and other threads can do to a world

Between two milestones of a controller the world goes along a path: one small move after the other,
made by a collaborator or by another thread, each with the moments that it adds to the history.
There are six kinds of moves, so what every path keeps is proved by looking at six cases.

Main statements: on a path the coordinator goes to later states only, and so does it through all
states that the history keeps (`later_path`, `shared_path`); a path has no milestones
(`milestones_path`); a path on which nobody claims the teardown leaves it unclaimed
(`teardown_path`), and one on which nobody reports a fault leaves the slot alone (`fault_path`).
-/

namespace CommuteSim

variable {σ : Type}

/-! ## Milestones -/

/-- The lines from which one reads off whether a shutdown was expected. -/
def verdictLines : List LogLine :=
  [Controller.unexpectedLine, Controller.endedUnexpectedlyLine, Controller.unusableLine,
    Controller.completedLine]

/-- Whether a moment is something that the controller does, and nobody else. -/
def Moment.milestone : Moment σ → Bool
  | .said .controller line => line ∈ verdictLines
  | .began _ | .ended .. | .round _ | .mobsim .. | .asked _ | .answered .. | .reported _
  | .claimed _ => true
  | .said .collaborator _ | .told .. | .acted _ | .shared _ | .raised | .released _ => false

/-- Whether a moment only tells what a listener is told or a log receives. -/
def Moment.remark : Moment σ → Bool
  | .said .controller line => line ∉ verdictLines
  | .said .collaborator _ | .told .. => true
  | .began _ | .ended .. | .round _ | .mobsim .. | .asked _ | .answered .. | .reported _
  | .claimed _ | .acted _ | .shared _ | .raised | .released _ => false

theorem Moment.milestone_of_remark {m : Moment σ} (h : m.remark = true) : m.milestone = false := by
  cases m with
  | said speaker line =>
      cases speaker with
      | controller => simpa [Moment.remark, Moment.milestone] using h
      | collaborator => rfl
  | told _ _ _ _ _ => rfl
  | _ => cases h

/-- What the controller does in a history. -/
def milestones (l : List (Moment σ)) : List (Moment σ) := l.filter Moment.milestone

@[simp] theorem milestones_append (l m : List (Moment σ)) :
    milestones (l ++ m) = milestones l ++ milestones m :=
  List.filter_append ..

theorem mem_milestones {l : List (Moment σ)} {m : Moment σ} (h : m.milestone = true) :
    m ∈ milestones l ↔ m ∈ l := by
  simp [milestones, h]

/-- Who sees nothing in other moments sees all in the milestones. -/
theorem filterMap_milestones {β : Type} {f : Moment σ → Option β}
    (hf : ∀ m, m.milestone = false → f m = none) (l : List (Moment σ)) :
    (milestones l).filterMap f = l.filterMap f := by
  unfold milestones
  rw [List.filterMap_filter]
  congr 1
  funext m
  cases hm : m.milestone with
  | true => rfl
  | false => exact (hf m hm).symm

/-! ## Lists in a row -/

/-- An element of two lists in a row stands in the first or in the second. -/
theorem split_append {α : Type} {l m a b : List α} {e : α} (h : l ++ m = a ++ e :: b) :
    (∃ c, l = a ++ e :: c) ∨ ∃ c, a = l ++ c ∧ m = c ++ e :: b := by
  rcases List.append_eq_append_iff.mp h with hsecond | ⟨c, ha, hc⟩
  · exact .inr hsecond
  · cases c with
    | nil => exact .inr ⟨[], by rw [ha, List.append_nil, List.append_nil], hc.symm⟩
    | cons n rest =>
        obtain ⟨rfl, -⟩ := List.cons_eq_cons.mp hc
        exact .inl ⟨rest, ha⟩

/-- A beginning of two lists in a row is one of the first, or goes on into the second. -/
theorem beginning_append {α : Type} {l m a b : List α} (h : l ++ m = a ++ b) :
    (∃ c, l = a ++ c) ∨ ∃ c, a = l ++ c ∧ m = c ++ b := by
  rcases List.append_eq_append_iff.mp h with hsecond | ⟨c, hc, -⟩
  · exact .inr hsecond
  · exact .inl ⟨c, hc⟩

/-! ## Acts -/

/-- What a collaborator does to a coordinator on the controller's thread. -/
def ThreadAct.here (now : Instant) : ThreadAct → Coordinator → Coordinator
  | .report origin f, c => (c.record ⟨f, origin, now⟩).2
  | .interrupt, c => c.raiseFlag
  | .claimTeardown, c => c.claim.2
  | .terminate, c => c.terminate
  | .panic _ _, c => c

namespace World

/-! ## Moves -/

/-- What has happened up to now. -/
def past (w : World σ) : List (Moment σ) := w.history.toList

/-- A move of a collaborator or of another thread, with the moments that it adds. -/
inductive Move : World σ → List (Moment σ) → World σ → Prop where
  /-- Something changes that other threads do not see and the history does not tell. -/
  | silent {w u : World σ} (history : u.history = w.history) (process : u.process = w.process)
      (self : u.self = w.self) : Move w [] u
  | note {w : World σ} {m : Moment σ} (h : m.remark = true) : Move w [m] (w.noted m)
  /-- Another thread acts. -/
  | thread (w : World σ) (a : ThreadAct) :
      Move w (.acted a :: (w.changes (w.process.act w.self w.clock a)).toList) (w.undergo a)
  /-- A collaborator acts on the controller's thread. -/
  | here (w : World σ) (a : ThreadAct) (now : Instant) :
      Move w
        (.acted a :: (w.changes (w.process.put w.self (some (a.here now w.coordinator)))).toList)
        ((w.noted (.acted a)).setCoordinator (a.here now w.coordinator))
  /-- The handler that watches for the coordinator reports a panic on the controller's thread. -/
  | caught {w : World σ} (r : FaultRecord) (h : w.process.handler = .watching w.self) :
      Move w (w.changes (w.process.put w.self (some (w.coordinator.record r).2))).toList
        (w.setCoordinator (w.coordinator.record r).2)
  /-- Another handler learns of a panic on the controller's thread. -/
  | uncaught {w : World σ} (x : Panic) (h : w.process.handler ≠ .watching w.self) :
      Move w (w.changes (w.process.panic (some controllerThread) x w.clock)).toList
        (w.setProcess (w.process.panic (some controllerThread) x w.clock))

/-- Moves one after the other, with all moments that they add. -/
inductive Path : World σ → List (Moment σ) → World σ → Prop where
  | refl (w : World σ) : Path w [] w
  | tail {w v u : World σ} {l m : List (Moment σ)} :
      Path w l v → Move v m u → Path w (l ++ m) u

theorem Move.path {w u : World σ} {l : List (Moment σ)} (h : Move w l u) : Path w l u :=
  .tail (.refl w) h

theorem Path.trans {w v u : World σ} {l m : List (Moment σ)} (h : Path w l v) (h' : Path v m u) :
    Path w (l ++ m) u := by
  induction h' with
  | refl => rwa [List.append_nil]
  | tail _ hmove ih =>
      rw [← List.append_assoc]
      exact .tail ih hmove

/-! ## What a move keeps -/

@[simp] theorem past_noted (w : World σ) (m : Moment σ) : (w.noted m).past = w.past ++ [m] := by
  simp [past, noted]

@[simp] theorem past_setProcess (w : World σ) (p : Process) :
    (w.setProcess p).past = w.past ++ (w.changes p).toList := by
  simp [past, setProcess]

@[simp] theorem coordinator_setProcess (w : World σ) (p : Process) :
    (w.setProcess p).coordinator = p.coordinator w.self := rfl

@[simp] theorem coordinator_noted (w : World σ) (m : Moment σ) :
    (w.noted m).coordinator = w.coordinator := rfl

theorem coordinator_eq (w : World σ) : w.coordinator = w.process.coordinator w.self := rfl

theorem past_move {w u : World σ} {l : List (Moment σ)} (h : Move w l u) :
    u.past = w.past ++ l := by
  cases h with
  | silent history _ _ => rw [past, history, List.append_nil, past]
  | note _ => exact past_noted w _
  | thread a =>
      rw [undergo, past_setProcess, past_noted, List.append_assoc]
      rfl
  | here a now =>
      rw [setCoordinator, past_setProcess, past_noted, List.append_assoc]
      rfl
  | caught r _ => exact past_setProcess w _
  | uncaught x _ => exact past_setProcess w _

theorem self_move {w u : World σ} {l : List (Moment σ)} (h : Move w l u) : u.self = w.self := by
  cases h with
  | silent _ _ self => exact self
  | note _ => rfl
  | thread a => rfl
  | here a now => rfl
  | caught r _ => rfl
  | uncaught x _ => rfl

theorem handler_panic (p : Process) (thread : Option String) (x : Panic) (now : Instant) :
    (p.panic thread x now).handler = p.handler := by
  unfold Process.panic
  split
  · rfl
  · rename_i h
    exact h.symm ▸ rfl

theorem handler_move {w u : World σ} {l : List (Moment σ)} (h : Move w l u) :
    u.process.handler = w.process.handler := by
  cases h with
  | silent _ process _ => rw [process]
  | note _ => rfl
  | thread a =>
      cases a with
      | panic thread x => exact handler_panic _ _ _ _
      | report origin f => rfl
      | interrupt => rfl
      | claimTeardown => rfl
      | terminate => rfl
  | here a now => rfl
  | caught r _ => rfl
  | uncaught x _ => exact handler_panic _ _ _ _

theorem later_here (now : Instant) (a : ThreadAct) (c : Coordinator) : c.Later (a.here now c) := by
  cases a with
  | report origin f => exact c.later_record _
  | panic thread x => exact .refl c
  | interrupt => exact c.later_raiseFlag
  | claimTeardown => exact c.later_claim
  | terminate => exact c.later_terminate

theorem later_move {w u : World σ} {l : List (Moment σ)} (h : Move w l u) :
    w.coordinator.Later u.coordinator := by
  cases h with
  | silent _ process self =>
      rw [coordinator, coordinator, process, self]
      exact .refl _
  | note _ => exact .refl _
  | thread a => exact w.process.later_act w.self w.self w.clock a
  | here a now =>
      rw [coordinator_setCoordinator]
      exact later_here now a _
  | caught r _ =>
      rw [coordinator_setCoordinator]
      exact w.coordinator.later_record r
  | uncaught x _ => exact w.process.later_panic w.self _ x w.clock

/-! ## What is noted when the process changes -/

theorem mem_changes {w : World σ} {p : Process} {m : Moment σ} (h : m ∈ (w.changes p).toList) :
    m = .raised ∨ m = .released p.handler ∨ m = .shared (p.coordinator w.self) := by
  simp only [changes, Array.toList_append, List.mem_append] at h
  rcases h with (h | h) | h
  · split at h
    · simp at h
      exact .inl h
    · simp at h
  · split at h
    · simp at h
      exact .inr (.inl h)
    · simp at h
  · simp at h
    exact .inr (.inr h)

/-- The last that is noted of a change is the state that the coordinator goes into. -/
theorem getLast?_changes (w : World σ) (p : Process) :
    (w.changes p).toList.getLast? = some (.shared (p.coordinator w.self)) := by
  simp only [changes, Array.toList_append, List.getLast?_append]
  rfl

theorem shared_of_mem_changes {w : World σ} {p : Process} {c : Coordinator}
    (h : .shared c ∈ (w.changes p).toList) : c = p.coordinator w.self := by
  rcases mem_changes h with h | h | h
  · cases h
  · cases h
  · exact Moment.shared.inj h

/-- A state of the coordinator that a move notes is the one that it leads to. -/
theorem shared_move {w u : World σ} {l : List (Moment σ)} (h : Move w l u) {c : Coordinator}
    (hc : .shared c ∈ l) : c = u.coordinator := by
  cases h with
  | silent _ _ _ => cases hc
  | note hm =>
      rw [List.mem_singleton] at hc
      subst hc
      cases hm
  | thread a =>
      rcases List.mem_cons.mp hc with hc | hc
      · cases hc
      · rw [shared_of_mem_changes hc]
        rfl
  | here a now =>
      rcases List.mem_cons.mp hc with hc | hc
      · cases hc
      · rw [shared_of_mem_changes hc]
        rfl
  | caught r _ =>
      rw [shared_of_mem_changes hc]
      rfl
  | uncaught x _ =>
      rw [shared_of_mem_changes hc]
      rfl

theorem milestone_of_mem_changes {w : World σ} {p : Process} {m : Moment σ}
    (h : m ∈ (w.changes p).toList) : m.milestone = false := by
  rcases mem_changes h with rfl | rfl | rfl <;> rfl

@[simp] theorem milestones_changes (w : World σ) (p : Process) :
    milestones (w.changes p).toList = [] :=
  List.filter_eq_nil_iff.mpr fun _ hm => by simp [milestone_of_mem_changes hm]

/-- A move adds no milestone. -/
theorem milestone_move {w u : World σ} {l : List (Moment σ)} (h : Move w l u) {m : Moment σ}
    (hm : m ∈ l) : m.milestone = false := by
  cases h with
  | silent _ _ _ => cases hm
  | note hr =>
      rw [List.mem_singleton] at hm
      rw [hm]
      exact Moment.milestone_of_remark hr
  | thread a =>
      rcases List.mem_cons.mp hm with rfl | hm
      · rfl
      · exact milestone_of_mem_changes hm
  | here a now =>
      rcases List.mem_cons.mp hm with rfl | hm
      · rfl
      · exact milestone_of_mem_changes hm
  | caught r _ => exact milestone_of_mem_changes hm
  | uncaught x _ => exact milestone_of_mem_changes hm

/-! ## Moves on which nobody interferes -/

/-- Nobody but the controller reports a fault. -/
def Unreported (l : List (Moment σ)) : Prop := ∀ origin f, .acted (.report origin f) ∉ l

/-- Nobody but the controller claims the teardown. -/
def Unclaimed (l : List (Moment σ)) : Prop := .acted .claimTeardown ∉ l

theorem coordinator_update (p : Process) (i j : CoordinatorId) (f : Coordinator → Coordinator) :
    (p.update j f).coordinator i = p.coordinator i ∨
      (p.update j f).coordinator i = f (p.coordinator i) := by
  unfold Process.coordinator Process.update Process.put
  dsimp only
  split
  · rename_i hij
    rw [hij]
    cases p.coordinators j with
    | none => exact .inl rfl
    | some c => exact .inr rfl
  · exact .inl rfl

/-- An update keeps what the function that it applies keeps. -/
theorem update_keeps {β : Type} (field : Coordinator → β) (f : Coordinator → Coordinator)
    (hf : ∀ c, field (f c) = field c) (p : Process) (i j : CoordinatorId) :
    field ((p.update j f).coordinator i) = field (p.coordinator i) := by
  rcases coordinator_update p i j f with h | h
  · rw [h]
  · rw [h, hf]

theorem coordinator_update_of_ne (p : Process) {i j : CoordinatorId} (h : i ≠ j)
    (f : Coordinator → Coordinator) : (p.update j f).coordinator i = p.coordinator i := by
  unfold Process.coordinator Process.update Process.put
  simp [h]

/-- A panic reaches a coordinator only if the handler watches for it. -/
theorem coordinator_panic {p : Process} {i : CoordinatorId} (h : p.handler ≠ .watching i)
    (thread : Option String) (x : Panic) (now : Instant) :
    (p.panic thread x now).coordinator i = p.coordinator i := by
  unfold Process.panic
  split
  · rfl
  · rename_i j hj
    refine coordinator_update_of_ne p ?_ _
    rintro rfl
    exact h hj

theorem teardown_record (c : Coordinator) (r : FaultRecord) :
    (c.record r).2.teardown = c.teardown := by
  have h : (c.capture r).2.teardown = c.teardown := by
    unfold Coordinator.capture
    split
    · rfl
    · split <;> rfl
  unfold Coordinator.record
  split
  · rename_i hd
    rw [hd] at h
    exact h
  · rename_i hd
    rw [hd] at h
    exact h

theorem teardown_report (p : Process) (i j : CoordinatorId) (origin : String) (f : Fault)
    (now : Instant) :
    ((p.report j origin f now).coordinator i).teardown = (p.coordinator i).teardown :=
  update_keeps Coordinator.teardown _ (fun c => teardown_record c _) p i j

theorem teardown_panic (p : Process) (i : CoordinatorId) (thread : Option String) (x : Panic)
    (now : Instant) :
    ((p.panic thread x now).coordinator i).teardown = (p.coordinator i).teardown := by
  unfold Process.panic
  split
  · rfl
  · exact teardown_report p i _ _ _ now

theorem terminate_keeps (c : Coordinator) :
    c.terminate.teardown = c.teardown ∧ c.terminate.fault = c.fault ∧
      c.terminate.discarded = c.discarded := by
  unfold Coordinator.terminate
  split <;> exact ⟨rfl, rfl, rfl⟩

theorem teardown_move {w u : World σ} {l : List (Moment σ)} (h : Move w l u) (hl : Unclaimed l) :
    u.coordinator.teardown = w.coordinator.teardown := by
  cases h with
  | silent _ process self => rw [coordinator, coordinator, process, self]
  | note _ => rfl
  | thread a =>
      rw [undergo, coordinator_setProcess, coordinator_eq]
      cases a with
      | report origin f => exact teardown_report _ _ _ _ _ _
      | panic thread x => exact teardown_panic _ _ _ _ _
      | claimTeardown => exact absurd List.mem_cons_self hl
      | interrupt =>
          exact update_keeps Coordinator.teardown Coordinator.request (fun _ => rfl) _ _ _
      | terminate =>
          exact update_keeps Coordinator.teardown _ (fun c => (terminate_keeps c).1) _ _ _
  | here a now =>
      rw [coordinator_setCoordinator]
      cases a with
      | report origin f => exact teardown_record _ _
      | panic thread x => rfl
      | claimTeardown => exact absurd List.mem_cons_self hl
      | interrupt => rfl
      | terminate => exact (terminate_keeps _).1
  | caught r _ =>
      rw [coordinator_setCoordinator]
      exact teardown_record _ _
  | uncaught x _ =>
      rw [coordinator_setProcess]
      exact teardown_panic _ _ _ _ _

/-- Where nobody reports a fault and no panic is watched for, the slot and the count stay. -/
theorem fault_move {w u : World σ} {l : List (Moment σ)} (h : Move w l u) (hl : Unreported l)
    (hw : w.process.handler ≠ .watching w.self) :
    u.coordinator.fault = w.coordinator.fault ∧
      u.coordinator.discarded = w.coordinator.discarded := by
  cases h with
  | silent _ process self => rw [coordinator, coordinator, process, self]; exact ⟨rfl, rfl⟩
  | note _ => exact ⟨rfl, rfl⟩
  | thread a =>
      rw [undergo, coordinator_setProcess, coordinator_eq]
      cases a with
      | report origin f => exact absurd List.mem_cons_self (hl origin f)
      | panic thread x =>
          -- the panic of another thread is a report only to whom the handler watches for
          have h := coordinator_panic hw thread x w.clock
          exact ⟨congrArg Coordinator.fault h, congrArg Coordinator.discarded h⟩
      | interrupt =>
          exact ⟨update_keeps Coordinator.fault Coordinator.request (fun _ => rfl) _ _ _,
            update_keeps Coordinator.discarded Coordinator.request (fun _ => rfl) _ _ _⟩
      | claimTeardown =>
          exact ⟨update_keeps Coordinator.fault (fun c => c.claim.2) (fun _ => rfl) _ _ _,
            update_keeps Coordinator.discarded (fun c => c.claim.2) (fun _ => rfl) _ _ _⟩
      | terminate =>
          exact ⟨update_keeps Coordinator.fault _ (fun c => (terminate_keeps c).2.1) _ _ _,
            update_keeps Coordinator.discarded _ (fun c => (terminate_keeps c).2.2) _ _ _⟩
  | here a now =>
      rw [coordinator_setCoordinator]
      cases a with
      | report origin f => exact absurd List.mem_cons_self (hl origin f)
      | panic thread x => exact ⟨rfl, rfl⟩
      | claimTeardown => exact ⟨rfl, rfl⟩
      | interrupt => exact ⟨rfl, rfl⟩
      | terminate => exact (terminate_keeps _).2
  | caught r hr => exact absurd hr hw
  | uncaught x _ =>
      rw [coordinator_setProcess, coordinator_panic hw]
      exact ⟨rfl, rfl⟩

/-! ## Paths -/

section Path

variable {w u : World σ} {l : List (Moment σ)}

theorem past_path (h : Path w l u) : u.past = w.past ++ l := by
  induction h with
  | refl => rw [List.append_nil]
  | tail _ hmove ih => rw [past_move hmove, ih, List.append_assoc]

theorem self_path (h : Path w l u) : u.self = w.self := by
  induction h with
  | refl => rfl
  | tail _ hmove ih => rw [self_move hmove, ih]

theorem handler_path (h : Path w l u) : u.process.handler = w.process.handler := by
  induction h with
  | refl => rfl
  | tail _ hmove ih => rw [handler_move hmove, ih]

/-- Nothing that is watched for itself before a path is so after it, and the other way round. -/
theorem watching_path (h : Path w l u) :
    u.process.handler = .watching u.self ↔ w.process.handler = .watching w.self := by
  rw [handler_path h, self_path h]

theorem later_path (h : Path w l u) : w.coordinator.Later u.coordinator := by
  induction h with
  | refl => exact .refl _
  | tail _ hmove ih => exact ih.trans (later_move hmove)

/-- Every state of the coordinator that a path notes lies between its ends. -/
theorem shared_path (h : Path w l u) {c : Coordinator} (hc : .shared c ∈ l) :
    w.coordinator.Later c ∧ c.Later u.coordinator := by
  induction h with
  | refl => cases hc
  | tail hpath hmove ih =>
      rcases List.mem_append.mp hc with hc | hc
      · exact ⟨(ih hc).1, (ih hc).2.trans (later_move hmove)⟩
      · rw [shared_move hmove hc]
        exact ⟨(later_path hpath).trans (later_move hmove), .refl _⟩

theorem milestones_path (h : Path w l u) : milestones l = [] := by
  induction h with
  | refl => rfl
  | tail _ hmove ih =>
      rw [milestones_append, ih, List.nil_append]
      exact List.filter_eq_nil_iff.mpr fun m hm => by
        rw [milestone_move hmove hm]
        exact Bool.false_ne_true

theorem not_mem_path (h : Path w l u) {m : Moment σ} (hm : m.milestone = true) : m ∉ l := by
  rw [← mem_milestones hm, milestones_path h]
  exact List.not_mem_nil

theorem teardown_path (h : Path w l u) (hl : Unclaimed l) :
    u.coordinator.teardown = w.coordinator.teardown := by
  induction h with
  | refl => rfl
  | tail _ hmove ih =>
      rw [teardown_move hmove fun hm => hl (List.mem_append_right _ hm),
        ih fun hm => hl (List.mem_append_left _ hm)]

theorem fault_path (h : Path w l u) (hl : Unreported l)
    (hw : w.process.handler ≠ .watching w.self) :
    u.coordinator.fault = w.coordinator.fault ∧
      u.coordinator.discarded = w.coordinator.discarded := by
  induction h with
  | refl => exact ⟨rfl, rfl⟩
  | tail hpath hmove ih =>
      have hlast := fault_move hmove (fun origin f hm => hl origin f (List.mem_append_right _ hm))
        (mt (watching_path hpath).mp hw)
      have hinit := ih fun origin f hm => hl origin f (List.mem_append_left _ hm)
      exact ⟨hlast.1.trans hinit.1, hlast.2.trans hinit.2⟩

end Path

end World

end CommuteSim
