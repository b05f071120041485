import CommuteSim.Proofs.World.Wander

/-!
# What a history says about the coordinator

A history is a chronicle: it tells every state that the coordinator goes into, and between two of
them who it was that changed it, whether the flag went up, and whether those who wait were released.
So one reads off a chronicle how the coordinator came from its first state to its last one.

Main statements: a path leaves a chronicle (`chronicle_path`); the last state that a chronicle tells
is the one that it ends in (`stateAfter_chronicle`), and the states before it are earlier ones
(`between_chronicle`); nobody is released in it unless someone marks the teardown as over
(`unreleased_chronicle`); an interrupt raises the flag and does nothing else that others see
(`raised_chronicle`).
-/

namespace CommuteSim

variable {σ : Type}

/-! ## Histories in which only the controller ends the teardown -/

/-- Nobody but the controller marks the teardown as over. -/
def Unterminated (l : List (Moment σ)) : Prop := .acted .terminate ∉ l

/-- Whether someone marks the teardown as over in a moment. -/
def Moment.terminates : Moment σ → Bool
  | .acted .terminate => true
  | _ => false

theorem unterminated_iff {l : List (Moment σ)} :
    Unterminated l ↔ ∀ m ∈ l, m.terminates = false := by
  constructor
  · intro h m hm
    cases m with
    | acted a =>
        cases a with
        | terminate => exact absurd hm h
        | _ => rfl
    | _ => rfl
  · intro h hm
    cases h _ hm

instance {l : List (Moment σ)} : Decidable (Unterminated l) :=
  decidable_of_iff _ unterminated_iff.symm

theorem Unterminated.left {l m : List (Moment σ)} (h : Unterminated (l ++ m)) : Unterminated l :=
  fun hm => h (List.mem_append_left m hm)

theorem Unterminated.right {l m : List (Moment σ)} (h : Unterminated (l ++ m)) : Unterminated m :=
  fun hm => h (List.mem_append_right l hm)

/-! ## Changes -/

/-- Whether a moment tells of the controller's or of a listener's work, and not of what becomes of
the coordinator. -/
def Moment.apart (m : Moment σ) : Bool := m.milestone || m.remark

theorem Moment.apart_said (line : LogLine) :
    (Moment.said (σ := σ) .controller line).apart = true := by
  by_cases h : line ∈ verdictLines <;> simp [apart, milestone, remark, h]

/-- What a history says when the coordinator goes from one state to another, with this handler of
panics in place. -/
def changeMoments (c d : Coordinator) (x : PanicHandler) : List (Moment σ) :=
  (if !c.flag && d.flag then [.raised] else []) ++
    (if !c.terminated && d.terminated then [.released x] else []) ++ [.shared d]

theorem World.changes_toList (w : World σ) (p : Process) :
    (w.changes p).toList = changeMoments w.coordinator (p.coordinator w.self) p.handler := by
  simp only [changes, Array.toList_append, apply_ite Array.toList]
  rfl

theorem mem_changeMoments {c d : Coordinator} {x : PanicHandler} {m : Moment σ}
    (h : m ∈ changeMoments c d x) :
    m = .raised ∨ m = .shared d ∨ m = .released x ∧ d.terminated ≠ c.terminated := by
  simp only [changeMoments, List.mem_append] at h
  rcases h with (h | h) | h
  · split at h
    · exact .inl (List.mem_singleton.mp h)
    · cases h
  · split at h
    · rename_i hd
      refine .inr (.inr ⟨List.mem_singleton.mp h, ?_⟩)
      intro heq
      rw [heq] at hd
      cases hc : c.terminated <;> rw [hc] at hd <;> cases hd
    · cases h
  · exact .inr (.inl (List.mem_singleton.mp h))

theorem changeMoments_of_terminated {c d : Coordinator} (h : d.terminated = c.terminated)
    (x : PanicHandler) : ∃ m : List (Moment σ), changeMoments c d x = m ++ [.shared d] ∧
      ∀ e ∈ m, e = .raised := by
  refine ⟨if !c.flag && d.flag then [.raised] else [], ?_, ?_⟩
  · rw [changeMoments, h]
    cases c.terminated <;> simp
  · intro e he
    split at he
    · exact List.mem_singleton.mp he
    · cases he

/-- What an act makes of the coordinator of a run, on the controller's thread or on another one. -/
inductive ThreadAct.Makes : ThreadAct → Coordinator → Coordinator → Prop where
  | report {origin : String} {f : Fault} (c : Coordinator) (r : FaultRecord) :
      Makes (.report origin f) c (c.record r).2
  | panic {thread : Option String} {x : Panic} (c : Coordinator) : Makes (.panic thread x) c c
  /-- A handler reports the panic. -/
  | caught {thread : Option String} {x : Panic} (c : Coordinator) (r : FaultRecord) :
      Makes (.panic thread x) c (c.record r).2
  /-- The controller's thread does not wait. -/
  | interrupt (c : Coordinator) : Makes .interrupt c c.raiseFlag
  | request (c : Coordinator) : Makes .interrupt c c.request
  | claim (c : Coordinator) : Makes .claimTeardown c c.claim.2
  | terminate (c : Coordinator) : Makes .terminate c c.terminate

/-- What the controller or its handler of panics makes of the coordinator, up to the end of the
teardown. -/
inductive Coordinator.Handled : Coordinator → Coordinator → Prop where
  | same (c : Coordinator) : Handled c c
  | bound (c : Coordinator) : Handled c { c with bound := true }
  | record (c : Coordinator) (r : FaultRecord) : Handled c (c.record r).2
  | claim (c : Coordinator) : Handled c c.claim.2

section Changes

variable {c d : Coordinator}

/-- A report leaves the mark alone, and whether the controller's thread is known. -/
theorem record_keeps (c : Coordinator) (r : FaultRecord) :
    (c.record r).2.terminated = c.terminated ∧ (c.record r).2.bound = c.bound := by
  have h : (c.capture r).2.terminated = c.terminated ∧ (c.capture r).2.bound = c.bound := by
    unfold Coordinator.capture
    split
    · exact ⟨rfl, rfl⟩
    · split <;> exact ⟨rfl, rfl⟩
  unfold Coordinator.record
  split
  · rename_i hd
    rw [hd] at h
    exact h
  · rename_i hd
    rw [hd] at h
    exact h

theorem later_makes {a : ThreadAct} (h : a.Makes c d) : c.Later d := by
  cases h with
  | report _ r => exact c.later_record r
  | panic _ => exact .refl c
  | caught _ r => exact c.later_record r
  | interrupt _ => exact c.later_raiseFlag
  | request _ => exact c.later_raiseFlag.trans c.raiseFlag.later_wait
  | claim _ => exact c.later_claim
  | terminate _ => exact c.later_terminate

theorem terminated_makes {a : ThreadAct} (h : a.Makes c d) (ha : a ≠ .terminate) :
    d.terminated = c.terminated := by
  cases h with
  | report _ r => exact (record_keeps c r).1
  | panic _ => rfl
  | caught _ r => exact (record_keeps c r).1
  | interrupt _ => rfl
  | request _ => rfl
  | claim _ => rfl
  | terminate _ => exact absurd rfl ha

theorem later_handled (h : c.Handled d) : c.Later d := by
  cases h with
  | same => exact .refl c
  | bound => exact ⟨id, id, id, id, fun _ => rfl⟩
  | record r => exact c.later_record r
  | claim => exact c.later_claim

theorem terminated_handled (h : c.Handled d) : d.terminated = c.terminated := by
  cases h with
  | same => rfl
  | bound => rfl
  | record r => exact (record_keeps c r).1
  | claim => rfl

end Changes

/-! ## Chronicles -/

/-- What one small step leaves in a history. -/
inductive Entry : Coordinator → List (Moment σ) → Coordinator → Prop where
  /-- Nothing becomes of the coordinator. -/
  | apart {c : Coordinator} {m : Moment σ} (h : m.apart = true) : Entry c [m] c
  | acted {c d : Coordinator} {a : ThreadAct} (h : a.Makes c d) (x : PanicHandler) :
      Entry c (.acted a :: changeMoments c d x) d
  | handled {c d : Coordinator} (h : c.Handled d) (x : PanicHandler) :
      Entry c (changeMoments c d x) d

/-- A history that leads the coordinator from one state to another. -/
inductive Chronicle : Coordinator → List (Moment σ) → Coordinator → Prop where
  | refl (c : Coordinator) : Chronicle c [] c
  | tail {c d e : Coordinator} {l m : List (Moment σ)} :
      Chronicle c l d → Entry d m e → Chronicle c (l ++ m) e

/-- The state that a moment tells. -/
def Moment.state? : Moment σ → Option Coordinator
  | .shared c => some c
  | _ => none

/-- The state that a history tells last, if it begins with the state `c`. -/
def stateAfter (c : Coordinator) (l : List (Moment σ)) : Coordinator :=
  (l.filterMap Moment.state?).getLast?.getD c

section Chronicle

variable {c d e : Coordinator} {l m a b : List (Moment σ)}

theorem Chronicle.single (h : Entry c l d) : Chronicle c l d := .tail (.refl c) h

theorem Chronicle.trans (h : Chronicle c l d) (h' : Chronicle d m e) :
    Chronicle c (l ++ m) e := by
  induction h' with
  | refl => rwa [List.append_nil]
  | tail _ hentry ih =>
      rw [← List.append_assoc]
      exact .tail ih hentry

theorem stateAfter_append (c : Coordinator) (l m : List (Moment σ)) :
    stateAfter c (l ++ m) = stateAfter (stateAfter c l) m := by
  unfold stateAfter
  rw [List.filterMap_append, List.getLast?_append]
  cases (m.filterMap Moment.state?).getLast? <;> rfl

/-- Moments that tell no state leave it as it is. -/
theorem stateAfter_of_untold (h : ∀ x ∈ l, x.state? = none) : stateAfter c l = c := by
  have hnone : l.filterMap Moment.state? = [] := List.filterMap_eq_nil_iff.mpr h
  rw [stateAfter, hnone]
  rfl

theorem stateAfter_changeMoments (c d : Coordinator) (x : PanicHandler) :
    stateAfter (σ := σ) c (changeMoments c d x) = d := by
  rw [changeMoments, stateAfter_append]
  rfl

theorem state?_of_apart {x : Moment σ} (h : x.apart = true) : x.state? = none := by
  cases x with
  | shared d => cases h
  | _ => rfl

theorem stateAfter_entry (h : Entry c l d) : stateAfter c l = d := by
  cases h with
  | apart h =>
      refine stateAfter_of_untold fun x hx => ?_
      rw [List.mem_singleton.mp hx]
      exact state?_of_apart h
  | acted h x => exact stateAfter_changeMoments c d x
  | handled h x => exact stateAfter_changeMoments c d x

/-- The last state that a chronicle tells is the one that it leads to. -/
theorem stateAfter_chronicle (h : Chronicle c l d) : stateAfter c l = d := by
  induction h with
  | refl => rfl
  | tail _ hentry ih => rw [stateAfter_append, ih, stateAfter_entry hentry]

theorem later_entry (h : Entry c l d) : c.Later d := by
  cases h with
  | apart _ => exact .refl c
  | acted h _ => exact later_makes h
  | handled h _ => exact later_handled h

theorem later_chronicle (h : Chronicle c l d) : c.Later d := by
  induction h with
  | refl => exact .refl _
  | tail _ hentry ih => exact ih.trans (later_entry hentry)

/-! ### Within a chronicle -/

/-- Within a change the old state is told until the new one is. -/
theorem within_changeMoments {x : PanicHandler} (h : changeMoments c d x = a ++ b) :
    stateAfter c a = c ∨ stateAfter c a = d := by
  have hstates : ∀ y ∈ changeMoments (σ := σ) c d x, ∀ z, y.state? = some z → z = d := by
    intro y hy z hz
    rcases mem_changeMoments hy with rfl | rfl | ⟨rfl, -⟩
    · cases hz
    · exact (Option.some.inj hz).symm
    · cases hz
  unfold stateAfter
  cases hlast : (a.filterMap Moment.state?).getLast? with
  | none => exact .inl rfl
  | some z =>
      obtain ⟨y, hy, hz⟩ := List.mem_filterMap.mp (List.mem_of_getLast? hlast)
      exact .inr (hstates y (h ▸ List.mem_append_left b hy) z hz)

theorem within_entry (h : Entry c l d) (hl : l = a ++ b) :
    stateAfter c a = c ∨ stateAfter c a = d := by
  cases h with
  | apart h =>
      refine .inl (stateAfter_of_untold fun x hx => ?_)
      have hx' := List.mem_singleton.mp (hl ▸ List.mem_append_left b hx)
      exact hx' ▸ state?_of_apart h
  | acted h x =>
      cases a with
      | nil => exact .inl rfl
      | cons y a =>
          obtain ⟨rfl, ha⟩ := List.cons_eq_cons.mp hl
          have hwithin : stateAfter c a = c ∨ stateAfter c a = d := within_changeMoments ha
          exact hwithin
  | handled h x => exact within_changeMoments hl

/-- Every state on the way lies between the first and the last. -/
theorem between_chronicle (h : Chronicle c l d) (hl : l = a ++ b) :
    c.Later (stateAfter c a) ∧ (stateAfter c a).Later d := by
  induction h generalizing b with
  | refl =>
      obtain ⟨rfl, -⟩ := List.append_eq_nil_iff.mp hl.symm
      exact ⟨.refl _, .refl _⟩
  | @tail d e l m hchronicle hentry ih =>
      rcases beginning_append hl with ⟨z, hz⟩ | ⟨z, rfl, hz⟩
      · obtain ⟨hfirst, hlast⟩ := ih hz
        exact ⟨hfirst, hlast.trans (later_entry hentry)⟩
      · rw [stateAfter_append, stateAfter_chronicle hchronicle]
        have hinit := later_chronicle hchronicle
        rcases within_entry hentry hz with hstate | hstate
        · rw [hstate]
          exact ⟨hinit, later_entry hentry⟩
        · rw [hstate]
          exact ⟨hinit.trans (later_entry hentry), .refl _⟩

/-! ### Releases and interrupts -/

theorem unreleased_entry (h : Entry c l d) (hl : Unterminated l) :
    d.terminated = c.terminated ∧ ∀ x, .released x ∉ l := by
  have hchange : ∀ x y, d.terminated = c.terminated →
      .released (σ := σ) x ∉ changeMoments c d y := by
    intro x y hsame hmem
    rcases mem_changeMoments hmem with h | h | ⟨-, h⟩
    · cases h
    · cases h
    · exact h hsame
  cases h with
  | apart h =>
      refine ⟨rfl, fun x hx => ?_⟩
      rw [← List.mem_singleton.mp hx] at h
      cases h
  | @acted _ act h x =>
      have hsame : d.terminated = c.terminated := by
        refine terminated_makes h ?_
        rintro rfl
        exact hl List.mem_cons_self
      refine ⟨hsame, fun y hy => ?_⟩
      rcases List.mem_cons.mp hy with hy | hy
      · cases hy
      · exact hchange y x hsame hy
  | handled h x => exact ⟨terminated_handled h, fun y => hchange y x (terminated_handled h)⟩

/-- Where nobody marks the teardown as over, it stays as it was, and nobody is released. -/
theorem unreleased_chronicle (h : Chronicle c l d) (hl : Unterminated l) :
    d.terminated = c.terminated ∧ ∀ x, .released x ∉ l := by
  induction h with
  | refl => exact ⟨rfl, fun _ hx => nomatch hx⟩
  | tail _ hentry ih =>
      obtain ⟨hsame, hnone⟩ := ih hl.left
      obtain ⟨hsame', hnone'⟩ := unreleased_entry hentry hl.right
      refine ⟨hsame'.trans hsame, fun x hx => ?_⟩
      rcases List.mem_append.mp hx with hx | hx
      · exact hnone x hx
      · exact hnone' x hx

/-- What an interrupt leaves in a history that tells the state `c` before it: the flag is up, and
nothing else has changed but that the thread may wait. -/
def Raised (c : Coordinator) (l : List (Moment σ)) : Prop :=
  ∃ m d rest, l = m ++ .shared d :: rest ∧ (∀ x ∈ m, x = .raised) ∧
    (d = c.raiseFlag ∨ d = c.request)

theorem Raised.append (h : Raised c l) (m : List (Moment σ)) : Raised c (l ++ m) := by
  obtain ⟨first, d, rest, rfl, hfirst, hd⟩ := h
  exact ⟨first, d, rest ++ m, by simp, hfirst, hd⟩

theorem raised_entry (h : Entry c l d) (hl : l = a ++ .acted .interrupt :: b) :
    a = [] ∧ Raised c b := by
  have hmem : .acted .interrupt ∈ l := hl ▸ List.mem_append_right a List.mem_cons_self
  have hchange : ∀ x, .acted .interrupt ∉ changeMoments (σ := σ) c d x := by
    intro x hm
    rcases mem_changeMoments hm with h | h | ⟨h, -⟩ <;> cases h
  cases h with
  | apart h =>
      rw [← List.mem_singleton.mp hmem] at h
      cases h
  | @acted _ act h x =>
      cases a with
      | cons y a =>
          obtain ⟨-, ha⟩ := List.cons_eq_cons.mp hl
          exact absurd (ha ▸ List.mem_append_right a List.mem_cons_self) (hchange x)
      | nil =>
          obtain ⟨hact, rfl⟩ := List.cons_eq_cons.mp hl
          obtain rfl := Moment.acted.inj hact
          have hsame := terminated_makes h ThreadAct.noConfusion
          obtain ⟨m, hm, hraised⟩ := changeMoments_of_terminated (σ := σ) hsame x
          refine ⟨rfl, m, d, [], hm, hraised, ?_⟩
          cases h with
          | interrupt _ => exact .inl rfl
          | request _ => exact .inr rfl
  | handled h x => exact absurd hmem (hchange x)

/-- An interrupt raises the flag, and leaves all else but the list of those who wait. -/
theorem raised_chronicle (h : Chronicle c l d) (hl : l = a ++ .acted .interrupt :: b) :
    Raised (stateAfter c a) b := by
  induction h generalizing b with
  | refl => simp at hl
  | @tail d e l m hchronicle hentry ih =>
      rcases split_append hl with ⟨z, hz⟩ | ⟨z, rfl, hz⟩
      · have hsplit : a ++ .acted .interrupt :: (z ++ m) = a ++ .acted .interrupt :: b := by
          rw [← hl, hz, List.append_assoc, List.cons_append]
        obtain rfl := (List.cons_eq_cons.mp (List.append_cancel_left hsplit)).2
        exact (ih hz).append m
      · obtain ⟨rfl, hraised⟩ := raised_entry hentry hz
        rw [List.append_nil, stateAfter_chronicle hchronicle]
        exact hraised

/-! ### States on the way -/

theorem told_changeMoments {x : PanicHandler} (h : changeMoments c d x = a ++ .shared e :: b) :
    (∀ y ∈ a, y.state? = none) ∧ e = d := by
  rcases split_append h with ⟨z, hz⟩ | ⟨z, rfl, hz⟩
  · have hmem : .shared e ∈ a ++ .shared e :: z := List.mem_append_right a List.mem_cons_self
    rw [← hz, List.mem_append] at hmem
    rcases hmem with hmem | hmem <;> split at hmem
    · cases List.mem_singleton.mp hmem
    · cases hmem
    · cases List.mem_singleton.mp hmem
    · cases hmem
  · cases z with
    | cons y z => simp at hz
    | nil =>
        rw [List.append_nil]
        refine ⟨fun y hy => ?_, (Moment.shared.inj (List.cons_eq_cons.mp hz).1).symm⟩
        rcases List.mem_append.mp hy with hy | hy <;> split at hy
        · cases List.mem_singleton.mp hy
          rfl
        · cases hy
        · cases List.mem_singleton.mp hy
          rfl
        · cases hy

/-- The state that an entry tells is the one that it leads to, and comes last in it. -/
theorem told_entry (h : Entry c l d) (hl : l = a ++ .shared e :: b) :
    stateAfter c a = c ∧ e = d := by
  cases h with
  | apart h =>
      have hmem : .shared e ∈ a ++ .shared e :: b := List.mem_append_right a List.mem_cons_self
      rw [← hl, List.mem_singleton] at hmem
      rw [← hmem] at h
      cases h
  | acted h x =>
      cases a with
      | nil => cases (List.cons_eq_cons.mp hl).1
      | cons y a =>
          obtain ⟨rfl, ha⟩ := List.cons_eq_cons.mp hl
          obtain ⟨hnone, he⟩ := told_changeMoments ha
          refine ⟨stateAfter_of_untold fun z hz => ?_, he⟩
          rcases List.mem_cons.mp hz with rfl | hz
          · rfl
          · exact hnone z hz
  | handled h x =>
      obtain ⟨hnone, he⟩ := told_changeMoments hl
      exact ⟨stateAfter_of_untold hnone, he⟩

theorem bound_terminate (c : Coordinator) : c.terminate.bound = c.bound := by
  unfold Coordinator.terminate
  split <;> rfl

/-- A state that comes after another one, in which the controller's thread stays known. -/
def Coordinator.Onward (c d : Coordinator) : Prop :=
  c.Later d ∧ (c.bound = true → d.bound = true)

theorem Coordinator.Onward.refl (c : Coordinator) : c.Onward c := ⟨.refl c, id⟩

theorem Coordinator.Onward.trans (h : c.Onward d) (h' : d.Onward e) : c.Onward e :=
  ⟨h.1.trans h'.1, fun hc => h'.2 (h.2 hc)⟩

theorem onward_makes {act : ThreadAct} (h : act.Makes c d) : c.Onward d := by
  refine ⟨later_makes h, fun hc => ?_⟩
  cases h with
  | report _ r => exact (record_keeps c r).2.trans hc
  | panic _ => exact hc
  | caught _ r => exact (record_keeps c r).2.trans hc
  | interrupt _ => exact hc
  | request _ => exact hc
  | claim _ => exact hc
  | terminate _ => exact (bound_terminate c).trans hc

theorem onward_handled (h : c.Handled d) : c.Onward d := by
  refine ⟨later_handled h, fun hc => ?_⟩
  cases h with
  | same => exact hc
  | bound => rfl
  | record r => exact (record_keeps c r).2.trans hc
  | claim => exact hc

theorem onward_entry (h : Entry c l d) : c.Onward d := by
  cases h with
  | apart _ => exact .refl c
  | acted h _ => exact onward_makes h
  | handled h _ => exact onward_handled h

/-- Each state that a chronicle tells comes after the one that it told before. -/
theorem told_chronicle (h : Chronicle c l d) (hl : l = a ++ .shared e :: b) :
    (stateAfter c a).Onward e ∧ (Unterminated l → e.terminated = (stateAfter c a).terminated) := by
  induction h generalizing b with
  | refl => simp at hl
  | @tail d f l m hchronicle hentry ih =>
      rcases split_append hl with ⟨z, hz⟩ | ⟨z, rfl, hz⟩
      · obtain ⟨honward, hsame⟩ := ih hz
        exact ⟨honward, fun halone => hsame halone.left⟩
      · obtain ⟨hstate, rfl⟩ := told_entry hentry hz
        rw [stateAfter_append, stateAfter_chronicle hchronicle, hstate]
        exact ⟨onward_entry hentry, fun halone => (unreleased_entry hentry halone.right).1⟩

/-- What a history that begins with the state `c` says of the states that it tells, whoever ends the
teardown in it. -/
structure Tells (c : Coordinator) (l : List (Moment σ)) : Prop where
  onward : ∀ {a d b}, l = a ++ .shared d :: b → (stateAfter c a).Onward d
  /-- The mark that the teardown is over is set in a release only. -/
  mark : ∀ {a d b}, l = a ++ .shared d :: b → (∀ x, a.getLast? ≠ some (.released x)) →
    d.terminated = (stateAfter c a).terminated
  raised : ∀ {a b}, l = a ++ .acted .interrupt :: b → Raised (stateAfter c a) b

theorem tells_chronicle (h : Chronicle c l d) (hl : Unterminated l) : Tells c l where
  onward := fun heq => (told_chronicle h heq).1
  mark := fun heq _ => (told_chronicle h heq).2 hl
  raised := fun heq => raised_chronicle h heq

theorem Tells.append (h : Tells c l) (h' : Tells (stateAfter c l) m) : Tells c (l ++ m) := by
  constructor
  · intro a d b heq
    rcases split_append heq with ⟨z, hz⟩ | ⟨z, rfl, hz⟩
    · exact h.onward hz
    · rw [stateAfter_append]
      exact h'.onward hz
  · intro a d b heq hlast
    rcases split_append heq with ⟨z, hz⟩ | ⟨z, rfl, hz⟩
    · exact h.mark hz hlast
    · rw [stateAfter_append]
      refine h'.mark hz fun x hx => hlast x ?_
      rw [List.getLast?_append, hx]
      rfl
  · intro a b heq
    rcases split_append heq with ⟨z, hz⟩ | ⟨z, rfl, hz⟩
    · have hsplit : a ++ .acted .interrupt :: (z ++ m) = a ++ .acted .interrupt :: b := by
        rw [← heq, hz, List.append_assoc, List.cons_append]
      obtain rfl := (List.cons_eq_cons.mp (List.append_cancel_left hsplit)).2
      exact (h.raised hz).append m
    · rw [stateAfter_append]
      exact h'.raised hz

/-- What is told later is a later state. -/
theorem Tells.onward_append (h : Tells c l) (hl : l = a ++ m ++ b) :
    (stateAfter c a).Onward (stateAfter c (a ++ m)) := by
  induction m generalizing a with
  | nil =>
      rw [List.append_nil]
      exact .refl _
  | cons x m ih =>
      have hfirst : (stateAfter c a).Onward (stateAfter c (a ++ [x])) := by
        rw [stateAfter_append]
        cases x with
        | shared d =>
            have hfirst : l = a ++ .shared d :: (m ++ b) := by
              rw [hl, List.append_assoc, List.cons_append]
            exact h.onward hfirst
        | _ => exact .refl _
      have hrest := ih (a := a ++ [x]) (by rw [hl, List.append_assoc a [x]]; rfl)
      rw [List.append_assoc] at hrest
      exact hfirst.trans hrest

theorem changeMoments_terminate (h : c.terminated = false) (x : PanicHandler) :
    changeMoments (σ := σ) c c.terminate x = [.released x, .shared c.terminate] := by
  have hterminate : c.terminate = { c with
      terminated := true
      waiters := c.waiters.map fun w => if w = .asleep then .awake else w } :=
    if_neg (Bool.eq_false_iff.mp h)
  rw [changeMoments, hterminate, h]
  cases c.flag <;> rfl

/-- The release of those who wait tells of itself. -/
theorem tells_terminate (h : c.terminated = false) (x : PanicHandler) :
    Tells (σ := σ) c (changeMoments c c.terminate x) := by
  have honward : c.Onward c.terminate :=
    ⟨c.later_terminate, fun hc => (bound_terminate c).trans hc⟩
  constructor
  · intro a d b heq
    obtain ⟨hnone, rfl⟩ := told_changeMoments heq
    rw [stateAfter_of_untold hnone]
    exact honward
  · intro a d b heq hlast
    rw [changeMoments_terminate h] at heq
    rcases a with - | ⟨y, - | ⟨z, a⟩⟩
    · cases heq
    · cases heq
      exact absurd rfl (hlast x)
    · simp at heq
  · intro a b heq
    have hmem := List.mem_append_right a (List.mem_cons_self (a := .acted .interrupt) (l := b))
    rw [← heq] at hmem
    rcases mem_changeMoments hmem with h | h | ⟨h, -⟩ <;> cases h

end Chronicle

/-! ## Paths -/

namespace World

/-- The coordinator of the run is there. -/
def Present (w : World σ) : Prop := (w.process.coordinators w.self).isSome = true

section Path

variable {w u : World σ} {l : List (Moment σ)}

theorem coordinator_update_self {p : Process} {i : CoordinatorId}
    (h : (p.coordinators i).isSome = true) (f : Coordinator → Coordinator) :
    (p.update i f).coordinator i = f (p.coordinator i) := by
  unfold Process.coordinator Process.update
  rw [Process.put_coordinators_self]
  cases hc : p.coordinators i with
  | none =>
      rw [hc] at h
      cases h
  | some c => rfl

theorem isSome_update {p : Process} {i j : CoordinatorId} (f : Coordinator → Coordinator)
    (h : (p.coordinators i).isSome = true) : ((p.update j f).coordinators i).isSome = true := by
  unfold Process.update Process.put
  dsimp only
  split
  · rename_i hij
    rw [Option.isSome_map, ← hij]
    exact h
  · exact h

theorem isSome_panic {p : Process} {i : CoordinatorId} {thread : Option String} {x : Panic}
    {now : Instant} (h : (p.coordinators i).isSome = true) :
    ((p.panic thread x now).coordinators i).isSome = true := by
  unfold Process.panic
  split
  · exact h
  · exact isSome_update _ h

theorem present_act {p : Process} {i : CoordinatorId} {now : Instant} (a : ThreadAct)
    (h : (p.coordinators i).isSome = true) : ((p.act i now a).coordinators i).isSome = true := by
  cases a with
  | report origin f => exact isSome_update _ h
  | panic thread x => exact isSome_panic h
  | interrupt => exact isSome_update _ h
  | claimTeardown => exact isSome_update _ h
  | terminate => exact isSome_update _ h

/-- What another thread does. -/
theorem makes_act {p : Process} {i : CoordinatorId} (now : Instant) (a : ThreadAct)
    (h : (p.coordinators i).isSome = true) :
    a.Makes (p.coordinator i) ((p.act i now a).coordinator i) := by
  cases a with
  | report origin f =>
      rw [Process.act, Process.report, coordinator_update_self h]
      exact .report _ _
  | panic thread x =>
      rw [Process.act]
      unfold Process.panic
      split
      · exact .panic _
      · rename_i j hj
        rcases coordinator_update p i j fun c =>
          (c.record ⟨Process.panicFault thread x, x.origin thread, now⟩).2 with hstate | hstate
        · rw [Process.report, hstate]
          exact .panic _
        · rw [Process.report, hstate]
          exact .caught _ _
  | interrupt =>
      rw [Process.act, coordinator_update_self h]
      exact .request _
  | claimTeardown =>
      rw [Process.act, coordinator_update_self h]
      exact .claim _
  | terminate =>
      rw [Process.act, coordinator_update_self h]
      exact .terminate _

/-- What a collaborator does on the controller's thread. -/
theorem makes_here (a : ThreadAct) (now : Instant) (c : Coordinator) :
    a.Makes c (a.here now c) := by
  cases a with
  | report origin f => exact .report _ _
  | panic thread x => exact .panic _
  | interrupt => exact .interrupt _
  | claimTeardown => exact .claim _
  | terminate => exact .terminate _

theorem present_setCoordinator (w : World σ) (c : Coordinator) : (w.setCoordinator c).Present := by
  change ((w.process.put w.self (some c)).coordinators w.self).isSome = true
  rw [Process.put_coordinators_self]
  rfl

/-- The moments of a change that the controller's thread makes. -/
theorem changes_put (w : World σ) (c : Coordinator) :
    (w.changes (w.process.put w.self (some c))).toList =
      changeMoments w.coordinator c w.process.handler := by
  rw [changes_toList, Process.coordinator, Process.put_coordinators_self]
  rfl

theorem past_setCoordinator (w : World σ) (c : Coordinator) :
    (w.setCoordinator c).past = w.past ++ changeMoments w.coordinator c w.process.handler := by
  rw [setCoordinator, past_setProcess, changes_put]

theorem chronicle_move (h : Move w l u) (hw : w.Present) :
    Chronicle w.coordinator l u.coordinator ∧ u.Present := by
  cases h with
  | silent history process self =>
      have hsame : u.coordinator = w.coordinator := by rw [coordinator, process, self, coordinator]
      rw [hsame]
      refine ⟨.refl _, ?_⟩
      rw [Present, process, self]
      exact hw
  | note hm => exact ⟨.single (.apart (Bool.or_eq_true_iff.mpr (.inr hm))), hw⟩
  | thread a =>
      rw [changes_toList]
      exact ⟨.single (.acted (makes_act w.clock a hw) _), present_act a hw⟩
  | here a now =>
      rw [changes_put, coordinator_setCoordinator]
      exact ⟨.single (.acted (makes_here a now _) _), present_setCoordinator _ _⟩
  | caught r h =>
      rw [changes_put, coordinator_setCoordinator]
      exact ⟨.single (.handled (.record _ r) _), present_setCoordinator _ _⟩
  | uncaught x h =>
      rw [changes_toList, coordinator_setProcess, coordinator_panic h]
      exact ⟨.single (.handled (.same _) _), isSome_panic hw⟩

/-- A path leaves a chronicle. -/
theorem chronicle_path (h : Path w l u) (hw : w.Present) :
    Chronicle w.coordinator l u.coordinator ∧ u.Present := by
  induction h with
  | refl => exact ⟨.refl _, hw⟩
  | tail _ hmove ih =>
      obtain ⟨hchronicle, hpresent⟩ := ih
      obtain ⟨hlast, hend⟩ := chronicle_move hmove hpresent
      exact ⟨hchronicle.trans hlast, hend⟩

end Path

end World

end CommuteSim
