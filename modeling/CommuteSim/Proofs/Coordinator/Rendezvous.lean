import CommuteSim.Proofs.World.Chronicle
import Mathlib.Logic.Function.Basic
import Mathlib.Logic.Relation

/-!
# The rendezvous of interrupts with the end of a run

Any number of threads interrupt a run and wait for the end of its teardown. The mark that the
teardown is over has a lock of its own: a call takes it to look at the mark, and gives it up when it
falls asleep. Who sets the mark takes the lock too, and wakes all that sleep before giving it up.
Between two of these steps anyone else may go on.

A scene is what has come of a history, and what is still to come, together with the lock and the
calls. The history says what becomes of the coordinator: a call that raises the flag is one of the
interrupts in it, and the mark is set in a release. The steps of the lock are in no history, so they
come in any order with the moments of the history.

Main statements: `orderly_reaches` for the invariant of scenes; `reaches_wait` and
`reaches_terminate` say that without interference the steps make of the calls what the operations of
the coordinator make of those who wait, so that a call can come back (`comes_back`); `meeting` says
of every scene that can be reached what the calls have come to.
-/

namespace CommuteSim

theorem Coordinator.terminated_terminate (c : Coordinator) : c.terminate.terminated = true := by
  unfold Coordinator.terminate
  split
  · assumption
  · rfl

/-- How a run is interrupted. -/
inductive Manner where
  | plain
  /-- The call gives up after a time. -/
  | bounded
  /-- The call follows a wait for a signal, which arrived or could not be waited for. -/
  | signal (arrived : Bool)
  deriving DecidableEq

/-- What a call does to the coordinator before it waits. -/
def Manner.acts : Manner → List ThreadAct
  | plain | bounded => [.interrupt]
  | signal arrived => signalActs arrived

/-- A call that interrupts a run. -/
structure Interrupt where
  manner : Manner := .plain
  /-- Whether it is made on the controller's thread. -/
  here : Bool := false

namespace Rendezvous

/-! ## Points -/

/-- How far a call has come. -/
inductive Point where
  | idle
  /-- There is nothing to do. -/
  | declined
  /-- The flag is up. -/
  | raised
  /-- The call is not to wait. -/
  | spared
  /-- The call waits, or has come back with its last look at the mark. -/
  | party (waiter : Waiter)
  deriving DecidableEq

namespace Point

/-- Whether a call is in the wait. -/
def waits : Point → Bool
  | party .asleep | party .awake => true
  | _ => false

/-- Whether a call has raised the flag. -/
def begun : Point → Bool
  | idle | declined => false
  | _ => true

/-- What becomes of a call when all that sleep are woken. -/
def woken : Point → Point
  | party .asleep => party .awake
  | p => p

theorem woken_ne_asleep (p : Point) : p.woken ≠ party .asleep := by
  cases p with
  | party w => cases w <;> exact nofun
  | _ => exact nofun

theorem woken_of_not_waits {p : Point} (h : p.waits = false) : p.woken = p := by
  cases p with
  | party w =>
      cases w with
      | asleep => cases h
      | _ => rfl
  | _ => rfl

theorem woken_eq_returned {p : Point} {b : Bool} (h : p.woken = party (.returned b)) :
    p = party (.returned b) := by
  cases p with
  | party w =>
      cases w with
      | asleep => cases h
      | _ => exact h
  | _ => exact h

end Point

/-- Whether a call is over. -/
def finished (a : Interrupt) : Point → Prop
  | .declined => True
  | .spared => a.manner ≠ .bounded
  | .party (.returned _) => True
  | _ => False

/-! ## Scenes -/

/-- Who has the lock of the mark. -/
inductive Holder (ι : Type) where
  | nobody
  /-- Who marks the teardown as over. -/
  | marker
  | call (call : ι)

/-- A history that is under way, with the lock and the calls. -/
structure Scene (ι σ : Type) where
  seen : List (Moment σ) := []
  rest : List (Moment σ)
  lock : Holder ι := .nobody
  /-- Whether the mark is set and those who sleep are still to be woken. -/
  due : Bool := false
  calls : ι → Point := fun _ => .idle

variable {ι σ : Type}

namespace Scene

/-- The state that the coordinator is in, which was `c` at the beginning. -/
def now (c : Coordinator) (s : Scene ι σ) : Coordinator := stateAfter c s.seen

/-- A part of the history comes to pass. -/
def read (s : Scene ι σ) (m rest : List (Moment σ)) : Scene ι σ :=
  { s with seen := s.seen ++ m, rest := rest }

/-- Another one has the lock. -/
def pass (s : Scene ι σ) (x : Holder ι) : Scene ι σ := { s with lock := x }

/-- A call comes to a new point. -/
def come [DecidableEq ι] (s : Scene ι σ) (i : ι) (p : Point) : Scene ι σ :=
  { s with calls := Function.update s.calls i p }

variable [DecidableEq ι]

theorem come_self (s : Scene ι σ) (i : ι) (p : Point) : (s.come i p).calls i = p :=
  Function.update_self ..

theorem come_of_ne (s : Scene ι σ) {i j : ι} (p : Point) (h : j ≠ i) :
    (s.come i p).calls j = s.calls j :=
  Function.update_of_ne h ..

theorem come_cases {s : Scene ι σ} {i j : ι} {p q : Point} (h : (s.come i p).calls j = q) :
    j = i ∧ p = q ∨ s.calls j = q := by
  by_cases hj : j = i
  · subst hj
    exact .inl ⟨rfl, (come_self s j p).symm.trans h⟩
  · exact .inr ((come_of_ne s p hj).symm.trans h)

end Scene

variable {c : Coordinator} {who : ι → Interrupt} {s t u : Scene ι σ} {l : List (Moment σ)} {i : ι}

/-! ## The history of a scene -/

/-- A scene is one of a history, and does not stand between a release and what is told of it. -/
structure Of (l : List (Moment σ)) (s : Scene ι σ) : Prop where
  history : s.seen ++ s.rest = l
  ending : ∀ x, s.seen.getLast? ≠ some (.released x)

/-- A moment that is not of a release leaves the mark alone. -/
theorem now_pass (hl : Tells c l) (hs : Of l s) {m : Moment σ} {rest : List (Moment σ)}
    (h : s.rest = m :: rest) :
    ((s.read [m] rest).now c).terminated = (s.now c).terminated := by
  have hnow : (s.read [m] rest).now c = stateAfter (s.now c) [m] := stateAfter_append ..
  rw [hnow]
  cases m with
  | shared d =>
      have hhistory : l = s.seen ++ .shared d :: rest := by rw [← hs.history, h]
      exact hl.mark hhistory hs.ending
  | _ => rfl

/-- An interrupt raises the flag, and changes nothing else but the list of those who wait. -/
theorem now_raise (hl : Tells c l) (hs : Of l s) {m rest : List (Moment σ)} {d : Coordinator}
    (h : s.rest = .acted .interrupt :: (m ++ .shared d :: rest)) (hm : ∀ x ∈ m, x = .raised) :
    (s.read (.acted .interrupt :: (m ++ [.shared d])) rest).now c = d ∧
      (d = (s.now c).raiseFlag ∨ d = (s.now c).request) := by
  have hhistory : l = s.seen ++ .acted .interrupt :: (m ++ .shared d :: rest) := by
    rw [← hs.history, h]
  obtain ⟨m', d', rest', heq, hm', hd⟩ := hl.raised hhistory
  have hsame : d = d' := by
    rcases split_append heq with ⟨z, hz⟩ | ⟨z, hz, hz'⟩
    · cases hm (.shared d') (hz ▸ List.mem_append_right m' List.mem_cons_self)
    · cases z with
      | nil => exact Moment.shared.inj (List.cons_eq_cons.mp hz').1
      | cons y z =>
          obtain ⟨rfl, -⟩ := List.cons_eq_cons.mp hz'
          cases hm' (.shared d) (hz ▸ List.mem_append_right m List.mem_cons_self)
  refine ⟨?_, hsame ▸ hd⟩
  have hsplit : s.seen ++ .acted .interrupt :: (m ++ [.shared d]) =
      (s.seen ++ .acted .interrupt :: m) ++ [.shared d] := by simp
  rw [Scene.now, Scene.read, hsplit, stateAfter_append]
  rfl

/-- What the interrupt of a thread leaves as it is. -/
theorem keeps_raise {d e : Coordinator} (h : e = d.raiseFlag ∨ e = d.request) :
    e.flag = true ∧ e.terminated = d.terminated ∧ e.fault = d.fault ∧
      e.discarded = d.discarded ∧ e.teardown = d.teardown := by
  rcases h with rfl | rfl <;> exact ⟨rfl, rfl, rfl, rfl, rfl⟩

/-! ## What calls have come to -/

/-- What there is to say about a call that has come to a point, with the coordinator in this
state. -/
def Fits (a : Interrupt) (d : Coordinator) : Point → Prop
  | .idle => True
  | .declined => a.manner.acts = []
  | .raised => a.manner.acts = [.interrupt] ∧ d.flag = true
  | .spared => a.manner.acts = [.interrupt] ∧ d.flag = true ∧ a.here = true
  | .party w => a.manner.acts = [.interrupt] ∧ d.flag = true ∧ ∀ b, w = .returned b →
      (b = true → d.terminated = true) ∧ (a.manner ≠ .bounded → b = true)

theorem Fits.later {a : Interrupt} {d e : Coordinator} {p : Point} (h : Fits a d p)
    (hlater : d.Later e) : Fits a e p := by
  cases p with
  | idle => trivial
  | declined => exact h
  | raised => exact ⟨h.1, hlater.flag h.2⟩
  | spared => exact ⟨h.1, hlater.flag h.2.1, h.2.2⟩
  | party w =>
      obtain ⟨hacts, hflag, hback⟩ := h
      refine ⟨hacts, hlater.flag hflag, fun b hb => ?_⟩
      exact ⟨fun htrue => hlater.terminated ((hback b hb).1 htrue), (hback b hb).2⟩

theorem Fits.woken {a : Interrupt} {d : Coordinator} {p : Point} (h : Fits a d p) :
    Fits a d p.woken := by
  cases p with
  | party w =>
      cases w with
      | asleep => exact ⟨h.1, h.2.1, nofun⟩
      | _ => exact h
  | _ => exact h

theorem fits_awake {a : Interrupt} {d : Coordinator} (hacts : a.manner.acts = [.interrupt])
    (hflag : d.flag = true) : Fits a d (.party .awake) :=
  ⟨hacts, hflag, nofun⟩

/-- The invariant of scenes: every call fits its point, those who sleep are still to be woken once
the mark is set, and who is to wake them has the lock. -/
structure Orderly (c : Coordinator) (who : ι → Interrupt) (s : Scene ι σ) : Prop where
  fits : ∀ i, Fits (who i) (s.now c) (s.calls i)
  holds : ∀ i, s.lock = .call i → s.calls i = .party .awake ∨ s.calls i = .spared
  due : s.due = true → s.lock = .marker
  hush : (s.now c).terminated = true → s.due = false → ∀ i, s.calls i ≠ .party .asleep

/-- Who has the lock has raised the flag. -/
theorem Orderly.begun (h : Orderly c who s) (hi : s.lock = .call i) :
    (who i).manner.acts = [.interrupt] ∧ (s.now c).flag = true := by
  have hfits := h.fits i
  rcases h.holds i hi with hp | hp <;> rw [hp] at hfits <;> exact ⟨hfits.1, hfits.2.1⟩

/-- A history before which nobody has called. -/
def Scene.opening (l : List (Moment σ)) : Scene ι σ := { rest := l }

theorem of_opening (l : List (Moment σ)) : Of l (Scene.opening l : Scene ι σ) := ⟨rfl, nofun⟩

theorem orderly_opening (l : List (Moment σ)) : Orderly c who (Scene.opening l) :=
  ⟨fun _ => trivial, nofun, nofun, fun _ _ _ => nofun⟩

/-! ## Steps -/

variable [DecidableEq ι]

/-- A step of a call, of who sets the mark, or of the history, in which the coordinator began with
the state `c`. -/
inductive Step (c : Coordinator) (who : ι → Interrupt) : Scene ι σ → Scene ι σ → Prop where
  | pass {s : Scene ι σ} {m : Moment σ} {rest : List (Moment σ)} (h : s.rest = m :: rest)
      (hm : ∀ x, m ≠ .released x) : Step c who s (s.read [m] rest)
  /-- The call is one of the interrupts in the history. A thread that may wait is on the
  coordinator's list from then on. -/
  | raise {s : Scene ι σ} {i : ι} {m rest : List (Moment σ)} {d : Coordinator}
      (hi : s.calls i = .idle) (ha : (who i).manner.acts = [.interrupt])
      (h : s.rest = .acted .interrupt :: (m ++ .shared d :: rest)) (hm : ∀ x ∈ m, x = .raised)
      (hhere : (who i).here = true ↔ d.waiters = (s.now c).waiters) :
      Step c who s ((s.read (.acted .interrupt :: (m ++ [.shared d])) rest).come i .raised)
  | decline {s : Scene ι σ} {i : ι} (hi : s.calls i = .idle) (ha : (who i).manner.acts = []) :
      Step c who s (s.come i .declined)
  /-- The call looks whether it is made on the thread that is known as the controller's. -/
  | check {s : Scene ι σ} {i : ι} (hi : s.calls i = .raised) :
      Step c who s
        (s.come i (if (who i).here && (s.now c).bound then .spared else .party .awake))
  | take {s : Scene ι σ} {i : ι} (hl : s.lock = .nobody)
      (hi : s.calls i = .party .awake ∨ s.calls i = .spared ∧ (who i).manner = .bounded) :
      Step c who s (s.pass (.call i))
  /-- The call goes back if the teardown is over, and falls asleep if not. -/
  | look {s : Scene ι σ} {i : ι} (hl : s.lock = .call i) (hi : s.calls i = .party .awake) :
      Step c who s ((s.pass .nobody).come i
        (.party (Coordinator.look (s.now c).terminated .awake)))
  /-- The time of the call is over, or it is not to wait: it answers what it finds. -/
  | read {s : Scene ι σ} {i : ι} (hl : s.lock = .call i) (hb : (who i).manner = .bounded) :
      Step c who s ((s.pass .nobody).come i (.party (.returned (s.now c).terminated)))
  /-- A sleeper wakes though nobody woke it. -/
  | rouse {s : Scene ι σ} {i : ι} (hi : s.calls i = .party .asleep) :
      Step c who s (s.come i (.party .awake))
  | enter {s : Scene ι σ} (hl : s.lock = .nobody) : Step c who s (s.pass .marker)
  | store {s : Scene ι σ} {x : PanicHandler} {d : Coordinator} {rest : List (Moment σ)}
      (hl : s.lock = .marker) (h : s.rest = .released x :: .shared d :: rest) :
      Step c who s { s.read [.released x, .shared d] rest with due := true }
  | notify {s : Scene ι σ} (hl : s.lock = .marker) (hd : s.due = true) :
      Step c who s { s with due := false, calls := fun i => (s.calls i).woken }
  | leave {s : Scene ι σ} (hl : s.lock = .marker) (hd : s.due = false)
      (hm : (s.now c).terminated = true) : Step c who s (s.pass .nobody)

/-- Steps one after the other. -/
abbrev Reaches (c : Coordinator) (who : ι → Interrupt) : Scene ι σ → Scene ι σ → Prop :=
  Relation.ReflTransGen (Step c who)

theorem of_step (h : Step c who s t) (hs : Of l s) : Of l t := by
  have hread : ∀ (m rest : List (Moment σ)), s.rest = m ++ rest → m ≠ [] →
      (∀ x, m.getLast? ≠ some (.released x)) → Of l (s.read m rest) := by
    intro m rest hrest hm hlast
    refine ⟨?_, fun x hx => hlast x ?_⟩
    · rw [← hs.history, hrest]
      exact List.append_assoc ..
    · have hsome := List.getLast?_eq_some_getLast hm
      rw [Scene.read, List.getLast?_append, hsome] at hx
      rw [hsome]
      exact hx
  cases h with
  | @pass m rest h hm =>
      refine hread [m] rest h (List.cons_ne_nil _ _) fun x hx => hm x (Option.some.inj hx)
  | @raise i m rest d hi ha h hm hhere =>
      have hof := hread (.acted .interrupt :: (m ++ [.shared d])) rest (by simp [h])
        (List.cons_ne_nil _ _) fun x => by
          rw [← List.cons_append, List.getLast?_append]
          exact nofun
      exact ⟨hof.history, hof.ending⟩
  | @store x d rest hl h =>
      have hof := hread [.released x, .shared d] rest h (List.cons_ne_nil _ _) fun y => by simp
      exact ⟨hof.history, hof.ending⟩
  | _ => exact ⟨hs.history, hs.ending⟩

theorem of_reaches (h : Reaches c who s t) (hs : Of l s) : Of l t := by
  induction h with
  | refl => exact hs
  | tail _ hstep ih => exact of_step hstep ih

theorem seen_step (h : Step c who s t) : ∃ m, t.seen = s.seen ++ m := by
  cases h with
  | pass _ _ => exact ⟨_, rfl⟩
  | raise _ _ _ _ _ => exact ⟨_, rfl⟩
  | store _ _ => exact ⟨_, rfl⟩
  | _ => exact ⟨[], (List.append_nil _).symm⟩

theorem onward_step (hl : Tells c l) (hs : Of l s) (h : Step c who s t) :
    (s.now c).Onward (t.now c) := by
  obtain ⟨m, hm⟩ := seen_step h
  have hhistory := (of_step h hs).history
  rw [hm] at hhistory
  rw [Scene.now, Scene.now, hm]
  exact hl.onward_append hhistory.symm

/-! ## The invariant -/

theorem fits_come {d : Coordinator} {p : Point} (h : ∀ j, Fits (who j) d (s.calls j))
    (hp : Fits (who i) d p) : ∀ j, Fits (who j) d ((s.come i p).calls j) := by
  intro j
  by_cases hj : j = i
  · subst hj
    rw [Scene.come_self]
    exact hp
  · rw [Scene.come_of_ne s p hj]
    exact h j

theorem fits_step (hl : Tells c l) (hs : Of l s) (ho : Orderly c who s) (h : Step c who s t) :
    ∀ i, Fits (who i) (t.now c) (t.calls i) := by
  have hlater : ∀ i, Fits (who i) (t.now c) (s.calls i) :=
    fun i => (ho.fits i).later (onward_step hl hs h).1
  cases h with
  | @raise i m rest d hi ha h hm hhere =>
      obtain ⟨hnow, hd⟩ := now_raise hl hs h hm
      rw [← hnow] at hd
      exact fits_come hlater ⟨ha, (keeps_raise hd).1⟩
  | decline hi ha => exact fits_come hlater ha
  | @check i hi =>
      have hfits := ho.fits i
      rw [hi] at hfits
      refine fits_come hlater ?_
      split
      · rename_i hknown
        exact ⟨hfits.1, hfits.2, (Bool.and_eq_true_iff.mp hknown).1⟩
      · exact fits_awake hfits.1 hfits.2
  | @look i hlock hi =>
      have hfits := ho.fits i
      rw [hi] at hfits
      refine fits_come hlater ⟨hfits.1, hfits.2.1, fun b hb => ?_⟩
      cases hmark : (s.now c).terminated with
      | true =>
          rw [hmark] at hb
          cases hb
          exact ⟨fun _ => hmark, fun _ => rfl⟩
      | false =>
          rw [hmark] at hb
          cases hb
  | @read i hlock hb =>
      obtain ⟨hacts, hflag⟩ := ho.begun hlock
      refine fits_come hlater ⟨hacts, hflag, fun b hreturned => ?_⟩
      obtain rfl := Waiter.returned.inj hreturned
      exact ⟨id, fun hnot => absurd hb hnot⟩
  | @rouse i hi =>
      have hfits := ho.fits i
      rw [hi] at hfits
      exact fits_come hlater (fits_awake hfits.1 hfits.2.1)
  | notify hlock hd => exact fun i => (hlater i).woken
  | _ => exact hlater

/-- A call that does not have the lock leaves who has it where it is. -/
theorem holds_come {p old : Point} (ho : Orderly c who s) (hi : s.calls i = old)
    (hawake : old ≠ .party .awake) (hspared : old ≠ .spared) :
    ∀ j, s.lock = .call j → (s.come i p).calls j = .party .awake ∨
      (s.come i p).calls j = .spared := by
  intro j hj
  have hne : j ≠ i := by
    rintro rfl
    rcases ho.holds j hj with hp | hp
    · exact hawake (hi.symm.trans hp)
    · exact hspared (hi.symm.trans hp)
  rw [Scene.come_of_ne s p hne]
  exact ho.holds j hj

theorem holds_step (ho : Orderly c who s) (h : Step c who s t) :
    ∀ i, t.lock = .call i → t.calls i = .party .awake ∨ t.calls i = .spared := by
  cases h with
  | pass h hm => exact ho.holds
  | raise hi ha h hm hhere => exact holds_come ho hi nofun nofun
  | decline hi ha => exact holds_come ho hi nofun nofun
  | check hi => exact holds_come ho hi nofun nofun
  | rouse hi => exact holds_come ho hi nofun nofun
  | take hlock hi =>
      intro j hj
      obtain rfl := Holder.call.inj hj
      exact hi.imp id And.left
  | store hlock h => exact ho.holds
  | notify hlock hd => exact fun i hi => nomatch hlock.symm.trans hi
  | look hlock hi => exact nofun
  | read hlock hb => exact nofun
  | enter hlock => exact nofun
  | leave hlock hd hm => exact nofun

theorem due_step (ho : Orderly c who s) (h : Step c who s t) (hd : t.due = true) :
    t.lock = .marker := by
  have hlock : ∀ x, s.lock = x → x ≠ .marker → s.due ≠ true :=
    fun x hx hne hdue => hne (hx.symm.trans (ho.due hdue))
  cases h with
  | take hl hi => exact absurd hd (hlock _ hl nofun)
  | look hl hi => exact absurd hd (hlock _ hl nofun)
  | read hl hb => exact absurd hd (hlock _ hl nofun)
  | enter hl => rfl
  | store hl h => exact hl
  | notify hl hdue => cases hd
  | leave hl hdue hm => cases hdue.symm.trans hd
  | _ => exact ho.due hd

theorem asleep_come {p : Point} (h : ∀ i, s.calls i ≠ .party .asleep) (hp : p ≠ .party .asleep) :
    ∀ j, (s.come i p).calls j ≠ .party .asleep := by
  intro j hj
  rcases Scene.come_cases hj with ⟨-, rfl⟩ | hj
  · exact hp rfl
  · exact h j hj

theorem hush_step (hl : Tells c l) (hs : Of l s) (ho : Orderly c who s) (h : Step c who s t)
    (hmark : (t.now c).terminated = true) (hdue : t.due = false) :
    ∀ i, t.calls i ≠ .party .asleep := by
  cases h with
  | pass h hm =>
      rw [now_pass hl hs h] at hmark
      exact ho.hush hmark hdue
  | @raise i m rest d hi ha h hm hhere =>
      obtain ⟨hnow, hd⟩ := now_raise hl hs h hm
      have hbefore : (s.now c).terminated = true :=
        (keeps_raise hd).2.1.symm.trans (hnow ▸ hmark)
      exact asleep_come (ho.hush hbefore hdue) nofun
  | decline hi ha => exact asleep_come (ho.hush hmark hdue) nofun
  | check hi => exact asleep_come (ho.hush hmark hdue) (by split <;> exact nofun)
  | look hlock hi =>
      have hmarked : (s.now c).terminated = true := hmark
      exact asleep_come (ho.hush hmark hdue) (by rw [hmarked]; exact nofun)
  | read hlock hb => exact asleep_come (ho.hush hmark hdue) nofun
  | rouse hi => exact asleep_come (ho.hush hmark hdue) nofun
  | store hlock h => cases hdue
  | notify hlock hd => exact fun i => (s.calls i).woken_ne_asleep
  | _ => exact ho.hush hmark hdue

theorem orderly_step (hl : Tells c l) (hs : Of l s) (ho : Orderly c who s)
    (h : Step c who s t) : Orderly c who t :=
  ⟨fits_step hl hs ho h, holds_step ho h, due_step ho h, hush_step hl hs ho h⟩

theorem orderly_reaches (hl : Tells c l) (h : Reaches c who (Scene.opening l) t) :
    Of l t ∧ Orderly c who t := by
  induction h with
  | refl => exact ⟨of_opening l, orderly_opening l⟩
  | tail _ hstep ih => exact ⟨of_step hstep ih.1, orderly_step hl ih.1 ih.2 hstep⟩

/-! ## What becomes of a call -/

theorem returned_come {p : Point} {j : ι} {b : Bool}
    (h : (s.come j p).calls i = .party (.returned b)) (hp : p ≠ .party (.returned b)) :
    s.calls i = .party (.returned b) := by
  rcases Scene.come_cases h with ⟨-, hnew⟩ | hsame
  · exact absurd hnew hp
  · exact hsame

/-- A call comes back with what it finds while it has the lock. -/
theorem returned_step (h : Step c who s t) {b : Bool} (ht : t.calls i = .party (.returned b)) :
    s.calls i = .party (.returned b) ∨ s.lock = .call i ∧ (s.now c).terminated = b := by
  cases h with
  | raise _ _ _ _ _ => exact .inl (returned_come ht nofun)
  | decline _ _ => exact .inl (returned_come ht nofun)
  | check _ => exact .inl (returned_come ht (by split <;> exact nofun))
  | rouse _ => exact .inl (returned_come ht nofun)
  | look hlock hi =>
      rcases Scene.come_cases ht with ⟨rfl, hp⟩ | hsame
      · cases hmark : (s.now c).terminated with
        | true =>
            rw [hmark] at hp
            cases hp
            exact .inr ⟨hlock, rfl⟩
        | false =>
            rw [hmark] at hp
            cases hp
      · exact .inl hsame
  | read hlock hb =>
      rcases Scene.come_cases ht with ⟨rfl, hp⟩ | hsame
      · exact .inr ⟨hlock, Waiter.returned.inj (Point.party.inj hp)⟩
      · exact .inl hsame
  | notify hlock hd => exact .inl (Point.woken_eq_returned ht)
  | _ => exact .inl ht

/-- There was a moment when a call that has come back had the lock, and looked at the mark for the
last time. -/
theorem returned_reaches (h : Reaches c who s t) (hs : ∀ b, s.calls i ≠ .party (.returned b))
    {b : Bool} (ht : t.calls i = .party (.returned b)) :
    ∃ u v, Reaches c who s u ∧ Step c who u v ∧ Reaches c who v t ∧ u.lock = .call i ∧
      (u.now c).terminated = b ∧ v.calls i = .party (.returned b) := by
  induction h with
  | refl => exact absurd ht (hs b)
  | @tail t' t h hstep ih =>
      rcases returned_step hstep ht with hbefore | ⟨hlock, hmark⟩
      · obtain ⟨u, v, hu, huv, hv, hfound⟩ := ih hbefore
        exact ⟨u, v, hu, huv, hv.tail hstep, hfound⟩
      · exact ⟨t', t, h, hstep, .refl, hlock, hmark, ht⟩

theorem waits_come {p : Point} (hp : p.waits = false) {j : ι} (hi : (s.calls i).waits = false) :
    ((s.come j p).calls i).waits = false := by
  by_cases hj : i = j
  · subst hj
    rw [Scene.come_self]
    exact hp
  · rw [Scene.come_of_ne s p hj]
    exact hi

theorem waits_come_of_waiting {p old : Point} (hold : old.waits = true) {j : ι}
    (hj : s.calls j = old) (hi : (s.calls i).waits = false) :
    ((s.come j p).calls i).waits = false := by
  have hne : i ≠ j := by
    rintro rfl
    rw [hj, hold] at hi
    cases hi
  rw [Scene.come_of_ne s p hne]
  exact hi

/-- A call on the thread that is known as the controller's does not begin to wait. -/
theorem waits_step (h : Step c who s t) (hhere : (who i).here = true)
    (hbound : (s.now c).bound = true) (hi : (s.calls i).waits = false) :
    (t.calls i).waits = false := by
  cases h with
  | raise _ _ _ _ _ => exact waits_come rfl hi
  | decline _ _ => exact waits_come rfl hi
  | @check j hj =>
      by_cases hij : i = j
      · subst hij
        rw [Scene.come_self, hhere, hbound]
        rfl
      · rw [Scene.come_of_ne s _ hij]
        exact hi
  | look _ hj => exact waits_come_of_waiting rfl hj hi
  | read _ _ => exact waits_come rfl hi
  | rouse hj => exact waits_come_of_waiting rfl hj hi
  | notify _ _ =>
      change (s.calls i).woken.waits = false
      rw [Point.woken_of_not_waits hi]
      exact hi
  | _ => exact hi

theorem waits_reaches (hl : Tells c l) (hs : Of l s) (h : Reaches c who s t)
    (hhere : (who i).here = true) (hbound : (s.now c).bound = true)
    (hi : (s.calls i).waits = false) : (t.now c).bound = true ∧ (t.calls i).waits = false := by
  induction h with
  | refl => exact ⟨hbound, hi⟩
  | tail h hstep ih =>
      exact ⟨(onward_step hl (of_reaches h hs) hstep).2 ih.1, waits_step hstep hhere ih.1 ih.2⟩

/-- The step of a call changes neither the fault, nor the number of faults that were not kept, nor
the claim to the teardown. -/
theorem blameless_step (hl : Tells c l) (hs : Of l s) (h : Step c who s t)
    (hi : t.calls i ≠ s.calls i) :
    (t.now c).fault = (s.now c).fault ∧ (t.now c).discarded = (s.now c).discarded ∧
      (t.now c).teardown = (s.now c).teardown := by
  cases h with
  | pass h hm => exact absurd rfl hi
  | store hlock h => exact absurd rfl hi
  | raise _ _ h hm _ =>
      obtain ⟨hnow, hd⟩ := now_raise hl hs h hm
      rw [← hnow] at hd
      exact (keeps_raise hd).2.2
  | _ => exact ⟨rfl, rfl, rfl⟩

/-- A call with nothing to do stays where it is, or comes to where it stays for good, and all else
is as before. -/
theorem declined_step (ho : Orderly c who s) (h : Step c who s t)
    (hacts : (who i).manner.acts = []) : t.calls i = s.calls i ∨ t = s.come i .declined := by
  have hnot : (who i).manner.acts ≠ [.interrupt] := by
    rw [hacts]
    exact nofun
  have hfits := ho.fits i
  have hstays : ∀ {j p}, i ≠ j → (s.come j p).calls i = s.calls i := Scene.come_of_ne s _
  cases h with
  | @raise j _ _ _ _ ha _ _ _ =>
      have hij : i ≠ j := by
        rintro rfl
        exact hnot ha
      exact .inl (hstays hij)
  | @decline j hj ha =>
      by_cases hij : i = j
      · exact .inr (hij ▸ rfl)
      · exact .inl (hstays hij)
  | @check j hj =>
      refine .inl (hstays ?_)
      rintro rfl
      rw [hj] at hfits
      exact hnot hfits.1
  | @look j hlock hj =>
      refine .inl (hstays ?_)
      rintro rfl
      exact hnot (ho.begun hlock).1
  | @read j hlock hb =>
      refine .inl (hstays ?_)
      rintro rfl
      exact hnot (ho.begun hlock).1
  | @rouse j hj =>
      refine .inl (hstays ?_)
      rintro rfl
      rw [hj] at hfits
      exact hnot hfits.1
  | notify _ _ =>
      refine .inl (Point.woken_of_not_waits ?_)
      cases hp : s.calls i with
      | party w =>
          rw [hp] at hfits
          exact absurd hfits.1 hnot
      | _ => rfl
  | _ => exact .inl rfl

/-- A woken call comes back once it can have the lock, if the teardown is over. -/
theorem returns_of_awake (hi : s.calls i = .party .awake) (hlock : s.lock = .nobody)
    (hmark : (s.now c).terminated = true) :
    ∃ t, Reaches c who s t ∧ t.calls i = .party (.returned true) := by
  have htake : Step c who s (s.pass (.call i)) := .take hlock (.inl hi)
  have hlook : Step c who (s.pass (.call i)) (((s.pass (.call i)).pass .nobody).come i
      (.party (Coordinator.look ((s.pass (.call i)).now c).terminated .awake))) := .look rfl hi
  refine ⟨_, (Relation.ReflTransGen.single htake).tail hlook, ?_⟩
  have hsame : ((s.pass (.call i)).now c).terminated = true := hmark
  rw [hsame, Scene.come_self]
  rfl

/-! ## Steps without interference -/

/-- A call that nobody interferes with comes from the flag to the place that a thread gets which
begins to wait. -/
theorem reaches_wait (hi : s.calls i = .raised) (hhere : (who i).here = false)
    (hlock : s.lock = .nobody) :
    ∃ t w, Reaches c who s t ∧ t.lock = .nobody ∧ t.seen = s.seen ∧ t.rest = s.rest ∧
      t.calls i = .party w ∧ (s.now c).wait.waiters = (s.now c).waiters ++ [w] := by
  let checked := s.come i (.party .awake)
  have hcheck : Step c who s checked := by
    have h : Step c who s _ := .check hi
    rw [hhere] at h
    exact h
  have htake : Step c who checked (checked.pass (.call i)) :=
    .take hlock (.inl (Scene.come_self ..))
  have hlook : Step c who (checked.pass (.call i)) _ := .look rfl (Scene.come_self ..)
  have hreach := ((Relation.ReflTransGen.single hcheck).tail htake).tail hlook
  refine ⟨_, _, hreach, rfl, rfl, rfl, Scene.come_self .., ?_⟩
  have hsame : (checked.pass (.call i)).now c = s.now c := rfl
  rw [hsame]
  cases hmark : (s.now c).terminated <;> simp [Coordinator.wait, Coordinator.look, hmark]

/-- A release that nobody interferes with does to each call what it does to each thread that
waits. -/
theorem reaches_terminate {x : PanicHandler} {rest : List (Moment σ)}
    (hlock : s.lock = .nobody) (hopen : (s.now c).terminated = false)
    (h : s.rest = .released x :: .shared (s.now c).terminate :: rest) :
    ∃ t, Reaches c who s t ∧ t.lock = .nobody ∧ t.now c = (s.now c).terminate ∧
      (∀ i, t.calls i = (s.calls i).woken) ∧
      (t.now c).waiters.map Point.party = ((s.now c).waiters.map Point.party).map Point.woken := by
  have hterminate : (s.now c).terminate = { s.now c with
      terminated := true
      waiters := (s.now c).waiters.map fun w => if w = .asleep then .awake else w } :=
    if_neg (Bool.eq_false_iff.mp hopen)
  let stored : Scene ι σ :=
    { (s.pass .marker).read [.released x, .shared (s.now c).terminate] rest with due := true }
  let notified : Scene ι σ :=
    { stored with due := false, calls := fun i => (stored.calls i).woken }
  have hnow : notified.now c = (s.now c).terminate := stateAfter_append ..
  have hmark : (notified.now c).terminated = true := by rw [hnow, hterminate]
  have henter : Step c who s (s.pass .marker) := .enter hlock
  have hstore : Step c who (s.pass .marker) stored := .store rfl h
  have hnotify : Step c who stored notified := .notify rfl rfl
  have hleave : Step c who notified (notified.pass .nobody) := .leave rfl rfl hmark
  have hreach := (((Relation.ReflTransGen.single henter).tail hstore).tail hnotify).tail hleave
  refine ⟨_, hreach, rfl, hnow, fun _ => rfl, ?_⟩
  change (notified.now c).waiters.map _ = _
  rw [hnow, hterminate, List.map_map, List.map_map]
  refine List.map_congr_left fun w _ => ?_
  cases w <;> rfl

/-- What is not of a release comes to pass. By induction on it. -/
theorem reaches_read {m rest : List (Moment σ)} (h : s.rest = m ++ rest)
    (hm : ∀ x, .released x ∉ m) : Reaches c who s (s.read m rest) := by
  induction m generalizing s with
  | nil =>
      have hsame : s.read [] rest = s := by
        rw [Scene.read, List.append_nil, ← List.nil_append rest, ← h]
      rw [hsame]
  | cons y m ih =>
      have hstep : Step c who s (s.read [y] (m ++ rest)) :=
        .pass h fun x hx => hm x (hx ▸ List.mem_cons_self)
      have hread : (s.read [y] (m ++ rest)).read m rest = s.read (y :: m) rest := by
        simp [Scene.read]
      exact .head hstep (hread ▸ ih rfl fun x hx => hm x (List.mem_cons_of_mem y hx))

/-- A call that interrupts before the release can fall asleep, be woken by the release, and come
back. -/
theorem comes_back {a m b rest : List (Moment σ)} {d : Coordinator} {x : PanicHandler}
    (hi : (who i).manner.acts = [.interrupt]) (hhere : (who i).here = false)
    (hm : ∀ y ∈ m, y = .raised) (ha : ∀ y, .released y ∉ a) (hb : ∀ y, .released y ∉ b)
    (hplace : d.waiters ≠ (stateAfter c a).waiters) (hopen : (stateAfter d b).terminated = false) :
    ∃ t : Scene ι σ, Reaches c who (.opening (a ++ .acted .interrupt :: (m ++ .shared d :: (b ++
        .released x :: .shared (stateAfter d b).terminate :: rest)))) t ∧
      t.calls i = .party (.returned true) := by
  let after := .released x :: .shared (stateAfter d b).terminate :: rest
  let s₀ : Scene ι σ := .opening (a ++ .acted .interrupt :: (m ++ .shared d :: (b ++ after)))
  let s₁ := s₀.read a (.acted .interrupt :: (m ++ .shared d :: (b ++ after)))
  let s₂ := (s₁.read (.acted .interrupt :: (m ++ [.shared d])) (b ++ after)).come i .raised
  let s₃ := s₂.read b after
  have hbefore : Reaches c who s₀ s₁ := reaches_read rfl ha
  have hraise : Step c who s₁ s₂ := by
    refine .raise rfl hi rfl hm ?_
    rw [hhere]
    exact ⟨nofun, fun h => absurd h hplace⟩
  have hmiddle : Reaches c who s₂ s₃ := reaches_read rfl hb
  have hnow : s₃.now c = stateAfter d b := by
    have hd : s₂.now c = d := by
      change stateAfter c (a ++ .acted .interrupt :: (m ++ [.shared d])) = d
      rw [← List.cons_append, stateAfter_append, stateAfter_append]
      rfl
    change stateAfter c (s₂.seen ++ b) = _
    rw [stateAfter_append]
    exact congrArg (stateAfter · b) hd
  obtain ⟨t, w, hwait, hlock, hseen, hrest, hw, hlist⟩ : ∃ t w, Reaches c who s₃ t ∧
      t.lock = .nobody ∧ t.seen = s₃.seen ∧ t.rest = s₃.rest ∧ t.calls i = .party w ∧
      (s₃.now c).wait.waiters = (s₃.now c).waiters ++ [w] :=
    reaches_wait (Scene.come_self ..) hhere rfl
  have hsleeps : w = .asleep := by
    rw [hnow, Coordinator.wait, hopen] at hlist
    exact (List.singleton_inj.mp (List.append_cancel_left hlist)).symm
  have hsame : t.now c = stateAfter d b := by rw [← hnow, Scene.now, Scene.now, hseen]
  have hnext : t.rest = .released x :: .shared (t.now c).terminate :: rest := by
    rw [hrest, hsame]
    rfl
  obtain ⟨u, hrelease, hfree, hmark, hwoken, -⟩ : ∃ u, Reaches c who t u ∧ u.lock = .nobody ∧
      u.now c = (t.now c).terminate ∧ (∀ i, u.calls i = (t.calls i).woken) ∧ _ :=
    reaches_terminate hlock (hsame ▸ hopen) hnext
  have hawake : u.calls i = .party .awake := by rw [hwoken, hw, hsleeps]; rfl
  obtain ⟨v, hback, hv⟩ := returns_of_awake hawake hfree
    (hmark ▸ Coordinator.terminated_terminate _)
  exact ⟨v, (((((hbefore.tail hraise).trans hmiddle).trans hwait).trans hrelease).trans hback), hv⟩

/-! ## The rendezvous -/

/-- What the calls on a coordinator that began with the state `c` have come to in a scene of the
history `l`. -/
structure Meeting (c : Coordinator) (who : ι → Interrupt) (l : List (Moment σ))
    (t : Scene ι σ) : Prop where
  /-- Who waits on another thread than the controller's comes back when the teardown is over, and
  not before. -/
  patient : ∀ i, (who i).here = false → (who i).manner ≠ .bounded → (who i).manner.acts ≠ [] →
    finished (who i) (t.calls i) → (t.now c).terminated = true
  /-- A call on the controller's thread, once that is known, never waits. -/
  spared : ∀ i, (who i).here = true → (t.now c).bound = true → (t.calls i).waits = false →
    ∀ u, Reaches c who t u → (u.calls i).waits = false
  /-- A call that may give up answers what it found when it had the lock for the last time. -/
  answer : ∀ i b, (who i).manner = .bounded → t.calls i = .party (.returned b) →
    (b = true → (t.now c).terminated = true) ∧
      ∃ u v, Reaches c who (.opening l) u ∧ Step c who u v ∧ Reaches c who v t ∧
        u.lock = .call i ∧ (u.now c).terminated = b ∧ v.calls i = .party (.returned b)
  /-- A call that has begun has requested a shutdown. -/
  raised : ∀ i, (t.calls i).begun = true → (t.now c).flag = true
  /-- No step of a call captures a fault. -/
  blameless : ∀ i u, Step c who t u → u.calls i ≠ t.calls i →
    (u.now c).fault = (t.now c).fault ∧ (u.now c).discarded = (t.now c).discarded ∧
      (u.now c).teardown = (t.now c).teardown
  /-- A call whose wait for a signal failed changes nothing. -/
  declined : ∀ i, (who i).manner.acts = [] → (t.calls i).begun = false ∧
    ∀ u, Step c who t u → u.calls i = t.calls i ∨ u = t.come i .declined
  /-- Nobody sleeps on when the teardown is over and the lock is free, and who is awake can come
  back. -/
  roused : (t.now c).terminated = true → t.lock = .nobody → ∀ i,
    t.calls i ≠ .party .asleep ∧ (t.calls i = .party .awake →
      ∃ u, Reaches c who t u ∧ u.calls i = .party (.returned true))

/-- The rendezvous holds in every scene that can be reached. -/
theorem meeting (hl : Tells c l) (h : Reaches c who (.opening l) t) : Meeting c who l t := by
  obtain ⟨hof, ho⟩ := orderly_reaches hl h
  constructor
  · intro i hhere hmanner hacts hover
    have hfits := ho.fits i
    cases hp : t.calls i with
    | idle =>
        rw [hp] at hover
        exact hover.elim
    | declined =>
        rw [hp] at hfits
        exact absurd hfits hacts
    | raised =>
        rw [hp] at hover
        exact hover.elim
    | spared =>
        rw [hp] at hfits
        cases hhere.symm.trans hfits.2.2
    | party w =>
        rw [hp] at hfits hover
        cases w with
        | returned b =>
            obtain ⟨hmark, hlooked⟩ := hfits.2.2 b rfl
            exact hmark (hlooked hmanner)
        | _ => exact hover.elim
  · exact fun i hhere hbound hi u hu => (waits_reaches hl hof hu hhere hbound hi).2
  · intro i b _ hb
    have hfits := ho.fits i
    rw [hb] at hfits
    exact ⟨(hfits.2.2 b rfl).1, returned_reaches h (fun _ => nofun) hb⟩
  · intro i hbegun
    have hfits := ho.fits i
    cases hp : t.calls i with
    | idle =>
        rw [hp] at hbegun
        cases hbegun
    | declined =>
        rw [hp] at hbegun
        cases hbegun
    | raised =>
        rw [hp] at hfits
        exact hfits.2
    | spared =>
        rw [hp] at hfits
        exact hfits.2.1
    | party w =>
        rw [hp] at hfits
        exact hfits.2.1
  · exact fun i u hstep hi => blameless_step hl hof hstep hi
  · refine fun i hacts => ⟨?_, fun u hstep => declined_step ho hstep hacts⟩
    have hfits := ho.fits i
    cases hp : t.calls i with
    | idle => rfl
    | declined => rfl
    | _ =>
        rw [hp] at hfits
        cases hacts.symm.trans hfits.1
  · intro hmark hlock i
    have hdue : t.due = false := by
      cases hd : t.due with
      | false => rfl
      | true => cases hlock.symm.trans (ho.due hd)
    exact ⟨ho.hush hmark hdue i, fun hi => returns_of_awake hi hlock hmark⟩

end Rendezvous

end CommuteSim
