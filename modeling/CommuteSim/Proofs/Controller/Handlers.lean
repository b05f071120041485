import CommuteSim.Proofs.Controller.Release
import CommuteSim.Proofs.Coordinator.Crowd
import Mathlib.Data.List.Induction

/-!
# Handlers of panics in each other

Who puts in a handler of panics holds a guard from then on, and the guard holds the handler that was
there before. There is no list of handlers anywhere: the one in place knows nothing of the others,
and each of the others is in the guard of the one that came after it. As long as the guards are
dropped in the reverse order, and none by a thread that panics, the guards hold a stack: the handler
in place is always the one that was put in last of those whose guards are there, and beneath each
guard is the handler of the guard before it.

Main statement: `panics_delivered`, for every such sequence with panics of any threads in it, and
for runs. The stack is `HandlerNest`, which only the moves decide, and `Nested.after` says that the
guards keep to it.
-/

namespace CommuteSim

/-! ## Guards -/

/-- A guard by its number. Guards are counted as handlers are put in. -/
abbrev GuardId := Nat

/-- What happens in a process. -/
inductive HandlerMove where
  /-- A handler that watches for a coordinator is put in. -/
  | install (coordinator : CoordinatorId)
  /-- A guard is dropped, by a thread that may be panicking. -/
  | drop (guard : GuardId) (panicking : Bool)
  /-- A thread panics; one without a name has none. -/
  | panic (thread : Option String) (panic : Panic) (now : Instant)
  /-- A coordinator comes, goes or is used. -/
  | become (coordinator : CoordinatorId) (state : Option Coordinator)

/-- A process with the guards of its handlers. A guard that is there has the handler that it will
put back. -/
structure GuardedProcess where
  process : Process
  guards : List (Option PanicHandler) := []

namespace GuardedProcess

/-- Drops a guard. It puts back the handler that it has, unless the thread that drops it panics. -/
def drop (s : GuardedProcess) (g : GuardId) (panicking : Bool) : GuardedProcess :=
  match s.guards[g]? with
  | some (some previous) =>
    { process := if panicking then s.process else s.process.restore previous
      guards := s.guards.set g none }
  | _ => s

def after (s : GuardedProcess) : HandlerMove → GuardedProcess
  | .install i =>
    let (previous, process) := s.process.watch i
    { process := process, guards := s.guards ++ [some previous] }
  | .drop g panicking => s.drop g panicking
  | .panic thread x now => { s with process := s.process.panic thread x now }
  | .become i c => { s with process := s.process.put i c }

/-- What moves make of a process in which no guard is there yet. -/
def ofMoves (p : Process) (moves : List HandlerMove) : GuardedProcess :=
  moves.foldl after { process := p }

theorem ofMoves_concat (p : Process) (moves : List HandlerMove) (m : HandlerMove) :
    ofMoves p (moves ++ [m]) = (ofMoves p moves).after m := by
  rw [ofMoves, List.foldl_append]
  rfl

end GuardedProcess

/-! ## Nests -/

/-- What moves say of handlers: how many were put in, and those whose guards are there, the
innermost first, each with its guard. -/
structure HandlerNest where
  count : Nat := 0
  installed : List (GuardId × CoordinatorId) := []

namespace HandlerNest

def after (n : HandlerNest) : HandlerMove → HandlerNest
  | .install i => { count := n.count + 1, installed := (n.count, i) :: n.installed }
  | .drop g _ => { n with installed := n.installed.filter (·.1 ≠ g) }
  | .panic .. | .become .. => n

def ofMoves (moves : List HandlerMove) : HandlerNest := moves.foldl after {}

/-- Whether a move keeps handlers in each other: a guard is only dropped if it is that of the
innermost handler, and by a thread that does not panic. -/
def allows (n : HandlerNest) : HandlerMove → Bool
  | .drop g panicking => n.installed.head?.map (·.1) == some g && !panicking
  | .install _ | .panic .. | .become .. => true

def wellNestedFrom : HandlerNest → List HandlerMove → Bool
  | _, [] => true
  | n, m :: rest => n.allows m && (n.after m).wellNestedFrom rest

/-- The innermost of handlers; the original one if there are none. -/
def innermost (original : PanicHandler) : List (GuardId × CoordinatorId) → PanicHandler
  | [] => original
  | (_, i) :: _ => .watching i

theorem ofMoves_concat (moves : List HandlerMove) (m : HandlerMove) :
    ofMoves (moves ++ [m]) = (ofMoves moves).after m := by
  rw [ofMoves, List.foldl_append]
  rfl

theorem wellNestedFrom_append (n : HandlerNest) (moves rest : List HandlerMove) :
    n.wellNestedFrom (moves ++ rest) =
      (n.wellNestedFrom moves && (moves.foldl after n).wellNestedFrom rest) := by
  induction moves generalizing n with
  | nil => rfl
  | cons m moves ih =>
      rw [List.cons_append, wellNestedFrom, ih, wellNestedFrom, List.foldl_cons, Bool.and_assoc]

end HandlerNest

/-- Moves under which handlers stay in each other. -/
def WellNested (moves : List HandlerMove) : Prop :=
  HandlerNest.wellNestedFrom {} moves = true

instance (moves : List HandlerMove) : Decidable (WellNested moves) :=
  inferInstanceAs (Decidable (_ = true))

theorem wellNested_append {moves rest : List HandlerMove} :
    WellNested (moves ++ rest) ↔
      WellNested moves ∧ (HandlerNest.ofMoves moves).wellNestedFrom rest = true := by
  rw [WellNested, HandlerNest.wellNestedFrom_append, Bool.and_eq_true]
  rfl

/-! ## The stack that the guards hold -/

open HandlerNest (innermost)

/-- The guards of a process hold the stack of a nest over the original handler. -/
structure Nested (original : PanicHandler) (n : HandlerNest) (s : GuardedProcess) : Prop where
  handler : s.process.handler = innermost original n.installed
  count : s.guards.length = n.count
  /-- A handler that was put in later has a guard with a larger number. -/
  order : n.installed.Pairwise fun x y => y.1 < x.1
  /-- Each guard has what is beneath its handler. -/
  beneath : ∀ outer g i inner, n.installed = inner ++ (g, i) :: outer →
    s.guards[g]? = some (some (innermost original outer))

namespace Nested

variable {original : PanicHandler} {n : HandlerNest} {s : GuardedProcess}

theorem start (p : Process) : Nested p.handler {} { process := p } where
  handler := rfl
  count := rfl
  order := List.Pairwise.nil
  beneath outer g i inner h := by
    have hlength := congrArg List.length h
    simp at hlength

/-- Nothing else depends on the process but which handler is in place. -/
theorem withProcess (h : Nested original n s) {p : Process}
    (hp : p.handler = s.process.handler) : Nested original n { s with process := p } :=
  ⟨hp.trans h.handler, h.count, h.order, h.beneath⟩

theorem lt_count (h : Nested original n s) {x : GuardId × CoordinatorId}
    (hx : x ∈ n.installed) : x.1 < n.count := by
  obtain ⟨inner, outer, hsplit⟩ := List.append_of_mem hx
  have hguard := h.beneath outer x.1 x.2 inner hsplit
  rw [← h.count]
  exact (List.getElem?_eq_some_iff.mp hguard).1

theorem install (h : Nested original n s) (i : CoordinatorId) :
    Nested original (n.after (.install i)) (s.after (.install i)) where
  handler := rfl
  count := by
    change (s.guards ++ [some s.process.handler]).length = n.count + 1
    rw [List.length_append, h.count, List.length_singleton]
  order := List.pairwise_cons.mpr ⟨fun _ hy => h.lt_count hy, h.order⟩
  beneath outer g j inner hsplit := by
    change (s.guards ++ [some s.process.handler])[g]? = _
    change (n.count, i) :: n.installed = _ at hsplit
    cases inner with
    | nil =>
        -- the new guard holds the handler that was in place
        obtain ⟨hhead, rfl⟩ := List.cons.inj hsplit
        obtain ⟨rfl, rfl⟩ := Prod.mk.inj hhead
        rw [← h.count, List.getElem?_concat_length, h.handler]
    | cons x inner =>
        have hguard := h.beneath outer g j inner (List.cons.inj hsplit).2
        have hlt := (List.getElem?_eq_some_iff.mp hguard).1
        rw [List.getElem?_append_left hlt, hguard]

theorem drop (h : Nested original n s) {g : GuardId} {panicking : Bool}
    (hallows : n.allows (.drop g panicking) = true) :
    Nested original (n.after (.drop g panicking)) (s.after (.drop g panicking)) := by
  obtain ⟨count, installed⟩ := n
  cases installed with
  | nil => cases hallows
  | cons x outer =>
      obtain ⟨k, i⟩ := x
      obtain ⟨rfl, rfl⟩ : k = g ∧ panicking = false := by
        simpa [HandlerNest.allows] using hallows
      have hguard := h.beneath outer k i [] rfl
      obtain ⟨hlarger, horder⟩ := List.pairwise_cons.mp h.order
      have hremaining : (HandlerNest.after ⟨count, (k, i) :: outer⟩ (.drop k false)).installed =
          outer := by
        have hothers : ∀ y ∈ outer, y.1 ≠ k := fun y hy => Nat.ne_of_lt (hlarger y hy)
        simpa [HandlerNest.after] using hothers
      have hdrop : s.after (.drop k false) =
          { process := s.process.restore (innermost original outer)
            guards := s.guards.set k none } := by
        simp [GuardedProcess.after, GuardedProcess.drop, hguard]
      rw [hdrop]
      refine ⟨?_, ?_, ?_, ?_⟩
      · rw [hremaining]
        rfl
      · exact (List.length_set ..).trans h.count
      · rw [hremaining]
        exact horder
      · intro further l j inner hsplit
        rw [hremaining] at hsplit
        have hother : l < k := by
          have hmem : (l, j) ∈ outer := by
            rw [hsplit]
            exact List.mem_append_right _ List.mem_cons_self
          exact hlarger _ hmem
        have hbeneath := h.beneath further l j ((k, i) :: inner) (congrArg ((k, i) :: ·) hsplit)
        rwa [List.getElem?_set_ne (Nat.ne_of_gt hother)]

/-- Every move that a nest allows leaves the guards with the stack that the nest then is. -/
theorem after (h : Nested original n s) {m : HandlerMove} (hallows : n.allows m = true) :
    Nested original (n.after m) (s.after m) := by
  cases m with
  | install i => exact h.install i
  | drop g panicking => exact h.drop hallows
  | panic thread x now => exact h.withProcess (s.process.handler_panic thread x)
  | become i c => exact h.withProcess (s.process.put_handler i c)

end Nested

/-- By induction on the moves, from the last. -/
theorem nested_ofMoves (p : Process) {moves : List HandlerMove} (h : WellNested moves) :
    Nested p.handler (HandlerNest.ofMoves moves) (GuardedProcess.ofMoves p moves) := by
  induction moves using List.reverseRecOn with
  | nil => exact .start p
  | append_singleton moves m ih =>
      obtain ⟨hmoves, hlast⟩ := wellNested_append.mp h
      have hallows : (HandlerNest.ofMoves moves).allows m = true :=
        (Bool.and_eq_true_iff.mp hlast).1
      rw [HandlerNest.ofMoves_concat, GuardedProcess.ofMoves_concat]
      exact (ih hmoves).after hallows

/-! ## Deliveries -/

/-- A coordinator before and after a fault is reported to it. The first one is kept, unless the
teardown was claimed, and every other one is counted. -/
structure TakesFault (r : FaultRecord) (c d : Coordinator) : Prop where
  first : c.teardown = false → c.fault = none → d = { c with flag := true, fault := some r }
  later : c.teardown = false → c.fault ≠ none →
    d = { c with flag := true, discarded := c.discarded + 1 }
  late : c.teardown = true → d = { c with discarded := c.discarded + 1 }

theorem takesFault_record (c : Coordinator) (r : FaultRecord) : TakesFault r c (c.record r).2 := by
  unfold Coordinator.record Coordinator.capture
  refine ⟨fun hteardown hfault => ?_, fun hteardown hfault => ?_, fun hteardown => ?_⟩
  · rw [if_neg (Bool.eq_false_iff.mp hteardown), hfault]
  · obtain ⟨f, hf⟩ := Option.ne_none_iff_exists'.mp hfault
    rw [if_neg (Bool.eq_false_iff.mp hteardown), hf]
    simp [Coordinator.countDiscarded]
  · rw [if_pos hteardown]
    rfl

/-- A process before and after a panic of which one handler learns, and no other. -/
structure DeliveredTo (target : PanicHandler) (thread : Option String) (x : Panic) (now : Instant)
    (p q : Process) : Prop where
  handler : q.handler = p.handler
  /-- The handler that the process began with is called exactly if the panic is for it. -/
  unwatched : q.unwatched = if target = .initial then p.unwatched + 1 else p.unwatched
  /-- The coordinator for which the handler watches learns of one fault. -/
  recorded : ∀ i c, target = .watching i → p.coordinators i = some c →
    ∃ d, q.coordinators i = some d ∧
      TakesFault ⟨.panic (x.origin thread) x.payload.message, x.origin thread, now⟩ c d
  /-- Where the coordinator is gone, a line is logged and nothing else happens. -/
  gone : ∀ i, target = .watching i → p.coordinators i = none →
    q = p ∧ p.panicLine? thread x now = some ⟨.error, "panic after the controller was dropped"⟩
  /-- Nobody else learns of it. -/
  others : ∀ i, target ≠ .watching i → q.coordinators i = p.coordinators i

/-- A panic is delivered to the handler that is in place. -/
theorem deliveredTo_panic (p : Process) (thread : Option String) (x : Panic) (now : Instant) :
    DeliveredTo p.handler thread x now p (p.panic thread x now) := by
  cases hh : p.handler with
  | initial =>
      have hpanic : p.panic thread x now = { p with unwatched := p.unwatched + 1 } := by
        rw [Process.panic, hh]
      rw [hpanic]
      refine ⟨rfl, rfl, ?_, ?_, fun _ _ => rfl⟩
      · rintro _ _ ⟨⟩
      · rintro _ ⟨⟩
  | watching i =>
      have hpanic : p.panic thread x now =
          p.report i (x.origin thread) (Process.panicFault thread x) now := by
        rw [Process.panic, hh]
      rw [hpanic]
      refine ⟨rfl, rfl, ?_, ?_, ?_⟩
      · rintro _ c ⟨rfl⟩ hc
        refine ⟨_, ?_, takesFault_record c _⟩
        rw [Process.report, Process.coordinators_update_self hc, Process.put_coordinators_self]
        rfl
      · rintro _ ⟨rfl⟩ hnone
        refine ⟨?_, by simp [Process.panicLine?, hh, hnone]⟩
        rw [Process.report, Process.update, hnone]
        have hsame : (fun j => if j = i then none else p.coordinators j) = p.coordinators := by
          funext j
          split
          · rename_i hj
            rw [hj, hnone]
          · rfl
        exact congrArg (fun f => { p with coordinators := f }) hsame
      · intro j hj
        have hne : j ≠ i := by
          rintro rfl
          exact hj rfl
        simp [Process.report, Process.update, Process.put, hne]

/-! ## Runs -/

namespace Controller

/-- A run leaves the handler of panics that it found, whatever its result. -/
theorem handler_run {σ : Type} (s : Session σ) :
    (run s).2.world.process.handler = s.world.process.handler := by
  by_cases hidle : s.controller.stage = .idle
  · cases hw : s.watches with
    | true =>
        have hbound : (bound s).world.process.handler = s.world.process.handler :=
          World.handler_yield s.world
        rw [run_of_watches hidle hw, unwatch_world, World.handler_yield, hbound]
        rfl
    | false =>
        obtain ⟨a⟩ := account s hidle
        have hfound := Session.handler_journey a.opening hw
        have hclaim : a.found.claim.watches = false :=
          (Session.watches_journey a.opening).trans hw
        exact (Session.handler_journey a.closing hclaim).trans hfound
  · rw [run_of_not_idle hidle]

/-- Handlers of panics are put in and their guards dropped, with panics of any threads between, and
coordinators come, are used and go. As long as the handlers stay in each other, each panic is
delivered to the innermost one whose guard is there and to no other, or to the original one if there
is none; and the one in place is that innermost one, so the original one once all guards are
dropped. A run is such a sequence too, whatever happens in it. -/
theorem panics_delivered (p : Process) (moves : List HandlerMove) (h : WellNested moves) :
    (∀ before thread x now after, moves = before ++ .panic thread x now :: after →
      DeliveredTo (innermost p.handler (HandlerNest.ofMoves before).installed) thread x now
        (GuardedProcess.ofMoves p before).process
        (GuardedProcess.ofMoves p (before ++ [.panic thread x now])).process) ∧
    (GuardedProcess.ofMoves p moves).process.handler =
      innermost p.handler (HandlerNest.ofMoves moves).installed ∧
    ((HandlerNest.ofMoves moves).installed = [] →
      (GuardedProcess.ofMoves p moves).process.handler = p.handler) ∧
    ∀ (σ : Type) (s : Session σ),
      (run s).2.world.process.handler = s.world.process.handler := by
  have hnested := nested_ofMoves p h
  refine ⟨fun before thread x now after hsplit => ?_, hnested.handler, fun hnone => ?_,
    fun σ s => handler_run s⟩
  · rw [hsplit] at h
    have hbefore := nested_ofMoves p (wellNested_append.mp h).1
    rw [GuardedProcess.ofMoves_concat, ← hbefore.handler]
    exact deliveredTo_panic (GuardedProcess.ofMoves p before).process thread x now
  · rw [hnested.handler, hnone]
    rfl

/-- A handler within another one learns of a panic, and when both guards are dropped the original
handler is in place again. The coordinator of the outer one is gone by then. -/
theorem panics_delivered_within :
    let x : Panic := ⟨.text "no way out", "worker.rs:7"⟩
    let moves : List HandlerMove := [.install 0, .install 1, .panic (some "worker") x ⟨3⟩,
      .drop 1 false, .become 0 none, .panic none ⟨.other, "late.rs:1"⟩ ⟨4⟩, .drop 0 false]
    WellNested moves ∧
      DeliveredTo (.watching 1) (some "worker") x ⟨3⟩
        (GuardedProcess.ofMoves twoCoordinators (moves.take 2)).process
        (GuardedProcess.ofMoves twoCoordinators (moves.take 3)).process ∧
      (GuardedProcess.ofMoves twoCoordinators moves).process.handler = .initial := by
  intro x moves
  have hnested : WellNested moves := by decide
  obtain ⟨hdelivered, -, hend, -⟩ := panics_delivered twoCoordinators moves hnested
  exact ⟨hnested, hdelivered (moves.take 2) (some "worker") x ⟨3⟩ (moves.drop 3) rfl, hend rfl⟩

end Controller

end CommuteSim
