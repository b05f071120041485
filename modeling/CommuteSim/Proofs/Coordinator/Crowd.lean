import CommuteSim.Proofs.Coordinator.Order
import Mathlib.Algebra.BigOperators.Group.Finset.Basic
import Mathlib.Algebra.GroupWithZero.Nat
import Mathlib.Algebra.Order.BigOperators.Group.Finset
import Mathlib.Data.Fintype.BigOperators

/-!
# How often the failures of threads are counted

Workers and threads of their own run beside each other while one handler of panics is in place. A
report has two atomic steps, the look at the slot and the count of a fault that was not kept, and
the steps of different threads come in any order.

A coordinator accounts for each report once: it is in the slot, or it is counted as not kept, or its
count is still to come. So what is accounted for in the end is the number of reports that the
threads came to (`accounted_run`), and that depends on the handler. While it watches, the panic of a
worker comes to two: the handler reports it where it is raised, and the worker again when it has
caught it.

Main statement: while a handler watches, what is accounted for is the number of failures, and the
panics of workers once more (`failures_accounted`).
-/

namespace CommuteSim

/-! ## Errands -/

/-- What a thread is started for, by how it ends. -/
inductive Errand where
  | worker (name : String) (ending : Outcome Cause Unit)
  /-- A thread of its own, which ends well if it does not panic. -/
  | plain (name : Option String) (panic : Option Panic)

namespace Errand

/-- What the end of an errand does. -/
def acts : Errand → List ThreadAct
  | worker name ending => workerActs name ending
  | plain name x => x.toList.map (.panic name)

/-- Whether an errand ends with a failure or a panic. -/
def fails : Errand → Bool
  | worker _ (.ok ()) => false
  | worker _ (.error _) => true
  | plain _ x => x.isSome

/-- Whether an errand is a worker that panics. -/
def isPanicOfWorker : Errand → Bool
  | worker _ (.error (.panic _)) => true
  | _ => false

end Errand

namespace Coordinator

/-- The number of faults that are in the slot or counted as not kept. -/
def accounted (c : Coordinator) : Nat := (if c.fault.isSome then 1 else 0) + c.discarded

theorem accounted_countDiscarded (c : Coordinator) :
    c.countDiscarded.accounted = c.accounted + 1 := by
  unfold accounted countDiscarded
  exact (Nat.add_assoc ..).symm

/-- Either a fault is kept, or it is still to be counted. -/
theorem accounted_capture (c : Coordinator) (r : FaultRecord) :
    (c.capture r).2.accounted + (if (c.capture r).1 = .kept then 0 else 1) = c.accounted + 1 := by
  unfold capture accounted
  cases c.teardown with
  | true => rfl
  | false =>
      cases hf : c.fault with
      | some f => simp
      | none => simp [Nat.add_comm]

/-- A call that nobody interferes with looks at the slot, and counts a fault that is not kept. -/
theorem record_eq_capture (c : Coordinator) (r : FaultRecord) :
    c.record r = ((c.capture r).1,
      if (c.capture r).1 = .kept then (c.capture r).2 else (c.capture r).2.countDiscarded) := by
  unfold record
  split
  · rename_i d hd
    simp [hd]
  · rename_i k d hk hd
    have hk' : k ≠ .kept := fun h => hk (h ▸ rfl)
    simp [hd, hk']

theorem accounted_claim (c : Coordinator) : c.claim.2.accounted = c.accounted := rfl

theorem accounted_request (c : Coordinator) : c.request.accounted = c.accounted := rfl

theorem accounted_terminate (c : Coordinator) : c.terminate.accounted = c.accounted := by
  unfold terminate
  split <;> rfl

end Coordinator

/-- The record that an act leaves with a coordinator while this handler of panics is in place, if it
leaves one. -/
def PanicHandler.recordOf (h : PanicHandler) (i : CoordinatorId) (now : Instant) :
    ThreadAct → Option FaultRecord
  | .report origin f => some ⟨f, origin, now⟩
  | .panic thread x =>
      if h = .watching i then some ⟨Process.panicFault thread x, x.origin thread, now⟩ else none
  | .interrupt | .claimTeardown | .terminate => none

/-- The number of reports that an act comes to. -/
def PanicHandler.reports (h : PanicHandler) (i : CoordinatorId) (a : ThreadAct) : Nat :=
  if (h.recordOf i ⟨0⟩ a).isSome then 1 else 0

namespace PanicHandler

variable (h : PanicHandler) (i : CoordinatorId)

theorem reports_of_some {now : Instant} {a : ThreadAct} {r : FaultRecord}
    (hr : h.recordOf i now a = some r) : h.reports i a = 1 := by
  cases a with
  | report origin f => rfl
  | panic thread x =>
      have hw : h = .watching i := by
        by_contra hw
        simp [recordOf, hw] at hr
      simp [reports, recordOf, hw]
  | interrupt => cases hr
  | claimTeardown => cases hr
  | terminate => cases hr

theorem reports_of_none {now : Instant} {a : ThreadAct}
    (hr : h.recordOf i now a = none) : h.reports i a = 0 := by
  cases a with
  | report origin f => cases hr
  | panic thread x =>
      have hw : h ≠ .watching i := by
        rintro rfl
        simp [recordOf] at hr
      simp [reports, recordOf, hw]
  | interrupt => rfl
  | claimTeardown => rfl
  | terminate => rfl

end PanicHandler

namespace Process

variable {p : Process} {i : CoordinatorId} {c : Coordinator} {now : Instant} {a : ThreadAct}

theorem coordinator_of_some (hc : p.coordinators i = some c) : p.coordinator i = c := by
  simp [coordinator, hc]

@[simp] theorem put_put (c d : Option Coordinator) : (p.put i c).put i d = p.put i d := by
  simp only [put, mk.injEq, true_and, and_true]
  funext j
  split <;> rfl

@[simp] theorem coordinator_put_some : (p.put i (some c)).coordinator i = c := by
  simp [coordinator]

theorem coordinators_update_self (hc : p.coordinators i = some c) (f : Coordinator → Coordinator) :
    p.update i f = p.put i (some (f c)) := by
  rw [update, hc]
  rfl

/-- An act that leaves a record is a report. -/
theorem act_of_recordOf {r : FaultRecord} (hr : p.handler.recordOf i now a = some r)
    (hc : p.coordinators i = some c) : p.act i now a = p.put i (some (c.record r).2) := by
  cases a with
  | report origin f =>
      cases hr
      exact coordinators_update_self hc _
  | panic thread x =>
      have hw : p.handler = .watching i := by
        by_contra hw
        simp [PanicHandler.recordOf, hw] at hr
      simp only [PanicHandler.recordOf, hw, if_true, Option.some.injEq] at hr
      subst hr
      simp only [act, panic, hw]
      exact coordinators_update_self hc _
  | interrupt => cases hr
  | claimTeardown => cases hr
  | terminate => cases hr

/-- An act that leaves no record changes nothing that is accounted for. -/
theorem accounted_act_of_none (hr : p.handler.recordOf i now a = none)
    (hc : p.coordinators i = some c) :
    ∃ d, (p.act i now a).coordinators i = some d ∧ d.accounted = c.accounted := by
  cases a with
  | report origin f => cases hr
  | panic thread x =>
      -- the handler that was there at the beginning, or one that watches for somebody else
      unfold act panic
      cases hh : p.handler with
      | initial => exact ⟨c, hc, rfl⟩
      | watching j =>
          have hj : i ≠ j := by
            rintro rfl
            simp [PanicHandler.recordOf, hh] at hr
          exact ⟨c, by simp [report, update, put, hj, hc], rfl⟩
  | interrupt =>
      exact ⟨c.request, by simp [act, coordinators_update_self hc], c.accounted_request⟩
  | claimTeardown =>
      exact ⟨c.claim.2, by simp [act, coordinators_update_self hc], c.accounted_claim⟩
  | terminate =>
      exact ⟨c.terminate, by simp [act, coordinators_update_self hc], c.accounted_terminate⟩

theorem handler_panic (thread : Option String) (x : Panic) :
    (p.panic thread x now).handler = p.handler := by
  unfold panic
  split
  · rfl
  · rfl

theorem handler_act : (p.act i now a).handler = p.handler := by
  cases a with
  | panic thread x => exact p.handler_panic thread x
  | report origin f => rfl
  | interrupt => rfl
  | claimTeardown => rfl
  | terminate => rfl

end Process

/-! ## Crowds -/

/-- A thread among others. -/
structure Thread where
  /-- Whether a fault that it reported was not kept, and is still to be counted. -/
  counting : Bool := false
  /-- What it is still to do. -/
  rest : List ThreadAct

/-- A process with threads that act on one of its coordinators. -/
structure Crowd (ι : Type) where
  process : Process
  threads : ι → Thread

namespace Thread

/-- The number of reports for which a thread is still to be accounted. -/
def due (t : Thread) (h : PanicHandler) (i : CoordinatorId) : Nat :=
  (if t.counting then 1 else 0) + (t.rest.map (h.reports i)).sum

theorem due_mk (counting : Bool) (rest : List ThreadAct) (h : PanicHandler) (i : CoordinatorId) :
    due ⟨counting, rest⟩ h i = (if counting then 1 else 0) + (rest.map (h.reports i)).sum := rfl

theorem due_cons (a : ThreadAct) (rest : List ThreadAct) (h : PanicHandler) (i : CoordinatorId) :
    due ⟨false, a :: rest⟩ h i = h.reports i a + (rest.map (h.reports i)).sum := by
  simp [due]

end Thread

namespace Errand

/-- The number of reports that an errand comes to. -/
def reports (e : Errand) (h : PanicHandler) (i : CoordinatorId) : Nat :=
  (e.acts.map (h.reports i)).sum

/-- While a handler watches, a failure is reported once, and the panic of a worker twice. -/
theorem reports_watching (e : Errand) (i : CoordinatorId) :
    e.reports (.watching i) i =
      (if e.fails then 1 else 0) + if e.isPanicOfWorker then 1 else 0 := by
  cases e with
  | plain name x =>
      cases x with
      | none => rfl
      | some x => simp [reports, acts, fails, isPanicOfWorker, PanicHandler.reports,
          PanicHandler.recordOf]
  | worker name ending =>
      cases ending with
      | ok => rfl
      | error e =>
          cases e with
          | failure c => rfl
          | panic x => simp [reports, acts, workerActs, fails, isPanicOfWorker,
              PanicHandler.reports, PanicHandler.recordOf]

end Errand

namespace Crowd

variable {ι : Type}

/-- A process as its threads are started. -/
def start (p : Process) (errands : ι → Errand) : Crowd ι := ⟨p, fun k => ⟨false, (errands k).acts⟩⟩

/-- Whether all threads are over. -/
def Finished (s : Crowd ι) : Prop := ∀ k, s.threads k = ⟨false, []⟩

variable [DecidableEq ι]

/-- A thread comes to a new point, and the process into a new state. -/
def advance (s : Crowd ι) (p : Process) (k : ι) (t : Thread) : Crowd ι :=
  ⟨p, Function.update s.threads k t⟩

@[simp] theorem process_advance (s : Crowd ι) (p : Process) (k : ι) (t : Thread) :
    (s.advance p k t).process = p := rfl

@[simp] theorem advance_self (s : Crowd ι) (p : Process) (k : ι) (t : Thread) :
    (s.advance p k t).threads k = t :=
  Function.update_self ..

theorem advance_of_ne (s : Crowd ι) (p : Process) {j k : ι} (t : Thread) (h : j ≠ k) :
    (s.advance p k t).threads j = s.threads j :=
  Function.update_of_ne h ..

@[simp] theorem advance_advance (s : Crowd ι) (p q : Process) (k : ι) (t u : Thread) :
    (s.advance p k t).advance q k u = s.advance q k u := by
  simp [advance]

/-- What an atomic step of a thread does. -/
inductive Step (i : CoordinatorId) : Crowd ι → Crowd ι → Prop where
  /-- A report looks at the slot. -/
  | capture {s : Crowd ι} {k : ι} {a : ThreadAct} {rest : List ThreadAct} {c : Coordinator}
      {r : FaultRecord} (now : Instant) (hk : s.threads k = ⟨false, a :: rest⟩)
      (hc : s.process.coordinators i = some c)
      (hr : s.process.handler.recordOf i now a = some r) :
      Step i s (s.advance (s.process.put i (some (c.capture r).2)) k
        ⟨(c.capture r).1 ≠ .kept, rest⟩)
  /-- A fault that was not kept is counted. -/
  | count {s : Crowd ι} {k : ι} {rest : List ThreadAct} (hk : s.threads k = ⟨true, rest⟩) :
      Step i s (s.advance (s.process.update i Coordinator.countDiscarded) k ⟨false, rest⟩)
  /-- A thread does what is no report. -/
  | other {s : Crowd ι} {k : ι} {a : ThreadAct} {rest : List ThreadAct} (now : Instant)
      (hk : s.threads k = ⟨false, a :: rest⟩)
      (hr : s.process.handler.recordOf i now a = none) :
      Step i s (s.advance (s.process.act i now a) k ⟨false, rest⟩)

/-- Steps one after the other. -/
inductive Run (i : CoordinatorId) : Crowd ι → Crowd ι → Prop where
  | refl (s : Crowd ι) : Run i s s
  | tail {s t u : Crowd ι} : Run i s t → Step i t u → Run i s u

theorem Run.trans {i : CoordinatorId} {s t u : Crowd ι} (h : Run i s t) (h' : Run i t u) :
    Run i s u := by
  induction h' with
  | refl => exact h
  | tail _ hstep ih => exact ih.tail hstep

/-! ## Threads that nobody interferes with -/

/-- An act in which nobody interferes does to the process what it does alone. -/
theorem run_act {i : CoordinatorId} {s : Crowd ι} {k : ι} {a : ThreadAct} {rest : List ThreadAct}
    (hk : s.threads k = ⟨false, a :: rest⟩) (hc : (s.process.coordinators i).isSome)
    (now : Instant) : Run i s (s.advance (s.process.act i now a) k ⟨false, rest⟩) := by
  obtain ⟨c, hc⟩ := Option.isSome_iff_exists.mp hc
  cases hr : s.process.handler.recordOf i now a with
  | none => exact (Run.refl s).tail (.other now hk hr)
  | some r =>
      have hlook := Step.capture now hk hc hr
      rw [Process.act_of_recordOf hr hc, Coordinator.record_eq_capture]
      by_cases hkept : (c.capture r).1 = .kept
      · simp only [hkept, ne_eq, not_true_eq_false, decide_false, if_true] at hlook ⊢
        exact (Run.refl s).tail hlook
      · simp only [hkept, ne_eq, not_false_eq_true, decide_true, if_false] at hlook ⊢
        have hcount := Step.count (i := i) (advance_self s
          (s.process.put i (some (c.capture r).2)) k ⟨true, rest⟩)
        rw [advance_advance, process_advance,
          Process.coordinators_update_self (Process.put_coordinators_self _ _ _),
          Process.put_put] at hcount
        exact ((Run.refl s).tail hlook).tail hcount

/-! ## The account -/

section Account

variable [Fintype ι] {i : CoordinatorId} {s t : Crowd ι}

/-- What is accounted for, with what the threads are still to be accounted for. -/
def account (i : CoordinatorId) (s : Crowd ι) : Nat :=
  (s.process.coordinator i).accounted + ∑ k, (s.threads k).due s.process.handler i

omit [Fintype ι] in
/-- A step leaves the handler in place, and the coordinator where it is. -/
theorem step_stays (h : Step i s t) (hs : (s.process.coordinators i).isSome) :
    t.process.handler = s.process.handler ∧ (t.process.coordinators i).isSome := by
  obtain ⟨c, hc⟩ := Option.isSome_iff_exists.mp hs
  cases h with
  | capture now hk hc' hr => exact ⟨rfl, by simp⟩
  | count hk => exact ⟨rfl, by simp [Process.coordinators_update_self hc]⟩
  | other now hk hr =>
      obtain ⟨d, hd, -⟩ := Process.accounted_act_of_none hr hc
      exact ⟨Process.handler_act, by simp [hd]⟩

/-- A sum over the threads when one of them has come to a new point. -/
theorem sum_advance (f : Thread → Nat) (p : Process) (k : ι) (u : Thread) :
    ∑ j, f ((s.advance p k u).threads j) + f (s.threads k) = ∑ j, f (s.threads j) + f u := by
  have hothers : ∑ j ∈ Finset.univ.erase k, f ((s.advance p k u).threads j) =
      ∑ j ∈ Finset.univ.erase k, f (s.threads j) :=
    Finset.sum_congr rfl fun j hj => by rw [advance_of_ne _ _ _ (Finset.ne_of_mem_erase hj)]
  rw [← Finset.add_sum_erase _ _ (Finset.mem_univ k), hothers, advance_self,
    ← Finset.add_sum_erase _ (fun j => f (s.threads j)) (Finset.mem_univ k)]
  omega

/-- The account stays if it stays for one thread and the coordinator. -/
theorem account_advance {p : Process} {k : ι} {u : Thread} (hp : p.handler = s.process.handler)
    (h : (p.coordinator i).accounted + u.due p.handler i =
      (s.process.coordinator i).accounted + (s.threads k).due p.handler i) :
    (s.advance p k u).account i = s.account i := by
  have hsum := s.sum_advance (Thread.due · p.handler i) p k u
  unfold account
  rw [process_advance, ← hp]
  omega

theorem account_step (h : Step i s t) (hs : (s.process.coordinators i).isSome) :
    t.account i = s.account i := by
  obtain ⟨c, hc⟩ := Option.isSome_iff_exists.mp hs
  have hcoordinator := Process.coordinator_of_some hc
  cases h with
  | @capture k a rest c' r now hk hc' hr =>
      obtain rfl : c' = c := Option.some.inj (hc'.symm.trans hc)
      have hcapture := c'.accounted_capture r
      refine account_advance rfl ?_
      rw [hk, hcoordinator, Process.coordinator_put_some, Thread.due_cons, Thread.due_mk,
        Process.put_handler, PanicHandler.reports_of_some _ _ hr]
      by_cases hkept : (c'.capture r).1 = .kept
      · simp only [hkept, if_true] at hcapture
        simp [hkept]
        omega
      · simp only [hkept, if_false] at hcapture
        simp [hkept]
        omega
  | @count k rest hk =>
      refine account_advance rfl ?_
      rw [hk, hcoordinator, Process.coordinators_update_self hc, Process.coordinator_put_some,
        Coordinator.accounted_countDiscarded, Thread.due_mk, Thread.due_mk]
      simp
      omega
  | @other k a rest now hk hr =>
      obtain ⟨d, hd, haccounted⟩ := Process.accounted_act_of_none hr hc
      refine account_advance Process.handler_act ?_
      rw [hk, hcoordinator, Process.coordinator_of_some hd, haccounted, Process.handler_act,
        Thread.due_cons, PanicHandler.reports_of_none _ _ hr, Thread.due_mk]
      simp

theorem account_run (h : Run i s t) (hs : (s.process.coordinators i).isSome) :
    t.process.handler = s.process.handler ∧ (t.process.coordinators i).isSome ∧
      t.account i = s.account i := by
  induction h with
  | refl => exact ⟨rfl, hs, rfl⟩
  | tail _ hstep ih =>
      obtain ⟨hhandler, hthere, haccount⟩ := ih
      obtain ⟨hhandler', hthere'⟩ := step_stays hstep hthere
      exact ⟨hhandler'.trans hhandler, hthere', (account_step hstep hthere).trans haccount⟩

/-- When all threads are over, what is accounted for is what was before and the reports that the
errands came to. -/
theorem accounted_run {p : Process} {errands : ι → Errand} (hp : (p.coordinators i).isSome)
    (h : Run i (start p errands) t) (ht : t.Finished) :
    (t.process.coordinator i).accounted =
      (p.coordinator i).accounted + ∑ k, (errands k).reports p.handler i := by
  obtain ⟨-, -, haccount⟩ := account_run h hp
  have hdone : ∑ k, (t.threads k).due t.process.handler i = 0 := by
    refine Finset.sum_eq_zero fun k _ => ?_
    rw [ht k]
    rfl
  have hbegin : ∑ k, ((start p errands).threads k).due p.handler i =
      ∑ k, (errands k).reports p.handler i :=
    Finset.sum_congr rfl fun k _ => by simp [start, Thread.due, Errand.reports]
  unfold account at haccount
  rw [hdone] at haccount
  exact haccount.trans (congrArg _ hbegin)

/-- Whatever the threads are to do, they can all come to their end. -/
theorem exists_run_finished (hquiet : ∀ k, (s.threads k).counting = false)
    (hs : (s.process.coordinators i).isSome) : ∃ t, Run i s t ∧ t.Finished := by
  induction hn : ∑ k, (s.threads k).rest.length using Nat.strong_induction_on generalizing s with
  | h n ih =>
      by_cases hdone : ∀ k, (s.threads k).rest = []
      · refine ⟨s, .refl s, fun k => ?_⟩
        rw [← hquiet k, ← hdone k]
      · obtain ⟨k, hk⟩ := not_forall.mp hdone
        obtain ⟨a, rest, hrest⟩ := List.exists_cons_of_ne_nil hk
        have hthread : s.threads k = ⟨false, a :: rest⟩ := by rw [← hquiet k, ← hrest]
        have hact := run_act hthread hs ⟨0⟩
        have hsum := s.sum_advance (fun t => t.rest.length) (s.process.act i ⟨0⟩ a) k ⟨false, rest⟩
        simp only [hrest, List.length_cons] at hsum
        have hquiet' : ∀ j, ((s.advance (s.process.act i ⟨0⟩ a) k ⟨false, rest⟩).threads j).counting
            = false := by
          intro j
          by_cases hj : j = k
          · rw [hj, advance_self]
          · rw [advance_of_ne _ _ _ hj, hquiet]
        obtain ⟨t, hrun, ht⟩ := ih _ (by omega) hquiet' (account_run hact hs).2.1 rfl
        exact ⟨t, hact.trans hrun, ht⟩

end Account

/-! ## Failures -/

/-- While a handler watches, what is accounted for when all threads are over is the number of those
that failed, and the number of workers that panicked once more. -/
theorem failures_accounted [Fintype ι] {i : CoordinatorId} {p : Process} {errands : ι → Errand}
    {t : Crowd ι} (hwatching : p.handler = .watching i) (hp : (p.coordinators i).isSome)
    (h : Run i (start p errands) t) (ht : t.Finished) :
    (t.process.coordinator i).accounted = (p.coordinator i).accounted +
      (Finset.univ.filter fun k => (errands k).fails).card +
      (Finset.univ.filter fun k => (errands k).isPanicOfWorker).card := by
  rw [accounted_run hp h ht, hwatching, Finset.card_filter, Finset.card_filter, Nat.add_assoc,
    ← Finset.sum_add_distrib]
  exact congrArg _ (Finset.sum_congr rfl fun k _ => (errands k).reports_watching i)

/-- A process whose only coordinator is new, with a handler that watches for it. -/
def watched : Process := ((Process.ofCoordinator {}).watch 0).2

/-- A worker that fails, one that panics, one that ends well, and a thread that panics. -/
def mixed : Fin 4 → Errand
  | 0 => .worker "router" (.error (.failure ⟨"no route", []⟩))
  | 1 => .worker "mobsim" (.error (.panic ⟨.text "boom", "<loc>"⟩))
  | 2 => .worker "writer" (.ok ())
  | 3 => .plain none (some ⟨.other, "<loc>"⟩)

theorem failures_accounted_mixed : ∃ t, Run 0 (start watched mixed) t ∧ t.Finished ∧
    (t.process.coordinator 0).accounted = 4 := by
  obtain ⟨t, hrun, ht⟩ := exists_run_finished (s := start watched mixed) (i := 0)
    (fun _ => rfl) rfl
  exact ⟨t, hrun, ht, (failures_accounted rfl rfl hrun ht).trans (by decide)⟩

/-- One worker that panics while a handler watches leaves both a fault in the slot and one that is
counted as not kept. -/
theorem worker_panic_accounted_twice :
    let errands : Unit → Errand := fun _ => mixed 1
    ∃ t, Run 0 (start watched errands) t ∧ t.Finished ∧
      (t.process.coordinator 0).fault.isSome ∧ (t.process.coordinator 0).discarded = 1 ∧
      (t.process.coordinator 0).accounted ≠
        (Finset.univ.filter fun k => (errands k).fails).card := by
  refine ⟨_, .tail (.tail (.tail (.refl _) (.capture (k := ()) ⟨0⟩ rfl rfl rfl))
    (.capture (k := ()) ⟨0⟩ rfl rfl rfl)) (.count (k := ()) rfl), fun _ => rfl, ?_, ?_, ?_⟩
  · rfl
  · rfl
  · decide

end Crowd

end CommuteSim
