import CommuteSim.Proofs.Commute.Forecast
import CommuteSim.Proofs.Controller.Questions

/-!
# The books in the course of a run

The books of the controller go along with the course of a run. Each iteration that is started is
covered by one operation of the ledger, in which those of its phases that began are timed; the
ledger that is written behind an iteration without an abort is the one that this iteration leaves.
The iteration is the last one that was started, and it is counted if it ended without an abort.
Nothing else changes the books.

Main statements: `passes_iterateFrom` for the loop, by induction on the indices that are left,
`passes_runToTeardown` for all before the teardown, and `records_run` for the ledger in a whole run.
-/

namespace CommuteSim

variable {σ α β : Type}

/-- Work that leads a session along a journey; its milestones go with its value, the ledger that it
finds and the ledger that it leaves. -/
def Records (k : Context) (work : Driven σ α)
    (C : α → TimingLedger → List (Moment σ) → TimingLedger → Prop) : Prop :=
  ∀ s : Session σ, s.controller.context = k →
    ∃ l, Session.Journey .opening s l (work s).2 ∧
      C (work s).1 s.controller.ledger (milestones l) (work s).2.controller.ledger

section Rules

variable {k : Context}

/-! ## Rules -/

theorem records_pure {C : α → TimingLedger → List (Moment σ) → TimingLedger → Prop} {a : α}
    (h : ∀ m, C a m [] m) : Records k (pure a) C :=
  fun s _ => ⟨[], .refl s, h _⟩

theorem records_mono {work : Driven σ α}
    {C D : α → TimingLedger → List (Moment σ) → TimingLedger → Prop} (h : Records k work C)
    (h' : ∀ a m l n, C a m l n → D a m l n) : Records k work D := by
  intro s hs
  obtain ⟨l, hl, hC⟩ := h s hs
  exact ⟨l, hl, h' _ _ _ _ hC⟩

theorem records_of_follows {work : Driven σ α} {L : α → List (Moment σ) → Prop}
    (h : Follows .opening k work L) (hwork : Upholds Session.Unclocked work) :
    Records k work fun a m l n => L a l ∧ n = m := by
  intro s hs
  obtain ⟨l, hl, hL⟩ := h s hs
  exact ⟨l, hl, hL, hwork s⟩

theorem records_bind {work : Driven σ α} {next : α → Driven σ β}
    {C : α → TimingLedger → List (Moment σ) → TimingLedger → Prop}
    {D : β → TimingLedger → List (Moment σ) → TimingLedger → Prop} (h : Records k work C)
    (h' : ∀ a m l n, C a m l n →
      Records k (next a) fun b n' l' o => n' = n → D b m (l ++ l') o) :
    Records k (work >>= next) D := by
  intro s hs
  obtain ⟨l, hl, hC⟩ := h s hs
  obtain ⟨l', hl', hD⟩ := h' _ _ _ _ hC (work s).2 ((Session.context_journey hl).trans hs)
  have hboth := hD rfl
  rw [← milestones_append] at hboth
  exact ⟨l ++ l', hl.trans hl', hboth⟩

/-- Work that leaves neither a milestone nor anything in the ledger comes before other work without
a trace. -/
theorem records_bind_quietly {work : Driven σ α} {next : α → Driven σ β}
    {D : β → TimingLedger → List (Moment σ) → TimingLedger → Prop}
    (h : Follows .opening k work Quietly) (hwork : Upholds Session.Unclocked work)
    (h' : ∀ a, Records k (next a) D) : Records k (work >>= next) D := by
  refine records_bind (records_of_follows h hwork) ?_
  rintro a m l n ⟨hl, rfl⟩
  refine records_mono (h' a) fun b n' l' o hD heq => ?_
  rw [show l = [] from hl, ← heq]
  exact hD

end Rules

namespace Controller

open Session (Unbooked Uncounted)
open Situation (toNat_of_next)
open TimingLedger (Covers Timed)

variable {k : Context}

/-! ## Iterations -/

theorem records_time (f : TimingLedger → Instant → TimingLedger) :
    Records (σ := σ) k (time f) fun _ m l n => l = [] ∧ ∃ now, n = f m now := by
  intro s hs
  obtain ⟨l, hl, hquiet⟩ := follows_time (k := k) f s hs
  exact ⟨l, hl, hquiet, s.world.clock, rfl⟩

/-- The phases of an iteration, each of which is timed. -/
theorem records_phases (i : IterationIndex) :
    Records (σ := σ) k (phases i) fun p m l n =>
      phasesCourse k.configuration.controller.firstIteration i p l ∧
        ∃ ps, begun l = ps.map (Step.phase · i) ∧ Timed ps m n := by
  intro s hs
  obtain ⟨l, hl, hcourse⟩ := follows_phases (k := k) i s hs
  obtain ⟨l', ps, hl', hps, htimed⟩ := tracks_phases i s
  obtain rfl : l = l' := List.append_cancel_left ((Session.past_journey hl).symm.trans hl')
  exact ⟨l, hl, hcourse, ps, (begun_milestones l).trans hps, htimed⟩

theorem records_writeTimes :
    Records (σ := σ) k writeTimes fun _ m l n => l = [.reported m] ∧ n = m := by
  intro s _
  obtain ⟨l, hl, hreported⟩ := journey_writeTimes s
  exact ⟨l, hl, hreported, (unbooked_writeTimes s).ledger⟩

/-- An iteration in the ledger: what is written behind one without an abort is the ledger that it
leaves. -/
inductive IterationRecord (first i : IterationIndex) :
    Progress → TimingLedger → List (Moment σ) → TimingLedger → Prop where
  | completed {m n : TimingLedger} {l : List (Moment σ)} {ps : List Phase}
      (h : phasesCourse first i .proceed l) (hps : begun l = ps.map (Step.phase · i))
      (hn : Covers i ps m n) : IterationRecord first i .proceed m (l ++ [.reported n]) n
  | cut {m n : TimingLedger} {l : List (Moment σ)} {ps : List Phase}
      (h : phasesCourse first i .aborted l) (hps : begun l = ps.map (Step.phase · i))
      (hn : Covers i ps m n) : IterationRecord first i .aborted m l n

/-- Where an iteration aborts, one of its steps did. -/
theorem IterationRecord.traces {first i : IterationIndex} {m n : TimingLedger}
    {l : List (Moment σ)} (h : IterationRecord first i .aborted m l n) :
    ∃ step, (step, .aborted) ∈ outcomes l := by
  cases h with
  | cut h _ _ => exact traces_phases first i l h

theorem IterationRecord.course {first i : IterationIndex} {p : Progress} {m n : TimingLedger}
    {l : List (Moment σ)} (h : IterationRecord first i p m l n) : IterationCourse first i p l := by
  cases h with
  | completed h _ _ => exact .completed h n
  | cut h _ _ => exact .cut h

theorem records_line (text : String) (h : text.toList.head? = some '#') {next : Unit → Driven σ α}
    {D : α → TimingLedger → List (Moment σ) → TimingLedger → Prop}
    (h' : ∀ a, Records k (next a) D) :
    Records k (onWorld (World.say .info text) >>= next) D :=
  records_bind_quietly (follows_line text h) (unclocked_of_unbooked (unbooked_onWorld _)) h'

theorem records_runThrough (i : IterationIndex) :
    Records (σ := σ) k (runThrough i)
      (IterationRecord k.configuration.controller.firstIteration i) := by
  have hbegins : (s!"### ITERATION {i} BEGINS").toList.head? = some '#' := by
    rw [String.toList_append, String.toList_append]
    rfl
  have hends : (s!"### ITERATION {i} ENDS").toList.head? = some '#' := by
    rw [String.toList_append, String.toList_append]
    rfl
  refine records_line _ rfl fun _ => records_line _ hbegins fun _ => ?_
  refine records_bind (records_time _) ?_
  rintro _ m _ _ ⟨rfl, start, rfl⟩
  refine records_bind (records_phases i) ?_
  rintro outcome m₁ l n ⟨hcourse, ps, hps, htimed⟩
  refine records_bind (records_time _) ?_
  rintro _ m₂ _ _ ⟨rfl, finish, rfl⟩
  have hcovers : m₁ = m.openIteration i start → m₂ = n →
      Covers i ps m (m₂.closeIteration finish) := by
    rintro rfl rfl
    exact ⟨start, finish, m₂, htimed, rfl⟩
  cases outcome with
  | aborted =>
      refine records_pure fun o ho h₂ h₁ => ?_
      rw [ho]
      simpa using .cut hcourse hps (hcovers h₁ h₂)
  | proceed =>
      refine records_bind records_writeTimes ?_
      rintro _ o _ _ ⟨rfl, rfl⟩
      refine records_line _ hends fun _ => records_line _ rfl fun _ => records_pure ?_
      intro o' heq ho h₂ h₁
      rw [heq, ho]
      simpa using .completed hcourse hps (hcovers h₁ h₂)

theorem uncounted_runThrough (i : IterationIndex) :
    Upholds (Uncounted (σ := σ)) (runThrough i) := by
  have hsay : ∀ line, Upholds (Uncounted (σ := σ)) (onWorld (World.say .info line)) := fun _ =>
    uncounted_of_unbooked (unbooked_onWorld _)
  refine upholds_bind (hsay _) fun _ => upholds_bind (hsay _) fun _ => ?_
  refine upholds_bind (uncounted_time _) fun _ => upholds_bind (uncounted_phases i) fun _ => ?_
  refine upholds_bind (uncounted_time _) fun _ => upholds_ite ?_ (upholds_pure _)
  refine upholds_bind (uncounted_of_unbooked unbooked_writeTimes) fun _ => ?_
  exact upholds_bind (hsay _) fun _ => upholds_bind (hsay _) fun _ => upholds_pure _

/-- The iteration with all that it leaves. -/
theorem passes_runThrough (i : IterationIndex) :
    Passes (σ := σ) k (runThrough i) fun p s l u =>
      IterationRecord k.configuration.controller.firstIteration i p s.controller.ledger l
        u.controller.ledger ∧ Uncounted s u ∧ Flagged s l u := by
  intro s hs
  obtain ⟨l, hl, hrecord⟩ := records_runThrough (k := k) i s hs
  have hnone : asks l = [] :=
    (asks_milestones l).symm.trans (brings_iteration hrecord.course).asks
  exact ⟨l, hl, calm_of_none hnone, hrecord, uncounted_runThrough i s, flagged_journey hl⟩

/-! ## The loop -/

/-- An iteration in the books: it is the last one that was started, it is counted if it ended
without an abort, and the ledger has it. -/
structure Booked (first i : IterationIndex) (p : Progress) (s : Session σ) (l : List (Moment σ))
    (u : Session σ) : Prop where
  simulation : u.controller.simulation = s.controller.simulation
  criterion : u.controller.criterion = s.controller.criterion
  completed : u.controller.completed =
    if p = .proceed then min (s.controller.completed + 1) 0xFFFFFFFF else s.controller.completed
  last : u.controller.last = some i
  record : IterationRecord first i p s.controller.ledger l u.controller.ledger

theorem Booked.to_end {first i : IterationIndex} {p : Progress} {s t u : Session σ}
    {l : List (Moment σ)} (h : Booked first i p s l t) (h' : Unbooked t u) :
    Booked first i p s l u where
  simulation := h'.simulation.trans h.simulation
  criterion := h'.criterion.trans h.criterion
  completed := h'.completed.trans h.completed
  last := h'.last.trans h.last
  record := h'.ledger ▸ h.record

theorem Booked.of_start {first i : IterationIndex} {p : Progress} {s t u : Session σ}
    {l : List (Moment σ)} (h : Booked first i p t l u) (ht : Unbooked s t) :
    Booked first i p s l u where
  simulation := h.simulation.trans ht.simulation
  criterion := h.criterion.trans ht.criterion
  completed := by rw [h.completed, ht.completed]
  last := h.last
  record := ht.ledger ▸ h.record

/-- The loop from an iteration on. -/
inductive LoopPass (k : Context) :
    IterationIndex → Session σ → List (Moment σ) → Session σ → Prop where
  /-- A shutdown was requested before anyone was asked. -/
  | unasked {i : IterationIndex} {s u : Session σ} (h : u.world.coordinator.flag = true)
      (hu : Unbooked s u) : LoopPass k i s [] u
  | declined {i : IterationIndex} {s u : Session σ} {answer : Outcome Empty Bool}
      (h : answer.toOption.getD false = false)
      (hdefault : AsksByDefault s.controller → k.configuration.controller.lastIteration < i)
      (hu : Unbooked s u) : LoopPass k i s [.asked i, .answered i answer] u
  | aborted {i : IterationIndex} {s u : Session σ} {l : List (Moment σ)}
      (hdefault : AsksByDefault s.controller → i ≤ k.configuration.controller.lastIteration)
      (h : Booked k.configuration.controller.firstIteration i .aborted s l u)
      (hflag : u.world.coordinator.flag = true) :
      LoopPass k i s (.asked i :: .answered i (.ok true) :: l) u
  | last {i : IterationIndex} {s u : Session σ} {l : List (Moment σ)}
      (hdefault : AsksByDefault s.controller → i ≤ k.configuration.controller.lastIteration)
      (h : Booked k.configuration.controller.firstIteration i .proceed s l u)
      (hi : i.next? = none) :
      LoopPass k i s (.asked i :: .answered i (.ok true) :: l) u
  | more {i j : IterationIndex} {s t u : Session σ} {l m : List (Moment σ)}
      (hdefault : AsksByDefault s.controller → i ≤ k.configuration.controller.lastIteration)
      (h : Booked k.configuration.controller.firstIteration i .proceed s l t)
      (hj : i.next? = some j) (hm : LoopPass k j t m u) :
      LoopPass k i s (.asked i :: .answered i (.ok true) :: (l ++ m)) u

theorem passes_sayStopped :
    Passes (σ := σ) k sayStopped fun _ s l u => l = [] ∧ Unbooked s u ∧ Flagged s l u :=
  passes_quietly follows_sayStopped unbooked_sayStopped

/-- Behind the largest index there is none. -/
theorem passes_sayExhausted :
    Passes (σ := σ) k (onWorld (World.say .warning "iteration index space exhausted"))
      fun _ s l u => l = [] ∧ Unbooked s u ∧ Flagged s l u :=
  passes_quietly (follows_onWorld (World.wanders_say (warning _))) (unbooked_onWorld _)

/-- An iteration that is started, and what comes behind it unless it is aborted. -/
theorem passes_started (i : IterationIndex) {next : Driven σ Unit}
    {D : Session σ → List (Moment σ) → Session σ → Prop} (h : Passes k next fun _ => D) :
    Passes k (do
      setLast i
      if (← runThrough i) = .proceed then
        countCompleted
        next) fun _ s l u =>
      (Booked k.configuration.controller.firstIteration i .aborted s l u ∧
        u.world.coordinator.flag = true) ∨
      ∃ m n t, l = m ++ n ∧
        Booked k.configuration.controller.firstIteration i .proceed s m t ∧ D t n u := by
  have hstart : Passes (σ := σ) k (setLast i) fun _ s l u => l = [] ∧
      u = { s with controller := { s.controller with last := some i } } ∧ Flagged s l u :=
    passes_quietly (follows_setLast i) fun _ => rfl
  have hcount : Passes (σ := σ) k countCompleted fun _ s l u => l = [] ∧
      u = { s with controller := { s.controller with
        completed := min (s.controller.completed + 1) 0xFFFFFFFF } } ∧ Flagged s l u :=
    passes_quietly follows_countCompleted fun _ => rfl
  refine passes_bind hstart ?_
  rintro _ s _ t ⟨rfl, ht, -⟩
  -- what the iteration itself does leaves the counters alone
  refine passes_bind (passes_runThrough i) ?_
  rintro outcome t' l u ⟨hrecord, hkept, hflag⟩
  cases outcome with
  | aborted =>
      refine passes_pure ?_
      rintro _ rfl rfl
      rw [List.append_nil]
      -- the step that aborted it saw the flag up, and nothing lowers it
      obtain ⟨step, hstep⟩ := hrecord.traces
      subst ht
      exact .inl ⟨⟨hkept.simulation, hkept.criterion, hkept.completed, hkept.last, hrecord⟩,
        hflag.aborted step hstep⟩
  | proceed =>
      refine passes_bind hcount ?_
      rintro _ u' _ _ ⟨rfl, hv, -⟩
      refine passes_mono h ?_
      rintro _ v n w hD rfl rfl rfl
      refine .inr ⟨l, n, v, rfl, ?_, hD⟩
      subst ht hv
      refine ⟨hkept.simulation, hkept.criterion, ?_, hkept.last, hrecord⟩
      exact congrArg (fun c => min (c + 1) 0xFFFFFFFF) hkept.completed

section Answers

variable {i last : IterationIndex} {answer : Outcome Empty Bool}

/-- By default an index that is wanted is at most the last one of the configuration. -/
theorem le_of_wanted (h : answer = .ok (decide (i ≤ last))) (hwanted : answer = .ok true) :
    i ≤ last :=
  of_decide_eq_true (Except.ok.inj (h.symm.trans hwanted))

/-- By default an index that is declined is larger than that. -/
theorem lt_of_declined (h : answer = .ok (decide (i ≤ last)))
    (hdeclined : answer.toOption.getD false = false) : last < i := by
  rw [h] at hdeclined
  exact UInt32.not_le.mp (of_decide_eq_false hdeclined)

end Answers

/-- The loop, by induction on the indices that are left; there is always one. -/
theorem passes_iterateFrom (room : Nat) (i : IterationIndex)
    (hroom : room = UInt32.size - i.toNat) :
    Passes (σ := σ) k (iterateFrom room i) fun _ s l u => LoopPass k i s l u := by
  induction room generalizing i with
  | zero =>
      -- `i` itself is left
      have hlt := i.toNat_lt_size
      omega
  | succ room ih =>
      refine passes_bind (passes_wantsIteration i) ?_
      rintro wanted s l t ⟨hasks, hbooks⟩
      cases hasks with
      | unasked hup =>
          refine passes_mono passes_sayStopped ?_
          rintro _ _ m u ⟨rfl, hu, hflag⟩ rfl
          exact .unasked (hflag.stays hup) (hbooks.trans hu)
      | asked answer hdefault =>
          cases hanswer : answer.toOption.getD false with
          | false =>
              refine passes_mono passes_sayStopped ?_
              rintro _ _ m u ⟨rfl, hu, -⟩ rfl
              exact .declined hanswer (fun hs => lt_of_declined (hdefault hs) hanswer)
                (hbooks.trans hu)
          | true =>
              obtain rfl := answer_of_wanted hanswer
              have hyes : AsksByDefault s.controller →
                  i ≤ k.configuration.controller.lastIteration := fun hs =>
                le_of_wanted (hdefault hs) rfl
              cases hnext : i.next? with
              | none =>
                  refine passes_mono (passes_started i passes_sayExhausted) ?_
                  rintro _ _ m u (⟨hu, hflag⟩ | ⟨m, n, v, rfl, hv, rfl, hu, -⟩) rfl
                  · exact .aborted hyes (hu.of_start hbooks) hflag
                  · rw [List.append_nil]
                    exact .last hyes ((hv.to_end hu).of_start hbooks) hnext
              | some j =>
                  have hrest : room = UInt32.size - j.toNat := by
                    have hnat := toNat_of_next hnext
                    omega
                  refine passes_mono (passes_started i (ih j hrest)) ?_
                  rintro _ _ m u (⟨hu, hflag⟩ | ⟨m, n, v, rfl, hv, hpass⟩) rfl
                  · exact .aborted hyes (hu.of_start hbooks) hflag
                  · exact .more hyes (hv.of_start hbooks) hnext hpass (l := m)

/-- All iterations from one on in the ledger. -/
inductive LoopRecord (first : IterationIndex) :
    IterationIndex → TimingLedger → List (Moment σ) → TimingLedger → Prop where
  /-- A shutdown was requested before anyone was asked. -/
  | unasked (i : IterationIndex) (m : TimingLedger) : LoopRecord first i m [] m
  | declined {i : IterationIndex} {m : TimingLedger} {answer : Outcome Empty Bool}
      (h : answer.toOption.getD false = false) :
      LoopRecord first i m [.asked i, .answered i answer] m
  | last {i : IterationIndex} {p : Progress} {m n : TimingLedger} {l : List (Moment σ)}
      (h : IterationRecord first i p m l n) (hp : p = .proceed → i.next? = none) :
      LoopRecord first i m (.asked i :: .answered i (.ok true) :: l) n
  | more {i j : IterationIndex} {m n o : TimingLedger} {l l' : List (Moment σ)}
      (h : IterationRecord first i .proceed m l n) (hj : i.next? = some j)
      (hrest : LoopRecord first j n l' o) :
      LoopRecord first i m (.asked i :: .answered i (.ok true) :: (l ++ l')) o

theorem LoopPass.record {i : IterationIndex} {s u : Session σ} {l : List (Moment σ)}
    (h : LoopPass k i s l u) :
    LoopRecord k.configuration.controller.firstIteration i s.controller.ledger l
      u.controller.ledger := by
  induction h with
  | unasked _ hu =>
      rw [hu.ledger]
      exact .unasked _ _
  | declined h _ hu =>
      rw [hu.ledger]
      exact .declined h
  | aborted _ h _ => exact .last h.record nofun
  | last _ h hi => exact .last h.record fun _ => hi
  | more _ h hj _ ih => exact .more h.record hj ih

/-! ## The whole run -/

/-- All before the teardown. -/
inductive OpeningPass (k : Context) (s : Session σ) : List (Moment σ) → Session σ → Prop where
  | cut {u : Session σ} {l : List (Moment σ)} (h : startUpCourse .aborted l) (hu : Unbooked s u)
      (hflag : u.world.coordinator.flag = true) : OpeningPass k s l u
  | through {t v u : Session σ} {l m : List (Moment σ)} (h : startUpCourse .proceed l)
      (ht : Unbooked s t) (hm : LoopPass k k.configuration.controller.firstIteration t m v)
      (hu : Unbooked v u)
      (hflag : v.world.coordinator.flag = true → u.world.coordinator.flag = true) :
      OpeningPass k s (l ++ m) u

theorem traces_startUp : Traces (σ := σ) startUpCourse :=
  traces_andThen (traces_step _ _) (traces_andThen (traces_step _ _)
    (traces_andThen (traces_step _ _) (traces_step _ _)))

theorem passes_runIterations :
    Passes (σ := σ) k runIterations fun _ s l u =>
      LoopPass k k.configuration.controller.firstIteration s l u := by
  intro s hs
  have hloop := passes_iterateFrom (σ := σ) (k := k) _
    k.configuration.controller.firstIteration rfl
  rw [← hs] at hloop ⊢
  exact hloop s rfl

theorem passes_runToTeardown :
    Passes (σ := σ) k runToTeardown fun _ s l u => OpeningPass k s l u := by
  have henter : ∀ stage, Passes (σ := σ) k (enter stage) fun _ s l u =>
      l = [] ∧ Unbooked s u ∧ Flagged s l u := fun stage =>
    passes_quietly (follows_enter stage) (unbooked_enter stage)
  have hstartUp := passes_of_follows (σ := σ) (k := k) follows_startUp
    (fun _ _ hl => (brings_startUp hl).asks) unbooked_startUp
  refine passes_bind (henter _) ?_
  rintro _ s _ t ⟨rfl, ht, -⟩
  refine passes_bind hstartUp ?_
  rintro outcome t' l u ⟨hcourse, hu, hflag⟩
  cases outcome with
  | aborted =>
      refine passes_mono (henter _) ?_
      rintro _ u' _ v ⟨rfl, hv, hflag'⟩ rfl rfl
      obtain ⟨step, hstep⟩ := traces_startUp l hcourse
      have hup := hflag'.stays (hflag.aborted step hstep)
      rw [List.append_nil]
      exact .cut hcourse (ht.trans (hu.trans hv)) hup
  | proceed =>
      refine passes_bind (henter _) ?_
      rintro _ u' _ v ⟨rfl, hv, -⟩
      refine passes_bind passes_runIterations ?_
      rintro _ v' m w hpass
      refine passes_mono (henter _) ?_
      rintro _ w' _ x ⟨rfl, hx, hflag'⟩ rfl rfl rfl rfl
      rw [List.append_nil]
      exact .through hcourse (ht.trans (hu.trans hv)) hpass hx hflag'.stays (l := l)

/-- All before the teardown in the ledger. -/
inductive OpeningRecord (first : IterationIndex) (m : TimingLedger) :
    List (Moment σ) → TimingLedger → Prop where
  | cut {l : List (Moment σ)} (h : startUpCourse .aborted l) : OpeningRecord first m l m
  | iterated {n : TimingLedger} {l l' : List (Moment σ)} (h : startUpCourse .proceed l)
      (h' : LoopRecord first first m l' n) : OpeningRecord first m (l ++ l') n

theorem OpeningPass.record {s u : Session σ} {l : List (Moment σ)} (h : OpeningPass k s l u) :
    OpeningRecord k.configuration.controller.firstIteration s.controller.ledger l
      u.controller.ledger := by
  cases h with
  | cut h hu _ =>
      rw [hu.ledger]
      exact .cut h
  | through h ht hm hu _ =>
      have hrecord := hm.record
      rw [ht.ledger] at hrecord
      rw [hu.ledger]
      exact .iterated h hrecord

/-- Nothing happens behind the teardown but that those who wait are released and the handler of
panics is put back. -/
theorem journey_rest {s : Session σ} (h : s.controller.stage = .idle)
    (hs : (tearDown (upToTeardown s)).2.controller.context = s.controller.context) :
    ∃ l, Session.Journey .closing (tearDown (upToTeardown s)).2 l (run s).2 ∧
      milestones l = [] ∧
      (run s).2.controller.ledger = (tearDown (upToTeardown s)).2.controller.ledger := by
  obtain ⟨t, ht⟩ : ∃ t, t = (tearDown (upToTeardown s)).2 := ⟨_, rfl⟩
  have hconcluded : concluded s = (enter .terminated t).2 := by
    rw [concluded, upToRelease_apply, ht, upToTeardown]
  have hreleased : (released s).controller.ledger = t.controller.ledger := by
    rw [released, hconcluded]
    rfl
  have henter : Follows .closing t.controller.context (enter (σ := σ) .terminated) Quietly :=
    follows_enter _
  have hterminate : Follows .closing (concluded s).controller.context
      (onWorld (World.terminate (σ := σ))) Quietly := follows_terminate
  obtain ⟨l, hl, hquiet⟩ := henter t rfl
  rw [← hconcluded] at hl
  obtain ⟨m, hm, hquiet'⟩ := hterminate (concluded s) rfl
  have hway : Session.Journey .closing t (l ++ m) (released s) := hl.trans hm
  have hnone : milestones (l ++ m) = [] := by
    rw [milestones_append, show milestones l = [] from hquiet, List.nil_append]
    exact hquiet'
  rw [← ht] at hs ⊢
  cases hw : s.watches with
  | false =>
      rw [run_of_not_watches h hw]
      exact ⟨l ++ m, hway, hnone, hreleased⟩
  | true =>
      rw [run_of_watches h hw]
      have hwatches : (released s).watches = true := by
        rw [Session.watches_journey hway, ← hw]
        exact congrArg Context.watches hs
      have hunwatch : Follows (σ := σ) .closing (released s).controller.context
          (onWorld (unwatch (World.yield (bound s).world).2.process.handler)) Quietly :=
        follows_unwatch hwatches _
      obtain ⟨n, hn, hquiet⟩ := hunwatch (released s) rfl
      refine ⟨l ++ m ++ n, hway.trans hn, ?_, hreleased⟩
      rw [milestones_append, hnone, List.nil_append]
      exact hquiet

/-- What happens in a run comes in four parts: what leads up to the first step, what comes before
the teardown, the teardown up to the claim, and all from the claim on. -/
theorem history_stages {s : Session σ} (h : s.controller.stage = .idle) {a l : List (Moment σ)}
    (ha : Session.Journey .opening s a (ready s))
    (hl : Session.Journey .opening (ready s) l (upToTeardown s)) :
    ∃ (account : Account (· = []) (upToTeardown s) (tearDown (upToTeardown s)).1
        (tearDown (upToTeardown s)).2) (rest : List (Moment σ)),
      runHistory s = a ++ (l ++ (account.before ++ (account.found.claimMoments ++ rest))) ∧
      milestones rest = closingMilestones account.unexpected ∧
      (run s).2.controller.ledger = (tearDown (upToTeardown s)).2.controller.ledger := by
  have hcontext : (upToTeardown s).controller.context = s.controller.context :=
    (Session.context_journey hl).trans (Session.context_journey ha)
  obtain ⟨account⟩ := recounts_tearDown (upToTeardown s) hcontext
  have hfound : account.found.controller.context = (upToTeardown s).controller.context :=
    Session.context_journey account.opening
  have hend := Session.context_journey account.closing
  obtain ⟨b, hb, hrest, hledger⟩ := journey_rest h (hend.trans (hfound.trans hcontext))
  refine ⟨account, account.after ++ b, ?_, ?_, hledger⟩
  · have hup : (upToTeardown s).world.past = (ready s).world.past ++ l := Session.past_journey hl
    have hpast : (run s).2.world.past = s.world.past ++
        (a ++ (l ++ (account.before ++ (account.found.claimMoments ++ (account.after ++ b))))) := by
      rw [Session.past_journey hb, past_account account, hup, Session.past_journey ha]
      simp only [List.append_assoc]
    rw [runHistory, hpast, List.drop_left]
  · rw [milestones_append, account.farewell, hrest, List.append_nil]

/-- The milestones of a run from the teardown on. -/
theorem milestones_closing {s u : Session σ} {r : Except RunFailure RunSummary}
    (account : Account (· = []) s r u) {rest : List (Moment σ)}
    (hrest : milestones rest = closingMilestones account.unexpected) :
    milestones (account.before ++ (account.found.claimMoments ++ rest)) =
      .claimed account.found.world.coordinator :: closingMilestones account.unexpected := by
  rw [milestones_append, milestones_append, account.course, milestones_claim, hrest]
  rfl

end Controller

end CommuteSim
