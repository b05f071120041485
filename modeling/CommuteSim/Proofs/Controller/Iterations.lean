import CommuteSim.Proofs.Controller.Bookkeeping

/-!
# Which iterations run

The loop asks for one index after the other whether an iteration is to run, from the first on, and
an iteration starts on each yes. It ends where the answer is no, where a shutdown was requested
before the question, where a step aborted the run, and behind the largest index. So neither an index
is skipped nor one comes twice, and the counts in the summary of a run fit what has happened in it.

The bound on the loop is the number of indices that are left, which never is what ends it
(`iterateFrom_all`). Main statement: `iterations_in_order`, from `LoopPass` for the ways on which
the loop comes to its end and `LoopPass.iterated` for what all of these have in common.
-/

namespace CommuteSim

open Situation (toNat_next toNat_of_next)

variable {σ : Type}

namespace Controller

open Session (Uncounted)

/-! ## What the loop comes to -/

/-- The indices `a` are asked for one after the other from `i` on; each of them but the last one
perhaps is started, which are `b`, and each of those but the last one perhaps ends, which are
`c`. -/
structure InOrder (i : IterationIndex) (a b c : List IterationIndex) : Prop where
  consecutive : a.map (·.toNat) = List.range' i.toNat a.length
  within : i.toNat + a.length ≤ UInt32.size
  started : b <+: a
  refused : a.length ≤ b.length + 1
  ended : c <+: b
  aborted : b.length ≤ c.length + 1

section InOrder

variable {i j : IterationIndex} {a b c : List IterationIndex}

theorem inOrder_nil (i : IterationIndex) : InOrder i [] [] [] where
  consecutive := rfl
  within := i.toNat_lt_size.le
  started := List.prefix_rfl
  refused := Nat.zero_le _
  ended := List.prefix_rfl
  aborted := Nat.zero_le _

theorem inOrder_singleton (hb : b <+: [i]) (hc : c <+: b) : InOrder i [i] b c where
  consecutive := rfl
  within := i.toNat_lt_size
  started := hb
  refused := Nat.le_add_left _ _
  ended := hc
  aborted := hb.length_le.trans (Nat.le_add_left _ _)

theorem InOrder.cons (h : InOrder j a b c) (hj : i.next? = some j) :
    InOrder i (i :: a) (i :: b) (i :: c) := by
  have hnat := toNat_of_next hj
  refine ⟨?_, ?_, List.prefix_cons_inj i |>.mpr h.started, Nat.succ_le_succ h.refused,
    List.prefix_cons_inj i |>.mpr h.ended, Nat.succ_le_succ h.aborted⟩
  · rw [List.map_cons, h.consecutive, hnat]
    rfl
  · have hwithin := h.within
    rw [List.length_cons]
    omega

theorem InOrder.started_consecutive (h : InOrder i a b c) :
    b.map (·.toNat) = List.range' i.toNat b.length := by
  obtain ⟨rest, rfl⟩ := h.started
  have hall := h.consecutive
  rw [List.map_append, List.length_append, ← List.range'_append_1] at hall
  exact (List.append_inj hall (by rw [List.length_map, List.length_range'])).1

end InOrder

/-- What a session has gone through once its iterations from `i` on are over. -/
structure Iterated (k : Context) (i : IterationIndex) (s : Session σ) (l : List (Moment σ))
    (u : Session σ) : Prop where
  order : InOrder i (asks l) (starts l) (completions l)
  /-- No iteration was aborted unless a shutdown was requested. -/
  aborted : (completions l).length < (starts l).length → u.world.coordinator.flag = true
  completed : s.controller.completed ≤ 0xFFFFFFFF →
    u.controller.completed = min (s.controller.completed + (completions l).length) 0xFFFFFFFF
  last : u.controller.last = (starts l).getLast?.or s.controller.last
  byDefault : AsksByDefault s.controller →
    let all := k.configuration.controller.lastIteration.toNat + 1 - i.toNat
    (starts l).length = all ∨
      (starts l).length < all ∧ (asks l).length = (starts l).length ∧
        u.world.coordinator.flag = true

section Iterated

variable {k : Context} {i j : IterationIndex} {s t u : Session σ} {l m : List (Moment σ)}

theorem getLast?_cons_or {α : Type} (a : α) (l : List α) (o : Option α) :
    (a :: l).getLast?.or o = l.getLast?.or (some a) := by
  rw [List.getLast?_cons, Option.some_or]
  cases l.getLast? <;> rfl

/-- Where a shutdown was requested before anyone was asked, no iteration is started. -/
theorem iterated_of_flag (h : Brings [] [] [] l) (hu : Uncounted s u)
    (hflag : u.world.coordinator.flag = true) : Iterated k i s l u where
  order := by
    rw [h.asks, h.starts, h.completions]
    exact inOrder_nil i
  aborted _ := hflag
  completed := by
    rw [h.completions, hu.completed]
    exact fun h => (Nat.min_eq_left h).symm
  last := by
    rw [h.starts]
    exact hu.last
  byDefault _ := by
    rw [h.starts, h.asks]
    exact (Nat.eq_zero_or_pos _).imp Eq.symm fun hleft => ⟨hleft, rfl, hflag⟩

/-- The question for an iteration that is not wanted. -/
theorem iterated_declined {answer : Outcome Empty Bool} (hu : Uncounted s u)
    (h : AsksByDefault s.controller → k.configuration.controller.lastIteration < i) :
    Iterated k i s [.asked i, .answered i answer] u where
  order := inOrder_singleton (List.nil_prefix ..) List.prefix_rfl
  aborted := nofun
  completed hs := hu.completed.trans (Nat.min_eq_left hs).symm
  last := hu.last
  byDefault hs := by
    have hlast := UInt32.lt_iff_toNat_lt.mp (h hs)
    exact .inl (Nat.sub_eq_zero_of_le hlast).symm

/-- The last iteration of a loop. -/
theorem iterated_last {first : IterationIndex} {p : Progress} (h : Booked first i p s l u)
    (hdefault : AsksByDefault s.controller → i ≤ k.configuration.controller.lastIteration)
    (hflag : p = .aborted → u.world.coordinator.flag = true)
    (hi : p = .proceed → i.next? = none) :
    Iterated k i s ([.asked i, .answered i (.ok true)] ++ l) u := by
  obtain ⟨hasks, hstarts, hcompletions⟩ := brings_turn h.record.course
  constructor
  · rw [hasks, hstarts, hcompletions]
    refine inOrder_singleton List.prefix_rfl ?_
    split
    · exact List.prefix_rfl
    · exact List.nil_prefix ..
  · rw [hstarts, hcompletions]
    cases p with
    | proceed => exact fun hlt => absurd hlt (Nat.lt_irrefl 1)
    | aborted => exact fun _ => hflag rfl
  · rw [hcompletions, h.completed]
    cases p with
    | proceed => exact fun _ => rfl
    | aborted => exact fun hs => (Nat.min_eq_left hs).symm
  · rw [hstarts]
    exact h.last
  · intro hs
    have hlast := UInt32.le_iff_toNat_le.mp (hdefault hs)
    rw [hstarts]
    cases p with
    | proceed =>
        -- the index is the largest, so the last one of the configuration is no larger
        have hmost := (toNat_next i).resolve_right fun ⟨_, hj, _⟩ => nomatch hj.symm.trans (hi rfl)
        have hlt := k.configuration.controller.lastIteration.toNat_lt
        refine .inl ?_
        rw [List.length_singleton]
        omega
    | aborted =>
        have hleft : 1 ≤ k.configuration.controller.lastIteration.toNat + 1 - i.toNat := by omega
        exact hleft.eq_or_lt.imp_right fun hlt => ⟨hlt, by rw [hasks], hflag rfl⟩

theorem Iterated.of_same (h : Iterated k i s l u)
    (hm : Brings (asks l) (starts l) (completions l) m) : Iterated k i s m u := by
  obtain ⟨hasks, hstarts, hcompletions⟩ := hm
  refine ⟨?_, ?_, ?_, ?_, ?_⟩
  · rw [hasks, hstarts, hcompletions]
    exact h.order
  · rw [hstarts, hcompletions]
    exact h.aborted
  · rw [hcompletions]
    exact h.completed
  · rw [hstarts]
    exact h.last
  · rw [hasks, hstarts]
    exact h.byDefault

/-- What counts nothing may come before the iterations. -/
theorem Iterated.of_start (h : Iterated k i t l u) (ht : Uncounted s t) : Iterated k i s l u where
  order := h.order
  aborted := h.aborted
  completed := ht.completed ▸ h.completed
  last := ht.last ▸ h.last
  byDefault hs := h.byDefault (asksByDefault_of_uncounted ht hs)

/-- And so may it come behind them. -/
theorem Iterated.to_end (h : Iterated k i s l t) (hu : Uncounted t u)
    (hflag : t.world.coordinator.flag = true → u.world.coordinator.flag = true) :
    Iterated k i s l u where
  order := h.order
  aborted hlt := hflag (h.aborted hlt)
  completed hs := hu.completed.trans (h.completed hs)
  last := hu.last.trans h.last
  byDefault hs := (h.byDefault hs).imp_right fun ⟨hlt, heq, hup⟩ => ⟨hlt, heq, hflag hup⟩

/-- An iteration, and the ones behind it. -/
theorem Iterated.cons {first : IterationIndex} (h : Booked first i .proceed s l t)
    (hdefault : AsksByDefault s.controller → i ≤ k.configuration.controller.lastIteration)
    (hj : i.next? = some j) (hm : Iterated k j t m u) :
    Iterated k i s ([.asked i, .answered i (.ok true)] ++ l ++ m) u := by
  have hturn := brings_turn h.record.course
  obtain ⟨hasks, hstarts, hcompletions⟩ := hturn.append (m := m) ⟨rfl, rfl, rfl⟩
  constructor
  · rw [hasks, hstarts, hcompletions]
    exact hm.order.cons hj
  · rw [hstarts, hcompletions]
    exact fun hlt => hm.aborted (Nat.succ_lt_succ_iff.mp hlt)
  · intro hs
    have hcompleted := hm.completed
    rw [h.completed, if_pos rfl] at hcompleted
    -- a count that has reached the largest index stays there
    rw [hcompleted (Nat.min_le_right _ _), hcompletions]
    simp only [if_pos, List.length_append, List.length_singleton]
    omega
  · rw [hstarts, hm.last, h.last]
    exact (getLast?_cons_or i (starts m) s.controller.last).symm
  · intro hs
    have hlast := UInt32.le_iff_toNat_le.mp (hdefault hs)
    have ht' : AsksByDefault t.controller := by
      rw [AsksByDefault, h.criterion, h.simulation]
      exact hs
    have hnat := toNat_of_next hj
    rw [hasks, hstarts]
    simp only [List.length_append, List.length_singleton]
    rcases hm.byDefault ht' with hall | ⟨hlt, heq, hflag⟩
    · exact .inl (by omega)
    · exact .inr ⟨by omega, by omega, hflag⟩

theorem LoopPass.iterated (h : LoopPass k i s l u) : Iterated k i s l u := by
  induction h with
  | unasked h hu => exact iterated_of_flag ⟨rfl, rfl, rfl⟩ hu.toUncounted h
  | declined _ hdefault hu => exact iterated_declined hu.toUncounted hdefault
  | aborted hdefault h hflag => exact iterated_last h hdefault (fun _ => hflag) nofun
  | last hdefault h hi => exact iterated_last h hdefault nofun fun _ => hi
  | more hdefault h hj _ ih => exact ih.cons h hdefault hj

end Iterated

/-! ## The whole run -/

section Run

variable {k : Context}

theorem OpeningPass.iterated {s u : Session σ} {l : List (Moment σ)} (h : OpeningPass k s l u) :
    Iterated k k.configuration.controller.firstIteration s l u := by
  cases h with
  | cut h hu hflag => exact iterated_of_flag (brings_startUp h) hu.toUncounted hflag
  | through h ht hm hu hflag =>
      have hloop := hm.iterated.to_end hu.toUncounted hflag
      refine (hloop.of_start ht.toUncounted).of_same ?_
      exact (brings_startUp h).append ⟨rfl, rfl, rfl⟩

/-- The teardown counts no iteration; its summary tells what was counted. -/
theorem summary_tearDown {s : Session σ} {r : RunSummary} (h : (tearDown s).1 = .ok r) :
    r.iterationsCompleted = s.controller.completed ∧ r.lastIteration = s.controller.last := by
  obtain ⟨unexpected, fault, t, htearDown⟩ : ∃ unexpected fault t,
      tearDown s = conclude unexpected fault t := ⟨_, _, _, rfl⟩
  obtain ⟨⟨-, -, hcompleted, hlast⟩, -⟩ := unbooked_tearDown s
  rw [htearDown] at h hcompleted hlast
  change result (conclude unexpected fault t).2.controller unexpected fault = .ok r at h
  generalize (conclude unexpected fault t).2.controller = c at h hcompleted hlast
  cases fault with
  | some r => cases h
  | none =>
      cases h
      exact ⟨hcompleted, hlast⟩

/-- Where a run was completed no shutdown was requested before the claim to its teardown. -/
theorem unraised_of_completed {C : List (Moment σ) → Prop} {s u : Session σ}
    {outcome : Except RunFailure RunSummary} {r : RunSummary} (a : Account C s outcome u)
    (h : outcome = .ok r) (hreason : r.reason = .completed) :
    a.found.world.coordinator.flag = false := by
  refine Bool.eq_false_iff.mpr fun hup => ?_
  obtain ⟨c, hc⟩ := a.result
  rw [hc, a.unexpected_of_flag hup] at h
  cases hfault : a.found.world.coordinator.fault with
  | some f =>
      rw [hfault] at h
      cases h
  | none =>
      rw [hfault] at h
      cases h
      cases hreason

/-- One turn of the loop. -/
def turn (rest : IterationIndex → Driven σ Unit) (i : IterationIndex) : Driven σ Unit := do
  if ← wantsIteration i then
    setLast i
    if (← runThrough i) = .proceed then
      countCompleted
      match i.next? with
      | some next => rest next
      | none => onWorld (World.say .warning "iteration index space exhausted")
  else sayStopped

/-- The number of indices that are left never is what ends the loop. -/
theorem iterateFrom_all (i : IterationIndex) :
    iterateFrom (σ := σ) (UInt32.size - i.toNat) i =
      turn (fun j => iterateFrom (UInt32.size - j.toNat) j) i := by
  have hi := i.toNat_lt_size
  obtain ⟨room, hroom⟩ : ∃ room, UInt32.size - i.toNat = room + 1 :=
    Nat.exists_eq_add_one.mpr (by omega)
  rw [hroom, iterateFrom, turn]
  cases hnext : i.next? with
  | none => rfl
  | some j =>
      have hnat := toNat_of_next hnext
      obtain rfl : room = UInt32.size - j.toNat := by omega
      rfl

end Run

/-- A shutdown was requested before the teardown was claimed. -/
def ShutdownRequested (l : List (Moment σ)) : Prop :=
  ∃ found : Coordinator, .claimed found ∈ l ∧ found.flag = true

/-- From the claim to the teardown on nobody is asked, and no iteration starts or ends. -/
theorem brings_closing {l : List (Moment σ)} {found : Coordinator} {unexpected : Bool}
    (h : milestones l = .claimed found :: closingMilestones unexpected) : Brings [] [] [] l := by
  refine brings_of_milestones ?_
  rw [h]
  cases unexpected <;> exact ⟨rfl, rfl, rfl⟩

/-- What a whole run has gone through at the claim to its teardown. -/
theorem iterated_run {s : Session σ} (h : s.controller.stage = .idle) :
    let first := s.controller.context.configuration.controller.firstIteration
    let l := runHistory s
    Calm s l ∧ ∃ t, Iterated s.controller.context first s l t ∧
      (t.world.coordinator.flag = true → ShutdownRequested l) ∧
      ∀ r, (run s).1 = .ok r →
        r.iterationsCompleted = t.controller.completed ∧ r.lastIteration = t.controller.last ∧
          (r.reason = .completed → t.world.coordinator.flag = false) := by
  intro first l
  obtain ⟨a, ha, hready⟩ := journey_ready s
  obtain ⟨m, hm, hcalm, hpass⟩ := passes_runToTeardown (ready s) (Session.context_journey ha)
  obtain ⟨account, rest, hparts, hrest, -⟩ := history_stages h ha hm
  let found := account.found.world.coordinator
  have hfound : (upToTeardown s).world.coordinator.flag = true → found.flag = true :=
    (Session.later_journey account.opening).flag
  have hclosing := milestones_closing account hrest
  have hbefore : Brings [] [] [] a := brings_of_milestones (hready ▸ ⟨rfl, rfl, rfl⟩)
  have hafter := brings_closing hclosing
  have hkept : Uncounted s (ready s) := by
    constructor <;> rw [controller_ready]
  have hbrings : Brings (asks (milestones m)) (starts (milestones m))
      (completions (milestones m)) l := by
    have hall := hbefore.append (.append (brings_of_milestones ⟨rfl, rfl, rfl⟩ (l := m)) hafter)
    simpa only [List.nil_append, List.append_nil, ← hparts] using hall
  refine ⟨?_, upToTeardown s, (hpass.iterated.of_start hkept).of_same hbrings, fun hup => ?_,
    fun r hr => ?_⟩
  · have hall := (calm_of_none hbefore.asks).append ha (hcalm.append_none hafter.asks)
    rwa [← hparts] at hall
  · refine ⟨found, ?_, hfound hup⟩
    have hclaimed := List.mem_of_mem_filter (hclosing ▸ List.mem_cons_self)
    rw [show l = _ from hparts]
    exact List.mem_append_right _ (List.mem_append_right _ hclaimed)
  · rw [(run_parts h).2.1] at hr
    obtain ⟨hcounted, hstarted⟩ := summary_tearDown hr
    refine ⟨hcounted, hstarted, fun hreason => Bool.eq_false_iff.mpr fun hup => ?_⟩
    exact Bool.eq_false_iff.mp (unraised_of_completed account hr hreason) (hfound hup)

/-- The iterations of a run, whatever is asked, fails, panics or is interrupted in it. One index
after the other is asked for, from the first on and up to the largest at most, and none once a
shutdown was requested. Of these all are started but the last one perhaps. Of those all end without
an abort but the last one perhaps, and that one does too unless a shutdown was requested. If nobody
but the simulation is asked, all iterations up to the last one of the configuration are started,
unless a shutdown was requested and nobody was asked any more. A summary of the run tells the last
iteration that was started, and counts those that ended without an abort, which are all of them if
the run was completed. The number of indices that are left never is what ends the loop. -/
theorem iterations_in_order (s : Session σ) (h : s.controller.stage = .idle)
    (hcompleted : s.controller.completed = 0) (hlast : s.controller.last = none) :
    let first := s.controller.context.configuration.controller.firstIteration
    let last := s.controller.context.configuration.controller.lastIteration
    let l := runHistory s
    (asks l).map (·.toNat) = List.range' first.toNat (asks l).length ∧
      first.toNat + (asks l).length ≤ UInt32.size ∧
      (∀ a i b, l = a ++ .asked i :: b → s.world.coordinator.flag = false ∧ .raised ∉ a) ∧
      starts l <+: asks l ∧ (asks l).length ≤ (starts l).length + 1 ∧
      completions l <+: starts l ∧ (starts l).length ≤ (completions l).length + 1 ∧
      ((completions l).length < (starts l).length → ShutdownRequested l) ∧
      (AsksByDefault s.controller →
        (starts l).map (·.toNat) = List.range' first.toNat (last.toNat + 1 - first.toNat) ∨
          (starts l).length < last.toNat + 1 - first.toNat ∧
            (asks l).length = (starts l).length ∧ ShutdownRequested l) ∧
      (∀ summary, (run s).1 = .ok summary →
        summary.lastIteration.map (·.toNat) =
            (if starts l = [] then none else some (first.toNat + (starts l).length - 1)) ∧
          summary.iterationsCompleted = min (completions l).length 0xFFFFFFFF ∧
          (summary.reason = .completed → (completions l).length = (starts l).length)) ∧
      ∀ i, iterateFrom (σ := σ) (UInt32.size - i.toNat) i =
        turn (fun j => iterateFrom (UInt32.size - j.toNat) j) i := by
  intro first last l
  obtain ⟨hcalm, t, hiterated, hflag, hsummary⟩ := iterated_run h
  have horder : InOrder first (asks l) (starts l) (completions l) := hiterated.order
  have hstarts : (starts l).map (·.toNat) = List.range' first.toNat (starts l).length :=
    horder.started_consecutive
  refine ⟨horder.consecutive, horder.within, hcalm, horder.started, horder.refused, horder.ended,
    horder.aborted, fun hlt => hflag (hiterated.aborted hlt), fun hs => ?_, fun r hr => ?_,
    iterateFrom_all⟩
  · refine (hiterated.byDefault hs).imp (fun hall => ?_) fun ⟨hlt, heq, hup⟩ =>
      ⟨hlt, heq, hflag hup⟩
    rw [hstarts]
    exact congrArg (List.range' first.toNat) hall
  · obtain ⟨hcounted, hstarted, hreason⟩ := hsummary r hr
    refine ⟨?_, ?_, fun hr => ?_⟩
    · have hlast' : r.lastIteration = (starts l).getLast? := by
        rw [hstarted, hiterated.last, hlast, Option.or_none]
      rw [hlast', ← List.getLast?_map, hstarts, List.getLast?_range']
      simp only [List.length_eq_zero_iff]
    · rw [hcounted, hiterated.completed (hcompleted ▸ Nat.zero_le _), hcompleted, Nat.zero_add]
    · by_contra hne
      have hlt := Nat.lt_of_le_of_ne horder.ended.length_le hne
      exact absurd ((hreason hr).symm.trans (hiterated.aborted hlt)) Bool.false_ne_true

/-- A session that runs the two largest indices. -/
def outermost : Session Unit where
  controller :=
    { context :=
        { configuration := { controller :=
            { firstIteration := 4294967294, lastIteration := 4294967295, outputDirectory := "out",
              iterationDirectories := false, capturePanics := false } }
          output := { root := "out" } }
      simulation := { mobsim := fun _ _ => return }
      seeding := { base := 4711 } }
  world := { memory := (), files := { entries := [(["out"], .directory)] } }

theorem iterations_in_order_outermost :
    let l := runHistory outermost
    outermost.controller.stage = .idle ∧ outermost.controller.completed = 0 ∧
      outermost.controller.last = none ∧
      (asks l).map (·.toNat) = [4294967294, 4294967295] ∧
      (starts l).map (·.toNat) = [4294967294, 4294967295] ∧ (completions l).length = 2 ∧
      ∃ r, (run outermost).1 = .ok r ∧ r.reason = .completed ∧
        r.lastIteration.map (·.toNat) = some 4294967295 ∧ r.iterationsCompleted = 2 := by
  intro l
  obtain ⟨hasks, hwithin, -, hstarted, -, -, -, -, hdefault, hsummary, -⟩ :=
    iterations_in_order outermost rfl rfl rfl
  have hcount : (starts l).length = 2 := by decide +kernel
  have hstarts : (starts l).map (·.toNat) = [4294967294, 4294967295] := by
    refine (hdefault ⟨rfl, rfl⟩).resolve_right fun ⟨hlt, _⟩ => absurd hlt ?_
    rw [hcount]
    decide
  have hlength : (asks l).length = 2 := by
    change 4294967294 + (asks l).length ≤ 4294967296 at hwithin
    have hle : (starts l).length ≤ (asks l).length := hstarted.length_le
    omega
  have hsome : starts l ≠ [] := fun hnone => by simp [hnone] at hcount
  obtain ⟨r, hr, hreason⟩ : ∃ r, (run outermost).1 = .ok r ∧ r.reason = .completed :=
    ⟨⟨.completed, 2, some 4294967295⟩, by decide +kernel, rfl⟩
  obtain ⟨hlast, hcompleted, hall⟩ := hsummary r hr
  have hcompletions : (completions l).length = 2 := (hall hreason).trans hcount
  rw [if_neg hsome, hcount] at hlast
  rw [hcompletions] at hcompleted
  refine ⟨rfl, rfl, rfl, ?_, hstarts, hcompletions, r, hr, hreason, hlast, hcompleted⟩
  rw [hasks, hlength]
  decide

end Controller

end CommuteSim
