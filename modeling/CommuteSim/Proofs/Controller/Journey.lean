import CommuteSim.Proofs.Controller.Notes
import CommuteSim.Proofs.World.Wander

/-!
# The way of a session

A session moves where its world goes along a path, where the controller writes in its books,
accesses the coordinator for itself, changes the handler of panics or notes a milestone, and where
it deals with how a step or a question ended: if that was a failure or a panic the coordinator gets
to know, and then the milestone tells how it ended. A journey is one move after the other. The claim
to the teardown is no move; it stands between the journeys of the two stretches of a run.

Main statements: milestones come up in their stretch of a run only (`stretch_journey`); a step that
fails aborts the run unless the teardown is claimed already (`claimed_of_proceed`); on a journey
after the claim the coordinator goes through later states only (`shared_journey`). -/

namespace CommuteSim

variable {σ : Type}

/-! ## Failures -/

/-- The fault that an abort is. -/
def Abort.fault (origin : String) : Abort Fault → Fault
  | .failure f => f
  | .panic x => .panic origin x.payload.message

/-- The failure or panic that a moment tells of, with the origin that it gets. -/
def Moment.abort? : Moment σ → Option (String × Abort Fault)
  | .ended step (.error a) _ => some (step.origin, a)
  | .answered _ (.error (.panic x)) => some (Controller.criterionOrigin, .panic x)
  | _ => none

/-- Whether panics of the process are watched for during a run. -/
def Context.watches (k : Context) : Bool := k.configuration.controller.capturePanics

namespace World

/-- What the history gains when the controller reports a fault. -/
def reportMoments (w : World σ) (r : FaultRecord) : List (Moment σ) :=
  (w.changes (w.process.put w.self (some (w.coordinator.record r).2))).toList ++
    [.said .controller (w.coordinator.record r).1.line]

/-- How the coordinator gets to know of an abort, if there was one. -/
inductive Disclosed (watches : Bool) :
    Option (String × Abort Fault) → World σ → List (Moment σ) → World σ → Prop where
  | nothing {w v : World σ} {l : List (Moment σ)} (h : Path w l v) : Disclosed watches none w l v
  | recorded {origin : String} {a : Abort Fault} {w v : World σ} {l : List (Moment σ)}
      (now : Instant) (h : Path w l v) :
      Disclosed watches (some (origin, a)) w (l ++ v.reportMoments ⟨a.fault origin, origin, now⟩)
        (v.reported ⟨a.fault origin, origin, now⟩)
  /-- A panic that the handler reported is not reported once more. -/
  | spared {origin : String} {x : Panic} {w v : World σ} {l : List (Moment σ)}
      (hw : watches = true) (h : Path w l v) (hv : v.coordinator.fault.isSome = true) :
      Disclosed watches (some (origin, .panic x)) w l v

end World

/-! ## Moves -/

/-- The stretch of a run up to the claim to the teardown, and the stretch after it. -/
inductive Stretch where
  | opening
  | closing

/-- Whether a moment is a milestone of a stretch of a run, and tells neither how a step nor how a
question ended. -/
def Moment.plain (stretch : Stretch) : Moment σ → Bool
  | .began _ | .mobsim .. | .asked _ | .reported _ =>
    match stretch with
    | .opening => true
    | .closing => false
  | .round (.shutdown _) =>
    match stretch with
    | .opening => false
    | .closing => true
  | .round _ =>
    match stretch with
    | .opening => true
    | .closing => false
  | .said .controller line =>
    match stretch with
    | .opening => false
    | .closing => line ∈ verdictLines
  | _ => false

theorem Moment.milestone_of_plain {stretch : Stretch} {m : Moment σ} (h : m.plain stretch = true) :
    m.milestone = true := by
  cases m with
  | said speaker line =>
      cases speaker with
      | controller =>
          cases stretch with
          | opening => cases h
          | closing => exact h
      | collaborator => cases h
  | ended step result progress => rfl
  | answered i answer => rfl
  | claimed found => rfl
  | began _ | round _ | mobsim _ _ | asked _ | reported _ => rfl
  | told _ _ _ _ _ | acted _ | shared _ | raised | released _ => cases h

/-- Whether a moment tells how a step or a question ended, with this state of the coordinator. -/
def Moment.Closes (c : Coordinator) : Moment σ → Prop
  | .ended _ _ progress => progress = c.progress
  | .answered .. => True
  | _ => False

/-- A later state with the same claim and the same faults. -/
structure Coordinator.Steady (c d : Coordinator) : Prop where
  later : c.Later d
  teardown : d.teardown = c.teardown
  fault : d.fault = c.fault
  discarded : d.discarded = c.discarded

namespace Session

/-- Whether panics of the process are watched for during the run of a session. -/
def watches (s : Session σ) : Bool := s.controller.context.watches

/-- A move of a session in a stretch of a run, with the moments that it adds. -/
inductive Move : Stretch → Session σ → List (Moment σ) → Session σ → Prop where
  | path {stretch : Stretch} {s : Session σ} {l : List (Moment σ)} {u : World σ}
      (h : World.Path s.world l u) : Move stretch s l (s.inWorld u)
  /-- The controller writes in its books, and may seed the generator. -/
  | books {stretch : Stretch} {s : Session σ} (c : Controller σ) (g : Generator)
      (h : c.context = s.controller.context) :
      Move stretch s [] ⟨c, { s.world with generator := g }⟩
  | note {stretch : Stretch} {s : Session σ} {m : Moment σ} (h : m.plain stretch = true) :
      Move stretch s [m] (s.inWorld (s.world.noted m))
  /-- The controller accesses the coordinator for itself. -/
  | own {stretch : Stretch} {s : Session σ} {c : Coordinator} (h : s.world.coordinator.Steady c) :
      Move stretch s (s.world.changes (s.world.process.put s.world.self (some c))).toList
        (s.inWorld (s.world.setCoordinator c))
  /-- The controller puts in a handler of panics. -/
  | handler {stretch : Stretch} {s : Session σ} (x : PanicHandler) (h : s.watches = true) :
      Move stretch s (s.world.changes (s.world.process.restore x)).toList
        (s.inWorld (s.world.setProcess (s.world.process.restore x)))
  /-- A step or a question is over. -/
  | close {s : Session σ} {n : Moment σ} {l m : List (Moment σ)} {v u : World σ}
      (h : World.Disclosed s.watches n.abort? s.world l v) (h' : World.Path v m u)
      (hn : n.Closes u.coordinator) : Move .opening s (l ++ m ++ [n]) (s.inWorld (u.noted n))

/-- Moves one after the other. -/
inductive Journey (stretch : Stretch) : Session σ → List (Moment σ) → Session σ → Prop where
  | refl (s : Session σ) : Journey stretch s [] s
  | tail {s t u : Session σ} {l m : List (Moment σ)} :
      Journey stretch s l t → Move stretch t m u → Journey stretch s (l ++ m) u

theorem Move.journey {stretch : Stretch} {s u : Session σ} {l : List (Moment σ)}
    (h : Move stretch s l u) : Journey stretch s l u :=
  .tail (.refl s) h

theorem Journey.trans {stretch : Stretch} {s t u : Session σ} {l m : List (Moment σ)}
    (h : Journey stretch s l t) (h' : Journey stretch t m u) : Journey stretch s (l ++ m) u := by
  induction h' with
  | refl => rwa [List.append_nil]
  | tail _ hmove ih =>
      rw [← List.append_assoc]
      exact .tail ih hmove

end Session

/-! ## What a disclosure keeps -/

namespace World

section Disclosed

variable {watches : Bool} {failure : Option (String × Abort Fault)} {w v : World σ}
  {l : List (Moment σ)}

theorem Disclosed.of_path {u : World σ} {m : List (Moment σ)} (h : Path u m w)
    (h' : Disclosed watches failure w l v) : Disclosed watches failure u (m ++ l) v := by
  cases h' with
  | nothing h' => exact .nothing (h.trans h')
  | recorded now h' =>
      rw [← List.append_assoc]
      exact .recorded now (h.trans h')
  | spared hw h' hv => exact .spared hw (h.trans h') hv

theorem past_reported (w : World σ) (r : FaultRecord) :
    (w.reported r).past = w.past ++ w.reportMoments r := by
  rw [reported, past_noted, setCoordinator, past_setProcess, reportMoments, List.append_assoc]

theorem coordinator_reported (w : World σ) (r : FaultRecord) :
    (w.reported r).coordinator = (w.coordinator.record r).2 := by
  rw [reported, coordinator_noted, coordinator_setCoordinator]

theorem past_disclosed (h : Disclosed watches failure w l v) : v.past = w.past ++ l := by
  cases h with
  | nothing h => exact past_path h
  | recorded now h => rw [past_reported, past_path h, List.append_assoc]
  | spared hw h hv => exact past_path h

theorem self_disclosed (h : Disclosed watches failure w l v) : v.self = w.self := by
  cases h with
  | nothing h => exact self_path h
  | @recorded _ _ _ v _ now h =>
      change v.self = w.self
      exact self_path h
  | spared hw h hv => exact self_path h

theorem handler_disclosed (h : Disclosed watches failure w l v) :
    v.process.handler = w.process.handler := by
  cases h with
  | nothing h => exact handler_path h
  | @recorded _ _ _ v _ now h =>
      change v.process.handler = w.process.handler
      exact handler_path h
  | spared hw h hv => exact handler_path h

theorem later_disclosed (h : Disclosed watches failure w l v) :
    w.coordinator.Later v.coordinator := by
  cases h with
  | nothing h => exact later_path h
  | recorded now h =>
      rw [coordinator_reported]
      exact (later_path h).trans (Coordinator.later_record _ _)
  | spared hw h hv => exact later_path h

theorem milestones_reportMoments (w : World σ) (r : FaultRecord) :
    milestones (w.reportMoments r) = [] := by
  rw [reportMoments, milestones_append, milestones_changes, List.nil_append]
  refine List.filter_cons_of_neg ?_
  simpa [Moment.milestone] using line_capture _

theorem milestones_disclosed (h : Disclosed watches failure w l v) : milestones l = [] := by
  cases h with
  | nothing h => exact milestones_path h
  | recorded now h =>
      rw [milestones_append, milestones_path h, milestones_reportMoments, List.append_nil]
  | spared hw h hv => exact milestones_path h

theorem not_mem_disclosed (h : Disclosed watches failure w l v) {m : Moment σ}
    (hm : m.milestone = true) : m ∉ l := by
  rw [← mem_milestones hm, milestones_disclosed h]
  exact List.not_mem_nil

theorem teardown_disclosed (h : Disclosed watches failure w l v) (hl : Unclaimed l) :
    v.coordinator.teardown = w.coordinator.teardown := by
  cases h with
  | nothing h => exact teardown_path h hl
  | recorded now h =>
      rw [coordinator_reported, teardown_record]
      exact teardown_path h fun hm => hl (List.mem_append_left _ hm)
  | spared hw h hv => exact teardown_path h hl

end Disclosed

/-- A failure requests a shutdown unless the teardown is claimed; so does every abort where panics
are not watched for. -/
theorem flag_disclosed {watches : Bool} {origin : String} {a : Abort Fault} {w v : World σ}
    {l : List (Moment σ)} (h : Disclosed watches (some (origin, a)) w l v)
    (ha : (∃ f, a = .failure f) ∨ watches = false) :
    v.coordinator.flag = true ∨ v.coordinator.teardown = true := by
  cases h with
  | recorded now h =>
      rw [coordinator_reported]
      exact Coordinator.flag_record _ _
  | spared hw h hv =>
      rcases ha with ⟨f, hf⟩ | ha
      · cases hf
      · rw [ha] at hw
        cases hw

end World

/-! ## What a move keeps -/

namespace Session

section Journey

variable {stretch : Stretch} {s u : Session σ} {l : List (Moment σ)}

theorem context_move (h : Move stretch s l u) : u.controller.context = s.controller.context := by
  cases h with
  | path h => rfl
  | books c g h => exact h
  | note h => rfl
  | own h => rfl
  | handler x h => rfl
  | close h h' hn => rfl

theorem past_move (h : Move stretch s l u) : u.world.past = s.world.past ++ l := by
  cases h with
  | path h => exact World.past_path h
  | books c g h => exact (List.append_nil _).symm
  | note h => exact World.past_noted _ _
  | own h => exact World.past_setProcess _ _
  | handler x h => exact World.past_setProcess _ _
  | close h h' hn =>
      rw [inWorld, World.past_noted, World.past_path h', World.past_disclosed h, List.append_assoc,
        List.append_assoc, List.append_assoc]

theorem self_move (h : Move stretch s l u) : u.world.self = s.world.self := by
  cases h with
  | path h => exact World.self_path h
  | books c g h => rfl
  | note h => rfl
  | own h => rfl
  | handler x h => rfl
  | close h h' hn => exact (World.self_path h').trans (World.self_disclosed h)

/-- Where panics are not watched for, the handler stays. -/
theorem handler_move (h : Move stretch s l u) (hw : s.watches = false) :
    u.world.process.handler = s.world.process.handler := by
  cases h with
  | path h => exact World.handler_path h
  | books c g h => rfl
  | note h => rfl
  | own h => rfl
  | handler x h =>
      rw [hw] at h
      cases h
  | close h h' hn => exact (World.handler_path h').trans (World.handler_disclosed h)

theorem later_move (h : Move stretch s l u) : s.world.coordinator.Later u.world.coordinator := by
  cases h with
  | path h => exact World.later_path h
  | books c g h => exact .refl _
  | note h => exact .refl _
  | own h =>
      rw [inWorld, World.coordinator_setCoordinator]
      exact h.later
  | handler x h => exact .refl _
  | @close _ _ _ _ v w h h' hn =>
      have hlast : v.coordinator.Later w.coordinator := World.later_path h'
      exact (World.later_disclosed h).trans hlast

/-- A milestone of a move belongs to the stretch of the run, or tells how a step or a question
ended. -/
theorem stretch_move (h : Move stretch s l u) {m : Moment σ} (hm : m ∈ l)
    (hmile : m.milestone = true) : m.plain stretch = true ∨ ∃ c, m.Closes c := by
  cases h with
  | path h => exact absurd hm (World.not_mem_path h hmile)
  | books c g h => cases hm
  | note h =>
      rw [List.mem_singleton.mp hm]
      exact .inl h
  | own h =>
      rw [World.milestone_of_mem_changes hm] at hmile
      cases hmile
  | handler x h =>
      rw [World.milestone_of_mem_changes hm] at hmile
      cases hmile
  | @close _ n l₁ l₂ _ _ h h' hn =>
      rcases List.mem_append.mp hm with hm | hm
      · rcases List.mem_append.mp hm with hm | hm
        · exact absurd hm (World.not_mem_disclosed h hmile)
        · exact absurd hm (World.not_mem_path h' hmile)
      · rw [List.mem_singleton.mp hm]
        exact .inr ⟨_, hn⟩

theorem teardown_move (h : Move stretch s l u) (hl : World.Unclaimed l) :
    u.world.coordinator.teardown = s.world.coordinator.teardown := by
  cases h with
  | path h => exact World.teardown_path h hl
  | books c g h => rfl
  | note h => rfl
  | own h =>
      rw [inWorld, World.coordinator_setCoordinator]
      exact h.teardown
  | handler x h => rfl
  | @close _ n l₁ l₂ _ _ h h' hn =>
      have hinit : World.Unclaimed (l₁ ++ l₂) := fun hm => hl (List.mem_append_left _ hm)
      exact (World.teardown_path h' fun hm => hinit (List.mem_append_right _ hm)).trans
        (World.teardown_disclosed h fun hm => hinit (List.mem_append_left _ hm))

/-- The states of the coordinator that a move after the claim notes lie between its ends. -/
theorem shared_move (h : Move .closing s l u) {c : Coordinator} (hc : .shared c ∈ l) :
    s.world.coordinator.Later c ∧ c.Later u.world.coordinator := by
  cases h with
  | path h => exact World.shared_path h hc
  | books c g h => cases hc
  | note h =>
      rw [← List.mem_singleton.mp hc] at h
      cases h
  | own h =>
      rw [World.shared_of_mem_changes hc, inWorld, World.coordinator_setCoordinator,
        Process.coordinator, Process.put_coordinators_self]
      exact ⟨h.later, .refl _⟩
  | handler x h =>
      rw [World.shared_of_mem_changes hc]
      exact ⟨.refl _, .refl _⟩

/-- After the claim, where nobody else reports a fault and no panic is watched for, the slot and the
count stay. -/
theorem fault_move (h : Move .closing s l u) (hl : World.Unreported l)
    (hh : s.world.process.handler ≠ .watching s.world.self) :
    u.world.coordinator.fault = s.world.coordinator.fault ∧
      u.world.coordinator.discarded = s.world.coordinator.discarded := by
  cases h with
  | path h => exact World.fault_path h hl hh
  | books c g h => exact ⟨rfl, rfl⟩
  | note h => exact ⟨rfl, rfl⟩
  | own h =>
      rw [inWorld, World.coordinator_setCoordinator]
      exact ⟨h.fault, h.discarded⟩
  | handler x h => exact ⟨rfl, rfl⟩

/-! ## What a journey keeps -/

theorem context_journey (h : Journey stretch s l u) :
    u.controller.context = s.controller.context := by
  induction h with
  | refl => rfl
  | tail _ hmove ih => rw [context_move hmove, ih]

theorem watches_journey (h : Journey stretch s l u) : u.watches = s.watches :=
  congrArg Context.watches (context_journey h)

theorem past_journey (h : Journey stretch s l u) : u.world.past = s.world.past ++ l := by
  induction h with
  | refl => rw [List.append_nil]
  | tail _ hmove ih => rw [past_move hmove, ih, List.append_assoc]

theorem self_journey (h : Journey stretch s l u) : u.world.self = s.world.self := by
  induction h with
  | refl => rfl
  | tail _ hmove ih => rw [self_move hmove, ih]

theorem handler_journey (h : Journey stretch s l u) (hw : s.watches = false) :
    u.world.process.handler = s.world.process.handler := by
  induction h with
  | refl => rfl
  | tail hjourney hmove ih => rw [handler_move hmove ((watches_journey hjourney).trans hw), ih]

theorem later_journey (h : Journey stretch s l u) :
    s.world.coordinator.Later u.world.coordinator := by
  induction h with
  | refl => exact .refl _
  | tail _ hmove ih => exact ih.trans (later_move hmove)

theorem stretch_journey (h : Journey stretch s l u) {m : Moment σ} (hm : m ∈ l)
    (hmile : m.milestone = true) : m.plain stretch = true ∨ ∃ c, m.Closes c := by
  induction h with
  | refl => cases hm
  | tail _ hmove ih =>
      rcases List.mem_append.mp hm with hm | hm
      · exact ih hm
      · exact stretch_move hmove hm hmile

theorem teardown_journey (h : Journey stretch s l u) (hl : World.Unclaimed l) :
    u.world.coordinator.teardown = s.world.coordinator.teardown := by
  induction h with
  | refl => rfl
  | tail _ hmove ih =>
      rw [teardown_move hmove fun hm => hl (List.mem_append_right _ hm),
        ih fun hm => hl (List.mem_append_left _ hm)]

theorem shared_journey (h : Journey .closing s l u) {c : Coordinator} (hc : .shared c ∈ l) :
    s.world.coordinator.Later c ∧ c.Later u.world.coordinator := by
  induction h with
  | refl => cases hc
  | tail hjourney hmove ih =>
      rcases List.mem_append.mp hc with hc | hc
      · exact ⟨(ih hc).1, (ih hc).2.trans (later_move hmove)⟩
      · have hlast := shared_move hmove hc
        exact ⟨(later_journey hjourney).trans hlast.1, hlast.2⟩

theorem fault_journey (h : Journey .closing s l u) (hl : World.Unreported l)
    (hw : s.watches = false) (hh : s.world.process.handler ≠ .watching s.world.self) :
    u.world.coordinator.fault = s.world.coordinator.fault ∧
      u.world.coordinator.discarded = s.world.coordinator.discarded := by
  induction h with
  | refl => exact ⟨rfl, rfl⟩
  | tail hjourney hmove ih =>
      have hinit := ih fun origin f hm => hl origin f (List.mem_append_left _ hm)
      rw [← handler_journey hjourney hw, ← self_journey hjourney] at hh
      have hlast := fault_move hmove
        (fun origin f hm => hl origin f (List.mem_append_right _ hm)) hh
      exact ⟨hlast.1.trans hinit.1, hlast.2.trans hinit.2⟩

/-! ## Steps that fail -/

/-- Where the run goes on after a step that failed, the teardown was claimed before. -/
theorem claimed_of_proceed_move (h : Move .opening s l u) {a b : List (Moment σ)} {step : Step}
    {x : Abort Fault} (hl : l = a ++ .ended step (.error x) .proceed :: b)
    (hx : (∃ f, x = .failure f) ∨ s.watches = false) :
    s.world.coordinator.teardown = true ∨ .acted .claimTeardown ∈ a := by
  have hmem : .ended step (.error x) .proceed ∈ l := hl ▸ List.mem_append_right a List.mem_cons_self
  cases h with
  | path h => exact absurd hmem (World.not_mem_path h rfl)
  | books c g h => cases hmem
  | note h =>
      rw [← List.mem_singleton.mp hmem] at h
      cases h
  | own h => cases World.milestone_of_mem_changes hmem
  | handler y h => cases World.milestone_of_mem_changes hmem
  | @close _ n l₁ l₂ v w h h' hn =>
      -- no other moment of the move is a milestone, so the step is the one that is over
      obtain ⟨rfl, rfl⟩ : a = l₁ ++ l₂ ∧ .ended step (.error x) .proceed = n := by
        rcases split_append hl with ⟨c, ha⟩ | ⟨c, ha, hc⟩
        · have hfirst : .ended step (.error x) .proceed ∈ l₁ ++ l₂ :=
            ha ▸ List.mem_append_right a List.mem_cons_self
          rcases List.mem_append.mp hfirst with hfirst | hfirst
          · exact absurd hfirst (World.not_mem_disclosed h rfl)
          · exact absurd hfirst (World.not_mem_path h' rfl)
        · cases c with
          | nil => exact ⟨by rw [ha, List.append_nil], (List.cons_eq_cons.mp hc).1.symm⟩
          | cons m rest => simp at hc
      have hflag : w.coordinator.flag ≠ true := by
        intro hf
        change Progress.proceed = w.coordinator.progress at hn
        rw [Coordinator.progress, hf] at hn
        cases hn
      -- the flag is down at the end, so the report before it did not raise it
      by_cases hclaim : .acted .claimTeardown ∈ l₁
      · exact .inr (List.mem_append_left l₂ hclaim)
      · rcases World.flag_disclosed h hx with hv | hv
        · exact absurd ((World.later_path h').flag hv) hflag
        · exact .inl (World.teardown_disclosed h hclaim ▸ hv)

theorem claimed_of_proceed (h : Journey .opening s l u) {a b : List (Moment σ)} {step : Step}
    {x : Abort Fault} (hl : l = a ++ .ended step (.error x) .proceed :: b)
    (hx : (∃ f, x = .failure f) ∨ s.watches = false) :
    s.world.coordinator.teardown = true ∨ .acted .claimTeardown ∈ a := by
  induction h generalizing b with
  | refl => exact absurd hl (by simp)
  | @tail t u l m hjourney hmove ih =>
      rcases split_append hl with ⟨c, hfirst⟩ | ⟨c, ha, hc⟩
      · exact ih hfirst
      · rw [← watches_journey hjourney] at hx
        rcases claimed_of_proceed_move hmove hc hx with ht | ht
        · by_cases hclaim : .acted .claimTeardown ∈ l
          · exact .inr (ha ▸ List.mem_append_left c hclaim)
          · exact .inl (teardown_journey hjourney hclaim ▸ ht)
        · exact .inr (ha ▸ List.mem_append_right l ht)

end Journey

end Session

end CommuteSim
