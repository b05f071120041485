import CommuteSim.Proofs.World.Aside
import CommuteSim.Proofs.World.Twin
import Mathlib.Data.List.Forall2

/-!
# Collaborators that make nothing of the watch

Two programs are alike if they do the same deeds as long as they get the same answers, and the
answers need not tell them apart in what a watch for panics makes different: the name that a panic
is recorded under, and contents of files that are the same once `g` is applied to them.

Alike programs on twins end alike, and in twins again. If the end is a panic, the second world owes
the record of it.

Main statements: `endsAlike_run` for programs and `endsAlike_notify` for rounds.
-/

namespace CommuteSim

variable {σ ε δ α β : Type}

/-! ## Programs -/

/-- A deed that reports nothing on another thread, and claims the teardown only if it is claimed
already. -/
def Deed.Mute (late : Bool) : Deed σ → Prop
  | .claimTeardown => late = true
  | .elsewhere a => a.Mute late
  | _ => True

/-- Answers to a deed that differ at most in what a watch for panics makes different. -/
def Deed.Alike (g : ByteArray → ByteArray) : (d : Deed σ) → d.Answer → d.Answer → Prop
  | .files, a, b => a.withContents g = b.withContents g
  | .coordinator, a, b => a.anonymous = b.anonymous
  | _, a, b => a = b

/-- Programs that do the same on answers that are alike, and end in values that `V` relates. What
they log may differ. -/
inductive Program.Alike (g : ByteArray → ByteArray) (late : Bool) (V : α → α → Prop) :
    Program σ ε α → Program σ ε α → Prop where
  | done {a b : α} (h : V a b) : Alike g late V (.done a) (.done b)
  | fail (e : ε) : Alike g late V (.fail e) (.fail e)
  | panic (x : Panic) : Alike g late V (.panic x) (.panic x)
  | act {d : Deed σ} {next next' : d.Answer → Program σ ε α} (hd : d.Mute late)
      (h : ∀ a b, d.Alike g a b → Alike g late V (next a) (next' b)) :
      Alike g late V (.act d next) (.act d next')
  | setFiles {s t : FileSystem} {next next' : Unit → Program σ ε α}
      (hfiles : s.withContents g = t.withContents g) (h : Alike g late V (next ()) (next' ())) :
      Alike g late V (.act (.setFiles s) next) (.act (.setFiles t) next')
  | say {line line' : LogLine} {next next' : Unit → Program σ ε α}
      (h : Alike g late V (next ()) (next' ())) :
      Alike g late V (.act (.say line) next) (.act (.say line') next')

/-! ## Ends -/

/-- Ends of work that are the same but for values that `V` relates. -/
inductive Outcome.Alike (V : α → β → Prop) : Outcome ε α → Outcome ε β → Prop where
  | ok {a : α} {b : β} (h : V a b) : Alike V (.ok a) (.ok b)
  | error (e : Abort ε) : Alike V (.error e) (.error e)

theorem Outcome.Alike.eq {x y : Outcome ε α} (h : Outcome.Alike Eq x y) : x = y := by
  cases h with
  | ok h => rw [h]
  | error e => rfl

/-- What is owed after work that ended so: the record of a panic. -/
def Outcome.owed (now : Instant) : Outcome ε α → Option FaultRecord
  | .error (.panic x) => some (x.record now)
  | _ => none

/-- Work on twins ends alike, in twins of which the second one owes the record of a panic. -/
structure World.EndsAlike (g : ByteArray → ByteArray) (late : Bool) (V : α → β → Prop)
    (x : Outcome ε α × World σ) (y : Outcome ε β × World σ) : Prop where
  value : Outcome.Alike V x.1 y.1
  world : World.Twin g late (Outcome.owed y.2.clock y.1) x.2 y.2

namespace World

variable {g : ByteArray → ByteArray} {late : Bool} {w v : World σ}

/-! ## Deeds -/

theorem twin_interrupt (h : Twin g late none w v) :
    Twin g late none (interrupt w).2 (interrupt v).2 := by
  let request : LogLine := ⟨.error, "received unexpected shutdown request"⟩
  let warning := "shutdown requested from the controller thread; not waiting for teardown"
  have hraise : Impartial (fun c d : Coordinator => c.anonymous = d.anonymous) none late late
      fun c => (c, c.raiseFlag) :=
    fun _ _ hc hd => ⟨hc, congrArg Coordinator.raiseFlag hc, hd⟩
  have hwarn : ∀ {b b' : Bool} {x y : World σ}, b = b' → Twin g late none x y →
      Twin g late none
        ((if b then say .warning warning else pure () : StateM (World σ) Unit) x).2
        ((if b' then say .warning warning else pure () : StateM (World σ) Unit) y).2 := by
    rintro b - x y rfl hxy
    cases b with
    | true => exact hxy.remark rfl rfl
    | false => exact hxy
  have hasked := h.remark (m := .said .controller request) (n := .said .controller request) rfl rfl
  obtain ⟨hfound, htwin⟩ := twin_actHere hasked .interrupt hraise
  have hbound := congrArg Coordinator.bound hfound
  exact hwarn hbound htwin

/-- A deed done in both worlds is answered alike. -/
theorem twin_perform (h : Twin g late none w v) {d : Deed σ} (hd : d.Mute late) :
    d.Alike g (perform d w).1 (perform d v).1 ∧
      Twin g late none (perform d w).2 (perform d v).2 := by
  cases d with
  | memory => exact ⟨h.memory, h⟩
  | remember m => exact ⟨rfl, { h with memory := rfl }⟩
  | clock => exact ⟨h.clock, h⟩
  | elapse n => exact ⟨rfl, { h with clock := congrArg (Instant.after · n) h.clock }⟩
  | generator => exact ⟨h.generator, h⟩
  | setGenerator x => exact ⟨rfl, { h with generator := rfl }⟩
  | files => exact ⟨h.files, h⟩
  | setFiles s => exact ⟨rfl, { h with files := rfl }⟩
  | say line => exact ⟨rfl, h.remark rfl rfl⟩
  | coordinator => exact twin_look h
  | report origin f =>
      exact twin_reportBy h origin f fun r => twin_actHere h _ (impartial_record r)
  | interrupt => exact ⟨rfl, twin_interrupt h⟩
  | claimTeardown =>
      obtain rfl : late = true := hd
      have hclaim : Impartial Eq none true true Coordinator.claim := by
        intro c d hc hd
        have hteardown := congrArg Coordinator.teardown hc
        have hfirst : (!c.teardown) = !d.teardown := congrArg not hteardown
        exact ⟨hfirst, congrArg (fun e : Coordinator => { e with teardown := true }) hc, rfl⟩
      exact twin_actHere h _ hclaim
  | terminate => exact twin_actHere h _ impartial_terminate
  | elsewhere a => exact ⟨rfl, twin_undergo (twin_yield h) hd⟩

/-- Alike programs end alike. By induction on the programs. -/
theorem endsAlike_run {V : α → α → Prop} {p q : Program σ ε α} (hp : Program.Alike g late V p q)
    (h : Twin g late none w v) : EndsAlike g late V (p.run w) (q.run v) := by
  induction hp generalizing w v with
  | done hvalue => exact ⟨.ok hvalue, h⟩
  | fail e => exact ⟨.error _, h⟩
  | panic x => exact ⟨.error _, twin_panic h x⟩
  | act hd _ ih =>
      obtain ⟨hanswer, htwin⟩ := twin_perform h hd
      exact ih _ _ hanswer htwin
  | setFiles hfiles _ ih => exact ih { h with files := hfiles }
  | say _ ih => exact ih (h.remark rfl rfl)

/-- The failure of work may be told in other words. -/
theorem EndsAlike.mapError {V : α → β → Prop} {x : Outcome ε α × World σ}
    {y : Outcome ε β × World σ} (h : EndsAlike g late V x y) (f : ε → δ) :
    EndsAlike g late V (x.1.mapError (Abort.map f), x.2) (y.1.mapError (Abort.map f), y.2) := by
  obtain ⟨x, w⟩ := x
  obtain ⟨y, v⟩ := y
  obtain ⟨hvalue, htwin⟩ := h
  cases hvalue with
  | ok h => exact ⟨.ok h, htwin⟩
  | error e =>
      cases e with
      | failure e => exact ⟨.error _, htwin⟩
      | panic x => exact ⟨.error _, htwin⟩

theorem EndsAlike.map {γ : Type} {V : α → β → Prop} {W : γ → δ → Prop} {x : Outcome ε α × World σ}
    {y : Outcome ε β × World σ} (h : EndsAlike g late V x y) {f : α → γ} {f' : β → δ}
    (hf : ∀ a b, V a b → W (f a) (f' b)) :
    EndsAlike g late W (x.1.map f, x.2) (y.1.map f', y.2) := by
  obtain ⟨x, w⟩ := x
  obtain ⟨y, v⟩ := y
  obtain ⟨hvalue, htwin⟩ := h
  cases hvalue with
  | ok h => exact ⟨.ok (hf _ _ h), htwin⟩
  | error e =>
      cases e with
      | failure e => exact ⟨.error _, htwin⟩
      | panic x => exact ⟨.error _, htwin⟩

end World

/-! ## Listeners -/

/-- Whether an event comes after the claim to the teardown. -/
def Event.late : Event → Bool
  | .shutdown _ => true
  | _ => false

/-- Listeners that go by one name, want the same events and do the same on each. -/
structure Listener.Alike (g : ByteArray → ByteArray) (a b : Listener σ) : Prop where
  name : a.name = b.name
  wants : a.wants = b.wants
  notify : ∀ e : Event, Program.Alike g e.late Eq (a.notify e) (b.notify e)

/-- Registrations of listeners that are alike, at the same place. -/
structure Registration.Alike (g : ByteArray → ByteArray) (r r' : Registration σ) : Prop where
  tier : r.tier = r'.tier
  place : r.place = r'.place
  listener : r.listener.Alike g r'.listener

/-- Buses with listeners that are alike. -/
def ListenerBus.Alike (g : ByteArray → ByteArray) (b c : ListenerBus σ) : Prop :=
  ∀ t, List.Forall₂ (Listener.Alike g) (b.tier t) (c.tier t)

namespace ListenerBus

variable {g : ByteArray → ByteArray} {b c : ListenerBus σ} {w v : World σ}

theorem alike_register_all (h : b.Alike g c) {ls ms : List (Listener σ)}
    (hl : List.Forall₂ (Listener.Alike g) ls ms) (u : Tier) :
    (ls.foldl (fun b l => b.register l u) b).Alike g (ms.foldl (fun b l => b.register l u) c) := by
  induction hl generalizing b c with
  | nil => exact h
  | cons hlistener _ ih =>
      refine ih fun t => ?_
      rw [tier_register, tier_register]
      split
      · exact List.rel_append (h t) (.cons hlistener .nil)
      · exact h t

theorem alike_registrations (h : b.Alike g c) (t : Tier) :
    List.Forall₂ (Registration.Alike g) (b.registrations t) (c.registrations t) := by
  have hfrom : ∀ {ls ms : List (Listener σ)}, List.Forall₂ (Listener.Alike g) ls ms →
      ∀ n, List.Forall₂ (Registration.Alike g)
        ((ls.zipIdx n).map fun x => (⟨t, x.2, x.1⟩ : Registration σ))
        ((ms.zipIdx n).map fun x => (⟨t, x.2, x.1⟩ : Registration σ)) := by
    intro ls ms hls
    induction hls with
    | nil => exact fun _ => .nil
    | cons hlistener _ ih => exact fun n => .cons ⟨rfl, rfl, hlistener⟩ (ih (n + 1))
  exact hfrom (h t) 0

/-- The same places of the buses want an event. -/
theorem alike_order (h : b.Alike g c) (k : EventKind) :
    List.Forall₂ (Registration.Alike g) (b.order k) (c.order k) := by
  refine List.rel_filter (fun r r' hr => ?_)
    (List.rel_append (alike_registrations h .core) (alike_registrations h .user))
  change r.listener.wants k = true ↔ r'.listener.wants k = true
  rw [hr.listener.wants]

theorem endsAlike_tell {e : Event} {r r' : Registration σ} (hr : r.Alike g r')
    (h : World.Twin g e.late none w v) :
    World.EndsAlike g e.late Eq (tell e r w) (tell e r' v) := by
  have htold : World.Twin g e.late none (w.noted (toldMoment e r w))
      (v.noted (toldMoment e r' v)) := by
    have hmoment : toldMoment e r' v = toldMoment e r w := by
      rw [toldMoment, toldMoment, hr.tier, hr.place, h.memory, h.generator]
    rw [hmoment]
    exact h.noted _
  have hrun := World.endsAlike_run (hr.listener.notify e) htold
  have hname : r'.listener.name = r.listener.name := hr.listener.name.symm
  have htell : ∀ (r : Registration σ) (u : World σ), tell e r u =
      (((r.listener.notify e).run (u.noted (toldMoment e r u))).1.mapError
          (Abort.map fun c => ⟨r.listener.name, r.tier, e, c⟩),
        ((r.listener.notify e).run (u.noted (toldMoment e r u))).2) := fun _ _ => rfl
  rw [htell, htell, hname, ← hr.tier]
  exact hrun.mapError _

/-- In a round the same listeners are told, up to the same one that fails or panics. By induction on
the listeners that are to be told. -/
theorem endsAlike_tellAll {e : Event} {rs rs' : List (Registration σ)}
    (hrs : List.Forall₂ (Registration.Alike g) rs rs') (h : World.Twin g e.late none w v) :
    World.EndsAlike g e.late Eq (tellAll e rs w) (tellAll e rs' v) := by
  induction hrs generalizing w v with
  | nil => exact ⟨.ok rfl, h⟩
  | @cons r r' rest rest' hr _ ih =>
      obtain ⟨hvalue, htwin⟩ := endsAlike_tell hr h
      cases htold : (tell e r' v).1 with
      | ok _ =>
          have htold' := hvalue.eq.trans htold
          rw [htold] at htwin
          rw [tellAll_of_ok htold, tellAll_of_ok htold']
          exact ih htwin
      | error a =>
          have htold' := hvalue.eq.trans htold
          rw [htold] at htwin
          rw [tellAll_of_error htold, tellAll_of_error htold']
          exact ⟨.error a, htwin⟩

/-- Rounds on buses that are alike end alike. -/
theorem endsAlike_notify {e : Event} (hb : b.Alike g c) (h : World.Twin g e.late none w v) :
    World.EndsAlike g e.late Eq (b.notify e w) (c.notify e v) := by
  have horder := alike_order hb e.kind
  have hnotify : ∀ (d : ListenerBus σ) (u : World σ), d.notify e u =
      ((tellAll e (d.order e.kind) u).1.map fun () => (d.order e.kind).length,
        (tellAll e (d.order e.kind) u).2) := fun _ _ => rfl
  rw [hnotify, hnotify, horder.length_eq]
  exact (endsAlike_tellAll horder h).map fun _ _ _ => rfl

end ListenerBus

end CommuteSim
