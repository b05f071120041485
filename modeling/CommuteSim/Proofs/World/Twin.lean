import CommuteSim.Proofs.Coordinator.Crowd
import CommuteSim.Proofs.Files.Contents
import CommuteSim.Proofs.World.Chronicle

/-!
# Two worlds, the first of which is watched for panics

Two worlds go on side by side. In the first the handler of panics watches for the run: it records a
panic where it is raised. In the second the controller records it once it gets there, and up to then
the second world owes the record. The two records name the panic differently, and tell the same of
it otherwise.

Nothing else sets the worlds apart that the proceedings of a run show, as long as no other thread
reports anything and nobody but the controller is the first to claim the teardown.

Main statements: `twin_yield` for what other threads do, `twin_alter` for the accesses of the
controller, `twin_perform` for the deeds of collaborators, and `twin_panic` for a panic.
-/

namespace CommuteSim

variable {σ α : Type}

/-! ## Panics without a name -/

/-- A fault that does not tell where it comes from, if it is a panic. -/
def FaultRecord.anonymous (r : FaultRecord) : FaultRecord :=
  match r.fault with
  | .panic _ message => ⟨.panic "" message, "", r.capturedAt⟩
  | _ => r

/-- What is recorded of a panic, but for its name. -/
def Panic.record (x : Panic) (now : Instant) : FaultRecord :=
  ⟨.panic "" x.payload.message, "", now⟩

namespace Coordinator

/-- A coordinator whose fault does not tell where it comes from, if it is a panic. -/
def anonymous (c : Coordinator) : Coordinator :=
  { c with fault := c.fault.map FaultRecord.anonymous }

/-- A coordinator once the record that is owed to it is made. -/
def paid (owed : Option FaultRecord) (c : Coordinator) : Coordinator :=
  match owed with
  | none => c
  | some r => (c.record r).2

variable {owed : Option FaultRecord} {c d : Coordinator}

/-- The name of a panic makes no difference to what becomes of its record. -/
theorem record_anonymous (c : Coordinator) (r : FaultRecord) :
    (c.record r).1 = (c.anonymous.record r.anonymous).1 ∧
      (c.record r).2.anonymous = (c.anonymous.record r.anonymous).2 := by
  obtain ⟨flag, teardown, fault, discarded, bound, terminated, waiters⟩ := c
  cases teardown <;> cases fault <;> exact ⟨rfl, rfl⟩

/-- Records that differ in the name of a panic, made in coordinators that do so too. -/
theorem record_congr {r r' : FaultRecord} (h : c.anonymous = d.anonymous)
    (hr : r.anonymous = r'.anonymous) :
    (c.record r).1 = (d.record r').1 ∧ (c.record r).2.anonymous = (d.record r').2.anonymous := by
  obtain ⟨hkept, hstate⟩ := record_anonymous c r
  obtain ⟨hkept', hstate'⟩ := record_anonymous d r'
  rw [hkept, hstate, h, hr]
  exact ⟨hkept'.symm, hstate'.symm⟩

theorem anonymous_terminate (c : Coordinator) : c.terminate.anonymous = c.anonymous.terminate := by
  obtain ⟨flag, teardown, fault, discarded, bound, terminated, waiters⟩ := c
  cases terminated <;> rfl

theorem teardown_paid (owed : Option FaultRecord) (c : Coordinator) :
    (c.paid owed).teardown = c.teardown := by
  cases owed with
  | none => rfl
  | some r => exact World.teardown_record c r

theorem terminate_paid (owed : Option FaultRecord) (c : Coordinator) :
    (c.paid owed).terminate = c.terminate.paid owed := by
  obtain ⟨flag, teardown, fault, discarded, bound, terminated, waiters⟩ := c
  cases owed with
  | none => rfl
  | some r => cases teardown <;> cases fault <;> cases terminated <;> rfl

theorem request_paid (owed : Option FaultRecord) (c : Coordinator) :
    (c.paid owed).request = c.request.paid owed := by
  obtain ⟨flag, teardown, fault, discarded, bound, terminated, waiters⟩ := c
  cases owed with
  | none => rfl
  | some r => cases teardown <;> cases fault <;> rfl

end Coordinator

/-! ## Other threads that report nothing -/

/-- An act that reports nothing, and claims the teardown only if it is claimed already. -/
def ThreadAct.Mute (late : Bool) : ThreadAct → Prop
  | .report .. | .panic .. => False
  | .claimTeardown => late = true
  | .interrupt | .terminate => True

/-- What a thread that reports nothing makes of a coordinator. -/
def ThreadAct.mutely : ThreadAct → Coordinator → Coordinator
  | .interrupt, c => c.request
  | .claimTeardown, c => c.claim.2
  | .terminate, c => c.terminate
  | .report .., c | .panic .., c => c

section Mute

variable {late : Bool} {owed : Option FaultRecord} {a : ThreadAct} {c : Coordinator}

theorem ThreadAct.Mute.always (h : a.Mute false) (late : Bool) : a.Mute late := by
  cases a with
  | claimTeardown => cases h
  | _ => exact h

theorem anonymous_mutely (a : ThreadAct) (c : Coordinator) :
    (a.mutely c).anonymous = a.mutely c.anonymous := by
  cases a with
  | terminate => exact c.anonymous_terminate
  | _ => rfl

/-- It makes no difference whether such a thread acts before an owed record or after it. -/
theorem mutely_paid (ha : a.Mute late) (hc : c.teardown = late) (owed : Option FaultRecord) :
    a.mutely (c.paid owed) = (a.mutely c).paid owed := by
  cases a with
  | interrupt => exact c.request_paid owed
  | terminate => exact c.terminate_paid owed
  | claimTeardown =>
      -- the claim is not the first, so it changes nothing
      have hsame : ∀ d : Coordinator, d.teardown = true → d.claim.2 = d := by
        rintro ⟨flag, teardown, fault, discarded, bound, terminated, waiters⟩ rfl
        rfl
      have hteardown : c.teardown = true := hc.trans ha
      change (c.paid owed).claim.2 = c.claim.2.paid owed
      rw [hsame c hteardown, hsame _ ((c.teardown_paid owed).trans hteardown)]
  | report origin f => cases ha
  | panic thread x => cases ha

theorem teardown_mutely (ha : a.Mute late) (hc : c.teardown = late) :
    (a.mutely c).teardown = late := by
  cases a with
  | interrupt => exact hc
  | terminate => exact (World.terminate_keeps c).1.trans hc
  | claimTeardown => exact ha.symm
  | report origin f => cases ha
  | panic thread x => cases ha

end Mute

/-! ## Proceedings -/

/-- Whether a moment belongs to the proceedings of a run: the steps, the rounds with those who are
told in them, and what the simulation is asked and made to do. -/
def Moment.proceeding : Moment σ → Bool
  | .began _ | .ended .. | .round _ | .told .. | .mobsim .. | .asked _ | .answered ..
  | .reported _ => true
  | .said .. | .acted _ | .claimed _ | .shared _ | .raised | .released _ => false

namespace World

/-- The proceedings up to now. -/
def proceedings (w : World σ) : List (Moment σ) := w.past.filter Moment.proceeding

theorem proceedings_noted (w : World σ) (m : Moment σ) :
    (w.noted m).proceedings = w.proceedings ++ [m].filter Moment.proceeding := by
  rw [proceedings, past_noted, List.filter_append]
  rfl

theorem proceedings_remark (w : World σ) {m : Moment σ} (h : m.proceeding = false) :
    (w.noted m).proceedings = w.proceedings := by
  rw [proceedings_noted, List.filter_cons_of_neg (by simpa using h), List.filter_nil,
    List.append_nil]

theorem proceedings_setProcess (w : World σ) (p : Process) :
    (w.setProcess p).proceedings = w.proceedings := by
  have hnone : (w.changes p).toList.filter Moment.proceeding = [] := by
    refine List.filter_eq_nil_iff.mpr fun m hm => ?_
    rcases mem_changes hm with rfl | rfl | rfl <;> exact Bool.false_ne_true
  rw [proceedings, past_setProcess, List.filter_append, hnone, List.append_nil]
  rfl

/-! ## Accesses -/

/-- The world after `k` accesses to the coordinator: of what is no matter of the coordinator nothing
has changed that the proceedings show. -/
structure Accessed (k : Nat) (w u : World σ) : Prop where
  memory : u.memory = w.memory
  clock : u.clock = w.clock
  generator : u.generator = w.generator
  files : u.files = w.files
  self : u.self = w.self
  others : u.others = w.others
  turn : u.turn = w.turn + k
  handler : u.process.handler = w.process.handler
  proceedings : u.proceedings = w.proceedings
  present : w.Present → u.Present

section Accessed

variable {j k : Nat} {w v u : World σ}

theorem Accessed.refl (w : World σ) : Accessed 0 w w :=
  ⟨rfl, rfl, rfl, rfl, rfl, rfl, rfl, rfl, rfl, id⟩

theorem Accessed.trans (h : Accessed j w v) (h' : Accessed k v u) : Accessed (j + k) w u where
  memory := h'.memory.trans h.memory
  clock := h'.clock.trans h.clock
  generator := h'.generator.trans h.generator
  files := h'.files.trans h.files
  self := h'.self.trans h.self
  others := h'.others.trans h.others
  turn := by rw [h'.turn, h.turn, Nat.add_assoc]
  handler := h'.handler.trans h.handler
  proceedings := h'.proceedings.trans h.proceedings
  present := h'.present ∘ h.present

theorem accessed_remark (w : World σ) {m : Moment σ} (h : m.proceeding = false) :
    Accessed 0 w (w.noted m) :=
  ⟨rfl, rfl, rfl, rfl, rfl, rfl, rfl, rfl, proceedings_remark w h, id⟩

theorem accessed_setProcess {p : Process} (hp : p.handler = w.process.handler)
    (h : w.Present → (p.coordinators w.self).isSome = true) : Accessed 0 w (w.setProcess p) :=
  ⟨rfl, rfl, rfl, rfl, rfl, rfl, rfl, hp, proceedings_setProcess w p, h⟩

theorem accessed_setCoordinator (w : World σ) (c : Coordinator) :
    Accessed 0 w (w.setCoordinator c) :=
  accessed_setProcess rfl fun _ => present_setCoordinator w c

theorem accessed_undergo (w : World σ) (a : ThreadAct) : Accessed 0 w (w.undergo a) :=
  (accessed_remark w rfl).trans (accessed_setProcess Process.handler_act fun h => present_act a h)

theorem coordinator_undergo (hw : w.Present) {late : Bool} {a : ThreadAct} (ha : a.Mute late) :
    (w.undergo a).coordinator = a.mutely w.coordinator := by
  rw [undergo, coordinator_setProcess]
  cases a with
  | interrupt => exact coordinator_update_self hw _
  | terminate => exact coordinator_update_self hw _
  | claimTeardown => exact coordinator_update_self hw _
  | report origin f => cases ha
  | panic thread x => cases ha

theorem accessed_undergo_all (w : World σ) (as : List ThreadAct) :
    Accessed 0 w (as.foldl undergo w) := by
  induction as generalizing w with
  | nil => exact .refl w
  | cons a rest ih => exact (accessed_undergo w a).trans (ih _)

theorem coordinator_undergo_all (hw : w.Present) {as : List ThreadAct}
    (has : ∀ a ∈ as, a.Mute false) :
    (as.foldl undergo w).coordinator = as.foldl (fun c a => a.mutely c) w.coordinator := by
  induction as generalizing w with
  | nil => rfl
  | cons a rest ih =>
      obtain ⟨ha, hrest⟩ := List.forall_mem_cons.mp has
      have hpresent : (w.undergo a).Present := (accessed_undergo w a).present hw
      rw [List.foldl_cons, List.foldl_cons, ih hpresent hrest, coordinator_undergo hw ha]

theorem accessed_yield (w : World σ) : Accessed 1 w (yield w).2 := by
  have hall := accessed_undergo_all w (w.others w.turn)
  exact { hall with turn := rfl }

/-- What the other threads make of the coordinator before an access. -/
theorem coordinator_yield (hw : w.Present) (has : ∀ a ∈ w.others w.turn, a.Mute false) :
    (yield w).2.coordinator =
      (w.others w.turn).foldl (fun c a => a.mutely c) w.coordinator :=
  coordinator_undergo_all hw has

end Accessed

/-! ## Twins -/

/-- Two worlds, the first of which is watched for panics, with the record that the second one owes.
`late` tells whether the teardown is claimed. The contents of files are the same once `g` is applied
to them. -/
structure Twin (g : ByteArray → ByteArray) (late : Bool) (owed : Option FaultRecord)
    (w v : World σ) : Prop where
  memory : w.memory = v.memory
  clock : w.clock = v.clock
  generator : w.generator = v.generator
  files : w.files.withContents g = v.files.withContents g
  proceedings : w.proceedings = v.proceedings
  watched : w.process.handler = .watching w.self
  unwatched : v.process.handler ≠ .watching v.self
  present : w.Present
  present' : v.Present
  others : ∀ n, w.others (w.turn + n) = v.others (v.turn + n)
  mute : ∀ n, ∀ a ∈ v.others n, a.Mute false
  coordinator : w.coordinator.anonymous = (v.coordinator.paid owed).anonymous
  teardown : v.coordinator.teardown = late

section Twin

variable {g : ByteArray → ByteArray} {late late' : Bool} {owed owed' : Option FaultRecord}
  {w v w' v' : World σ}

/-- After as many accesses on both sides twins are twins if their coordinators are. -/
theorem Twin.accessed (h : Twin g late owed w v) {k : Nat} (hw : Accessed k w w')
    (hv : Accessed k v v')
    (hc : w'.coordinator.anonymous = (v'.coordinator.paid owed').anonymous)
    (ht : v'.coordinator.teardown = late') : Twin g late' owed' w' v' where
  memory := by rw [hw.memory, hv.memory, h.memory]
  clock := by rw [hw.clock, hv.clock, h.clock]
  generator := by rw [hw.generator, hv.generator, h.generator]
  files := by rw [hw.files, hv.files, h.files]
  proceedings := by rw [hw.proceedings, hv.proceedings, h.proceedings]
  watched := by rw [hw.handler, hw.self, h.watched]
  unwatched := by
    rw [hv.handler, hv.self]
    exact h.unwatched
  present := hw.present h.present
  present' := hv.present h.present'
  others := by
    intro n
    rw [hw.others, hv.others, hw.turn, hv.turn, Nat.add_assoc, Nat.add_assoc, h.others]
  mute := by
    rw [hv.others]
    exact h.mute
  coordinator := hc
  teardown := ht

/-- Something happens in both worlds. -/
theorem Twin.noted (h : Twin g late owed w v) (m : Moment σ) :
    Twin g late owed (w.noted m) (v.noted m) :=
  { h with proceedings := by rw [proceedings_noted, proceedings_noted, h.proceedings] }

/-- In each world something happens that is no matter of the proceedings. -/
theorem Twin.remark (h : Twin g late owed w v) {m n : Moment σ} (hm : m.proceeding = false)
    (hn : n.proceeding = false) : Twin g late owed (w.noted m) (v.noted n) :=
  h.accessed (accessed_remark w hm) (accessed_remark v hn) h.coordinator h.teardown

theorem twin_undergo (h : Twin g late owed w v) {a : ThreadAct} (ha : a.Mute late) :
    Twin g late owed (w.undergo a) (v.undergo a) := by
  refine h.accessed (accessed_undergo w a) (accessed_undergo v a) ?_ ?_
  · rw [coordinator_undergo h.present ha, coordinator_undergo h.present' ha, anonymous_mutely,
      h.coordinator, ← anonymous_mutely, mutely_paid ha h.teardown]
  · rw [coordinator_undergo h.present' ha]
    exact teardown_mutely ha h.teardown

theorem twin_undergo_all (h : Twin g late owed w v) {as : List ThreadAct}
    (has : ∀ a ∈ as, a.Mute false) :
    Twin g late owed (as.foldl undergo w) (as.foldl undergo v) := by
  induction as generalizing w v with
  | nil => exact h
  | cons a rest ih =>
      obtain ⟨ha, hrest⟩ := List.forall_mem_cons.mp has
      exact ih (twin_undergo h (ha.always late)) hrest

/-- Before an access the same threads act in both worlds. -/
theorem twin_yield (h : Twin g late owed w v) : Twin g late owed (yield w).2 (yield v).2 := by
  have hsame : w.others w.turn = v.others v.turn := h.others 0
  have hall : Twin g late owed ((w.others w.turn).foldl undergo w)
      ((v.others v.turn).foldl undergo v) := by
    rw [hsame]
    exact twin_undergo_all h (h.mute v.turn)
  exact h.accessed (accessed_yield w) (accessed_yield v) hall.coordinator hall.teardown

/-- The coordinators that the worlds find when they look. -/
theorem twin_look (h : Twin g late owed w v) :
    (look w).1.anonymous = ((look v).1.paid owed).anonymous ∧
      Twin g late owed (look w).2 (look v).2 :=
  ⟨(twin_yield h).coordinator, twin_yield h⟩

theorem twin_flag (h : Twin g late none w v) :
    (flag w).1 = (flag v).1 ∧ Twin g late none (flag w).2 (flag v).2 := by
  obtain ⟨hfound, hlook⟩ := twin_look h
  have hflag := congrArg Coordinator.flag hfound
  exact ⟨hflag, hlook⟩

/-! ## Changes of the coordinator -/

/-- A change that does the same to the coordinators of twins, and gives values that `V` relates. -/
def Impartial (V : α → α → Prop) (owed : Option FaultRecord) (late late' : Bool)
    (f : Coordinator → α × Coordinator) : Prop :=
  ∀ c d : Coordinator, c.anonymous = (d.paid owed).anonymous → d.teardown = late →
    V (f c).1 (f d).1 ∧ (f c).2.anonymous = ((f d).2.paid owed).anonymous ∧
      (f d).2.teardown = late'

variable {V : α → α → Prop} {f : Coordinator → α × Coordinator}

theorem twin_change (h : Twin g late owed w v) (hf : Impartial V owed late late' f) :
    V (change f w).1 (change f v).1 ∧ Twin g late' owed (change f w).2 (change f v).2 := by
  obtain ⟨hvalue, hstate, hteardown⟩ := hf _ _ h.coordinator h.teardown
  refine ⟨hvalue, h.accessed (accessed_setCoordinator w _) (accessed_setCoordinator v _) ?_ ?_⟩
  · change (w.setCoordinator _).coordinator.anonymous =
      ((v.setCoordinator _).coordinator.paid owed).anonymous
    rw [coordinator_setCoordinator, coordinator_setCoordinator]
    exact hstate
  · change (v.setCoordinator _).coordinator.teardown = late'
    rw [coordinator_setCoordinator]
    exact hteardown

theorem twin_alter (h : Twin g late owed w v) (hf : Impartial V owed late late' f) :
    V (alter f w).1 (alter f v).1 ∧ Twin g late' owed (alter f w).2 (alter f v).2 :=
  twin_change (twin_yield h) hf

theorem twin_actHere (h : Twin g late owed w v) (a : ThreadAct)
    (hf : Impartial V owed late late' f) :
    V (actHere a f w).1 (actHere a f v).1 ∧
      Twin g late' owed (actHere a f w).2 (actHere a f v).2 :=
  twin_change ((twin_yield h).remark (m := .acted a) (n := .acted a) rfl rfl) hf

theorem impartial_record (r : FaultRecord) : Impartial Eq none late late (·.record r) := by
  intro c d hc hd
  obtain ⟨hkept, hstate⟩ := Coordinator.record_congr hc (rfl : r.anonymous = r.anonymous)
  exact ⟨hkept, hstate, (teardown_record d r).trans hd⟩

theorem impartial_terminate : Impartial Eq owed late late fun c => ((), c.terminate) := by
  intro c d hc hd
  refine ⟨rfl, ?_, (terminate_keeps d).1.trans hd⟩
  dsimp only
  rw [c.anonymous_terminate, hc, ← Coordinator.anonymous_terminate, Coordinator.terminate_paid]

theorem impartial_claim : Impartial (fun c d : Coordinator => c.anonymous = d.anonymous) none late
    true fun c => (c, c.claim.2) :=
  fun _ _ hc _ => ⟨hc, congrArg (fun e : Coordinator => { e with teardown := true }) hc, rfl⟩

/-! ## Reports -/

/-- A report through an access that does the same to both. -/
theorem twin_reportBy (h : Twin g late none w v) (origin : String) (f : Fault)
    {access : (Coordinator → Capture × Coordinator) → StateM (World σ) Capture}
    (haccess : ∀ r : FaultRecord,
      (access (·.record r) w).1 = (access (·.record r) v).1 ∧
        Twin g late none (access (·.record r) w).2 (access (·.record r) v).2) :
    (reportBy access origin f w).1 = (reportBy access origin f v).1 ∧
      Twin g late none (reportBy access origin f w).2 (reportBy access origin f v).2 := by
  obtain ⟨hkept, htwin⟩ := haccess ⟨f, origin, v.clock⟩
  rw [← h.clock] at hkept htwin
  have hclock : ∀ u : World σ, reportBy access origin f u =
      (decide ((access (·.record ⟨f, origin, u.clock⟩) u).1 = .kept),
        (access (·.record ⟨f, origin, u.clock⟩) u).2.noted
          (.said .controller (access (·.record ⟨f, origin, u.clock⟩) u).1.line)) := fun _ => rfl
  rw [hclock, hclock, ← h.clock, hkept]
  exact ⟨rfl, htwin.remark rfl rfl⟩

theorem twin_report (h : Twin g late none w v) (origin : String) (f : Fault) :
    (report origin f w).1 = (report origin f v).1 ∧
      Twin g late none (report origin f w).2 (report origin f v).2 :=
  twin_reportBy h origin f fun r => twin_alter h (impartial_record r)

/-! ## Panics -/

/-- Where a panic is raised, the first world records it, and the second one owes the record. -/
theorem twin_panic (h : Twin g late none w v) (x : Panic) :
    Twin g late (some (x.record (panic x v).2.clock)) (panic x w).2 (panic x v).2 := by
  have hyield := twin_yield h
  have hclock : (yield v).2.clock = v.clock := (accessed_yield v).clock
  rw [panic_of_watching h.watched, panic_of_not_watching h.unwatched]
  have hcaught : Accessed 0 (yield w).2 ((yield w).2.reported
      ⟨Process.panicFault (some controllerThread) x, x.origin (some controllerThread), w.clock⟩) :=
    (accessed_setCoordinator _ _).trans (accessed_remark _ rfl)
  have huncaught : Accessed 0 (yield v).2 ((yield v).2.setProcess
      ((yield v).2.process.panic (some controllerThread) x (yield v).2.clock)) :=
    accessed_setProcess (Process.handler_panic _ _) isSome_panic
  refine hyield.accessed hcaught huncaught ?_ ?_
  · rw [coordinator_setProcess, coordinator_panic hyield.unwatched, reported]
    change ((yield w).2.setCoordinator _).coordinator.anonymous = _
    rw [coordinator_setCoordinator]
    refine (Coordinator.record_congr hyield.coordinator ?_).2
    change (⟨.panic "" x.payload.message, "", w.clock⟩ : FaultRecord) =
      ⟨.panic "" x.payload.message, "", (yield v).2.clock⟩
    rw [h.clock, hclock]
  · rw [coordinator_setProcess, coordinator_panic hyield.unwatched]
    exact hyield.teardown

/-- A panic that the second world still owes is recorded there under another name. -/
theorem Twin.repay {x : Panic} (h : Twin g late (some (x.record v.clock)) w v) (origin : String) :
    Twin g late none (yield w).2 (report origin (.panic origin x.payload.message) v).2 := by
  have hyield := twin_yield h
  have hreported : Accessed 0 (yield v).2 ((yield v).2.reported
      ⟨.panic origin x.payload.message, origin, v.clock⟩) :=
    (accessed_setCoordinator _ _).trans (accessed_remark _ rfl)
  have hsame : (x.record v.clock).anonymous =
      (⟨.panic origin x.payload.message, origin, v.clock⟩ : FaultRecord).anonymous := rfl
  rw [report_world]
  refine hyield.accessed (.refl _) hreported ?_ ?_
  · rw [hyield.coordinator, reported]
    change _ = ((yield v).2.setCoordinator _).coordinator.anonymous
    rw [coordinator_setCoordinator]
    exact (Coordinator.record_congr rfl hsame).2
  · rw [reported]
    change ((yield v).2.setCoordinator _).coordinator.teardown = late
    rw [coordinator_setCoordinator, teardown_record]
    exact hyield.teardown

/-- While a panic is owed and the teardown is not claimed, the first world has a fault. -/
theorem Twin.faulty {r : FaultRecord} (h : Twin g false (some r) w v) :
    w.coordinator.fault.isSome = true := by
  have hfault : (v.coordinator.record r).2.fault.isSome = true := by
    have hteardown := h.teardown
    revert hteardown
    rcases v.coordinator with ⟨flag, teardown, fault, discarded, bound, terminated, waiters⟩
    rintro rfl
    cases fault <;> rfl
  have hsame := congrArg (fun c : Coordinator => c.fault.isSome) h.coordinator
  change (w.coordinator.fault.map FaultRecord.anonymous).isSome =
    ((v.coordinator.record r).2.fault.map FaultRecord.anonymous).isSome at hsame
  rw [Option.isSome_map, Option.isSome_map] at hsame
  exact hsame.trans hfault

/-! ## Work on the files -/

theorem accessed_lines (lines : List LogLine) (u : World σ) :
    Accessed 0 u ((lines.forM fun l => note (.said .controller l)) u).2 ∧
      ((lines.forM fun l => note (.said .controller l)) u).2.coordinator = u.coordinator := by
  induction lines generalizing u with
  | nil => exact ⟨.refl u, rfl⟩
  | cons line rest ih =>
      obtain ⟨haccessed, hstate⟩ := ih (u.noted (.said .controller line))
      exact ⟨(accessed_remark u rfl).trans haccessed, hstate⟩

/-- Whatever lines are logged, they are no matter of the proceedings. -/
theorem twin_lines (h : Twin g late owed w v) (lines lines' : List LogLine) :
    Twin g late owed ((lines.forM fun l => note (.said .controller l)) w).2
      ((lines'.forM fun l => note (.said .controller l)) v).2 := by
  obtain ⟨haccessed, hstate⟩ := accessed_lines lines w
  obtain ⟨haccessed', hstate'⟩ := accessed_lines lines' v
  refine h.accessed haccessed haccessed' ?_ ?_
  · rw [hstate, hstate']
    exact h.coordinator
  · rw [hstate']
    exact h.teardown

/-- Work that does not look into files. -/
theorem twin_onFiles (h : Twin g late owed w v) {work : FileWork α}
    (hwork : FileWork.Blind g work) :
    (onFiles work w).1 = (onFiles work v).1 ∧
      Twin g late owed (onFiles work w).2 (onFiles work v).2 := by
  have hleft := hwork { files := w.files }
  have hright := hwork { files := v.files }
  rw [FileWork.withContents, h.files] at hleft
  rw [FileWork.withContents, hleft] at hright
  obtain ⟨hvalue, hfiles⟩ := Prod.mk.inj hright
  have hset : Twin g late owed { w with files := (work.run.run { files := w.files }).2.files }
      { v with files := (work.run.run { files := v.files }).2.files } :=
    { h with files := congrArg FileJournal.files hfiles }
  exact ⟨hvalue, twin_lines hset _ _⟩

/-- Texts that are the same once `g` is applied to them are written. -/
theorem twin_writeText (h : Twin g late owed w v) (path : String) {text text' : String}
    (ht : g text.toUTF8 = g text'.toUTF8) :
    (writeText path text w).1 = (writeText path text' v).1 ∧
      Twin g late owed (writeText path text w).2 (writeText path text' v).2 := by
  have hwritten : (w.files.writeText path text).map (FileSystem.withContents g) =
      (v.files.writeText path text').map (FileSystem.withContents g) := by
    unfold FileSystem.writeText
    rw [← FileSystem.write_withContents, ← FileSystem.write_withContents, h.files, ht]
  unfold writeText
  dsimp only [bind, StateT.bind, get, getThe, MonadStateOf.get, StateT.get, pure, Id.run]
  revert hwritten
  cases w.files.writeText path text with
  | ok a =>
      cases v.files.writeText path text' with
      | ok b => exact fun hsame => ⟨rfl, { h with files := Except.ok.inj hsame }⟩
      | error e => exact fun hsame => nomatch hsame
  | error e =>
      cases v.files.writeText path text' with
      | ok b => exact fun hsame => nomatch hsame
      | error e' =>
          intro hsame
          obtain rfl : e = e' := Except.error.inj hsame
          exact ⟨rfl, h⟩

end Twin

end World

end CommuteSim
