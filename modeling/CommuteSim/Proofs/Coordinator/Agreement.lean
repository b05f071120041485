import CommuteSim.Proofs.Coordinator.Order
import Mathlib.Data.Finset.Card
import Mathlib.Logic.Function.Basic

/-!
# Calls on one coordinator, interleaved

Any number of threads report faults to one coordinator, claim its teardown and interrupt its run. A
report has two atomic steps: the look at the slot, and later the count of a fault that was not kept.
A claim has one. An interrupt raises the flag and then begins to wait. The steps of different calls
come in any order.

A scene is a coordinator with the calls on it. The invariant `Agrees` says of every scene that a run
leads to what the turns of that run determine: whose record is in the slot, whose claim was the
first, and how many faults were not kept.

Main statement: the slot, the flag, the claim and the answers of the calls fit each other, after
every run (`agreement`). -/

namespace CommuteSim

namespace Coordinator

variable {ι : Type}

/-! ## Calls and turns -/

/-- How far a call has come. -/
inductive Call where
  /-- Its first atomic step is still to come. -/
  | idle
  /-- A report whose fault was not kept and is still to be counted. -/
  | counting (record : FaultRecord)
  /-- A report that is over, with its answer. -/
  | reported (record : FaultRecord) (kept : Bool)
  /-- A claim that is over, with its answer. -/
  | claimed (first : Bool)
  /-- An interrupt that has raised the flag. -/
  | raised
  /-- An interrupt that waits for the end of the teardown. -/
  | waiting

/-- What a report comes to when it has looked at the slot. -/
def Call.ofCapture (r : FaultRecord) : Capture → Call
  | .kept => .reported r true
  | .notFirst | .afterTeardown => .counting r

/-- An atomic step of a call. -/
inductive Turn (ι : Type) where
  | capture (call : ι) (record : FaultRecord)
  | count (call : ι)
  | claim (call : ι)
  | raise (call : ι)
  | wait (call : ι)

/-- A coordinator with the calls on it. -/
structure Scene (ι : Type) where
  coordinator : Coordinator := {}
  calls : ι → Call := fun _ => .idle

namespace Scene

variable [DecidableEq ι]

/-- A call comes to a new point, and the coordinator into a new state. -/
def advance (s : Scene ι) (c : Coordinator) (i : ι) (call : Call) : Scene ι :=
  { coordinator := c, calls := Function.update s.calls i call }

@[simp] theorem coordinator_advance (s : Scene ι) (c : Coordinator) (i : ι) (call : Call) :
    (s.advance c i call).coordinator = c := rfl

@[simp] theorem advance_self (s : Scene ι) (c : Coordinator) (i : ι) (call : Call) :
    (s.advance c i call).calls i = call :=
  Function.update_self ..

theorem advance_of_ne (s : Scene ι) (c : Coordinator) {i j : ι} (call : Call) (h : j ≠ i) :
    (s.advance c i call).calls j = s.calls j :=
  Function.update_of_ne h ..

/-- Only the call that advances can come to a point or leave it. -/
theorem advance_eq_iff {s : Scene ι} {c : Coordinator} {i : ι} {old call k : Call}
    (hi : s.calls i = old) (hold : old ≠ k) (hnew : call ≠ k) (j : ι) :
    (s.advance c i call).calls j = k ↔ s.calls j = k := by
  by_cases hj : j = i
  · subst hj
    rw [advance_self, hi]
    exact ⟨fun h => absurd h hnew, fun h => absurd h hold⟩
  · rw [advance_of_ne s c call hj]

theorem exists_advance_iff {s : Scene ι} {c : Coordinator} {i : ι} {old call : Call}
    {point : FaultRecord → Call} (hi : s.calls i = old) (hold : ∀ r, old ≠ point r)
    (hnew : ∀ r, call ≠ point r) (j : ι) :
    (∃ r, s.calls j = point r) ↔ ∃ r, (s.advance c i call).calls j = point r :=
  exists_congr fun r => (advance_eq_iff hi (hold r) (hnew r) j).symm

/-- What an atomic step does. Only a call that has come so far can take it. -/
inductive Step : Scene ι → Turn ι → Scene ι → Prop where
  | capture {s : Scene ι} {i : ι} (r : FaultRecord) (h : s.calls i = .idle) :
      Step s (.capture i r)
        (s.advance (s.coordinator.capture r).2 i (.ofCapture r (s.coordinator.capture r).1))
  | count {s : Scene ι} {i : ι} {r : FaultRecord} (h : s.calls i = .counting r) :
      Step s (.count i) (s.advance s.coordinator.countDiscarded i (.reported r false))
  | claim {s : Scene ι} {i : ι} (h : s.calls i = .idle) :
      Step s (.claim i) (s.advance s.coordinator.claim.2 i (.claimed s.coordinator.claim.1))
  | raise {s : Scene ι} {i : ι} (h : s.calls i = .idle) :
      Step s (.raise i) (s.advance s.coordinator.raiseFlag i .raised)
  | wait {s : Scene ι} {i : ι} (h : s.calls i = .raised) :
      Step s (.wait i) (s.advance s.coordinator.wait i .waiting)

/-- Steps one after the other. -/
inductive Run : Scene ι → List (Turn ι) → Scene ι → Prop where
  | refl (s : Scene ι) : Run s [] s
  | tail {s t u : Scene ι} {turns : List (Turn ι)} {turn : Turn ι} :
      Run s turns t → Step t turn u → Run s (turns ++ [turn]) u

/-! ## The coordinator goes one way -/

theorem later_step {s t : Scene ι} {turn : Turn ι} (h : Step s turn t) :
    s.coordinator.Later t.coordinator := by
  cases h with
  | capture r _ => exact s.coordinator.later_capture r
  | count _ => exact s.coordinator.later_countDiscarded
  | claim _ => exact s.coordinator.later_claim
  | raise _ => exact s.coordinator.later_raiseFlag
  | wait _ => exact s.coordinator.later_wait

theorem later_run {s t : Scene ι} {turns : List (Turn ι)} (h : Run s turns t) :
    s.coordinator.Later t.coordinator := by
  induction h with
  | refl => exact Later.refl _
  | tail _ hstep ih => exact ih.trans (later_step hstep)

end Scene

/-! ## What the turns determine -/

/-- The call that a turn claims the teardown for. -/
def Turn.claimant? : Turn ι → Option ι
  | claim i => some i
  | _ => none

/-- Whether a turn is the look at the slot of a report. -/
def Turn.isCapture : Turn ι → Bool
  | capture _ _ => true
  | _ => false

/-- The call whose claim to the teardown comes first. -/
def claimant? (turns : List (Turn ι)) : Option ι := turns.findSome? Turn.claimant?

/-- A report with this record comes first, and no claim to the teardown before it. -/
def LeadingReport (turns : List (Turn ι)) (i : ι) (r : FaultRecord) : Prop :=
  ∃ before after, turns = before ++ .capture i r :: after ∧
    (∀ j q, .capture j q ∉ before) ∧ ∀ j, .claim j ∉ before

/-- The report that comes first with its record, if no claim to the teardown comes before it. -/
def holder? : List (Turn ι) → Option (ι × FaultRecord)
  | [] => none
  | .capture i r :: _ => some (i, r)
  | .claim _ :: _ => none
  | .count _ :: rest | .raise _ :: rest | .wait _ :: rest => holder? rest

/-- The number of reports that have looked at the slot. -/
def reports (turns : List (Turn ι)) : Nat := turns.countP Turn.isCapture

theorem claimant?_append (ts us : List (Turn ι)) :
    claimant? (ts ++ us) = (claimant? ts).or (claimant? us) :=
  List.findSome?_append

theorem claimant?_capture (turns : List (Turn ι)) (i : ι) (r : FaultRecord) :
    claimant? (turns ++ [.capture i r]) = claimant? turns := by
  rw [claimant?_append]
  exact Option.or_none

theorem holder?_append (ts us : List (Turn ι)) :
    holder? (ts ++ us) =
      (holder? ts).or (if (claimant? ts).isSome then none else holder? us) := by
  induction ts with
  | nil => simp [holder?, claimant?]
  | cons t ts ih =>
      cases t with
      | capture i r => simp [holder?]
      | claim i => simp [holder?, claimant?, Turn.claimant?]
      | count i => simpa [holder?, claimant?, Turn.claimant?] using ih
      | raise i => simpa [holder?, claimant?, Turn.claimant?] using ih
      | wait i => simpa [holder?, claimant?, Turn.claimant?] using ih

theorem holder?_eq_some_iff {turns : List (Turn ι)} {i : ι} {r : FaultRecord} :
    holder? turns = some (i, r) ↔ LeadingReport turns i r := by
  constructor
  · intro h
    induction turns with
    | nil => cases h
    | cons t rest ih =>
        have hskip : (∀ j q, t ≠ .capture j q) → (∀ j, t ≠ .claim j) →
            holder? rest = some (i, r) → LeadingReport (t :: rest) i r := by
          intro ht ht' hr
          obtain ⟨before, after, rfl, hb, hb'⟩ := ih hr
          refine ⟨t :: before, after, rfl, ?_, ?_⟩
          · intro j q hm
            rcases List.mem_cons.mp hm with hm | hm
            · exact ht j q hm.symm
            · exact hb j q hm
          · intro j hm
            rcases List.mem_cons.mp hm with hm | hm
            · exact ht' j hm.symm
            · exact hb' j hm
        cases t with
        | capture j q =>
            cases h
            exact ⟨[], rest, rfl, by simp, by simp⟩
        | claim j => cases h
        | count j => exact hskip nofun nofun h
        | raise j => exact hskip nofun nofun h
        | wait j => exact hskip nofun nofun h
  · rintro ⟨before, after, rfl, hb, hb'⟩
    induction before with
    | nil => rfl
    | cons t rest ih =>
        have hrest := ih (fun j q hm => hb j q (List.mem_cons_of_mem t hm))
          fun j hm => hb' j (List.mem_cons_of_mem t hm)
        cases t with
        | capture j q => exact absurd List.mem_cons_self (hb j q)
        | claim j => exact absurd List.mem_cons_self (hb' j)
        | count j => exact hrest
        | raise j => exact hrest
        | wait j => exact hrest

theorem reports_append (ts us : List (Turn ι)) : reports (ts ++ us) = reports ts + reports us :=
  List.countP_append

/-! ## The invariant -/

/-- What a run from the beginning leads to fits its turns. -/
structure Agrees (turns : List (Turn ι)) (s : Scene ι) : Prop where
  /-- The slot holds the record of the first report that no claim came before. -/
  slot : s.coordinator.fault = (holder? turns).map Prod.snd
  teardown : s.coordinator.teardown = (claimant? turns).isSome
  flag : s.coordinator.fault.isSome → s.coordinator.flag = true
  claimed : ∀ i, s.calls i = .claimed true ↔ claimant? turns = some i
  kept : ∀ i r, s.calls i = .reported r true ↔ holder? turns = some (i, r)
  /-- Each report is kept, or counted as not kept, or still to be counted. -/
  tally : ∃ refused pending : Finset ι,
    (∀ i, i ∈ refused ↔ ∃ r, s.calls i = .reported r false) ∧
    (∀ i, i ∈ pending ↔ ∃ r, s.calls i = .counting r) ∧
    s.coordinator.discarded = refused.card ∧
    reports turns = refused.card + pending.card + if s.coordinator.fault.isSome then 1 else 0

theorem agrees_init : Agrees [] ({} : Scene ι) where
  slot := rfl
  teardown := rfl
  flag := nofun
  claimed := by simp [claimant?]
  kept := by simp [holder?]
  tally := ⟨∅, ∅, by simp, by simp, rfl, rfl⟩

section Invariant

variable [DecidableEq ι] {turns : List (Turn ι)} {s : Scene ι} {i : ι}

/-- The answers are as before if a call of an interrupt takes a step. -/
theorem agrees_silent (h : Agrees turns s) {turn : Turn ι} {c : Coordinator} {old call : Call}
    (hi : s.calls i = old)
    (hturn : claimant? [turn] = none ∧ holder? [turn] = none ∧ reports [turn] = 0)
    (hold : old = .idle ∨ old = .raised) (hcall : call = .raised ∨ call = .waiting)
    (hc : c.fault = s.coordinator.fault ∧ c.teardown = s.coordinator.teardown ∧
      c.discarded = s.coordinator.discarded ∧ (s.coordinator.flag = true → c.flag = true)) :
    Agrees (turns ++ [turn]) (s.advance c i call) := by
  obtain ⟨hclaim, hhold, hcap⟩ := hturn
  obtain ⟨hfault, hteardown, hdiscarded, hflag⟩ := hc
  have hclaimant : claimant? (turns ++ [turn]) = claimant? turns := by
    rw [claimant?_append, hclaim, Option.or_none]
  have hholder : holder? (turns ++ [turn]) = holder? turns := by
    rw [holder?_append, hhold, ite_self, Option.or_none]
  have hcalls : ∀ k : Call, (k ≠ .idle ∧ k ≠ .raised ∧ k ≠ .waiting) →
      ∀ j, (s.advance c i call).calls j = k ↔ s.calls j = k := by
    rintro k ⟨hk, hk', hk''⟩
    refine Scene.advance_eq_iff hi ?_ ?_
    · rcases hold with rfl | rfl
      · exact hk.symm
      · exact hk'.symm
    · rcases hcall with rfl | rfl
      · exact hk'.symm
      · exact hk''.symm
  obtain ⟨refused, pending, hrefused, hpending, hcard, hreports⟩ := h.tally
  refine ⟨?_, ?_, ?_, ?_, ?_, refused, pending, ?_, ?_, hdiscarded.trans hcard, ?_⟩
  · rw [hholder, ← h.slot]
    exact hfault
  · rw [hclaimant, ← h.teardown]
    exact hteardown
  · intro hs
    exact hflag (h.flag (by rw [← hfault]; exact hs))
  · intro j
    rw [hcalls _ (by simp), hclaimant, h.claimed]
  · intro j r
    rw [hcalls _ (by simp), hholder, h.kept]
  · intro j
    exact (hrefused j).trans (exists_congr fun _ => (hcalls _ (by simp) j).symm)
  · intro j
    exact (hpending j).trans (exists_congr fun _ => (hcalls _ (by simp) j).symm)
  · rw [reports_append, hcap, hreports, Scene.coordinator_advance, hfault, Nat.add_zero]

/-- A report that is not kept leaves the slot alone and is still to be counted. -/
theorem agrees_refused (h : Agrees turns s) {r : FaultRecord} {c : Coordinator}
    (hi : s.calls i = .idle) (hheld : holder? (turns ++ [.capture i r]) = holder? turns)
    (hfault : c.fault = s.coordinator.fault) (hteardown : c.teardown = s.coordinator.teardown)
    (hdiscarded : c.discarded = s.coordinator.discarded)
    (hflag : s.coordinator.fault.isSome → c.flag = true) :
    Agrees (turns ++ [.capture i r]) (s.advance c i (.counting r)) := by
  obtain ⟨refused, pending, hrefused, hpending, hcard, hreports⟩ := h.tally
  have hfresh : i ∉ pending := by
    rw [hpending, hi]
    rintro ⟨q, hq⟩
    exact Call.noConfusion hq
  refine ⟨?_, ?_, ?_, ?_, ?_, refused, insert i pending, ?_, ?_, hdiscarded.trans hcard, ?_⟩
  · rw [hheld, ← h.slot]
    exact hfault
  · rw [claimant?_capture, ← h.teardown]
    exact hteardown
  · rw [Scene.coordinator_advance, hfault]
    exact hflag
  · intro j
    rw [Scene.advance_eq_iff hi (by simp) (by simp), claimant?_capture, h.claimed]
  · intro j q
    rw [Scene.advance_eq_iff hi (by simp) (by simp), hheld, h.kept]
  · intro j
    exact (hrefused j).trans (Scene.exists_advance_iff hi (by simp) (by simp) j)
  · intro j
    by_cases hj : j = i
    · subst hj
      simp
    · rw [Scene.advance_of_ne _ _ _ hj, Finset.mem_insert, hpending]
      simp [hj]
  · rw [reports_append, hreports, Finset.card_insert_of_notMem hfresh,
      Scene.coordinator_advance, hfault]
    have hone : reports [Turn.capture i r] = 1 := rfl
    omega

/-- A report that finds the slot free is kept. -/
theorem agrees_kept (h : Agrees turns s) {r : FaultRecord} (hi : s.calls i = .idle)
    (hempty : holder? turns = none) (hheld : holder? (turns ++ [.capture i r]) = some (i, r)) :
    Agrees (turns ++ [.capture i r])
      (s.advance { s.coordinator with flag := true, fault := some r } i (.ofCapture r .kept)) := by
  have hfree : s.coordinator.fault = none := by
    have hslot := h.slot
    rw [hempty] at hslot
    exact hslot
  obtain ⟨refused, pending, hrefused, hpending, hcard, hreports⟩ := h.tally
  refine ⟨?_, ?_, fun _ => rfl, ?_, ?_, refused, pending, ?_, ?_, hcard, ?_⟩
  · rw [hheld]
    rfl
  · rw [claimant?_capture, ← h.teardown]
    rfl
  · intro j
    rw [Scene.advance_eq_iff hi (by simp) (by simp [Call.ofCapture]), claimant?_capture,
      h.claimed]
  · intro j q
    rw [hheld]
    by_cases hj : j = i
    · subst hj
      simp [Call.ofCapture]
    · rw [Scene.advance_of_ne _ _ _ hj, h.kept, hempty]
      simp [Ne.symm hj]
  · intro j
    exact (hrefused j).trans
      (Scene.exists_advance_iff hi (by simp) (by simp [Call.ofCapture]) j)
  · intro j
    exact (hpending j).trans
      (Scene.exists_advance_iff hi (by simp) (by simp [Call.ofCapture]) j)
  · rw [reports_append, hreports, hfree]
    rfl

/-- A report that looks at the slot is kept if no other report and no claim came before it. -/
theorem agrees_capture (h : Agrees turns s) (r : FaultRecord) (hi : s.calls i = .idle) :
    Agrees (turns ++ [.capture i r])
      (s.advance (s.coordinator.capture r).2 i (.ofCapture r (s.coordinator.capture r).1)) := by
  have hholder : holder? (turns ++ [.capture i r]) =
      (holder? turns).or (if s.coordinator.teardown then none else some (i, r)) := by
    rw [holder?_append, h.teardown]
    rfl
  -- the slot is closed after a claim, taken after another report, and free otherwise
  by_cases ht : s.coordinator.teardown = true
  · have hheld : holder? (turns ++ [.capture i r]) = holder? turns := by
      rw [hholder, if_pos ht, Option.or_none]
    have hcap : s.coordinator.capture r = (.afterTeardown, s.coordinator) := by
      simp [capture, ht]
    rw [hcap]
    exact agrees_refused h hi hheld rfl rfl rfl h.flag
  have hslot := h.slot
  cases hf : s.coordinator.fault with
  | some q =>
      rw [hf] at hslot
      obtain ⟨p, hp, -⟩ := Option.map_eq_some_iff.mp hslot.symm
      have hheld : holder? (turns ++ [.capture i r]) = holder? turns := by
        rw [hholder, hp]
        rfl
      have hcap : s.coordinator.capture r = (.notFirst, { s.coordinator with flag := true }) := by
        simp [capture, ht, hf]
      rw [hcap]
      exact agrees_refused h hi hheld rfl rfl rfl fun _ => rfl
  | none =>
      rw [hf] at hslot
      have hempty : holder? turns = none := Option.map_eq_none_iff.mp hslot.symm
      have hheld : holder? (turns ++ [.capture i r]) = some (i, r) := by
        rw [hholder, hempty, if_neg ht]
        rfl
      have hcap : s.coordinator.capture r =
          (.kept, { s.coordinator with flag := true, fault := some r }) := by
        simp [capture, ht, hf]
      rw [hcap]
      exact agrees_kept h hi hempty hheld

/-- The count of a fault that was not kept ends the report. -/
theorem agrees_count (h : Agrees turns s) {r : FaultRecord} (hi : s.calls i = .counting r) :
    Agrees (turns ++ [.count i])
      (s.advance s.coordinator.countDiscarded i (.reported r false)) := by
  have hclaimant : claimant? (turns ++ [.count i]) = claimant? turns := by
    rw [claimant?_append]
    exact Option.or_none
  have hholder : holder? (turns ++ [.count i]) = holder? turns := by
    rw [holder?_append]
    simp [holder?]
  obtain ⟨refused, pending, hrefused, hpending, hcard, hreports⟩ := h.tally
  have hmem : i ∈ pending := (hpending i).mpr ⟨r, hi⟩
  have hfresh : i ∉ refused := by
    rw [hrefused, hi]
    rintro ⟨q, hq⟩
    exact Call.noConfusion hq
  refine ⟨?_, ?_, h.flag, ?_, ?_, insert i refused, pending.erase i, ?_, ?_, ?_, ?_⟩
  · rw [hholder, ← h.slot]
    rfl
  · rw [hclaimant, ← h.teardown]
    rfl
  · intro j
    rw [Scene.advance_eq_iff hi (by simp) (by simp), hclaimant, h.claimed]
  · intro j q
    rw [Scene.advance_eq_iff hi (by simp) (by simp), hholder, h.kept]
  · intro j
    by_cases hj : j = i
    · subst hj
      simp
    · rw [Scene.advance_of_ne _ _ _ hj, Finset.mem_insert, hrefused]
      simp [hj]
  · intro j
    by_cases hj : j = i
    · subst hj
      simp
    · rw [Scene.advance_of_ne _ _ _ hj, Finset.mem_erase, hpending]
      simp [hj]
  · rw [Finset.card_insert_of_notMem hfresh, ← hcard]
    rfl
  · have hpos := Finset.card_pos.mpr ⟨i, hmem⟩
    have hnone : reports [Turn.count i] = 0 := rfl
    rw [reports_append, hreports, Finset.card_insert_of_notMem hfresh,
      Finset.card_erase_of_mem hmem, Scene.coordinator_advance]
    change _ = _ + if s.coordinator.fault.isSome = true then 1 else 0
    omega

/-- A claim to the teardown is told that it is the first exactly if no claim came before it. -/
theorem agrees_claim (h : Agrees turns s) (hi : s.calls i = .idle) :
    Agrees (turns ++ [.claim i])
      (s.advance s.coordinator.claim.2 i (.claimed s.coordinator.claim.1)) := by
  have hclaimant : claimant? (turns ++ [.claim i]) = (claimant? turns).or (some i) := by
    rw [claimant?_append]
    rfl
  have hholder : holder? (turns ++ [.claim i]) = holder? turns := by
    rw [holder?_append]
    simp [holder?]
  obtain ⟨refused, pending, hrefused, hpending, hcard, hreports⟩ := h.tally
  refine ⟨?_, ?_, h.flag, ?_, ?_, refused, pending, ?_, ?_, hcard, ?_⟩
  · rw [hholder, ← h.slot]
    rfl
  · rw [hclaimant]
    cases claimant? turns <;> rfl
  · intro j
    have ht := h.teardown
    rw [hclaimant]
    by_cases hj : j = i
    · subst hj
      -- the call has not claimed before, so an earlier claim is not its own
      have hnot : claimant? turns ≠ some j := by
        intro hc
        rw [← h.claimed, hi] at hc
        exact Call.noConfusion hc
      rw [Scene.advance_self]
      cases hc : claimant? turns with
      | none => simp [claim, ht, hc]
      | some k =>
          have hk : k ≠ j := fun e => hnot (by rw [hc, e])
          simp [claim, ht, hc, hk]
    · rw [Scene.advance_of_ne _ _ _ hj, h.claimed]
      cases claimant? turns with
      | none => simp [Ne.symm hj]
      | some k => rfl
  · intro j q
    rw [Scene.advance_eq_iff hi (by simp) (by simp), hholder, h.kept]
  · intro j
    exact (hrefused j).trans (Scene.exists_advance_iff hi (by simp) (by simp) j)
  · intro j
    exact (hpending j).trans (Scene.exists_advance_iff hi (by simp) (by simp) j)
  · rw [reports_append, hreports]
    rfl

theorem agrees_step {t : Scene ι} {turn : Turn ι} (h : Agrees turns s)
    (hstep : Scene.Step s turn t) : Agrees (turns ++ [turn]) t := by
  cases hstep with
  | capture r hi => exact agrees_capture h r hi
  | count hi => exact agrees_count h hi
  | claim hi => exact agrees_claim h hi
  | raise hi =>
      exact agrees_silent h hi ⟨rfl, rfl, rfl⟩ (.inl rfl) (.inl rfl) ⟨rfl, rfl, rfl, fun _ => rfl⟩
  | wait hi => exact agrees_silent h hi ⟨rfl, rfl, rfl⟩ (.inr rfl) (.inr rfl) ⟨rfl, rfl, rfl, id⟩

theorem agrees_run {init : Scene ι} (hinit : init = {}) (h : Scene.Run init turns s) :
    Agrees turns s := by
  induction h with
  | refl =>
      subst hinit
      exact agrees_init
  | tail _ hstep ih => exact agrees_step ih hstep

/-- A turn of a report that comes after a claim changes neither the slot nor the flag. -/
theorem late_report {t : Scene ι} {turn : Turn ι} (ht : s.coordinator.teardown = true)
    (hturn : (∃ j r, turn = .capture j r) ∨ ∃ j, turn = .count j) (h : Scene.Step s turn t) :
    t.coordinator.fault = s.coordinator.fault ∧ t.coordinator.flag = s.coordinator.flag := by
  cases h with
  | capture r _ => simp [capture, ht]
  | count _ => exact ⟨rfl, rfl⟩
  | claim _ => simp at hturn
  | raise _ => simp at hturn
  | wait _ => simp at hturn

end Invariant

/-! ## Agreement -/

/-- How the coordinator and the answers of the calls on it fit each other and the turns taken. -/
structure Agreement [DecidableEq ι] (turns : List (Turn ι)) (s : Scene ι) : Prop where
  /-- One claim at most is told that it is the first, and that is the claim whose turn came first.
  -/
  one_claim : ∀ i j, s.calls i = .claimed true → s.calls j = .claimed true → i = j
  claim_iff : ∀ i, s.calls i = .claimed true ↔ claimant? turns = some i
  /-- One report at most is told that it is kept. -/
  one_kept : ∀ i j r q, s.calls i = .reported r true → s.calls j = .reported q true → i = j
  /-- A report that is over was kept exactly if the record in the slot is its own. -/
  kept_iff : ∀ i r b, s.calls i = .reported r b →
    (b = true ↔ s.coordinator.fault = some r ∧ LeadingReport turns i r)
  /-- The record in the slot is that of the first report, which no claim came before. -/
  slot_iff : ∀ r, s.coordinator.fault = some r ↔ ∃ i, LeadingReport turns i r
  /-- Once it is set, or the teardown is claimed, the slot is the same at every later moment. -/
  slot_stays : s.coordinator.fault.isSome ∨ s.coordinator.teardown = true →
    ∀ more t, Scene.Run s more t → t.coordinator.fault = s.coordinator.fault
  flag_stays : s.coordinator.flag = true →
    ∀ more t, Scene.Run s more t → t.coordinator.flag = true
  flag_of_slot : s.coordinator.fault.isSome → s.coordinator.flag = true
  /-- A report after the claim changes neither the slot nor the flag. -/
  late : s.coordinator.teardown = true → ∀ turn t,
    ((∃ i r, turn = .capture i r) ∨ ∃ i, turn = .count i) → Scene.Step s turn t →
      t.coordinator.fault = s.coordinator.fault ∧ t.coordinator.flag = s.coordinator.flag
  /-- The count is the number of reports that were told that they are not kept. When no report is on
  its way, these are all reports but the one that is kept, if there is one. -/
  refused : ∃ refused : Finset ι, (∀ i, i ∈ refused ↔ ∃ r, s.calls i = .reported r false) ∧
    s.coordinator.discarded = refused.card
  settled : (∀ i r, s.calls i ≠ .counting r) →
    reports turns = s.coordinator.discarded + if s.coordinator.fault.isSome then 1 else 0

/-- Whatever the order of the atomic steps of any number of reports, claims and interrupts, the
coordinator and the answers of the calls fit each other. -/
theorem agreement [DecidableEq ι] {turns : List (Turn ι)} {s : Scene ι}
    (h : Scene.Run {} turns s) : Agreement turns s := by
  have hs := agrees_run rfl h
  have hslot : ∀ r, s.coordinator.fault = some r ↔ ∃ i, LeadingReport turns i r := by
    intro r
    rw [hs.slot]
    simp [← holder?_eq_some_iff]
  obtain ⟨refused, pending, hrefused, hpending, hcard, hreports⟩ := hs.tally
  refine ⟨?_, hs.claimed, ?_, ?_, hslot, ?_, ?_, hs.flag, ?_, ⟨refused, hrefused, hcard⟩, ?_⟩
  · intro i j hi hj
    rw [hs.claimed] at hi hj
    exact Option.some.inj (hi.symm.trans hj)
  · intro i j r q hi hj
    rw [hs.kept] at hi hj
    exact congrArg Prod.fst (Option.some.inj (hi.symm.trans hj))
  · intro i r b hi
    constructor
    · rintro rfl
      have hlead := holder?_eq_some_iff.mp ((hs.kept i r).mp hi)
      exact ⟨(hslot r).mpr ⟨i, hlead⟩, hlead⟩
    · rintro ⟨-, hlead⟩
      have hkept := (hs.kept i r).mpr (holder?_eq_some_iff.mpr hlead)
      rw [hi] at hkept
      exact (Call.reported.inj hkept).2
  · rintro hstays more t hrun
    have hlater := Scene.later_run hrun
    rcases hstays with hsome | ht
    · obtain ⟨r, hr⟩ := Option.isSome_iff_exists.mp hsome
      rw [hlater.fault_of_some hr, hr]
    · exact hlater.fault_of_teardown ht
  · intro hflag more t hrun
    exact (Scene.later_run hrun).flag hflag
  · intro ht turn t hturn hstep
    exact late_report ht hturn hstep
  · intro hidle
    have hempty : pending = ∅ := by
      rw [Finset.eq_empty_iff_forall_notMem]
      intro i hi
      obtain ⟨r, hr⟩ := (hpending i).mp hi
      exact hidle i r hr
    rw [hreports, hempty, hcard, Finset.card_empty, Nat.add_zero]

/-- A race of three reports, two claims and an interrupt: the second report looks at the slot before
the claim and is counted long after it. -/
def race : List (Turn Nat) :=
  let first : FaultRecord := ⟨.worker "a" ⟨"no route", []⟩, "a", ⟨1⟩⟩
  let other : FaultRecord := ⟨.worker "b" ⟨"no vehicle", []⟩, "b", ⟨2⟩⟩
  [.capture 0 first, .capture 1 other, .claim 2, .raise 3, .capture 4 other, .claim 5, .count 4,
    .wait 3, .count 1]

/-- Once no report is on its way, two of the three have been discarded. -/
theorem agreement_race : ∃ s, Scene.Run {} race s ∧ Agreement race s ∧
    s.coordinator.discarded = 2 ∧ s.calls 2 = .claimed true ∧ s.calls 5 = .claimed false := by
  have hrun : ∃ s, Scene.Run {} race s ∧ (∀ i r, s.calls i ≠ .counting r) ∧
      s.coordinator.fault.isSome = true ∧ s.calls 2 = .claimed true ∧
      s.calls 5 = .claimed false := by
    refine ⟨_, .tail (.tail (.tail (.tail (.tail (.tail (.tail (.tail (.tail (.refl {})
      (.capture _ rfl)) (.capture _ rfl)) (.claim rfl)) (.raise rfl)) (.capture _ rfl))
      (.claim rfl)) (.count rfl)) (.wait rfl)) (.count rfl), ?_, rfl, rfl, rfl⟩
    intro i r
    simp only [Scene.advance, Function.update_apply]
    split_ifs <;> exact nofun
  obtain ⟨s, hs, hidle, hkept, hfirst, hsecond⟩ := hrun
  have hagreement := agreement hs
  have hreports := hagreement.settled hidle
  rw [hkept, if_pos rfl] at hreports
  exact ⟨s, hs, hagreement, (Nat.succ.inj hreports).symm, hfirst, hsecond⟩

end Coordinator

end CommuteSim
