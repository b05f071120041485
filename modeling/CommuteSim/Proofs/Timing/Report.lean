import CommuteSim.Proofs.Timing.Ledger
import CommuteSim.Timing.Report
import Mathlib.Data.List.Basic

/-!
# The cells of the table of operation times

The cells of a row stand under the heads of the columns, one under each. What was recorded with its
end leaves no cell empty, so an empty cell stands under an operation that the iteration did not go
through.

Main statements: `length_rowCells` for the number of cells, `absent_of_empty` for empty ones.
-/

namespace CommuteSim

/-! ## Texts that are not empty -/

theorem Instant.timeOfDay_ne_empty (t : Instant) : t.timeOfDay ≠ "" := by
  let ms := (t.nanoseconds / 1000000 % 86400000).toNat
  have htime : t.timeOfDay = padded 2 (ms / 3600000) ++ ":" ++ padded 2 (ms / 60000 % 60) ++ ":" ++
      padded 2 (ms / 1000 % 60) ++ "." ++ padded 3 (ms % 1000) :=
    rfl
  intro hempty
  rw [htime] at hempty
  simp only [String.append_eq_empty_iff] at hempty
  have hcolon : ":" = "" := hempty.1.1.1.1.1.2
  exact absurd hcolon (by decide)

theorem Decimal.fixed_ne_empty (places : Nat) (x : Float) : fixed places x ≠ "" := by
  have hsigned : ∀ (negative : Bool) (s : String), s ≠ "" →
      (if negative then "-" ++ s else s) ≠ "" := by
    intro negative s hs
    cases negative with
    | true => exact fun hempty => absurd (String.append_eq_empty_iff.mp hempty).1 (by decide)
    | false => exact hs
  unfold fixed
  cases Binary64.parts x with
  | nan =>
      have hnan : "NaN" ≠ "" := by decide
      exact hnan
  | infinite negative => exact hsigned negative _ (by decide)
  | finite negative m e =>
      refine hsigned negative _ ?_
      split
      · exact Nat.repr_ne_empty
      · intro hempty
        have hpoint := (String.append_eq_empty_iff.mp (String.append_eq_empty_iff.mp hempty).1).2
        exact absurd hpoint (by decide)

namespace TimingLedger

/-! ## Cells -/

/-- The heads of the columns of an operation. -/
def columns (name : String) : List String := [s!"BEGIN {name}", s!"END {name}", name]

/-- The cell of a time. -/
def timeCell (t : Option Instant) : String := (t.map Instant.timeOfDay).getD ""

/-- The cell of a duration. -/
def durationCell (d : Option Nanoseconds) : String := (d.map secondsText).getD ""

section Cells

variable {names : List String} {i : IterationIndex} {t : TimingTable}

theorem timeCell_eq_empty {x : Option Instant} (h : timeCell x = "") : x = none := by
  cases x with
  | none => rfl
  | some t => exact absurd h t.timeOfDay_ne_empty

theorem durationCell_eq_empty {d : Option Nanoseconds} (h : durationCell d = "") : d = none := by
  cases d with
  | none => rfl
  | some d => exact absurd h (Decimal.fixed_ne_empty 3 _)

theorem rowCells_row (names : List String) (i : IterationIndex) (t : TimingTable) :
    rowCells (row names i t) =
      toString i :: names.flatMap (fun n => [timeCell ((t.get? n).map (·.start)),
        timeCell ((t.get? n).bind (·.finish))]) ++
      names.map fun n => durationCell ((t.get? n).bind OperationTiming.duration?) := by
  simp only [rowCells, row, List.flatMap_map, List.map_map]
  rfl

/-- The heads with the cells under them: first the iteration, then the spans of operations, then
their durations. -/
theorem zip_cells (names : List String) (i : IterationIndex) (t : TimingTable) :
    (headCells names).zip (rowCells (row names i t)) =
      ("Iteration", toString i) ::
        names.flatMap (fun n => [(s!"BEGIN {n}", timeCell ((t.get? n).map (·.start))),
          (s!"END {n}", timeCell ((t.get? n).bind (·.finish)))]) ++
        names.map fun n => (n, durationCell ((t.get? n).bind OperationTiming.duration?)) := by
  have hspans : ∀ (f g h k : String → String) (ns : List String),
      (ns.flatMap fun n => [f n, g n]).zip (ns.flatMap fun n => [h n, k n]) =
        ns.flatMap fun n => [(f n, h n), (g n, k n)] := by
    intro f g h k ns
    induction ns with
    | nil => rfl
    | cons n rest ih => simp [ih]
  have hdurations : ∀ f : String → String, names.zip (names.map f) = names.map fun n => (n, f n) :=
    fun f => List.map_prod_left_eq_zip.symm
  rw [rowCells_row, headCells, List.cons_append, List.cons_append, List.zip_cons_cons,
    List.zip_append (by simp [List.length_flatMap]), hspans, hdurations, List.cons_append]

/-- Where all operations have ended, an empty cell stands under an operation that was not
recorded. -/
theorem absent_of_empty (hfinished : ∀ n x, t.get? n = some x → x.finish.isSome = true)
    {head : String} (h : (head, "") ∈ (headCells names).zip (rowCells (row names i t))) :
    ∃ n ∈ names, t.get? n = none ∧ head ∈ columns n := by
  have habsent : ∀ n, (t.get? n).bind (·.finish) = none → t.get? n = none := by
    intro n hnone
    cases hx : SortedMap.get? t n with
    | none => rfl
    | some x =>
        have hended := hfinished n x hx
        rw [hx, Option.bind_some] at hnone
        rw [hnone] at hended
        cases hended
  rw [zip_cells, List.cons_append, List.mem_cons, List.mem_append] at h
  rcases h with h | h | h
  · have hempty : toString i = "" := (congrArg Prod.snd h).symm
    exact absurd hempty Nat.repr_ne_empty
  · obtain ⟨n, hn, hcell⟩ := List.mem_flatMap.mp h
    refine ⟨n, hn, ?_⟩
    rcases List.mem_cons.mp hcell with hcell | hcell
    · obtain ⟨rfl, hempty⟩ := Prod.mk.inj hcell
      exact ⟨Option.map_eq_none_iff.mp (timeCell_eq_empty hempty.symm), List.mem_cons_self⟩
    · obtain ⟨rfl, hempty⟩ := Prod.mk.inj (List.mem_singleton.mp hcell)
      exact ⟨habsent n (timeCell_eq_empty hempty.symm), List.mem_cons_of_mem _ List.mem_cons_self⟩
  · obtain ⟨n, hn, hcell⟩ := List.mem_map.mp h
    obtain ⟨rfl, hempty⟩ := Prod.mk.inj hcell
    refine ⟨n, hn, habsent n ?_, List.mem_cons_of_mem _ (List.mem_cons_of_mem _ List.mem_cons_self)⟩
    simpa [OperationTiming.duration?] using durationCell_eq_empty hempty

end Cells

end TimingLedger

end CommuteSim
