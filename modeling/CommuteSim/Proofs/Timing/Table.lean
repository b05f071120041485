import CommuteSim.Proofs.Timing.History
import CommuteSim.Proofs.Timing.Report

/-!
# The table of operation times as a text

The text is taken apart again, at the breaks into lines and at the tabs into cells. No cell has a
break or a tab in it as long as no name of an operation has, so what comes out are the cells that
went in: a line of heads, and a line for each iteration that was opened, in the order of iterations.
The cells of an operation stand at the same places in all lines, whichever iterations went through
it.

Main statement: `reportText_table`, for the ledger after any calls.
-/

namespace CommuteSim

/-! ## Maps in order -/

namespace SortedMap

variable {α : Type} {m : SortedMap IterationIndex α}

theorem mem_keys_insert (m : SortedMap IterationIndex α) (i j : IterationIndex) (a : α) :
    j ∈ (m.insert i a).map (·.1) ↔ j = i ∨ j ∈ m.map (·.1) := by
  induction m with
  | nil => simp [insert]
  | cons x rest ih =>
      unfold insert
      split
      · rename_i heq
        simp [heq]
      · split
        · simp
        · rw [List.map_cons, List.mem_cons, ih, List.map_cons, List.mem_cons]
          exact or_left_comm

/-- Keys increase again after an insertion. -/
theorem pairwise_insert (h : m.Pairwise fun x y => x.1 < y.1) (i : IterationIndex) (a : α) :
    (m.insert i a).Pairwise fun x y => x.1 < y.1 := by
  induction m with
  | nil => exact List.pairwise_singleton _ _
  | cons x rest ih =>
      obtain ⟨hx, hrest⟩ := List.pairwise_cons.mp h
      unfold insert
      split
      · rename_i heq
        exact List.pairwise_cons.mpr ⟨fun y hy => heq ▸ hx y hy, hrest⟩
      · rename_i hne
        split
        · rename_i hlt
          refine List.pairwise_cons.mpr ⟨fun y hy => ?_, h⟩
          rcases List.mem_cons.mp hy with rfl | hy
          · exact hlt
          · exact UInt32.lt_trans hlt (hx y hy)
        · rename_i hlt
          have hbehind : x.1 < i := UInt32.lt_of_le_of_ne (UInt32.not_lt.mp hlt) (Ne.symm hne)
          refine List.pairwise_cons.mpr ⟨fun y hy => ?_, ih hrest⟩
          have hkey := (mem_keys_insert rest i y.1 a).mp (List.mem_map_of_mem hy)
          rcases hkey with heq | hkey
          · exact heq ▸ hbehind
          · obtain ⟨z, hz, heq⟩ := List.mem_map.mp hkey
            exact heq ▸ hx z hz

end SortedMap

/-! ## Characters of numbers -/

namespace Decimal

theorem isDigit_toDigits (n : Nat) : ∀ c ∈ Nat.toDigits 10 n, c.isDigit = true :=
  fun _ hc => Nat.isDigit_of_mem_toDigits (by omega) (by omega) hc

theorem isDigit_zeros (k n : Nat) :
    ∀ c ∈ List.replicate k '0' ++ Nat.toDigits 10 n, c.isDigit = true := by
  intro c hc
  rcases List.mem_append.mp hc with hc | hc
  · rw [List.eq_of_mem_replicate hc]
    rfl
  · exact isDigit_toDigits n c hc

/-- What holds of digits, of signs and points and of the letters of numbers that are none holds of
all characters of a number. -/
theorem forall_mem_fixed {P : Char → Prop} (hdigit : ∀ c, c.isDigit = true → P c)
    (hother : ∀ c ∈ ['-', '.', 'N', 'a', 'i', 'n', 'f'], P c) (places : Nat) (x : Float) :
    ∀ c ∈ (fixed places x).toList, P c := by
  have happend : ∀ s t : String, (∀ c ∈ s.toList, P c) → (∀ c ∈ t.toList, P c) →
      ∀ c ∈ (s ++ t).toList, P c := by
    intro s t hs ht c hc
    rw [String.toList_append, List.mem_append] at hc
    exact hc.elim (hs c) (ht c)
  have hsigned : ∀ (negative : Bool) (s : String), (∀ c ∈ s.toList, P c) →
      ∀ c ∈ (if negative then "-" ++ s else s).toList, P c := by
    intro negative s hs
    cases negative with
    | true => exact happend "-" s (fun c hc => hother c (List.mem_append_left _ hc)) hs
    | false => exact hs
  have hword : ∀ s : String, s.toList ⊆ ['-', '.', 'N', 'a', 'i', 'n', 'f'] →
      ∀ c ∈ s.toList, P c := fun s hs c hc => hother c (hs hc)
  unfold fixed
  cases Binary64.parts x with
  | nan => exact hword "NaN" (by decide)
  | infinite negative => exact hsigned negative _ (hword "inf" (by decide))
  | finite negative m e =>
      have hwhole : ∀ n, ∀ c ∈ (toString n).toList, P c := fun n c hc =>
        hdigit c (isDigit_toDigits n c (by simpa using hc))
      refine hsigned negative _ ?_
      split
      · exact hwhole _
      · refine happend _ _ (happend _ _ (hwhole _) (hword "." (by decide))) fun c hc => ?_
        rw [String.toList_ofList] at hc
        exact hdigit c (isDigit_zeros _ _ c hc)

end Decimal

/-! ## Texts in cells -/

/-- A text with no tab and no line break. -/
def FitsCell (s : String) : Prop := ∀ c ∈ s.toList, c ≠ '\t' ∧ c ≠ '\n'

namespace FitsCell

instance (s : String) : Decidable (FitsCell s) :=
  List.decidableBAll (fun c => c ≠ '\t' ∧ c ≠ '\n') s.toList

theorem append {s t : String} (hs : FitsCell s) (ht : FitsCell t) : FitsCell (s ++ t) := by
  intro c hc
  rw [String.toList_append, List.mem_append] at hc
  exact hc.elim (hs c) (ht c)

theorem of_isDigit {c : Char} (h : c.isDigit = true) : c ≠ '\t' ∧ c ≠ '\n' := by
  constructor <;> rintro rfl <;> cases h

theorem of_digits {ds : List Char} (h : ∀ c ∈ ds, c.isDigit = true) :
    FitsCell (String.ofList ds) := by
  intro c hc
  rw [String.toList_ofList] at hc
  exact of_isDigit (h c hc)

theorem nat (n : Nat) : FitsCell (toString n) := of_digits (Decimal.isDigit_toDigits n)

theorem iteration (i : IterationIndex) : FitsCell (toString i) := nat i.toNat

theorem padded (width n : Nat) : FitsCell (Instant.padded width n) :=
  of_digits (Decimal.isDigit_zeros _ n)

theorem timeOfDay (t : Instant) : FitsCell t.timeOfDay := by
  have hcolon : FitsCell ":" := by decide
  have hpoint : FitsCell "." := by decide
  exact ((((((padded 2 _).append hcolon).append (padded 2 _)).append hcolon).append
    (padded 2 _)).append hpoint).append (padded 3 _)

theorem fixed (places : Nat) (x : Float) : FitsCell (Decimal.fixed places x) :=
  Decimal.forall_mem_fixed (fun _ => of_isDigit) (by simp) places x

theorem getD {α : Type} (x : Option α) {f : α → String} (h : ∀ a, FitsCell (f a)) :
    FitsCell ((x.map f).getD "") := by
  cases x with
  | none => exact fun _ hc => nomatch hc
  | some a => exact h a

end FitsCell

/-! ## Lines and cells -/

/-- A text taken apart: what stands between breaks, and in that what stands between tabs. -/
def splitCells (text : String) : List (List String) :=
  (text.toList.splitOn '\n').map fun line => (line.splitOn '\t').map String.ofList

theorem splitOn_lines (ls : List (List Char)) (h : ∀ l ∈ ls, '\n' ∉ l) :
    (ls.flatMap (· ++ ['\n'])).splitOn '\n' = ls ++ [[]] := by
  induction ls with
  | nil => rfl
  | cons l rest ih =>
      have hl : ∀ c ∈ l, (c == '\n') = false := by
        intro c hc
        rw [beq_eq_false_iff_ne]
        rintro rfl
        exact h l List.mem_cons_self hc
      rw [List.flatMap_cons, List.append_assoc, List.singleton_append, List.splitOn,
        List.splitOnP_append_cons_of_forall_mem hl '\n' rfl]
      exact congrArg (l :: ·) (ih fun m hm => h m (List.mem_cons_of_mem l hm))

theorem mem_intercalate {c s : Char} {ls : List (List Char)} (h : c ∈ [s].intercalate ls) :
    c = s ∨ ∃ l ∈ ls, c ∈ l := by
  induction ls with
  | nil => cases h
  | cons l rest ih =>
      cases rest with
      | nil => exact .inr ⟨l, List.mem_cons_self, by simpa [List.intercalate] using h⟩
      | cons m rest =>
          simp only [List.intercalate, List.intersperse_cons_cons, List.flatten_cons,
            List.mem_append, List.mem_singleton] at h
          rcases h with h | h | h
          · exact .inr ⟨l, List.mem_cons_self, h⟩
          · exact .inl h
          · exact (ih h).imp_right fun ⟨k, hk, hc⟩ => ⟨k, List.mem_cons_of_mem l hk, hc⟩

namespace TimingLedger

theorem toList_line (cells : List String) :
    (line cells).toList = ['\t'].intercalate (cells.map String.toList) ++ ['\n'] := by
  rw [line, String.toList_append, String.toList_intercalate]
  rfl

/-- The cells of lines come out of their text again; nothing stands behind the last break. -/
theorem splitCells_lines {table : List (List String)} (hcells : ∀ cells ∈ table, cells ≠ [])
    (hfits : ∀ cells ∈ table, ∀ s ∈ cells, FitsCell s) :
    splitCells (String.join (table.map line)) = table ++ [[""]] := by
  let raw (cells : List String) : List Char := ['\t'].intercalate (cells.map String.toList)
  have hbreaks : ∀ l ∈ table.map raw, '\n' ∉ l := by
    intro l hl hbreak
    obtain ⟨cells, hmem, rfl⟩ := List.mem_map.mp hl
    rcases mem_intercalate hbreak with htab | ⟨x, hx, hc⟩
    · cases htab
    · obtain ⟨s, hs, rfl⟩ := List.mem_map.mp hx
      exact (hfits cells hmem s hs _ hc).2 rfl
  have htext : (String.join (table.map line)).toList = (table.map raw).flatMap (· ++ ['\n']) := by
    rw [String.toList_join, List.flatMap_map, List.flatMap_map]
    exact congrArg (List.flatMap · table) (funext toList_line)
  have hline : ∀ cells ∈ table, ((raw cells).splitOn '\t').map String.ofList = cells := by
    intro cells hmem
    rw [List.splitOn_intercalate]
    · simp
    · intro l hl htab
      obtain ⟨s, hs, rfl⟩ := List.mem_map.mp hl
      exact (hfits cells hmem s hs _ htab).1 rfl
    · exact fun hnil => hcells cells hmem (List.map_eq_nil_iff.mp hnil)
  rw [splitCells, htext, splitOn_lines _ hbreaks, List.map_append, List.map_map]
  congr 1
  exact (List.map_congr_left hline).trans (List.map_id _)

/-! ## Columns -/

/-- The cells of a line: one at the front, then for each of the names two beside each other, and
behind them one more for each of the names. -/
structure Columns (names : List String) (front : String) (begun ended took : String → String)
    (cells : List String) : Prop where
  length : cells.length = 1 + 3 * names.length
  front : cells[0]? = some front
  begun : ∀ j n, names[j]? = some n → cells[2 * j + 1]? = some (begun n)
  ended : ∀ j n, names[j]? = some n → cells[2 * j + 2]? = some (ended n)
  took : ∀ j n, names[j]? = some n → cells[2 * names.length + 1 + j]? = some (took n)

theorem columns_cells (names : List String) (front : String) (begun ended took : String → String) :
    Columns names front begun ended took
      (front :: names.flatMap (fun n => [begun n, ended n]) ++ names.map took) := by
  have hspans : ∀ (ns : List String) (j : Nat) (n : String), ns[j]? = some n →
      (ns.flatMap fun n => [begun n, ended n])[2 * j]? = some (begun n) ∧
      (ns.flatMap fun n => [begun n, ended n])[2 * j + 1]? = some (ended n) := by
    intro ns
    induction ns with
    | nil => exact fun j n hn => nomatch hn
    | cons m rest ih =>
        intro j n hn
        cases j with
        | zero =>
            obtain rfl := Option.some.inj hn
            exact ⟨rfl, rfl⟩
        | succ j => exact ih j n hn
  have hlength : (names.flatMap fun n => [begun n, ended n]).length = 2 * names.length := by
    simp [List.length_flatMap, Nat.mul_comm]
  have hbefore : ∀ {j n}, names[j]? = some n → j < names.length :=
    fun hn => (List.getElem?_eq_some_iff.mp hn).1
  refine ⟨?_, rfl, fun j n hn => ?_, fun j n hn => ?_, fun j n hn => ?_⟩
  · simp only [List.length_append, List.length_cons, hlength, List.length_map]
    omega
  · have hj := hbefore hn
    rw [List.cons_append, List.getElem?_cons_succ, List.getElem?_append_left (by omega)]
    exact (hspans names j n hn).1
  · have hj := hbefore hn
    rw [List.cons_append, List.getElem?_cons_succ, List.getElem?_append_left (by omega)]
    exact (hspans names j n hn).2
  · rw [List.getElem?_append_right (by simp [hlength]), List.length_cons, hlength,
      Nat.add_sub_cancel_left, List.getElem?_map, hn]
    rfl

/-! ## The iterations that have a table -/

/-- The tables are those of some iterations, in their order, and the open iteration is one of
them. -/
structure Keeps (is : IterationIndex → Prop) (l : TimingLedger) : Prop where
  increasing : l.tables.Pairwise fun x y => x.1 < y.1
  iterations : ∀ i, i ∈ l.tables.map (·.1) ↔ is i
  current : ∀ i, l.current = some i → is i

namespace Keeps

variable {is js : IterationIndex → Prop} {l : TimingLedger}

theorem congr (h : Keeps is l) (hsame : ∀ i, js i ↔ is i) : Keeps js l :=
  ⟨h.increasing, fun i => (h.iterations i).trans (hsame i).symm,
    fun i hi => (hsame i).mpr (h.current i hi)⟩

theorem empty : Keeps (fun _ => False) {} :=
  ⟨List.Pairwise.nil, fun _ => List.mem_nil_iff _, nofun⟩

theorem record (h : Keeps is l) (i : IterationIndex) (name : String) (t : OperationTiming) :
    Keeps (fun j => j = i ∨ is j) (l.record i name t) where
  increasing := SortedMap.pairwise_insert h.increasing i _
  iterations j := by
    rw [TimingLedger.record, SortedMap.mem_keys_insert, h.iterations]
  current j hj := .inr (h.current j hj)

/-- To write into a table that is there makes no other. -/
theorem record_old (h : Keeps is l) {i : IterationIndex} (hi : is i) (name : String)
    (t : OperationTiming) : Keeps is (l.record i name t) := by
  refine (h.record i name t).congr fun j => (or_iff_right_of_imp ?_).symm
  rintro rfl
  exact hi

theorem start (h : Keeps is l) (name : String) (now : Instant) :
    Keeps is (l.startOperation name now) := by
  have hnames : ∀ names, Keeps is { l with names := names } :=
    fun _ => ⟨h.increasing, h.iterations, h.current⟩
  unfold startOperation
  split
  · exact h
  · rename_i i hi
    exact (hnames _).record_old (h.current i hi) name _

theorem finish (h : Keeps is l) (name : String) (now : Instant) :
    Keeps is (l.finishOperation name now) := by
  unfold finishOperation
  split
  · exact h
  · rename_i i hi
    split
    · exact h
    · exact h.record_old (h.current i hi) name _

/-- To open an iteration makes a table for it if there is none. -/
theorem opened (h : Keeps is l) (i : IterationIndex) (now : Instant) :
    Keeps (fun j => j = i ∨ is j) (l.openIteration i now) := by
  let names := if l.names.contains iterationOperation then l.names
    else l.names ++ [iterationOperation]
  have hnames : Keeps is { l with names := names } := ⟨h.increasing, h.iterations, h.current⟩
  have hrecord := hnames.record i iterationOperation { start := now }
  refine ⟨hrecord.increasing, hrecord.iterations, fun j hj => .inl ?_⟩
  exact (Option.some.inj hj).symm

theorem after (h : Keeps is l) (x : TimedCall) :
    Keeps (fun j => is j ∨ x.call = .openIteration j) (l.after x) := by
  obtain ⟨call, now⟩ := x
  cases call with
  | openIteration i =>
      refine (h.opened i now).congr fun j => ?_
      simp only [TimingCall.openIteration.injEq, or_comm, eq_comm]
  | startOperation n => exact (h.start n now).congr fun j => or_iff_left nofun
  | finishOperation n => exact (h.finish n now).congr fun j => or_iff_left nofun
  | closeIteration =>
      have hfinish := h.finish iterationOperation now
      have hclosed : Keeps is (l.closeIteration now) :=
        ⟨hfinish.increasing, hfinish.iterations, nofun⟩
      exact hclosed.congr fun j => or_iff_left nofun

end Keeps

/-- After calls there is a table for each iteration that one of them opened. By induction on the
calls, from the last. -/
theorem keeps_ofCalls (h : List TimedCall) :
    Keeps (fun i => ∃ x ∈ h, x.call = .openIteration i) (ofCalls h) := by
  induction h using List.reverseRecOn with
  | nil => exact Keeps.empty.congr fun i => by simp
  | append_singleton h x ih =>
      rw [ofCalls_concat]
      refine (ih.after x).congr fun i => ?_
      simp only [List.mem_append, List.mem_singleton, or_and_right, exists_or, exists_eq_left]

theorem Keeps.table {is : IterationIndex → Prop} {l : TimingLedger} (h : Keeps is l)
    {x : IterationIndex × TimingTable} (hx : x ∈ l.tables) : l.table x.1 = x.2 := by
  rw [TimingLedger.table, SortedMap.get?_of_mem h.increasing hx]
  rfl

/-- The rows are those of the iterations, each from its own table. -/
theorem Keeps.rowCells_rows {is : IterationIndex → Prop} {l : TimingLedger} (h : Keeps is l) :
    l.rows.map rowCells =
      (l.tables.map (·.1)).map fun i => rowCells (row l.names i (l.table i)) := by
  rw [rows, List.map_map, List.map_map]
  refine List.map_congr_left fun x hx => ?_
  change rowCells (row l.names x.1 x.2) = rowCells (row l.names x.1 (l.table x.1))
  rw [h.table hx]

/-- An operation is timed in an iteration that has a table. -/
theorem Keeps.of_timing {is : IterationIndex → Prop} {l : TimingLedger} (h : Keeps is l)
    {i : IterationIndex} {n : String} (hn : (l.timing? i n).isSome = true) : is i := by
  rw [← h.iterations]
  cases hget : SortedMap.get? l.tables i with
  | none => simp [timing?, TimingLedger.table, hget] at hn
  | some t => exact List.mem_map_of_mem (SortedMap.mem_of_get? hget)

/-- An operation that is timed has a name that is known. -/
theorem Shows.mem_names {es : List TimingEntry} {l : TimingLedger} (h : Shows es l)
    {i : IterationIndex} {n : String} (hn : (l.timing? i n).isSome = true) : n ∈ l.names := by
  rw [h.names, List.mem_eraseDups, TimingEntry.mem_starts]
  exact ⟨i, (h.timings i n).present.mp hn⟩

/-! ## The text of a ledger -/

theorem fits_headCells {names : List String} (hnames : ∀ n ∈ names, FitsCell n) :
    ∀ s ∈ headCells names, FitsCell s := by
  intro s hs
  rw [headCells, List.cons_append, List.mem_cons, List.mem_append] at hs
  rcases hs with rfl | hs | hs
  · decide
  · obtain ⟨n, hn, hs⟩ := List.mem_flatMap.mp hs
    rcases List.mem_cons.mp hs with rfl | hs
    · exact FitsCell.append (by decide) (hnames n hn)
    · rw [List.mem_singleton.mp hs]
      exact FitsCell.append (by decide) (hnames n hn)
  · exact hnames s hs

theorem fits_rowCells (names : List String) (i : IterationIndex) (t : TimingTable) :
    ∀ s ∈ rowCells (row names i t), FitsCell s := by
  intro s hs
  rw [rowCells_row, List.cons_append, List.mem_cons, List.mem_append] at hs
  rcases hs with rfl | hs | hs
  · exact .iteration i
  · obtain ⟨n, -, hs⟩ := List.mem_flatMap.mp hs
    rcases List.mem_cons.mp hs with rfl | hs
    · exact .getD _ .timeOfDay
    · rw [List.mem_singleton.mp hs]
      exact .getD _ .timeOfDay
  · obtain ⟨n, -, rfl⟩ := List.mem_map.mp hs
    exact .getD _ fun _ => .fixed 3 _

/-- The text of the ledger after any calls, where no name of an operation has a tab or a break.
Taken apart it is a line of heads, a line for each iteration that was opened, in the order of
iterations, and nothing behind the last break. All these lines have the same number of cells: the
iteration, then start and end of each operation in the order of names, then how long each took.
A cell is empty exactly where there is no such time. So what was timed of an operation in an
iteration stands in one row and, since names differ, under heads of its own. -/
theorem reportText_table (h : List TimedCall)
    (hnames : ∀ n ∈ (ofCalls h).names, FitsCell n) :
    ∃ (iterations : List IterationIndex) (head : List String)
      (cells : IterationIndex → List String),
      splitCells (ofCalls h).reportText = head :: iterations.map cells ++ [[""]] ∧
      iterations.Pairwise (· < ·) ∧
      (∀ i, i ∈ iterations ↔ ∃ x ∈ h, x.call = .openIteration i) ∧
      Columns (ofCalls h).names "Iteration" (s!"BEGIN {·}") (s!"END {·}") id head ∧
      (∀ i ∈ iterations, Columns (ofCalls h).names (toString i)
        (fun n => timeCell (((ofCalls h).timing? i n).map (·.start)))
        (fun n => timeCell (((ofCalls h).timing? i n).bind (·.finish)))
        (fun n => durationCell ((ofCalls h).duration? i n)) (cells i)) ∧
      (∀ t, timeCell t = "" ↔ t = none) ∧
      (∀ d, durationCell d = "" ↔ d = none) ∧
      ∀ i n, ((ofCalls h).timing? i n).isSome = true →
        i ∈ iterations ∧ ∃! j : Nat, (ofCalls h).names[j]? = some n := by
  let l := ofCalls h
  have hkeeps := keeps_ofCalls h
  have hshows := shows_ofCalls h
  refine ⟨l.tables.map (·.1), headCells l.names, fun i => rowCells (row l.names i (l.table i)), ?_,
    ?_, hkeeps.iterations, ?_, ?_, ?_, ?_, ?_⟩
  · let table := headCells l.names :: l.rows.map rowCells
    have htext : l.reportText = String.join (table.map line) := by
      rw [reportText, List.map_cons, List.map_map]
      rfl
    rw [← hkeeps.rowCells_rows, htext]
    refine splitCells_lines ?_ ?_
    · intro cells hcells
      rcases List.mem_cons.mp hcells with rfl | hcells
      · exact nofun
      · obtain ⟨r, -, rfl⟩ := List.mem_map.mp hcells
        exact nofun
    · intro cells hcells
      rcases List.mem_cons.mp hcells with rfl | hcells
      · exact fits_headCells hnames
      · obtain ⟨r, hr, rfl⟩ := List.mem_map.mp hcells
        obtain ⟨x, -, rfl⟩ := List.mem_map.mp hr
        exact fits_rowCells _ _ _
  · exact List.pairwise_map.mpr hkeeps.increasing
  · have hcolumns := columns_cells l.names "Iteration" (s!"BEGIN {·}") (s!"END {·}") id
    rwa [List.map_id] at hcolumns
  · intro i _
    simp only [rowCells_row]
    exact columns_cells ..
  · exact fun t => ⟨timeCell_eq_empty, fun ht => ht ▸ rfl⟩
  · exact fun d => ⟨durationCell_eq_empty, fun hd => hd ▸ rfl⟩
  · intro i n hn
    obtain ⟨j, hj⟩ := List.mem_iff_getElem?.mp (hshows.mem_names hn)
    refine ⟨(hkeeps.iterations i).mpr (hkeeps.of_timing hn), j, hj, fun k hk => ?_⟩
    obtain ⟨hklt, hk⟩ := List.getElem?_eq_some_iff.mp hk
    obtain ⟨hjlt, hj⟩ := List.getElem?_eq_some_iff.mp hj
    exact hshows.nodup.getElem_inj_iff.mp (hk.trans hj.symm)

/-- The heads where the second of two iterations has an operation that the first one lacks. -/
theorem reportText_table_later_name :
    let calls : List TimedCall := [⟨.openIteration 1, ⟨0⟩⟩, ⟨.closeIteration, ⟨4⟩⟩,
      ⟨.openIteration 2, ⟨5⟩⟩, ⟨.startOperation "mobsim", ⟨6⟩⟩]
    (∀ n ∈ (ofCalls calls).names, FitsCell n) ∧
    ∃ (iterations : List IterationIndex) (head : List String)
      (cells : IterationIndex → List String),
      splitCells (ofCalls calls).reportText = head :: iterations.map cells ++ [[""]] ∧
      head.length = 7 ∧ head[3]? = some "BEGIN mobsim" := by
  intro calls
  have hnames : ∀ n ∈ (ofCalls calls).names, FitsCell n := by decide
  obtain ⟨iterations, head, cells, htext, -, -, hhead, -⟩ := reportText_table calls hnames
  exact ⟨hnames, iterations, head, cells, htext, hhead.length, hhead.begun 1 "mobsim" rfl⟩

end TimingLedger

end CommuteSim
