import CommuteSim.Proofs.Timing.Table
import CommuteSim.Timing.Chart
import Mathlib.Data.List.DropRight
import Mathlib.Data.List.Forall2
import Mathlib.Data.List.ProdSigma

/-!
# The chart and the table

The chart draws the durations that the table writes down; each takes them from the ledger in a way
of its own. What the chart has to draw can be read off the cells of the table alone: a bar for each
duration that is not empty, an outline where the iteration as a whole has a duration, and a legend
in the order of the columns. The lines of the chart between its head and its foot draw just that,
one mark in each line. The title of a bar can be read in its line again, and no two bars have the
same one.

Main statement: `chartText_agrees`, for the ledger after any calls.
-/

namespace CommuteSim

/-! ## Marks -/

/-- What a line of the chart draws. -/
inductive ChartMark where
  /-- A bar in the column at a slot. -/
  | bar (slot : Nat) (colour title : String)
  /-- The dashed outline of the column at a slot. -/
  | outline (slot : Nat)
  /-- What is written under a column. -/
  | label (text : String)
  /-- A colour of the legend, and what it stands for. -/
  | entry (colour name : String)

/-- The title that is on a bar. -/
def ChartMark.title? : ChartMark → Option String
  | bar _ _ title => some title
  | outline _ | label _ | entry _ _ => none

namespace Chart

/-- Where the column at a slot stands. -/
def slotText (slot : Nat) : String := tenths (margin + count slot * (barWidth + gap))

/-- The place and the size of a rectangle in the column at a slot. -/
def frameText (slot : Nat) (top height : Float) : String :=
  let width := "24"
  s!"x=\"{slotText slot}\" y=\"{tenths top}\" width=\"{width}\" height=\"{tenths height}\""

/-- A line draws a mark. -/
inductive Draws : ChartMark → String → Prop where
  | bar (slot : Nat) (colour title : String) (top height : Float) :
      Draws (.bar slot colour title)
        s!"<rect {frameText slot top height} fill=\"{colour}\"><title>{title}</title></rect>"
  | outline (slot : Nat) (top height : Float) :
      Draws (.outline slot) (s!"<rect {frameText slot top height}" ++
        " fill=\"none\" stroke=\"black\" stroke-dasharray=\"2,2\"/>")
  | label (text x y : String) :
      Draws (.label text) s!"<text x=\"{x}\" y=\"{y}\" text-anchor=\"middle\">{text}</text>"
  | entry (colour name x y textX textY : String) :
      Draws (.entry colour name)
        (s!"<rect x=\"{x}\" y=\"{y}\" width=\"10\" height=\"10\" fill=\"{colour}\"/>" ++
          s!"<text x=\"{textX}\" y=\"{textY}\">{name}</text>")

/-! ## Marks from a table -/

/-- The title of the bar of an operation that took so long in an iteration. -/
def barTitle (name : String) (i : IterationIndex) (took : String) : String :=
  s!"{name} [{i}]: {took}s"

/-- The colour of an operation among those that are shown. -/
def colourAmong (shown : List String) (name : String) : String := colour (shown.idxOf name)

/-- The marks of the column at a slot, from the durations in a row of the table. -/
def columnMarks (shown : List String) (i : IterationIndex) (took : String → String) (slot : Nat) :
    List ChartMark :=
  ((shown.filter (took · ≠ "")).map fun n =>
    .bar slot (colourAmong shown n) (barTitle n i (took n))) ++
  (if took TimingLedger.iterationOperation = "" then [] else [.outline slot]) ++
  [.label (toString i)]

/-- The operations that have bars, in the order of the columns of the table. -/
def shownNames (names : List String) : List String :=
  names.filter (· ≠ TimingLedger.iterationOperation)

/-- All marks, from the rows of the table and the durations in them. -/
def tableMarks (names : List String) (iterations : List IterationIndex)
    (took : IterationIndex → String → String) : List ChartMark :=
  let shown := shownNames names
  (iterations.zipIdx.flatMap fun (i, slot) => columnMarks shown i (took i) slot) ++
    shown.map fun n => .entry (colourAmong shown n) n

/-! ## Lines that draw marks -/

theorem draws_flatMap {α : Type} {xs : List α} {marks : α → List ChartMark}
    {lines : α → List String} (h : ∀ x ∈ xs, List.Forall₂ Draws (marks x) (lines x)) :
    List.Forall₂ Draws (xs.flatMap marks) (xs.flatMap lines) := by
  induction xs with
  | nil => exact .nil
  | cons x rest ih =>
      rw [List.flatMap_cons, List.flatMap_cons]
      exact List.rel_append (h x List.mem_cons_self)
        (ih fun y hy => h y (List.mem_cons_of_mem x hy))

theorem barWidth_text : Decimal.plain.text barWidth = "24" := by decide +kernel

theorem draws_barLines (scale : Float) (i : IterationIndex) (slot : Nat) (top : Float)
    (bars : List ChartBar) :
    List.Forall₂ Draws
      (bars.map fun b => .bar slot b.colour
        (barTitle b.operation i (TimingLedger.secondsText b.duration)))
      (barLines (margin + count slot * (barWidth + gap)) scale i top bars) := by
  induction bars generalizing top with
  | nil => exact .nil
  | cons b rest ih =>
      rw [barLines, barWidth_text]
      let height := b.duration.seconds * scale
      exact .cons (.bar slot b.colour _ (top - height) height) (ih (top - height))

theorem draws_columnLines (scale : Float) (c : ChartColumn) (slot : Nat) :
    List.Forall₂ Draws
      (c.bars.map (fun b => .bar slot b.colour
        (barTitle b.operation c.iteration (TimingLedger.secondsText b.duration))) ++
      (if c.outline.isNone then [] else [.outline slot]) ++ [.label (toString c.iteration)])
      (columnLines scale c slot) := by
  unfold columnLines
  rw [barWidth_text]
  refine List.rel_append (List.rel_append (draws_barLines ..) ?_) (.cons (.label ..) .nil)
  cases c.outline with
  | none => exact .nil
  | some d =>
      let height := d.seconds * scale
      exact .cons (.outline slot (baseline - height) height) .nil

/-! ## Titles in lines -/

/-- The title in a line that draws a bar: what stands in the tag behind the first one. -/
def titleOf? (line : String) : Option String :=
  let behind := (line.toList.drop 1).dropWhile (· ≠ '<')
  if "<title>".toList <+: behind ∧ "</title></rect>".toList <:+ behind then
    some (String.ofList ((behind.drop 7).rdrop 15))
  else none

example : titleOf? "<rect x=\"50.0\" fill=\"#4e79a7\"><title>mobsim [2]: 1.400s</title></rect>" =
    some "mobsim [2]: 1.400s" := by decide

theorem titleOf?_eq_some {line title : String} (tag : List Char) (htag : '<' ∉ tag)
    (h : line.toList =
      '<' :: tag ++ ("<title>".toList ++ title.toList ++ "</title></rect>".toList)) :
    titleOf? line = some title := by
  have hbehind : (line.toList.drop 1).dropWhile (· ≠ '<') =
      "<title>".toList ++ title.toList ++ "</title></rect>".toList := by
    rw [h, List.cons_append, List.drop_one, List.tail_cons, List.dropWhile_append_of_pos]
    · rfl
    · intro c hc
      have hne : c ≠ '<' := fun heq => htag (heq ▸ hc)
      simpa using hne
  unfold titleOf?
  rw [hbehind]
  dsimp only
  have htitle : title.toList ++ "</title></rect>".toList =
      ("<title>".toList ++ title.toList ++ "</title></rect>".toList).drop 7 := rfl
  rw [if_pos ⟨List.append_assoc .. ▸ List.prefix_append _ _, List.suffix_append _ _⟩, ← htitle]
  have hlength : "</title></rect>".toList.length = 15 := rfl
  rw [← hlength, List.rdrop_append_length, String.ofList_toList]

theorem suffix_toList_append (first last : String) : last.toList <:+ (first ++ last).toList := by
  rw [String.toList_append]
  exact List.suffix_append _ _

/-- A line that ends in another way than bars do has no title. -/
theorem titleOf?_eq_none {line : String} (last : String) (h : last.toList <:+ line.toList)
    (hlength : last.toList.length ≤ "</title></rect>".toList.length)
    (hlast : ¬ last.toList <:+ "</title></rect>".toList) : titleOf? line = none := by
  unfold titleOf?
  dsimp only
  refine if_neg fun hbar => hlast (List.suffix_of_suffix_length_le h ?_ hlength)
  exact (hbar.2.trans (List.dropWhile_suffix _)).trans (List.drop_suffix 1 _)

theorem not_mem_number {c : Char} (hdigit : c.isDigit = false)
    (hother : c ∉ ['-', '.', 'N', 'a', 'i', 'n', 'f']) (places : Nat) (x : Float) :
    c ∉ (Decimal.fixed places x).toList := by
  intro h
  refine Decimal.forall_mem_fixed (P := (· ≠ c)) ?_ ?_ places x c h rfl
  · rintro c hc rfl
    exact Bool.false_ne_true (hdigit.symm.trans hc)
  · rintro c hc rfl
    exact hother hc

theorem no_tag_in_colour (k : Nat) : '<' ∉ (colour k).toList := by
  have hall : ∀ c ∈ "#888888" :: colours, '<' ∉ c.toList := by decide
  refine hall _ ?_
  rw [colour, List.getD_eq_getElem?_getD]
  cases hget : colours[k % colours.length]? with
  | none => exact List.mem_cons_self
  | some c => exact List.mem_cons_of_mem _ (List.mem_of_getElem? hget)

/-- The title of a mark is that of its line. -/
theorem Draws.titleOf? {m : ChartMark} {line : String} (h : Draws m line)
    (hcolour : ∀ slot colour title, m = .bar slot colour title → '<' ∉ colour.toList) :
    Chart.titleOf? line = m.title? := by
  cases h with
  | bar slot colour title top height =>
      let tag := s!"rect {frameText slot top height} fill=\"{colour}\">"
      refine titleOf?_eq_some tag.toList ?_ ?_
      · have hcolour := hcolour slot colour title rfl
        simp [tag, frameText, slotText, tenths, not_mem_number, hcolour, toString]
      · simp [tag, toString]
  | outline slot top height =>
      refine titleOf?_eq_none "/>" ?_ (by decide) (by decide)
      exact List.IsSuffix.trans (by decide) (suffix_toList_append _ _)
  | label text x y =>
      exact titleOf?_eq_none "</text>" (suffix_toList_append _ _) (by decide) (by decide)
  | entry colour name x y textX textY =>
      refine titleOf?_eq_none "</text>" ?_ (by decide) (by decide)
      exact (suffix_toList_append _ _).trans (suffix_toList_append _ _)

/-- The titles in lines that draw marks. -/
theorem filterMap_titleOf? {marks : List ChartMark} {lines : List String}
    (h : List.Forall₂ Draws marks lines)
    (hcolour : ∀ slot colour title, ChartMark.bar slot colour title ∈ marks → '<' ∉ colour.toList) :
    lines.filterMap titleOf? = marks.filterMap ChartMark.title? := by
  induction h with
  | nil => rfl
  | cons hdraws _ ih =>
      rw [List.filterMap_cons, List.filterMap_cons,
        ih fun slot colour title hm => hcolour slot colour title (List.mem_cons_of_mem _ hm),
        hdraws.titleOf? fun slot colour title hm => hcolour slot colour title
          (hm ▸ List.mem_cons_self)]

/-! ## Titles tell bars apart -/

/-- Texts that are equal as a whole are equal before and behind their last opening. -/
theorem append_cons_inj {a a' b b' : List Char} {x : Char} (hb : x ∉ b) (hb' : x ∉ b')
    (h : a ++ x :: b = a' ++ x :: b') : a = a' ∧ b = b' := by
  have hshorter : ∀ {u v c : List Char}, x ∉ v → x :: v = c ++ x :: u → c = [] := by
    intro u v c hv heq
    cases c with
    | nil => rfl
    | cons y c =>
        obtain ⟨-, hv'⟩ := List.cons_eq_cons.mp heq
        exact absurd (hv' ▸ List.mem_append_right c List.mem_cons_self) hv
  rcases List.append_eq_append_iff.mp h with ⟨c, ha, hc⟩ | ⟨c, ha, hc⟩
  · obtain rfl := hshorter hb hc
    exact ⟨by simpa using ha.symm, (List.cons.inj hc).2⟩
  · obtain rfl := hshorter hb' hc
    exact ⟨by simpa using ha, (List.cons.inj hc).2.symm⟩

theorem toList_index (i : IterationIndex) : (toString i).toList = Nat.toDigits 10 i.toNat :=
  String.toList_ofList

theorem barTitle_injective {n n' : String} {i i' : IterationIndex} {d d' : Nanoseconds}
    (h : barTitle n i (TimingLedger.secondsText d) = barTitle n' i' (TimingLedger.secondsText d')) :
    n = n' ∧ i = i' ∧ TimingLedger.secondsText d = TimingLedger.secondsText d' := by
  -- what stands behind the name, and what of it behind the iteration
  let took (d : Nanoseconds) : List Char :=
    ": ".toList ++ (TimingLedger.secondsText d).toList ++ ['s']
  let behind (i : IterationIndex) (d : Nanoseconds) : List Char :=
    (toString i).toList ++ ']' :: took d
  have hsplit : ∀ n i d, (barTitle n i (TimingLedger.secondsText d)).toList =
      (n.toList ++ [' ']) ++ '[' :: behind i d := by
    intro n i d
    simp [barTitle, behind, took, toString]
  have hindex : ∀ i : IterationIndex, '[' ∉ (toString i).toList := by
    intro i hmem
    rw [toList_index] at hmem
    exact absurd (Decimal.isDigit_toDigits _ _ hmem) (by decide)
  have htook : ∀ d, '[' ∉ took d ∧ ']' ∉ took d := by
    intro d
    simp [took, TimingLedger.secondsText, not_mem_number]
  have hbehind : ∀ i d, '[' ∉ behind i d := by
    intro i d
    simp [behind, hindex, htook]
  have heq := congrArg String.toList h
  rw [hsplit, hsplit] at heq
  obtain ⟨hname, heq⟩ := append_cons_inj (hbehind i d) (hbehind i' d') heq
  obtain ⟨hi, heq⟩ := append_cons_inj (htook d).2 (htook d').2 heq
  refine ⟨String.toList_inj.mp (List.append_cancel_right hname), ?_, ?_⟩
  · rw [toList_index, toList_index] at hi
    have hnat := congrArg (fun ds => Nat.ofDigitChars 10 ds 0) hi
    simp only [Nat.ofDigitChars_ten_toDigits] at hnat
    exact UInt32.toNat_inj.mp hnat
  · exact String.toList_inj.mp (List.append_cancel_left (List.append_cancel_right heq))

/-! ## The titles of all bars -/

section Titles

variable {names : List String} {iterations : List IterationIndex}
  {took : IterationIndex → String → String}

theorem titles_tableMarks (names : List String) (iterations : List IterationIndex)
    (took : IterationIndex → String → String) :
    (tableMarks names iterations took).filterMap ChartMark.title? =
      ((iterations.product (shownNames names)).filter fun p => took p.1 p.2 ≠ "").map
        fun p => barTitle p.2 p.1 (took p.1 p.2) := by
  have hcolumn : ∀ i slot, (columnMarks (shownNames names) i (took i) slot).filterMap
      ChartMark.title? =
        ((shownNames names).filter (took i · ≠ "")).map fun n => barTitle n i (took i n) := by
    intro i slot
    have houtline : (if took i TimingLedger.iterationOperation = "" then []
        else [ChartMark.outline slot]).filterMap ChartMark.title? = [] := by
      split <;> rfl
    rw [columnMarks, List.filterMap_append, List.filterMap_append, houtline, List.append_nil,
      List.filterMap_map]
    exact (List.append_nil _).trans (congrFun List.filterMap_eq_map _)
  have hlegend : ((shownNames names).map fun n =>
      ChartMark.entry (colourAmong (shownNames names) n) n).filterMap ChartMark.title? = [] := by
    rw [List.filterMap_map]
    exact List.filterMap_eq_nil_iff.mpr fun _ _ => rfl
  rw [tableMarks]
  dsimp only
  rw [List.filterMap_append, hlegend, List.append_nil, List.filterMap_flatMap]
  simp only [hcolumn]
  have hslots : ∀ titles : IterationIndex → List String,
      (iterations.zipIdx.flatMap fun x => titles x.1) = iterations.flatMap titles := by
    intro titles
    rw [← List.flatMap_map, List.zipIdx_map_fst]
  refine (hslots fun i => ((shownNames names).filter (took i · ≠ "")).map fun n =>
    barTitle n i (took i n)).trans ?_
  rw [List.product, List.filter_flatMap, List.map_flatMap]
  refine congrArg (List.flatMap · iterations) (funext fun i => ?_)
  rw [List.filter_map, List.map_map]
  rfl

theorem no_tag_of_bar {slot : Nat} {colour title : String}
    (h : ChartMark.bar slot colour title ∈ tableMarks names iterations took) :
    '<' ∉ colour.toList := by
  rcases List.mem_append.mp h with h | h
  · obtain ⟨x, -, h⟩ := List.mem_flatMap.mp h
    simp only [columnMarks, List.mem_append, List.mem_map, List.mem_singleton] at h
    rcases h with (⟨n, -, h⟩ | h) | h
    · cases h
      exact no_tag_in_colour _
    · split at h <;> simp at h
    · cases h
  · obtain ⟨n, -, h⟩ := List.mem_map.mp h
    cases h

/-- A bar has the text of a duration on it, and the bars of all operations and iterations have
different titles. So there is one bar for each duration in the table, and none with another one. -/
theorem count_titles (hiterations : iterations.Nodup) (hnames : names.Nodup)
    (htook : ∀ i n, took i n ≠ "" →
      i ∈ iterations ∧ n ∈ names ∧ ∃ d, took i n = TimingLedger.secondsText d)
    (i : IterationIndex) {n : String} (hn : n ≠ TimingLedger.iterationOperation) :
    let titles := (tableMarks names iterations took).filterMap ChartMark.title?
    (took i n ≠ "" → titles.count (barTitle n i (took i n)) = 1) ∧
      ∀ d, TimingLedger.secondsText d ≠ took i n →
        titles.count (barTitle n i (TimingLedger.secondsText d)) = 0 := by
  intro titles
  let cells := (iterations.product (shownNames names)).filter fun p => took p.1 p.2 ≠ ""
  have htitles : titles = cells.map fun p => barTitle p.2 p.1 (took p.1 p.2) :=
    titles_tableMarks names iterations took
  have hcells : ∀ p ∈ cells, ∃ d, took p.1 p.2 = TimingLedger.secondsText d :=
    fun p hp => (htook p.1 p.2 (by simpa using (List.mem_filter.mp hp).2)).2.2
  have hnodup : titles.Nodup := by
    rw [htitles]
    refine List.Nodup.map_on ?_ ((hiterations.product (hnames.filter _)).filter _)
    intro p hp q hq heq
    obtain ⟨d, hd⟩ := hcells p hp
    obtain ⟨e, he⟩ := hcells q hq
    rw [hd, he] at heq
    obtain ⟨hn, hi, -⟩ := barTitle_injective heq
    exact Prod.ext hi hn
  constructor
  · intro hcell
    obtain ⟨hi, hname, -⟩ := htook i n hcell
    refine List.count_eq_one_of_mem hnodup ?_
    rw [htitles]
    refine List.mem_map.mpr ⟨(i, n), List.mem_filter.mpr ⟨?_, by simpa using hcell⟩, rfl⟩
    exact List.mem_product.mpr ⟨hi, List.mem_filter.mpr ⟨hname, by simpa using hn⟩⟩
  · intro d hd
    refine List.count_eq_zero.mpr fun hmem => hd ?_
    rw [htitles] at hmem
    obtain ⟨p, hp, heq⟩ := List.mem_map.mp hmem
    obtain ⟨e, he⟩ := hcells p hp
    rw [he] at heq
    obtain ⟨hn, hi, htext⟩ := barTitle_injective heq
    rw [← hn, ← hi, he, htext]

end Titles

/-! ## The chart of a ledger -/

theorem coloured_eq {names : List String} (h : names.Nodup) :
    coloured names = (shownNames names).map fun n => (n, colourAmong (shownNames names) n) := by
  have hnodup : (shownNames names).Nodup := h.filter _
  change (shownNames names).zipIdx.map _ = _
  refine List.ext_getElem (by simp) fun k hk _ => ?_
  simp [colourAmong, hnodup.idxOf_getElem]

/-- The bars are those of the operations whose cells are not empty. -/
theorem bars_eq (took : String → Option Nanoseconds) (colourOf : String → String)
    (i : IterationIndex) (slot : Nat) (names : List String) :
    ((names.filter fun n => TimingLedger.durationCell (took n) ≠ "").map fun n =>
        ChartMark.bar slot (colourOf n) (barTitle n i (TimingLedger.durationCell (took n)))) =
      ((names.map fun n => (n, colourOf n)).filterMap fun (n, c) =>
        (took n).map fun d => ChartBar.mk n d c).map fun b =>
          .bar slot b.colour (barTitle b.operation i (TimingLedger.secondsText b.duration)) := by
  induction names with
  | nil => rfl
  | cons n rest ih =>
      cases hn : took n with
      | none =>
          have hcell : TimingLedger.durationCell none = "" := rfl
          simpa [hn, hcell] using ih
      | some d =>
          have hcell : TimingLedger.durationCell (some d) = TimingLedger.secondsText d := rfl
          have hfull : TimingLedger.secondsText d ≠ "" := Decimal.fixed_ne_empty 3 _
          simpa [hn, hcell, hfull] using ih

theorem draws_column (shown : List String) (scale : Float) (i : IterationIndex) (t : TimingTable)
    (slot : Nat) :
    List.Forall₂ Draws
      (columnMarks shown i
        (fun n => TimingLedger.durationCell ((t.get? n).bind OperationTiming.duration?)) slot)
      (columnLines scale (column (shown.map fun n => (n, colourAmong shown n)) i t) slot) := by
  have houtline : ∀ d : Option Nanoseconds,
      (if TimingLedger.durationCell d = "" then [] else [ChartMark.outline slot]) =
        if d.isNone then [] else [ChartMark.outline slot] := by
    intro d
    cases d with
    | none => rfl
    | some d => exact if_neg (Decimal.fixed_ne_empty 3 _)
  rw [columnMarks, bars_eq, houtline]
  exact draws_columnLines scale (column (shown.map fun n => (n, colourAmong shown n)) i t) slot

/-- The lines of a chart: four at its head, then those of the columns and of the legend, and one at
its foot. -/
theorem lines_eq (c : Chart) :
    ∃ (head : List String) (scale x : Float), c.lines = head ++
      ((c.columns.zipIdx.flatMap fun (column, slot) => columnLines scale column slot) ++
        c.legend.zipIdx.map fun (entry, k) => legendLine x entry k) ++ ["</svg>"] ∧
      head.length = 4 ∧ ∀ line ∈ head, titleOf? line = none := by
  refine ⟨c.lines.take 4, plotHeight / c.maxSeconds,
    margin + count c.columns.length * (barWidth + gap) + 20.0, ?_, rfl, ?_⟩
  · rw [List.append_assoc]
    exact (List.take_append_drop 4 c.lines).symm
  · intro line hline
    rcases List.mem_cons.mp hline with rfl | hline
    · refine titleOf?_eq_none "\">" ?_ (by decide) (by decide)
      rw [String.toList_append, String.toList_append, List.append_assoc]
      exact List.IsSuffix.trans (by decide) (List.suffix_append _ _)
    rcases List.mem_cons.mp hline with rfl | hline
    · refine titleOf?_eq_none "</text>" ?_ (by decide) (by decide)
      exact List.IsSuffix.trans (by decide) (suffix_toList_append _ _)
    rcases List.mem_cons.mp hline with rfl | hline
    · refine titleOf?_eq_none "/>" ?_ (by decide) (by decide)
      exact List.IsSuffix.trans (by decide) (suffix_toList_append _ _)
    · obtain rfl := List.mem_singleton.mp hline
      refine titleOf?_eq_none "</text>" ?_ (by decide) (by decide)
      exact List.IsSuffix.trans (by decide) (suffix_toList_append _ _)

/-- What the chart of a ledger draws. -/
theorem draws_ofLedger {l : TimingLedger} {is : IterationIndex → Prop}
    (hkeeps : TimingLedger.Keeps is l) (hnames : l.names.Nodup) (scale x : Float) :
    List.Forall₂ Draws
      (tableMarks l.names (l.tables.map (·.1))
        fun i n => TimingLedger.durationCell (l.duration? i n))
      (((ofLedger l).columns.zipIdx.flatMap fun y => columnLines scale y.1 y.2) ++
        (ofLedger l).legend.zipIdx.map fun y => legendLine x y.1 y.2) := by
  have hlegend : (ofLedger l).legend =
      (shownNames l.names).map fun n => (n, colourAmong (shownNames l.names) n) :=
    coloured_eq hnames
  have hcolumns : (ofLedger l).columns =
      l.tables.map fun y => column (ofLedger l).legend y.1 y.2 := rfl
  refine List.rel_append ?_ ?_
  · rw [hcolumns, hlegend, List.zipIdx_map, List.zipIdx_map, List.flatMap_map, List.flatMap_map]
    have hmarks : ∀ x ∈ l.tables.zipIdx, List.Forall₂ Draws
        (columnMarks (shownNames l.names) x.1.1
          (fun n => TimingLedger.durationCell (l.duration? x.1.1 n)) x.2)
        (columnLines scale (column ((shownNames l.names).map fun n =>
          (n, colourAmong (shownNames l.names) n)) x.1.1 x.1.2) x.2) := by
      intro x hx
      have htable := hkeeps.table (List.fst_mem_of_mem_zipIdx hx)
      have hduration : ∀ n, l.duration? x.1.1 n =
          (SortedMap.get? x.1.2 n).bind OperationTiming.duration? := by
        intro n
        rw [TimingLedger.duration?, TimingLedger.timing?, htable]
      simp only [hduration]
      exact draws_column ..
    exact draws_flatMap hmarks
  · have hentries : ∀ names : List String,
        names.map (fun n => ChartMark.entry (colourAmong (shownNames l.names) n) n) =
          names.zipIdx.map fun x => .entry (colourAmong (shownNames l.names) x.1) x.1 := by
      intro names
      conv_lhs => rw [← List.zipIdx_map_fst 0 names, List.map_map]
      rfl
    rw [hlegend, List.zipIdx_map, List.map_map, hentries, List.forall₂_map_left_iff,
      List.forall₂_map_right_iff]
    exact List.forall₂_same.mpr fun x _ => .entry ..

end Chart

namespace TimingLedger

/-- The chart of the ledger after any calls, beside the table of it. The table has a row for each
iteration, in the order of iterations, and a column for the durations of each operation; nothing
took any time that is not in it. The lines of the chart between its head and its foot draw one by
one what can be read off these columns. For each row, at a slot of its own, these are the bars of
the operations whose cells are not empty, in the order of columns and with the texts of the cells in
their titles, and the dashed outline if the cell of the operation that covers the iteration is not
empty. For each column there is an entry of the legend, in the colour that the operation has
everywhere. No title stands in two lines, and none with another duration than the cell has. -/
theorem chartText_agrees (h : List TimedCall) :
    let l := ofCalls h
    let took := fun i n => durationCell (l.duration? i n)
    ∃ (iterations : List IterationIndex) (cells : IterationIndex → List String)
      (head marked : List String),
      l.reportText =
        String.join (line (headCells l.names) :: iterations.map fun i => line (cells i)) ∧
      iterations.Pairwise (· < ·) ∧
      Columns l.names "Iteration" (s!"BEGIN {·}") (s!"END {·}") id (headCells l.names) ∧
      (∀ i ∈ iterations, Columns l.names (toString i)
        (fun n => timeCell ((l.timing? i n).map (·.start)))
        (fun n => timeCell ((l.timing? i n).bind (·.finish))) (took i) (cells i)) ∧
      (∀ i n, took i n ≠ "" → i ∈ iterations ∧ n ∈ l.names) ∧
      l.chartText = String.join ((head ++ marked ++ ["</svg>"]).map (· ++ "\n")) ∧
      head.length = 4 ∧
      List.Forall₂ Chart.Draws (Chart.tableMarks l.names iterations took) marked ∧
      ∀ i n, n ≠ iterationOperation →
        let titles := (head ++ marked ++ ["</svg>"]).filterMap Chart.titleOf?
        (took i n ≠ "" → titles.count (Chart.barTitle n i (took i n)) = 1) ∧
        ∀ d, secondsText d ≠ took i n → titles.count (Chart.barTitle n i (secondsText d)) = 0 := by
  intro l took
  have hkeeps := keeps_ofCalls h
  have hshows := shows_ofCalls h
  have htook : ∀ i n, took i n ≠ "" →
      i ∈ l.tables.map (·.1) ∧ n ∈ l.names ∧ ∃ d, took i n = secondsText d := by
    intro i n hcell
    cases hd : l.duration? i n with
    | none => exact absurd (congrArg durationCell hd) hcell
    | some d =>
        obtain ⟨t, ht, -⟩ := Option.bind_eq_some_iff.mp hd
        have htimed : (l.timing? i n).isSome = true := by rw [ht, Option.isSome_some]
        exact ⟨(hkeeps.iterations i).mpr (hkeeps.of_timing htimed), hshows.mem_names htimed, d,
          congrArg durationCell hd⟩
  obtain ⟨head, scale, x, hlines, hlength, hhead⟩ := Chart.lines_eq (Chart.ofLedger l)
  have hdraws := Chart.draws_ofLedger hkeeps hshows.nodup scale x
  refine ⟨l.tables.map (·.1), fun i => rowCells (row l.names i (l.table i)), head, _, ?_,
    List.pairwise_map.mpr hkeeps.increasing, ?_, fun i _ => ?_,
    fun i n hcell => ⟨(htook i n hcell).1, (htook i n hcell).2.1⟩, ?_, hlength, hdraws, ?_⟩
  · have hrows : (l.rows.map rowCells).map line = _ := congrArg _ hkeeps.rowCells_rows
    rw [List.map_map, List.map_map] at hrows
    exact congrArg (fun lines => String.join (line (headCells l.names) :: lines)) hrows
  · have hcolumns := columns_cells l.names "Iteration" (s!"BEGIN {·}") (s!"END {·}") id
    rwa [List.map_id] at hcolumns
  · simp only [rowCells_row]
    exact columns_cells ..
  · rw [← hlines]
    rfl
  · intro i n hn
    have htitles := Chart.filterMap_titleOf? hdraws fun _ _ _ => Chart.no_tag_of_bar
    have hhead := List.filterMap_eq_nil_iff.mpr hhead
    have hfoot : ["</svg>"].filterMap Chart.titleOf? = [] := by decide
    dsimp only
    rw [List.filterMap_append, List.filterMap_append, hhead, hfoot, htitles, List.append_nil]
    refine Chart.count_titles ?_ hshows.nodup htook i hn
    exact List.pairwise_map.mpr (hkeeps.increasing.imp fun hlt => UInt32.ne_of_lt hlt)

end TimingLedger

end CommuteSim
