import CommuteSim.Proofs.Yaml.Gap
import Mathlib.Algebra.GroupWithZero.Nat

/-!
# Quoted scalars

What the printer puts between single or double quotes is read back as the text that it was written
for. Single quotes hold no line feed, since a reader would take it for a space.
-/

namespace CommuteSim.Yaml

/-! ## Parts and gaps -/

/-- No part begins at white space. -/
theorem takeQuotedPart_gap {single : Bool} {g t : List Char} (hg : g ≠ []) (hall : ∀ x ∈ g, isGap x)
    (fuel : Nat) (c : Cursor) (hrest : c.rest = g ++ t) :
    takeQuotedPart single (fuel + 1) c = .ok (([], .gap), c) := by
  obtain ⟨x, r, rfl⟩ := List.exists_cons_of_ne_nil hg
  have hx : isBlank x || isBreak x := hall x (by simp)
  simp only [Bool.or_eq_true] at hx
  simp [takeQuotedPart, hrest, hx, pure, Except.pure]

/-- The closing quote ends a part, unless it is the first half of a doubled one. -/
theorem takeQuotedPart_closing {single : Bool} {tail : List Char}
    (htail : single = true → tail.head? ≠ some '\'') (fuel : Nat) (c : Cursor)
    (hrest : c.rest = (if single then '\'' else '"') :: tail) :
    takeQuotedPart single (fuel + 1) c = .ok (([], .quote), c) := by
  cases single with
  | true =>
    have hnext := htail rfl
    have hblank : isBlank '\'' = false := rfl
    have hbreak : isBreak '\'' = false := rfl
    simp only [if_true] at hrest
    simp [takeQuotedPart, hrest, hblank, hbreak, hnext, pure, Except.pure]
  | false =>
    have hblank : isBlank '"' = false := rfl
    have hbreak : isBreak '"' = false := rfl
    simp only [Bool.false_eq_true, if_false] at hrest
    simp [takeQuotedPart, hrest, hblank, hbreak, pure, Except.pure]

section

variable {single : Bool} {fuel : Nat} {c c₁ : Cursor} {part : List Char}

/-- A part before the closing quote is the last one. -/
theorem takeQuotedParts_quote (hcolumn : 0 < c.column) (hne : c.rest ≠ [])
    (hpart : takeQuotedPart single (c.rest.length + 1) c = .ok ((part, .quote), c₁)) :
    takeQuotedParts single (fuel + 1) c = .ok (part, c₁.skip 1) := by
  have h0 : c.column ≠ 0 := by omega
  simp [takeQuotedParts, h0, hne, hpart, bind, Except.bind, pure, Except.pure]

/-- A part before a gap has others behind it. -/
theorem takeQuotedParts_gap (hcolumn : 0 < c.column) (hne : c.rest ≠ [])
    (hpart : takeQuotedPart single (c.rest.length + 1) c = .ok ((part, .gap), c₁)) {g : Gap}
    {c₂ c₃ : Cursor} (hgap : takeGap (fun _ => false) (c₁.rest.length + 1) {} c₁ = .ok (g, c₂))
    {text : List Char} (hrest : takeQuotedParts single fuel c₂ = .ok (text, c₃)) :
    takeQuotedParts single (fuel + 1) c = .ok (part ++ (g.text ++ text), c₃) := by
  have h0 : c.column ≠ 0 := by omega
  simp [takeQuotedParts, h0, hne, hpart, hgap, hrest, bind, Except.bind, pure, Except.pure]

end

/-! ## Single quotes -/

/-- A text with its quotes doubled. -/
def doubled (cs : List Char) : List Char :=
  cs.flatMap fun c => if c = '\'' then ['\'', '\''] else [c]

theorem doubled_cons (c : Char) (r : List Char) :
    doubled (c :: r) = (if c = '\'' then ['\'', '\''] else [c]) ++ doubled r := rfl

theorem doubled_append (a b : List Char) : doubled (a ++ b) = doubled a ++ doubled b :=
  List.flatMap_append

theorem doubled_of_not_mem {a : List Char} (h : '\'' ∉ a) : doubled a = a := by
  induction a with
  | nil => rfl
  | cons x r ih =>
    simp only [List.mem_cons, not_or] at h
    rw [doubled_cons, if_neg (Ne.symm h.1), ih h.2, List.singleton_append]

theorem length_le_doubled (a : List Char) : a.length ≤ (doubled a).length := by
  induction a with
  | nil => simp
  | cons x r ih =>
    rw [doubled_cons]
    split <;> simp <;> omega

theorem doubled_ne_nil {w : List Char} (hw : w ≠ []) : doubled w ≠ [] := by
  rintro h
  have := length_le_doubled w
  simp_all

theorem head?_doubled (w : List Char) : (doubled w).head? = w.head? := by
  cases w with
  | nil => rfl
  | cons x r => rw [doubled_cons]; split <;> simp_all

/-- A part is taken up to the place where taking another one ends at once. -/
theorem takeQuotedPart_doubled {t : List Char} {e : PartEnd}
    (hstop : ∀ fuel c, c.rest = t → takeQuotedPart true (fuel + 1) c = .ok (([], e), c)) :
    ∀ {a : List Char} {fuel : Nat} {c : Cursor}, a.length < fuel → c.rest = doubled a ++ t →
      (∀ x ∈ a, isGap x = false) →
        takeQuotedPart true fuel c = .ok ((a, e), c.skip (doubled a).length) := by
  intro a
  induction a with
  | nil =>
    intro fuel c hfuel hrest _
    obtain ⟨fuel, rfl⟩ : ∃ m, fuel = m + 1 := ⟨fuel - 1, by simp at hfuel; omega⟩
    rw [hstop fuel c hrest]
    simp [doubled]
  | cons x r ih =>
    intro fuel c hfuel hrest ha
    obtain ⟨fuel, rfl⟩ : ∃ m, fuel = m + 1 := ⟨fuel - 1, by simp at hfuel; omega⟩
    obtain ⟨hx, hr⟩ := List.forall_mem_cons.mp ha
    obtain ⟨hblank, hbreak⟩ := isGap_eq_false.mp hx
    rw [doubled_cons] at hrest ⊢
    by_cases hquote : x = '\''
    · rw [if_pos hquote] at hrest ⊢
      have := @ih fuel (c.skip 2) (by simpa using hfuel) (by simp [hrest]) hr
      subst hquote
      simp [takeQuotedPart, hrest, hblank, hbreak, this, bind, Except.bind, pure, Except.pure,
        Nat.add_comm 2]
    · rw [if_neg hquote] at hrest ⊢
      have := @ih fuel (c.skip 1) (by simpa using hfuel) (by simp [hrest]) hr
      simp [takeQuotedPart, hrest, hblank, hbreak, hquote, this, bind, Except.bind, pure,
        Except.pure, Nat.add_comm]

theorem indented_append {n : Nat} {a b : List Char} (ha : ∀ x ∈ a, isBreak x = false) :
    indented n false (a ++ b) = a ++ indented n false b := by
  induction a with
  | nil => rfl
  | cons x r ih =>
    obtain ⟨hx, hr⟩ := List.forall_mem_cons.mp ha
    simp [indented, hx, ih hr]

/-- After a run of breaks the indentation is still to come. -/
theorem indented_breaks {n : Nat} {b : Bool} {g t : List Char} (hg : g ≠ [])
    (hall : ∀ x ∈ g, isBreak x) : indented n b (g ++ t) = g ++ indented n true t := by
  induction g generalizing b with
  | nil => exact absurd rfl hg
  | cons x r ih =>
    obtain ⟨hx, hr⟩ := List.forall_mem_cons.mp hall
    cases r with
    | nil => simp [indented, hx]
    | cons y r => simpa [indented, hx] using @ih true (by simp) hr

theorem indented_true {n : Nat} {t : List Char} (ht : ∀ x ∈ t.head?, isBreak x = false)
    (hne : t ≠ []) : indented n true t = spaces n ++ indented n false t := by
  cases t with
  | nil => exact absurd rfl hne
  | cons x r => simp [indented, ht x rfl]

/-- What stands between single quotes. -/
def singleBody (n : Nat) (cs : List Char) : List Char :=
  indented n false (doubled cs) ++ if cs.getLast?.any isBreak then spaces n else []

theorem length_le_indented (n : Nat) (cs : List Char) :
    ∀ b, cs.length ≤ (indented n b cs).length := by
  induction cs with
  | nil => simp [indented]
  | cons x r ih =>
    intro b
    have htrue := ih true
    have hfalse := ih false
    rw [indented]
    split <;> simp <;> omega

theorem length_le_singleBody (n : Nat) (cs : List Char) :
    cs.length ≤ (singleBody n cs).length := by
  have hdoubled := length_le_doubled cs
  have hindented := length_le_indented n (doubled cs) false
  simp only [singleBody, List.length_append]
  omega

theorem singleQuotedText_eq (n : Nat) (cs : List Char) :
    singleQuotedText n cs = '\'' :: (singleBody n cs ++ ['\'']) := by
  simp [singleQuotedText, singleBody, doubled]

/-- What single quotes hold: no line feed, and neither a space behind a break nor before one. -/
structure Quotable (cs : List Char) : Prop where
  printable : ∀ x ∈ cs, isPrintable x
  no_lineFeed : '\n' ∉ cs
  behind : cs.IsChain fun a b => isBreak a → b ≠ ' '
  before : cs.IsChain fun a b => a = ' ' → isBreak b = false

theorem quotable_of_allows {cs : List Char} (h : allowsSingleQuotes cs) (hline : '\n' ∉ cs) :
    Quotable cs := by
  simp only [allowsSingleQuotes, hasBreakSpace, hasSpaceBreak, Bool.and_eq_true,
    List.all_eq_true, Bool.not_eq_true'] at h
  obtain ⟨⟨hprintable, hbehind⟩, hbefore⟩ := h
  refine ⟨hprintable, hline, (isChain_of_withNext hbehind).imp fun a b hab => ?_,
    (isChain_of_withNext hbefore).imp fun a b hab => ?_⟩
  · simpa [imp_iff_not_or] using hab
  · simpa [imp_iff_not_or] using hab

theorem Quotable.of_join {a g w : List Char} (h : Quotable (a ++ (g ++ w))) :
    Quotable g ∧ Quotable w := by
  obtain ⟨hp, hn, hbehind, hbefore⟩ := h
  simp only [List.isChain_append, List.mem_append, not_or] at hp hn hbehind hbefore
  exact ⟨⟨fun x hx => hp x (.inr (.inl hx)), hn.2.1, hbehind.2.1.1, hbefore.2.1.1⟩,
    ⟨fun x hx => hp x (.inr (.inr hx)), hn.2.2, hbehind.2.1.2.1, hbefore.2.1.2.1⟩⟩

/-- The white space in one place is either spaces or breaks. -/
theorem Quotable.spaces_or_breaks {g : List Char} (h : Quotable g) (hall : ∀ x ∈ g, isGap x) :
    g = spaces g.length ∨ ∀ x ∈ g, isBreak x := by
  induction g with
  | nil => exact .inl rfl
  | cons x r ih =>
    obtain ⟨hx, hr⟩ := List.forall_mem_cons.mp hall
    have htail : Quotable r := (@Quotable.of_join [x] r [] (by simpa using h)).1
    have hgap : x = ' ' ∨ isBreak x := by
      simpa [isGap, isBlank_of_isPrintable (h.printable x (by simp))] using hx
    cases r with
    | nil =>
      rcases hgap with rfl | hbreak
      · exact .inl rfl
      · exact .inr (by simpa using hbreak)
    | cons y r =>
      have hbehind := (List.isChain_cons_cons.mp h.behind).1
      have hbefore := (List.isChain_cons_cons.mp h.before).1
      rcases hgap with rfl | hbreak
      · rcases ih htail hr with hspaces | hbreaks
        · exact .inl (by rw [List.length_cons, spaces_succ, ← hspaces])
        · exact absurd (hbreaks y (by simp)) (by simp [hbefore rfl])
      · rcases ih htail hr with hspaces | hbreaks
        · rw [List.length_cons, spaces_succ] at hspaces
          exact absurd (List.cons.inj hspaces).1 (hbehind hbreak)
        · exact .inr (List.forall_mem_cons.mpr ⟨hbreak, hbreaks⟩)

theorem isBreak_doubled {a : List Char} (ha : ∀ x ∈ a, isGap x = false) :
    ∀ x ∈ doubled a, isBreak x = false := by
  intro x hx
  obtain ⟨y, hy, hxy⟩ := List.mem_flatMap.mp hx
  have hquote : isBreak '\'' = false := rfl
  split at hxy
  · simp_all
  · obtain rfl : x = y := by simpa using hxy
    exact (isGap_eq_false.mp (ha x hy)).2

theorem doubled_gap {g : List Char} (hall : ∀ x ∈ g, isGap x) : doubled g = g :=
  doubled_of_not_mem fun h => absurd (hall _ h) (by decide)

theorem any_getLast?_eq_false {p : Char → Bool} {a : List Char} (ha : ∀ x ∈ a, p x = false) :
    a.getLast?.any p = false := by
  cases h : a.getLast? with
  | none => rfl
  | some x => exact ha x (List.mem_of_getLast? h)

theorem getLast?_join {a g w : List Char} (hg : g ≠ []) :
    (a ++ (g ++ w)).getLast? = if w = [] then g.getLast? else w.getLast? := by
  by_cases hw : w = []
  · simp [hw, List.getLast?_append, List.getLast?_eq_some_getLast hg]
  · simp [hw, List.getLast?_append, List.getLast?_eq_some_getLast hw]

/-- A text without white space needs no indentation. -/
theorem singleBody_run {n : Nat} {a : List Char} (ha : ∀ x ∈ a, isGap x = false) :
    singleBody n a = doubled a := by
  have hlast : a.getLast?.any isBreak = false :=
    any_getLast?_eq_false fun x hx => (isGap_eq_false.mp (ha x hx)).2
  have := @indented_append n (doubled a) [] (isBreak_doubled ha)
  simp only [List.append_nil] at this
  rw [singleBody, this, hlast]
  simp [indented]

/-- The indentation follows a run of breaks; a run of spaces stays as it is. -/
theorem singleBody_join {n : Nat} {a g w : List Char} (ha : ∀ x ∈ a, isGap x = false) (hg : g ≠ [])
    (hall : ∀ x ∈ g, isGap x) (hfresh : ∀ x ∈ w.head?, isGap x = false) {k : Nat}
    (hk : g = spaces g.length ∧ k = 0 ∨ (∀ x ∈ g, isBreak x) ∧ k = n) :
    singleBody n (a ++ (g ++ w)) = doubled a ++ (g ++ (spaces k ++ singleBody n w)) := by
  simp only [singleBody, doubled_append, doubled_gap hall, indented_append (isBreak_doubled ha),
    List.append_assoc, List.append_cancel_left_eq, getLast?_join hg]
  rcases hk with ⟨hspaces, rfl⟩ | ⟨hbreaks, rfl⟩
  · have hplain : ∀ x ∈ g, isBreak x = false := by
      intro x hx
      rw [hspaces] at hx
      rw [List.eq_of_mem_replicate hx]
      rfl
    rw [indented_append hplain]
    by_cases hw : w = []
    · simp [hw, any_getLast?_eq_false hplain]
    · simp [hw]
  · rw [indented_breaks hg hbreaks]
    by_cases hw : w = []
    · -- The indentation stands before the closing quote.
      have hlast : isBreak (g.getLast hg) := hbreaks _ (List.getLast_mem hg)
      simp [hw, List.getLast?_eq_some_getLast hg, hlast, doubled, indented]
    · have hhead : ∀ x ∈ (doubled w).head?, isBreak x = false := by
        rw [head?_doubled]
        exact fun x hx => (isGap_eq_false.mp (hfresh x hx)).2
      rw [indented_true hhead (doubled_ne_nil hw)]
      simp [hw]

theorem solid_singleBody {n : Nat} {w tail : List Char} (hfresh : ∀ x ∈ w.head?, isGap x = false) :
    Solid (singleBody n w ++ '\'' :: tail) := by
  cases w with
  | nil => exact solid_cons.mpr rfl
  | cons x r =>
    have hx := hfresh x rfl
    have hbreak := (isGap_eq_false.mp hx).2
    obtain ⟨s, hs⟩ : ∃ s, doubled (x :: r) = x :: s := by
      rw [doubled_cons]
      split <;> simp_all
    simp [singleBody, hs, indented, hbreak, hx]

/-- The white space in one place and the indentation that the printer puts behind it. -/
theorem takeGap_quotable {n k : Nat} {g t : List Char} (hn : 0 < n) (hg : g ≠ [])
    (hq : Quotable g) (hk : g = spaces g.length ∧ k = 0 ∨ (∀ x ∈ g, isBreak x) ∧ k = n)
    (ht : Solid t) {c : Cursor} (hcolumn : 0 < c.column) (hrest : c.rest = g ++ (spaces k ++ t)) :
    ∃ gap c', takeGap (fun _ => false) (c.rest.length + 1) {} c = .ok (gap, c') ∧ gap.text = g ∧
      c'.rest = t ∧ 0 < c'.column := by
  rcases hk with ⟨hspaces, rfl⟩ | ⟨hbreaks, rfl⟩
  · refine ⟨{ blanks := spaces g.length }, c.skip g.length, ?_, ?_, by simp [hrest], ?_⟩
    · refine takeGap_blanks _ ht (by rw [hrest, List.length_append]; omega) ?_
      rw [hrest, spaces_zero, List.nil_append, ← hspaces]
    · exact hspaces.symm
    · simp only [Cursor.skip_column]
      omega
  · obtain ⟨b, bs, rfl⟩ := List.exists_cons_of_ne_nil hg
    obtain ⟨c', hgap, hrest', hcolumn'⟩ :=
      takeGap_break (fun _ => false) ht (fun x hx => ⟨hq.printable x hx, hbreaks x hx⟩)
        (show bs.length + k + 1 < c.rest.length + 1 by
          simp only [hrest, List.length_append, List.length_cons, length_spaces]
          omega) hrest
    refine ⟨brokenGap b bs, c', hgap, ?_, hrest', by omega⟩
    have hb : b ≠ '\n' := fun h => hq.no_lineFeed (by simp [h])
    simp [brokenGap, Gap.text, hb]

/-- The text between single quotes, which the closing quote ends. -/
theorem takeQuotedParts_single {n : Nat} {tail w : List Char} (hn : 0 < n)
    (htail : tail.head? ≠ some '\'') (hparts : Parted isGap w) :
    ∀ {fuel : Nat} {c : Cursor}, Quotable w → w.length < fuel → 0 < c.column →
      c.rest = singleBody n w ++ '\'' :: tail →
      ∃ c', takeQuotedParts true fuel c = .ok (w, c') ∧ c'.rest = tail := by
  induction hparts with
  | @run a ha =>
    intro fuel c hw hfuel hcolumn hrest
    obtain ⟨fuel, rfl⟩ : ∃ m, fuel = m + 1 := ⟨fuel - 1, by omega⟩
    rw [singleBody_run ha] at hrest
    have hlength := length_le_doubled a
    have hpart : takeQuotedPart true (c.rest.length + 1) c =
        .ok ((a, .quote), c.skip (doubled a).length) :=
      takeQuotedPart_doubled (@takeQuotedPart_closing true tail fun _ => htail)
        (by simp [hrest]; omega) hrest ha
    refine ⟨(c.skip (doubled a).length).skip 1, ?_, by simp [hrest, ← List.drop_drop]⟩
    exact takeQuotedParts_quote hcolumn (by simp [hrest]) hpart
  | @join a g w ha hg hall hfresh _ ih =>
    intro fuel c hw hfuel hcolumn hrest
    obtain ⟨fuel, rfl⟩ : ∃ m, fuel = m + 1 := ⟨fuel - 1, by omega⟩
    obtain ⟨hgap, hafter⟩ := hw.of_join
    obtain ⟨k, hk⟩ : ∃ k, g = spaces g.length ∧ k = 0 ∨ (∀ x ∈ g, isBreak x) ∧ k = n := by
      rcases hgap.spaces_or_breaks hall with h | h
      · exact ⟨0, .inl ⟨h, rfl⟩⟩
      · exact ⟨n, .inr ⟨h, rfl⟩⟩
    rw [singleBody_join ha hg hall hfresh hk] at hrest
    simp only [List.append_assoc] at hrest
    have hlength := length_le_doubled a
    have hgpos := List.length_pos_iff.mpr hg
    have hpart : takeQuotedPart true (c.rest.length + 1) c =
        .ok ((a, .gap), c.skip (doubled a).length) :=
      takeQuotedPart_doubled (takeQuotedPart_gap hg hall) (by simp [hrest]; omega) hrest ha
    obtain ⟨gap, c₂, htake, htext, hrest₂, hcolumn₂⟩ :=
      takeGap_quotable hn hg hgap hk (@solid_singleBody n w tail hfresh)
        (c := c.skip (doubled a).length) (by simp; omega) (by simp [hrest])
    obtain ⟨c', hrun, hend⟩ := @ih fuel c₂ hafter (by simp at hfuel; omega) hcolumn₂ hrest₂
    refine ⟨c', ?_, hend⟩
    rw [takeQuotedParts_gap hcolumn (by simp [hrest, hg]) hpart htake hrun, htext]

/-- A text between single quotes is read back. -/
theorem takeQuoted_single {n : Nat} {tail cs : List Char} (hn : 0 < n)
    (htail : tail.head? ≠ some '\'') (h : allowsSingleQuotes cs) (hline : '\n' ∉ cs) {c : Cursor}
    (hrest : c.rest = singleQuotedText n cs ++ tail) :
    ∃ c', takeQuoted true c = .ok (.scalar .singleQuoted (String.ofList cs), c') ∧
      c'.rest = tail := by
  rw [singleQuotedText_eq] at hrest
  obtain ⟨c', hrun, hend⟩ :=
    @takeQuotedParts_single n tail cs hn htail (parted isGap cs) (c.rest.length + 1) (c.skip 1)
      (quotable_of_allows h hline)
      (by
        have := length_le_singleBody n cs
        simp [hrest]
        omega)
      (by simp) (by simp [hrest])
  refine ⟨c', ?_, hend⟩
  simp [takeQuoted, hrun, bind, Except.bind, pure, Except.pure]

/-! ## Double quotes -/

/-- The digits of a numeric escape. -/
def upperDigits (n : Nat) : List Char := (Nat.toDigits 16 n).map Char.toUpper

/-- The number that hexadecimal digits write, after a number before them. -/
def hexValue (n : Option Nat) (ds : List Char) : Option Nat :=
  ds.foldl (fun n d => do return (← n) * 16 + (← Json.hexDigit? d)) n

theorem hexDigit?_upper : ∀ d < 16, Json.hexDigit? (Char.toUpper (Nat.digitChar d)) = some d := by
  decide

theorem hexValue_zeros (k : Nat) : hexValue (some 0) (List.replicate k '0') = some 0 := by
  induction k with
  | zero => rfl
  | succ k ih => exact ih

theorem hexValue_upperDigits (n : Nat) : hexValue (some 0) (upperDigits n) = some n := by
  induction n using Nat.strongRecOn with
  | _ n ih =>
    by_cases hn : n < 16
    · simp [upperDigits, Nat.toDigits_of_lt_base hn, hexValue, hexDigit?_upper n hn]
    · have hlast := hexDigit?_upper (n % 16) (Nat.mod_lt n (by omega))
      have hfront := ih (n / 16) (by omega)
      have hjoin : n / 16 * 16 + n % 16 = n := by omega
      simp only [upperDigits, hexValue] at hfront ⊢
      rw [Nat.toDigits_of_base_le (by omega) (by omega), List.map_append, List.foldl_append, hfront]
      simp [hlast, hjoin]

theorem length_upperDigits_le {n width : Nat} (hwidth : 0 < width) (hn : n < 16 ^ width) :
    (upperDigits n).length ≤ width := by
  simpa [upperDigits] using (Nat.length_toDigits_le_iff (by omega) hwidth).mpr hn

/-- A number in the digits of an escape. -/
theorem takeHex_of_lt {n width : Nat} (hwidth : 0 < width) (hn : n < 16 ^ width) {t : List Char}
    {c : Cursor}
    (hrest : c.rest = List.replicate (width - (upperDigits n).length) '0' ++ upperDigits n ++ t) :
    takeHex c width = .ok (n, c.skip width) := by
  have hlength := length_upperDigits_le hwidth hn
  have htake : c.rest.take width =
      List.replicate (width - (upperDigits n).length) '0' ++ upperDigits n := by
    rw [hrest]
    exact List.take_left' (by simp; omega)
  have hvalue : hexValue (some 0) (c.rest.take width) = some n := by
    rw [htake, hexValue, List.foldl_append]
    exact (congrArg (hexValue · (upperDigits n)) (hexValue_zeros _)).trans (hexValue_upperDigits n)
  have hcount : (c.rest.take width).length = width := by rw [htake]; simp; omega
  simp only [hexValue] at hvalue
  simp only [takeHex, hvalue, hcount, if_true]

/-- What double quotes hold as it is. -/
def isLiteral (x : Char) : Bool := isPrintable x && !isBreak x && x ≠ '"' && x ≠ '\\'

theorem doubleQuotedChar_literal {x : Char} (h : isLiteral x) : doubleQuotedChar x = [x] := by
  unfold doubleQuotedChar
  exact if_pos h

/-- A numeric escape. -/
def numericEscape (mark : Char) (width n : Nat) : List Char :=
  '\\' :: mark :: List.replicate (width - (upperDigits n).length) '0' ++ upperDigits n

/-- The other characters stand as escapes. -/
theorem doubleQuotedChar_escape {x : Char} (h : isLiteral x = false) :
    (∃ y, doubleQuotedChar x = ['\\', y] ∧ escapeChar? y = some x ∧ isBreak y = false) ∨
    ∃ mark width, doubleQuotedChar x = numericEscape mark width x.toNat ∧
      escapeDigits? mark = some width ∧ escapeChar? mark = none ∧ isBreak mark = false ∧
      0 < width ∧ x.toNat < 16 ^ width := by
  have hcond : ¬(isPrintable x && !isBreak x && x ≠ '"' && x ≠ '\\') = true := by
    simpa [isLiteral] using h
  unfold doubleQuotedChar
  rw [if_neg hcond]
  split
  case h_15 =>
    right
    have hvalid : x.toNat < 16 ^ 8 := by
      have := x.valid
      simp only [UInt32.isValidChar, Nat.isValidChar] at this
      change (x.toNat < _) ∨ (_ < x.toNat ∧ x.toNat < _) at this
      omega
    split
    · exact ⟨'x', 2, rfl, rfl, rfl, rfl, by omega, by omega⟩
    · split
      · exact ⟨'u', 4, rfl, rfl, rfl, rfl, by omega, by omega⟩
      · exact ⟨'U', 8, rfl, rfl, rfl, rfl, by omega, hvalid⟩
  all_goals exact .inl ⟨_, rfl, rfl, rfl⟩

theorem takeEscape_simple {x y : Char} (hy : escapeChar? y = some x) {t : List Char} {c : Cursor}
    (hrest : c.rest = '\\' :: y :: t) : takeEscape c = .ok (x, c.skip 2) := by
  simp [takeEscape, hrest, hy]

theorem takeEscape_numeric {mark : Char} {width : Nat} (hmark : escapeDigits? mark = some width)
    (hsimple : escapeChar? mark = none) (hwidth : 0 < width) {x : Char}
    (hx : x.toNat < 16 ^ width) {t : List Char} {c : Cursor}
    (hrest : c.rest = numericEscape mark width x.toNat ++ t) :
    takeEscape c = .ok (x, c.skip (width + 2)) := by
  have hhex : takeHex (c.skip 2) width = .ok (x.toNat, (c.skip 2).skip width) :=
    takeHex_of_lt hwidth hx (t := t) (by simp [hrest, numericEscape])
  have hvalid : ¬((0xD800 ≤ x.toNat ∧ x.toNat ≤ 0xDFFF) ∨ 0x10FFFF < x.toNat) := by
    have := x.valid
    simp only [UInt32.isValidChar, Nat.isValidChar] at this
    change (x.toNat < _) ∨ (_ < x.toNat ∧ x.toNat < _) at this
    omega
  simp [takeEscape, hrest, numericEscape, hmark, hsimple, hhex, hvalid, bind, Except.bind,
    Nat.add_comm]

/-- A character other than a space, and what follows it in its part. -/
theorem takeQuotedPart_char {x : Char} (hx : x ≠ ' ') {t : List Char} {fuel : Nat} {c c₁ : Cursor}
    (hrest : c.rest = doubleQuotedChar x ++ t) {part : List Char} {e : PartEnd}
    (hpart : takeQuotedPart false fuel (c.skip (doubleQuotedChar x).length) =
      .ok ((part, e), c₁)) :
    takeQuotedPart false (fuel + 1) c = .ok ((x :: part, e), c₁) := by
  cases hliteral : isLiteral x with
  | true =>
    rw [doubleQuotedChar_literal hliteral] at hrest hpart
    simp only [isLiteral, Bool.and_eq_true, Bool.not_eq_true', decide_eq_true_eq] at hliteral
    obtain ⟨⟨⟨hprintable, hbreak⟩, hquote⟩, hslash⟩ := hliteral
    have hblank : isBlank x = false := by simp [isBlank_of_isPrintable hprintable, hx]
    simp only [List.length_singleton] at hpart
    simp [takeQuotedPart, hrest, hblank, hbreak, hquote, hslash, hpart, bind, Except.bind, pure,
      Except.pure]
  | false =>
    have hblank : isBlank '\\' = false := rfl
    have hbreak : isBreak '\\' = false := rfl
    rcases doubleQuotedChar_escape hliteral with ⟨y, heq, hy, hyb⟩ |
      ⟨mark, width, heq, hmark, hsimple, hmb, hwidth, hlt⟩
    · rw [heq] at hrest hpart
      simp only [List.length_cons, List.length_nil] at hpart
      simp [takeQuotedPart, hrest, hblank, hbreak, hyb, takeEscape_simple hy hrest, hpart, bind,
        Except.bind, pure, Except.pure]
    · have htake := takeEscape_numeric hmark hsimple hwidth hlt (heq ▸ hrest)
      have hdigits := length_upperDigits_le hwidth hlt
      have hlength : (doubleQuotedChar x).length = width + 2 := by
        simp [heq, numericEscape]
        omega
      rw [hlength] at hpart
      rw [heq, numericEscape] at hrest
      simp [takeQuotedPart, hrest, hblank, hbreak, hmb, htake, hpart, bind, Except.bind, pure,
        Except.pure]

/-- A text between double quotes. -/
def escaped (cs : List Char) : List Char := cs.flatMap doubleQuotedChar

theorem escaped_append (a b : List Char) : escaped (a ++ b) = escaped a ++ escaped b :=
  List.flatMap_append

theorem escaped_spaces {g : List Char} (hall : ∀ x ∈ g, x = ' ') : escaped g = g := by
  induction g with
  | nil => rfl
  | cons x r ih =>
    obtain ⟨rfl, hr⟩ := List.forall_mem_cons.mp hall
    rw [escaped, List.flatMap_cons, ← escaped, ih hr, doubleQuotedChar_literal rfl]
    rfl

theorem length_le_escaped (a : List Char) : a.length ≤ (escaped a).length := by
  induction a with
  | nil => simp
  | cons x r ih =>
    have hpos : 0 < (doubleQuotedChar x).length := by
      cases h : isLiteral x with
      | true => simp [doubleQuotedChar_literal h]
      | false =>
        rcases doubleQuotedChar_escape h with ⟨y, heq, -⟩ | ⟨mark, width, heq, -⟩
        · simp [heq]
        · simp [heq, numericEscape]
    simp only [escaped, List.flatMap_cons, List.length_append, List.length_cons] at ih ⊢
    omega

/-- A part without spaces is taken up to the place where taking another one ends at once. -/
theorem takeQuotedPart_escaped {t : List Char} {e : PartEnd}
    (hstop : ∀ fuel c, c.rest = t → takeQuotedPart false (fuel + 1) c = .ok (([], e), c)) :
    ∀ {a : List Char} {fuel : Nat} {c : Cursor}, a.length < fuel → c.rest = escaped a ++ t →
      (∀ x ∈ a, x ≠ ' ') →
        takeQuotedPart false fuel c = .ok ((a, e), c.skip (escaped a).length) := by
  intro a
  induction a with
  | nil =>
    intro fuel c hfuel hrest _
    obtain ⟨fuel, rfl⟩ : ∃ m, fuel = m + 1 := ⟨fuel - 1, by simp at hfuel; omega⟩
    rw [hstop fuel c hrest]
    simp [escaped]
  | cons x r ih =>
    intro fuel c hfuel hrest ha
    obtain ⟨fuel, rfl⟩ : ∃ m, fuel = m + 1 := ⟨fuel - 1, by simp at hfuel; omega⟩
    obtain ⟨hx, hr⟩ := List.forall_mem_cons.mp ha
    have hcons : escaped (x :: r) = doubleQuotedChar x ++ escaped r := rfl
    rw [hcons, List.append_assoc] at hrest
    have hpart := @ih fuel (c.skip (doubleQuotedChar x).length) (by simpa using hfuel)
      (by simp [hrest]) hr
    rw [takeQuotedPart_char hx hrest hpart, hcons, List.length_append, Cursor.skip_skip]

theorem solid_escaped {w : List Char} (hfresh : ∀ x ∈ w.head?, x ≠ ' ') (t : List Char) :
    Solid (escaped w ++ '"' :: t) := by
  cases w with
  | nil => exact solid_cons.mpr rfl
  | cons x r =>
    have hx : x ≠ ' ' := hfresh x rfl
    rw [escaped, List.flatMap_cons, List.append_assoc]
    cases h : isLiteral x with
    | true =>
      rw [doubleQuotedChar_literal h]
      simp only [isLiteral, Bool.and_eq_true, Bool.not_eq_true'] at h
      exact solid_cons.mpr (by simp [isGap, isBlank_of_isPrintable h.1.1.1, hx, h.1.1.2])
    | false =>
      rcases doubleQuotedChar_escape h with ⟨y, heq, -⟩ | ⟨mark, width, heq, -⟩
      · exact heq ▸ solid_cons.mpr rfl
      · exact heq ▸ solid_cons.mpr rfl

/-- The spaces before a part that begins with no space. -/
theorem takeGap_escaped {tail w : List Char} (hfresh : ∀ x ∈ w.head?, x ≠ ' ') {n : Nat}
    {c : Cursor} (hrest : c.rest = spaces n ++ (escaped w ++ '"' :: tail)) :
    takeGap (fun _ => false) (c.rest.length + 1) {} c = .ok ({ blanks := spaces n }, c.skip n) := by
  refine takeGap_blanks _ (solid_escaped hfresh tail) ?_ hrest
  rw [hrest, List.length_append, length_spaces]
  omega

/-- The text between double quotes, which the closing quote ends. -/
theorem takeQuotedParts_double {tail w : List Char} (hparts : Parted (· = ' ') w) :
    ∀ {fuel : Nat} {c : Cursor}, w.length < fuel → 0 < c.column →
      c.rest = escaped w ++ '"' :: tail →
      ∃ c', takeQuotedParts false fuel c = .ok (w, c') ∧ c'.rest = tail := by
  induction hparts with
  | @run a ha =>
    intro fuel c hfuel hcolumn hrest
    obtain ⟨fuel, rfl⟩ : ∃ m, fuel = m + 1 := ⟨fuel - 1, by omega⟩
    have hlength := length_le_escaped a
    have hpart : takeQuotedPart false (c.rest.length + 1) c =
        .ok ((a, .quote), c.skip (escaped a).length) :=
      takeQuotedPart_escaped (@takeQuotedPart_closing false tail nofun)
        (by simp [hrest]; omega) hrest (by simpa using ha)
    refine ⟨(c.skip (escaped a).length).skip 1, ?_, by simp [hrest, ← List.drop_drop]⟩
    exact takeQuotedParts_quote hcolumn (by simp [hrest]) hpart
  | @join a g w ha hg hall hfresh _ ih =>
    intro fuel c hfuel hcolumn hrest
    obtain ⟨fuel, rfl⟩ : ∃ m, fuel = m + 1 := ⟨fuel - 1, by omega⟩
    have hspaces : ∀ x ∈ g, x = ' ' := by simpa using hall
    rw [escaped_append, escaped_append, escaped_spaces hspaces] at hrest
    simp only [List.append_assoc] at hrest
    have hlength := length_le_escaped a
    have hgpos := List.length_pos_iff.mpr hg
    have hgs : g = spaces g.length := List.eq_replicate_iff.mpr ⟨rfl, hspaces⟩
    have hpart : takeQuotedPart false (c.rest.length + 1) c =
        .ok ((a, .gap), c.skip (escaped a).length) :=
      takeQuotedPart_escaped
        (takeQuotedPart_gap hg fun x hx => by rw [hspaces x hx]; rfl)
        (by simp [hrest]; omega) hrest (by simpa using ha)
    have hafter : (c.skip (escaped a).length).rest =
        spaces g.length ++ (escaped w ++ '"' :: tail) := by
      rw [← hgs]
      simp [hrest]
    have htake := takeGap_escaped (by simpa using hfresh) hafter
    obtain ⟨c', hrun, hend⟩ := @ih fuel ((c.skip (escaped a).length).skip g.length)
      (by simp at hfuel; omega) (by simp; omega) (by simp [hrest, ← List.drop_drop])
    refine ⟨c', ?_, hend⟩
    rw [takeQuotedParts_gap hcolumn (by simp [hrest, hg]) hpart htake hrun, hgs]
    simp [Gap.text]

/-- A text between double quotes is read back. -/
theorem takeQuoted_double {tail cs : List Char} {c : Cursor}
    (hrest : c.rest = '"' :: escaped cs ++ '"' :: tail) :
    ∃ c', takeQuoted false c = .ok (.scalar .doubleQuoted (String.ofList cs), c') ∧
      c'.rest = tail := by
  obtain ⟨c', hrun, hend⟩ :=
    @takeQuotedParts_double tail cs (parted _ cs) (c.rest.length + 1) (c.skip 1)
      (by
        have := length_le_escaped cs
        simp [hrest]
        omega)
      (by simp) (by simp [hrest])
  refine ⟨c', ?_, hend⟩
  simp [takeQuoted, hrun, bind, Except.bind, pure, Except.pure]

end CommuteSim.Yaml
