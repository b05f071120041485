import CommuteSim.Proofs.Yaml.Gap

/-!
# Plain scalars

A text that the printer leaves plain is read back to its end, whether a colon with a gap or a line
break follows it.
-/

namespace CommuteSim.Yaml

/-! ## Texts that a plain scalar holds -/

/-- Before `t`, no colon of a text stands at a gap. -/
def Bound (t : List Char) : List Char → Prop
  | [] => True
  | x :: r => (x = ':' → atGap (r ++ t) = false) ∧ Bound t r

theorem atGap_append {a : List Char} (h : atGap a = false) (t : List Char) :
    atGap (a ++ t) = false := by
  cases a with
  | nil => simp [atGap] at h
  | cons x r => simpa [atGap] using h

theorem Bound.before {a : List Char} (h : Bound [] a) (t : List Char) : Bound t a := by
  induction a with
  | nil => trivial
  | cons x r ih =>
    obtain ⟨hx, hr⟩ := h
    rw [List.append_nil] at hx
    exact ⟨fun hcolon => atGap_append (hx hcolon) t, ih hr⟩

theorem bound_append {t a b : List Char} : Bound t (a ++ b) ↔ Bound (b ++ t) a ∧ Bound t b := by
  induction a with
  | nil => simp [Bound]
  | cons x r ih => simp [Bound, ih, and_assoc]

theorem bound_of_withNext {cs : List Char}
    (h : (withNext cs).any (fun (c, next) => c = ':' && next.all isGap) = false) :
    Bound [] cs := by
  induction cs with
  | nil => trivial
  | cons c r ih =>
    simp only [withNext, List.any_cons, Bool.or_eq_false_iff] at h
    refine ⟨fun hcolon => ?_, ih h.2⟩
    simpa [hcolon, atGap_eq] using h.1

/-- What the printer knows of a text that it leaves plain. -/
structure Plain (cs : List Char) : Prop where
  printable : ∀ x ∈ cs, isPrintable x
  oneLine : ∀ x ∈ cs, isBreak x = false
  head_ne : cs.head? ≠ some ' '
  last_ne : cs.getLast? ≠ some ' '
  starts : startsIndicator cs = false
  bound : Bound [] cs
  numberSigns : cs.IsChain fun a b => isGap a → b ≠ '#'

theorem plain_of_allowsPlain {cs : List Char} (h : allowsPlain cs) : Plain cs := by
  simp only [allowsPlain, holdsIndicator, Bool.and_eq_true, Bool.not_eq_true', List.all_eq_true,
    decide_eq_true_eq, Bool.or_eq_false_iff] at h
  obtain ⟨⟨⟨⟨⟨hprintable, hline⟩, hhead⟩, hlast⟩, hstarts⟩, hcolons, hsigns⟩ := h
  refine ⟨hprintable, fun x hx => by simpa using List.any_eq_false.mp hline x hx, hhead, hlast,
    hstarts, ?_, ?_⟩
  · -- The test skips the first character, which the one for indicators looks at.
    cases cs with
    | nil => trivial
    | cons c r =>
      refine ⟨fun hcolon => ?_, bound_of_withNext ?_⟩
      · simp only [startsIndicator, Bool.or_eq_false_iff] at hstarts
        simpa [hcolon, atGap_eq] using hstarts.1.1.2
      · simpa using hcolons
  · refine (isChain_of_withNext hsigns).imp fun a b hab => ?_
    simpa [imp_iff_not_or] using hab

/-- The gaps of a plain text are spaces. -/
theorem Plain.isGap_eq {cs : List Char} (h : Plain cs) {x : Char} (hx : x ∈ cs) :
    isGap x = decide (x = ' ') := by
  simp [isGap, h.oneLine x hx, isBlank_of_isPrintable (h.printable x hx)]

/-! ## One word -/

/-- Where a word ends: at the end of the text, at a gap or at a colon before a gap. -/
def EndsWord (t : List Char) : Prop := atGap t ∨ endsPlain false t

theorem takePlainPart_word {t : List Char} (ht : EndsWord t) :
    ∀ {word : List Char} {fuel : Nat} {c : Cursor}, word.length < fuel → c.rest = word ++ t →
      (∀ x ∈ word, isGap x = false) → Bound t word →
        takePlainPart false fuel c = .ok (word, c.skip word.length) := by
  intro word
  induction word with
  | nil =>
    intro fuel c hfuel hrest _ _
    obtain ⟨fuel, rfl⟩ : ∃ m, fuel = m + 1 := ⟨fuel - 1, by simp at hfuel; omega⟩
    rw [List.nil_append] at hrest
    cases t with
    | nil => simp [takePlainPart, hrest, pure, Except.pure]
    | cons x r =>
      rcases ht with hgap | hend
      · simp only [atGap, Bool.or_eq_true] at hgap
        simp [takePlainPart, hrest, hgap, pure, Except.pure]
      · by_cases hgap : isBlank x ∨ isBreak x
        · simp [takePlainPart, hrest, hgap, pure, Except.pure]
        · simp [takePlainPart, hrest, hgap, hend, pure, Except.pure]
  | cons x r ih =>
    intro fuel c hfuel hrest hword hbound
    obtain ⟨fuel, rfl⟩ : ∃ m, fuel = m + 1 := ⟨fuel - 1, by simp at hfuel; omega⟩
    obtain ⟨hx, hr⟩ := List.forall_mem_cons.mp hword
    obtain ⟨hblank, hbreak⟩ := isGap_eq_false.mp hx
    have hgo : endsPlain false (x :: (r ++ t)) = false := by
      simpa [endsPlain, imp_iff_not_or] using hbound.1
    have hnext : (c.skip 1).rest = r ++ t := by simp [hrest]
    have := ih (by simpa using hfuel) hnext hr hbound.2
    simp [takePlainPart, hrest, hblank, hbreak, hgo, this, pure, Except.pure, bind, Except.bind,
      Nat.add_comm]

/-! ## A line of words -/

/-- The next part of a plain scalar, where it has one. -/
theorem takePlainParts_word {indent fuel : Nat} {s : PlainScan} {c : Cursor} {word t : List Char}
    (ht : EndsWord t) (hne : word ≠ []) (hrest : c.rest = word ++ t)
    (hword : ∀ x ∈ word, isGap x = false) (hbound : Bound t word)
    (hmark : c.column = 0 → atDocumentMark (word ++ t) = false) (hsign : word.head? ≠ some '#') :
    takePlainParts false indent (fuel + 1) s c =
      if t.head?.any isGap then do
        let (gap, after) ← takeGap (· < indent) (t.length + 1) {} (c.skip word.length)
        let s' : PlainScan :=
          ⟨s.text ++ s.gap.text ++ word, gap, (c.skip word.length).mark⟩
        if after.column < indent then return (s', after)
        else takePlainParts false indent fuel s' after
      else .ok (⟨s.text ++ s.gap.text ++ word, {}, (c.skip word.length).mark⟩,
        c.skip word.length) := by
  have hhead : c.head ≠ '#' := by
    cases word with
    | nil => exact absurd rfl hne
    | cons x r => simpa [Cursor.head, hrest] using hsign
  have hmark' : ¬(c.column = 0 ∧ atDocumentMark c.rest = true) := by
    rintro ⟨h0, hm⟩
    rw [hrest, hmark h0] at hm
    simp at hm
  have hfuel : word.length < c.rest.length + 1 := by
    rw [hrest, List.length_append]
    omega
  have hpart : takePlainPart false (c.rest.length + 1) c = .ok (word, c.skip word.length) :=
    takePlainPart_word ht hfuel hrest hword hbound
  have hafter : (c.skip word.length).rest = t := by simp [hrest]
  have hempty : word.isEmpty = false := by simpa using hne
  simp only [takePlainParts, Bool.or_eq_true, Bool.and_eq_true, decide_eq_true_eq, hmark', hhead,
    or_self, if_false, hpart, bind, Except.bind, hempty, hafter, Bool.false_eq_true, pure,
    Except.pure, Bool.not_false, Bool.true_and]
  rw [show (fun x => isBlank x || isBreak x) = isGap from rfl]
  cases t.head?.any isGap <;> simp

/-- A line that is left to be read in a plain scalar. -/
structure Words (w : List Char) : Prop where
  isGap_eq : ∀ x ∈ w, isGap x = decide (x = ' ')
  ne_nil : w ≠ []
  head_ne : w.head? ≠ some ' '
  last_ne : w.getLast? ≠ some ' '
  not_comment : w.head? ≠ some '#'
  bound : Bound [] w
  numberSigns : w.IsChain fun a b => isGap a → b ≠ '#'

theorem Plain.words {cs : List Char} (h : Plain cs) (hne : cs ≠ []) : Words cs := by
  refine ⟨fun x hx => h.isGap_eq hx, hne, h.head_ne, h.last_ne, ?_, h.bound, h.numberSigns⟩
  cases cs with
  | nil => simp
  | cons x r =>
    rintro hx
    obtain rfl : x = '#' := by simpa using hx
    simpa [startsIndicator] using h.starts

/-- After its first word and the gap behind that, a line is a line of words again. -/
theorem Words.of_join {a g w : List Char} (h : Words (a ++ (g ++ w))) (hg : g ≠ [])
    (hall : ∀ x ∈ g, isGap x) (hfresh : ∀ x ∈ w.head?, isGap x = false) :
    (∃ n, g = spaces (n + 1)) ∧ a ≠ [] ∧ Words w := by
  have hspace : ∀ x ∈ g, x = ' ' := fun x hx => by
    simpa [hall x hx] using h.isGap_eq x (by simp [hx])
  obtain ⟨n, hn⟩ : ∃ n, g.length = n + 1 := ⟨g.length - 1, by
    have := List.length_pos_iff.mpr hg
    omega⟩
  have hgs : g = spaces (n + 1) := List.eq_replicate_iff.mpr ⟨hn, hspace⟩
  obtain ⟨hbound, hchain⟩ := bound_append.mp h.bound, h.numberSigns
  rw [← List.append_assoc, List.isChain_append] at hchain
  refine ⟨⟨n, hgs⟩, ?_, ?_⟩
  · rintro rfl
    have := h.head_ne
    simp [hgs, spaces_succ] at this
  · have hlast := h.last_ne
    have hwne : w ≠ [] := by
      rintro rfl
      simp [hgs, spaces, List.getLast?_append, List.getLast?_replicate] at hlast
    refine ⟨fun x hx => h.isGap_eq x (by simp [hx]), hwne, ?_, ?_, ?_, ?_, hchain.2.1⟩
    · intro hw
      have := hfresh ' ' (by simp [hw])
      simp [isGap, isBlank] at this
    · simpa [List.getLast?_append, hwne] using hlast
    · intro hw
      exact hchain.2.2 ' ' (by simp [hgs, spaces, List.getLast?_append, List.getLast?_replicate])
        '#' (by simp [hw]) rfl rfl
    · exact (bound_append.mp hbound.2).2

section Line

variable {indent j : Nat} {R a w : List Char} {fuel : Nat} {s : PlainScan} {c : Cursor}

/-- The last word of a line, the line break after it and the indentation of the next line. -/
theorem takePlainParts_last (hR : Solid R) (hj : j < indent) (ha : ∀ x ∈ a, isGap x = false)
    (hw : Words a) (hcolumn : indent ≤ c.column) (hrest : c.rest = a ++ '\n' :: (spaces j ++ R)) :
    ∃ c', takePlainParts false indent (fuel + 1) s c = .ok (⟨s.text ++ s.gap.text ++ a,
        brokenGap '\n' [], (c.skip a.length).mark⟩, c') ∧ c'.rest = R ∧ c'.column = j := by
  have hgap : ∃ c', takeGap (· < indent) (('\n' :: (spaces j ++ R)).length + 1) {}
      (c.skip a.length) = .ok (brokenGap '\n' [], c') ∧ c'.rest = R ∧ c'.column = j :=
    takeGap_break _ hR (List.forall_mem_singleton.mpr ⟨rfl, rfl⟩)
      (by rw [List.length_cons, List.length_append, length_spaces, List.length_nil]; omega)
      (by simp [hrest])
  obtain ⟨c', hgap, hrest', hcolumn'⟩ := hgap
  have hends : EndsWord ('\n' :: (spaces j ++ R)) := .inl rfl
  have hbreak : isGap '\n' = true := rfl
  refine ⟨c', ?_, hrest', hcolumn'⟩
  rw [takePlainParts_word hends hw.ne_nil hrest ha (hw.bound.before _) (by omega)
    hw.not_comment, hgap]
  simp [hbreak, bind, Except.bind, hcolumn', hj, pure, Except.pure]

/-- A word and the spaces behind it, with more words on the line. -/
theorem takePlainParts_spaces {n : Nat} {t : List Char} (hj : j < indent)
    (ha : ∀ x ∈ a, isGap x = false) (hne : a ≠ []) (hw : Words (a ++ (spaces (n + 1) ++ w)))
    (hsolid : Solid (w ++ '\n' :: t))
    (hcolumn : indent ≤ c.column) (hrest : c.rest = a ++ (spaces (n + 1) ++ (w ++ '\n' :: t))) :
    takePlainParts false indent (fuel + 1) s c = takePlainParts false indent fuel
      ⟨s.text ++ s.gap.text ++ a, { blanks := spaces (n + 1) }, (c.skip a.length).mark⟩
      ((c.skip a.length).skip (n + 1)) := by
  have hbound := (bound_append.mp (hw.bound.before ('\n' :: t))).1
  rw [List.append_assoc] at hbound
  have hends : EndsWord (spaces (n + 1) ++ (w ++ '\n' :: t)) := .inl rfl
  have hgap : takeGap (· < indent) ((spaces (n + 1) ++ (w ++ '\n' :: t)).length + 1) {}
      (c.skip a.length) =
        .ok ({ blanks := spaces (n + 1) }, (c.skip a.length).skip (n + 1)) :=
    takeGap_blanks _ hsolid (by rw [List.length_append, length_spaces]; omega) (by simp [hrest])
  have hsign : a.head? ≠ some '#' := by
    cases a with
    | nil => exact absurd rfl hne
    | cons x r => simpa using hw.not_comment
  have hstill : ¬(c.skip a.length).column + (n + 1) < indent := by simp; omega
  rw [takePlainParts_word hends hne hrest ha hbound (by omega) hsign, hgap]
  simp only [spaces_succ, List.cons_append, List.head?_cons, Option.any_some, bind, Except.bind,
    Cursor.skip_column] at hstill ⊢
  rw [if_pos (by decide), if_neg hstill]

end Line

/-- A line of words, the line break after it and the indentation of the next line. -/
theorem takePlainParts_line {indent j : Nat} {R w : List Char} (hR : Solid R) (hj : j < indent)
    (hparts : Parted isGap w) : ∀ {fuel : Nat} {s : PlainScan} {c : Cursor}, Words w →
      w.length < fuel → indent ≤ c.column → c.rest = w ++ '\n' :: (spaces j ++ R) →
      ∃ s' c', takePlainParts false indent fuel s c = .ok (s', c') ∧
        s'.text = s.text ++ s.gap.text ++ w ∧ s'.gap.broken ∧ c'.rest = R ∧ c'.column = j := by
  induction hparts with
  | @run a ha =>
    intro fuel s c hw hfuel hcolumn hrest
    obtain ⟨fuel, rfl⟩ := Nat.exists_eq_add_one.mpr (Nat.zero_lt_of_lt hfuel)
    obtain ⟨c', hrun, hend⟩ := takePlainParts_last (s := s) hR hj ha hw hcolumn hrest
    exact ⟨_, c', hrun, rfl, rfl, hend⟩
  | @join a g w ha hg hall hfresh _ ih =>
    intro fuel s c hw hfuel hcolumn hrest
    obtain ⟨fuel, rfl⟩ := Nat.exists_eq_add_one.mpr (Nat.zero_lt_of_lt hfuel)
    obtain ⟨⟨n, rfl⟩, hane, hwords⟩ := hw.of_join hg hall hfresh
    have hsolid : Solid (w ++ '\n' :: (spaces j ++ R)) := by
      cases w with
      | nil => exact absurd rfl hwords.ne_nil
      | cons x r => exact solid_cons.mpr (hfresh x rfl)
    rw [List.append_assoc, List.append_assoc] at hrest
    obtain ⟨s', c', hrun, htext, hend⟩ :=
      @ih fuel ⟨s.text ++ s.gap.text ++ a, { blanks := spaces (n + 1) }, (c.skip a.length).mark⟩
        ((c.skip a.length).skip (n + 1)) hwords (by simp at hfuel; omega) (by simp; omega)
        (by simp [hrest, ← List.drop_drop])
    refine ⟨s', c', ?_, ?_, hend⟩
    · rw [takePlainParts_spaces hj ha hane hw hsolid hcolumn hrest, hrun]
    · simp [htext, Gap.text]

/-! ## Whole scalars -/

/-- A text that the printer leaves plain, on a line of its own. -/
theorem takePlain_line {indent j : Nat} {R cs : List Char} (hR : Solid R) (hj : j < indent)
    (hplain : Plain cs) (hne : cs ≠ []) {c : Cursor} (hcolumn : indent ≤ c.column)
    (hrest : c.rest = cs ++ '\n' :: (spaces j ++ R)) :
    ∃ s c', takePlain false indent c = .ok (s, c') ∧ s.text = cs ∧ s.gap.broken ∧ c'.rest = R ∧
      c'.column = j := by
  have hfuel : cs.length < c.rest.length + 1 := by
    rw [hrest, List.length_append]
    omega
  obtain ⟨s, c', hrun, htext, hend⟩ :=
    @takePlainParts_line indent j R cs hR hj (parted isGap cs) (c.rest.length + 1)
      { finish := c.mark } c (hplain.words hne) hfuel hcolumn hrest
  exact ⟨s, c', hrun, by simpa [Gap.text] using htext, hend⟩

/-- The characters of names and of numbers. -/
def nameLetters : List Char := "abcdefghijklmnopqrstuvwxyz_0123456789".toList

/-- A text of these characters. -/
def Lettered (cs : List Char) : Prop := ∀ x ∈ cs, x ∈ nameLetters

instance (cs : List Char) : Decidable (Lettered cs) :=
  decidable_of_iff (cs.all nameLetters.contains) (by simp [Lettered])

/-- A name that can be the key of a mapping. -/
structure IsName (cs : List Char) : Prop where
  ne_nil : cs ≠ []
  letters : Lettered cs
  short : cs.length ≤ 1024

instance (cs : List Char) : Decidable (IsName cs) :=
  decidable_of_iff (cs ≠ [] ∧ Lettered cs ∧ cs.length ≤ 1024)
    ⟨fun ⟨hne, hletters, hshort⟩ => ⟨hne, hletters, hshort⟩,
      fun h => ⟨h.ne_nil, h.letters, h.short⟩⟩

theorem isPrintable_letter : ∀ x ∈ nameLetters, isPrintable x :=
  List.all_eq_true.mp (by decide)

theorem isGap_letter : ∀ x ∈ nameLetters, isGap x = false := by
  have h : nameLetters.all (!isGap ·) := by decide
  simpa using h

/-- None of some characters is among others. -/
theorem disjoint_of_all {as bs : List Char} (h : as.all (!bs.contains ·)) : ∀ x ∈ as, x ∉ bs := by
  simpa using h

/-- What no name begins with and no name holds. -/
theorem letter_ne : ∀ x ∈ nameLetters, x ∉ ":#-.?%\uFEFF".toList :=
  disjoint_of_all (by decide)

theorem atDocumentMark_of_ne {x : Char} {r : List Char} (hdash : x ≠ '-') (hdot : x ≠ '.') :
    atDocumentMark (x :: r) = false := by
  unfold atDocumentMark
  split <;> simp_all

theorem bound_name {cs : List Char} (h : Lettered cs) (t : List Char) : Bound t cs := by
  induction cs with
  | nil => trivial
  | cons x r ih =>
    refine ⟨fun hcolon => ?_, ih fun y hy => h y (by simp [hy])⟩
    exact absurd (by simp [hcolon]) (letter_ne x (h x (by simp)))

/-- A name and the colon behind it. -/
theorem takePlain_name {indent : Nat} {t cs : List Char} (ht : atGap t) (hname : IsName cs)
    {c : Cursor} (hrest : c.rest = cs ++ ':' :: t) :
    takePlain false indent c =
      .ok (⟨cs, {}, (c.skip cs.length).mark⟩, c.skip cs.length) := by
  have hends : EndsWord (':' :: t) := .inr (by simp [endsPlain, ht])
  obtain ⟨x, r, rfl⟩ := List.exists_cons_of_ne_nil hname.ne_nil
  have hx := letter_ne x (hname.letters x (by simp))
  have hmark : atDocumentMark (x :: r ++ ':' :: t) = false :=
    atDocumentMark_of_ne (by rintro rfl; simp at hx) (by rintro rfl; simp at hx)
  have hsign : (x :: r).head? ≠ some '#' := by
    rintro h
    simp_all
  have hcolon : isGap ':' = false := rfl
  rw [takePlain, takePlainParts_word hends hname.ne_nil hrest
    (fun y hy => isGap_letter y (hname.letters y hy)) (bound_name hname.letters _) (fun _ => hmark)
    hsign]
  simp [hcolon, Gap.text]

end CommuteSim.Yaml
