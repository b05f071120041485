import CommuteSim.Proofs.Yaml.Quoted

/-!
# Literal blocks

A literal block keeps the lines of a text. The printer says by the header how many of the breaks at
the end belong to the text, and how far the block is indented where the text does not show it.
-/

namespace CommuteSim.Yaml

/-! ## The header -/

/-- The indicator of a chomping. -/
def Chomping.text : Chomping → List Char
  | .strip => ['-']
  | .clip => []
  | .keep => ['+']

/-- What stands behind the indicator of a block. -/
def headerText (shown : Bool) (chomping : Chomping) : List Char :=
  (if shown then ['2'] else []) ++ chomping.text

theorem takeBlockHeader_text {shown : Bool} {chomping : Chomping} {t : List Char} {c : Cursor}
    (hrest : c.rest = headerText shown chomping ++ '\n' :: t) :
    takeBlockHeader c = .ok ((chomping, if shown then some 2 else none),
      c.skip (headerText shown chomping).length) := by
  cases shown <;> cases chomping <;>
    simp_all [takeBlockHeader, headerText, Chomping.text, Cursor.head, bind, Except.bind, pure,
      Except.pure]

/-! ## Blank lines -/

theorem takeWhile_spaces_append {m : Nat} {t : List Char} :
    (spaces m ++ t).takeWhile (· = ' ') = spaces m ++ t.takeWhile (· = ' ') := by
  induction m with
  | zero => rfl
  | succ m ih => simpa [spaces_succ] using ih

theorem ne_of_isBlank_eq_false {x : Char} (h : isBlank x = false) : x ≠ ' ' ∧ x ≠ '\t' := by
  constructor <;>
    · rintro rfl
      exact absurd h (by decide)

/-- The indentation of a line as far as it belongs to the block. -/
theorem takeBlankLines_indentation {n m : Nat} {t : List Char}
    (ht : ∀ x ∈ t.head?, isBreak x = false) (hm : m = n ∨ m < n ∧ Solid t) (fuel : Nat)
    {c : Cursor} (hcolumn : c.column = 0) (hrest : c.rest = spaces m ++ t) :
    takeBlankLines (some n) (fuel + 1) c = .ok (([], (c.skip m).column, c.mark), c.skip m) := by
  have hroom : min (c.rest.takeWhile (· = ' ')).length (n - c.column) = m := by
    rw [hrest, takeWhile_spaces_append, hcolumn]
    rcases hm with rfl | ⟨hlt, hsolid⟩
    · simp
    · cases t with
      | nil => simp; omega
      | cons x r =>
        obtain ⟨hspace, -⟩ := ne_of_isBlank_eq_false (hsolid.not_blank x rfl)
        simp [hspace]
        omega
  have hafter : (c.skip m).rest = t := by simp [hrest]
  have htab : ¬((c.skip m).column < n ∧ (c.skip m).head = '\t') := by
    rintro ⟨hcolumn', htab⟩
    rw [Cursor.head, hafter] at htab
    rcases hm with rfl | ⟨-, hsolid⟩
    · simp [hcolumn] at hcolumn'
    · cases t with
      | nil => exact absurd htab (by decide)
      | cons x r => exact (ne_of_isBlank_eq_false (hsolid.not_blank x rfl)).2 htab
  have hnext : t.head?.any isBreak = false := by
    cases t with
    | nil => rfl
    | cons x r => exact ht x rfl
  simp only [takeBlankLines, hroom, hafter, hnext, Bool.and_eq_true, decide_eq_true_eq, htab,
    if_false, Bool.false_eq_true, pure, Except.pure]

/-- A break is taken with all that is blank after it. -/
theorem takeBlankLines_break {n fuel : Nat} {b : Char} {r : List Char} {c : Cursor}
    (hp : isPrintable b) (hb : isBreak b) (hrest : c.rest = b :: r) :
    takeBlankLines (some n) (fuel + 1) c = do
      let ((bs, widest, mark), c') ←
        takeBlankLines (some n) fuel ⟨r, c.index + 1, c.line + 1, 0⟩
      return ((b :: bs, max c.column widest, mark), c') := by
  obtain ⟨hspace, htab⟩ := ne_of_isBlank_eq_false (isBlank_of_isBreak hp hb)
  have hroom : min (c.rest.takeWhile (· = ' ')).length (n - c.column) = 0 := by
    simp [hrest, hspace]
  have hnext : c.rest.head?.any isBreak = true := by simp [hrest, hb]
  simp only [takeBlankLines, hroom, Cursor.skip_zero, Cursor.head_of_cons hrest, hnext,
    Cursor.takeBreak_of_isBreak hrest hp hb]
  simp [htab]

/-- Breaks, and the indentation of the line after them as far as it belongs to the block. -/
theorem takeBlankLines_some {n m : Nat} {t : List Char} (ht : ∀ x ∈ t.head?, isBreak x = false)
    (hm : m = n ∨ m < n ∧ Solid t) {bs : List Char} (hbs : ∀ x ∈ bs, isPrintable x ∧ isBreak x) :
    ∀ {fuel : Nat} {c : Cursor}, bs.length < fuel → c.column = 0 →
      c.rest = bs ++ (spaces m ++ t) → ∃ widest mark c',
        takeBlankLines (some n) fuel c = .ok ((bs, widest, mark), c') ∧ c'.rest = t ∧
          c'.column = m := by
  induction bs with
  | nil =>
    intro fuel c hfuel hcolumn hrest
    obtain ⟨fuel, rfl⟩ := Nat.exists_eq_add_one.mpr hfuel
    exact ⟨_, _, c.skip m, takeBlankLines_indentation ht hm fuel hcolumn hrest,
      by simp [hrest], by simp [hcolumn]⟩
  | cons b bs ih =>
    intro fuel c hfuel hcolumn hrest
    obtain ⟨fuel, rfl⟩ := Nat.exists_eq_add_one.mpr (Nat.zero_lt_of_lt hfuel)
    obtain ⟨⟨hp, hb⟩, hbs⟩ := List.forall_mem_cons.mp hbs
    rw [List.cons_append] at hrest
    obtain ⟨widest, mark, c', hrun, hend⟩ :=
      @ih hbs fuel ⟨bs ++ (spaces m ++ t), c.index + 1, c.line + 1, 0⟩
        (Nat.lt_of_succ_lt_succ hfuel) rfl rfl
    refine ⟨max c.column widest, mark, c', ?_, hend⟩
    rw [takeBlankLines_break hp hb hrest, hrun]
    rfl

/-- The indentation of a block that shows it in its first line. -/
theorem takeBlankLines_none {m : Nat} {x : Char} {t : List Char} (hx : isGap x = false)
    {fuel : Nat} {c : Cursor} (hcolumn : c.column = 0) (hrest : c.rest = spaces m ++ x :: t) :
    takeBlankLines none (fuel + 1) c = .ok (([], m, c.mark), c.skip m) := by
  obtain ⟨hblank, hbreak⟩ := isGap_eq_false.mp hx
  obtain ⟨hspace, htab⟩ := ne_of_isBlank_eq_false hblank
  have hroom : (c.rest.takeWhile (· = ' ')).length = m := by
    simp [hrest, takeWhile_spaces_append, hspace]
  have hafter : (c.skip m).rest = x :: t := by simp [hrest]
  have hnext : (c.skip m).rest.head?.any isBreak = false := by
    rw [hafter]
    simp [hbreak]
  simp only [takeBlankLines, hroom, Cursor.head_of_cons hafter, hnext]
  simp [htab, hcolumn, pure, Except.pure]

/-! ## The lines -/

/-- What the printer writes of a text from a line on whose indentation is written already. -/
def blockBody (n : Nat) (w : List Char) : List Char :=
  indented n false w ++ if w.getLast?.any isBreak then [] else ['\n']

theorem blockBody_run {n : Nat} {a : List Char} (ha : ∀ x ∈ a, isBreak x = false) :
    blockBody n a = a ++ ['\n'] := by
  have := @indented_append n a [] ha
  simp only [List.append_nil] at this
  simp [blockBody, this, any_getLast?_eq_false ha, indented]

theorem blockBody_join {n : Nat} {a g w : List Char} (ha : ∀ x ∈ a, isBreak x = false)
    (hg : g ≠ []) (hall : ∀ x ∈ g, isBreak x) (hfresh : ∀ x ∈ w.head?, isBreak x = false) :
    blockBody n (a ++ (g ++ w)) = a ++ (g ++ if w = [] then [] else spaces n ++ blockBody n w) := by
  rw [blockBody, indented_append ha, indented_breaks hg hall, getLast?_join hg]
  by_cases hw : w = []
  · have hlast : isBreak (g.getLast hg) := hall _ (List.getLast_mem hg)
    simp [hw, indented, List.getLast?_eq_some_getLast hg, hlast]
  · simp [hw, indented_true hfresh hw, blockBody]

/-- What is known of a block whose lines are read: its text, with the breaks at the end apart. -/
structure BlockScan.Holds (s s' : BlockScan) (w body ends : List Char) : Prop where
  split : w = body ++ ends
  body_ne : body ≠ []
  breaks : ∀ x ∈ ends, isBreak x
  last : ∀ x ∈ body.getLast?, isBreak x = false
  text : s'.text = s.text ++ s.lineEnd ++ s.blanks ++ body
  tail : s'.lineEnd ++ s'.blanks = if ends = [] then ['\n'] else ends
  lineEnd : s'.lineEnd.length = 1

/-- One line, the break after it and what is blank after that. -/
theorem takeBlockLines_line {n m : Nat} {line t : List Char} {b : Char} {bs : List Char}
    (hline : ∀ x ∈ line, isBreak x = false) (hne : line ≠ [])
    (hbs : ∀ x ∈ b :: bs, isPrintable x ∧ isBreak x) (ht : ∀ x ∈ t.head?, isBreak x = false)
    (hm : m = n ∨ m < n ∧ Solid t) {fuel : Nat} {s : BlockScan} {c : Cursor}
    (hcolumn : c.column = n) (hrest : c.rest = line ++ (b :: bs ++ (spaces m ++ t))) :
    ∃ s' c', takeBlockLines false n (fuel + 1) s c = takeBlockLines false n fuel s' c' ∧
      s'.text = s.text ++ s.lineEnd ++ s.blanks ++ line ∧ s'.lineEnd = [b] ∧ s'.blanks = bs ∧
      c'.rest = t ∧ c'.column = m := by
  obtain ⟨⟨hp, hb⟩, hbs'⟩ := List.forall_mem_cons.mp hbs
  have htake : c.takeWhile (!isBreak ·) = (line, c.skip line.length) :=
    Cursor.skipWhile_of_append hrest (by simpa using hline) (by simp [hb])
  have hafter : (c.skip line.length).rest = b :: (bs ++ (spaces m ++ t)) := by simp [hrest]
  obtain ⟨widest, mark, c', hrun, hrest', hcolumn'⟩ :=
    @takeBlankLines_some n m t ht hm bs hbs'
      ((bs ++ (spaces m ++ t)).length + 1)
      ⟨bs ++ (spaces m ++ t), (c.skip line.length).index + 1, (c.skip line.length).line + 1, 0⟩
      (by rw [List.length_append]; omega) rfl rfl
  refine ⟨{ s.addLine false line with lineEnd := [b], blanks := bs, finish := mark }, c', ?_, ?_,
    rfl, rfl, hrest', hcolumn'⟩
  · have hopen : (decide (c.column = n) && !c.rest.isEmpty) = true := by simp [hcolumn, hrest, hne]
    simp only [takeBlockLines, hopen, if_true, htake, Cursor.takeBreak_of_isBreak hafter hp hb,
      hrun, bind, Except.bind]
  · simp [BlockScan.addLine]

/-- A line with less indentation is not one of the block. -/
theorem takeBlockLines_done {n : Nat} (fuel : Nat) (s : BlockScan) {c : Cursor}
    (hcolumn : c.column < n) : takeBlockLines false n fuel s c = .ok (s, c) := by
  have : c.column ≠ n := by omega
  cases fuel <;> simp [takeBlockLines, this, pure, Except.pure]

/-- The last line of a block, with all the breaks after it, and the line after the block. -/
theorem takeBlockLines_last {n j : Nat} {R a : List Char} {b : Char} {bs : List Char}
    (hR : Solid R) (hj : j < n) (ha : ∀ x ∈ a, isBreak x = false) (hne : a ≠ [])
    (hbs : ∀ x ∈ b :: bs, isPrintable x ∧ isBreak x) {fuel : Nat} {s : BlockScan} {c : Cursor}
    (hcolumn : c.column = n) (hrest : c.rest = a ++ (b :: bs ++ (spaces j ++ R))) :
    ∃ s' c', takeBlockLines false n (fuel + 1) s c = .ok (s', c') ∧ c'.rest = R ∧ c'.column = j ∧
      s'.text = s.text ++ s.lineEnd ++ s.blanks ++ a ∧ s'.lineEnd = [b] ∧ s'.blanks = bs := by
  obtain ⟨s', c', hrun, htext, hend, hblanks, hrest', hcolumn'⟩ :=
    @takeBlockLines_line n j a R b bs ha hne hbs hR.not_break (.inr ⟨hj, hR⟩) fuel s c hcolumn
      hrest
  have hdone := takeBlockLines_done fuel s' (show c'.column < n by omega)
  exact ⟨s', c', hrun.trans hdone, hrest', hcolumn', htext, hend, hblanks⟩

/-- A block of one line, with the breaks of the text after it. -/
theorem BlockScan.Holds.of_line {s s' : BlockScan} {a w ends : List Char} (hsplit : w = a ++ ends)
    (ha : ∀ x ∈ a, isBreak x = false) (hne : a ≠ []) (hends : ∀ x ∈ ends, isBreak x)
    (htext : s'.text = s.text ++ s.lineEnd ++ s.blanks ++ a)
    (htail : s'.lineEnd ++ s'.blanks = if ends = [] then ['\n'] else ends)
    (hlength : s'.lineEnd.length = 1) : s.Holds s' w a ends where
  split := hsplit
  body_ne := hne
  breaks := hends
  last := fun x hx => ha x (List.mem_of_getLast? hx)
  text := htext
  tail := htail
  lineEnd := hlength

/-- A line and the breaks after it come before a block. -/
theorem BlockScan.Holds.behind_line {s s₁ s' : BlockScan} {a w body ends : List Char} {b : Char}
    {bs : List Char} (h : s₁.Holds s' w body ends)
    (htext : s₁.text = s.text ++ s.lineEnd ++ s.blanks ++ a) (hend : s₁.lineEnd = [b])
    (hblanks : s₁.blanks = bs) :
    s.Holds s' (a ++ (b :: bs ++ w)) (a ++ (b :: bs ++ body)) ends where
  split := by simp [h.split]
  body_ne := by simp
  breaks := h.breaks
  last := by
    rw [getLast?_join (List.cons_ne_nil b bs), if_neg h.body_ne]
    exact h.last
  text := by simp [h.text, htext, hend, hblanks]
  tail := h.tail
  lineEnd := h.lineEnd

theorem blockBody_fresh {n : Nat} {w t : List Char} (hne : w ≠ [])
    (hfresh : ∀ x ∈ w.head?, isBreak x = false) :
    ∀ x ∈ (blockBody n w ++ t).head?, isBreak x = false := by
  obtain ⟨x, r, rfl⟩ := List.exists_cons_of_ne_nil hne
  have hx := hfresh x rfl
  simp [blockBody, indented, hx]

/-- The lines of a text, up to the line after the block. -/
theorem takeBlockLines_body {n j : Nat} {R w : List Char} (hR : Solid R) (hj : j < n)
    (hparts : Parted isBreak w) : ∀ {fuel : Nat} {s : BlockScan} {c : Cursor},
      (∀ x ∈ w, isPrintable x) → w ≠ [] → (∀ x ∈ w.head?, isBreak x = false) →
      w.length < fuel → c.column = n → c.rest = blockBody n w ++ (spaces j ++ R) →
      ∃ s' c' body ends, takeBlockLines false n fuel s c = .ok (s', c') ∧ c'.rest = R ∧
        c'.column = j ∧ s.Holds s' w body ends := by
  induction hparts with
  | @run a ha =>
    intro fuel s c hprintable hne hhead hfuel hcolumn hrest
    obtain ⟨fuel, rfl⟩ := Nat.exists_eq_add_one.mpr (Nat.zero_lt_of_lt hfuel)
    rw [blockBody_run ha, List.append_assoc] at hrest
    obtain ⟨s', c', hrun, hrest', hcolumn', htext, hend, hblanks⟩ :=
      @takeBlockLines_last n j R a '\n' [] hR hj ha hne (List.forall_mem_singleton.mpr ⟨rfl, rfl⟩)
        fuel s c hcolumn hrest
    exact ⟨s', c', a, [], hrun, hrest', hcolumn', .of_line (List.append_nil a).symm ha hne nofun
      htext (by simp [hend, hblanks]) (by simp [hend])⟩
  | @join a g w ha hg hall hfresh _ ih =>
    intro fuel s c hprintable hne hhead hfuel hcolumn hrest
    obtain ⟨fuel, rfl⟩ := Nat.exists_eq_add_one.mpr (Nat.zero_lt_of_lt hfuel)
    rw [blockBody_join ha hg hall hfresh, List.append_assoc, List.append_assoc] at hrest
    obtain ⟨b, bs, rfl⟩ := List.exists_cons_of_ne_nil hg
    have hane : a ≠ [] := by
      rintro rfl
      have := hhead b rfl
      simp [hall b (by simp)] at this
    have hgs : ∀ x ∈ b :: bs, isPrintable x ∧ isBreak x := fun x hx =>
      ⟨hprintable x (by simp at hx ⊢; tauto), hall x hx⟩
    by_cases hw : w = []
    · subst hw
      rw [if_pos rfl, List.nil_append] at hrest
      obtain ⟨s', c', hrun, hrest', hcolumn', htext, hend, hblanks⟩ :=
        @takeBlockLines_last n j R a b bs hR hj ha hane hgs fuel s c hcolumn hrest
      exact ⟨s', c', a, b :: bs, hrun, hrest', hcolumn', .of_line (by rw [List.append_nil]) ha
        hane hall htext (by simp [hend, hblanks]) (by simp [hend])⟩
    · rw [if_neg hw, List.append_assoc] at hrest
      obtain ⟨s₁, c₁, hline, htext₁, hend₁, hblanks₁, hrest₁, hcolumn₁⟩ :=
        takeBlockLines_line ha hane hgs (blockBody_fresh hw hfresh) (.inl rfl) hcolumn hrest
      obtain ⟨s', c', body, ends, hrun, hrest', hcolumn', hholds⟩ :=
        @ih fuel s₁ c₁ (fun x hx => hprintable x (by simp [hx])) hw hfresh
          (by simp at hfuel; omega) hcolumn₁ hrest₁
      exact ⟨s', c', a ++ (b :: bs ++ body), ends, hline.trans hrun, hrest', hcolumn',
        hholds.behind_line htext₁ hend₁ hblanks₁⟩

/-! ## Whole blocks -/

/-- The chomping that keeps a text with so many breaks at its end. -/
def chompingOf (breaks length : Nat) : Chomping :=
  if breaks = 0 then .strip else if breaks = 1 && length ≠ 1 then .clip else .keep

/-- Whether the text does not show the indentation. -/
def needsWidth (cs : List Char) : Bool := cs.head?.any fun c => c = ' ' || isBreak c

/-- How many breaks a text ends with, as the printer counts them. -/
def breaksAtEnd (cs : List Char) : Nat := (cs.reverse.takeWhile isBreak).length

theorem breaksAtEnd_append {body ends : List Char} (hends : ∀ x ∈ ends, isBreak x)
    (hlast : ∀ x ∈ body.getLast?, isBreak x = false) :
    breaksAtEnd (body ++ ends) = ends.length := by
  rw [breaksAtEnd, List.reverse_append, List.takeWhile_append_of_pos (by simpa using hends)]
  have : body.reverse.takeWhile isBreak = [] := by
    cases h : body.reverse with
    | nil => rfl
    | cons x r =>
      have := hlast x (by rw [← List.head?_reverse, h]; rfl)
      simp [this]
  simp [this]

theorem literalHeader_eq (cs : List Char) :
    literalHeader cs =
      '|' :: headerText (needsWidth cs) (chompingOf (breaksAtEnd cs) cs.length) := by
  rw [literalHeader, headerText, needsWidth, chompingOf, breaksAtEnd]
  by_cases h0 : (cs.reverse.takeWhile isBreak).length = 0
  · rw [if_pos h0, if_pos h0]
    rfl
  · rw [if_neg h0, if_neg h0]
    by_cases h1 : (decide ((cs.reverse.takeWhile isBreak).length = 1) &&
        decide (cs.length ≠ 1)) = true
    · rw [if_pos h1, if_pos h1]
      rfl
    · rw [if_neg h1, if_neg h1]
      rfl

/-- The breaks at the end of a block that its chomping keeps. -/
def Chomping.kept (s : BlockScan) : Chomping → List Char
  | .strip => []
  | .clip => s.lineEnd
  | .keep => s.lineEnd ++ s.blanks

/-- A block behind its header. -/
theorem takeBlock_header {shown : Bool} {chomping : Chomping} {k : Nat} {t : List Char} {c : Cursor}
    (hrest : c.rest = '|' :: headerText shown chomping ++ '\n' :: t) :
    ∃ c₁ : Cursor, c₁.rest = t ∧ c₁.column = 0 ∧ takeBlock false k c = do
      let given := if shown then some (k + 2) else none
      let ((blanks, widest, finish), c₂) ← takeBlankLines given (t.length + 1) c₁
      let (s, c₃) ← takeBlockLines false (given.getD (max widest (max (k + 1) 1)))
        (c₂.rest.length + 1) { blanks := blanks, finish := finish } c₂
      return ((.scalar .literal (String.ofList (s.text ++ chomping.kept s)), s.finish), c₃) := by
  have hheader : takeBlockHeader (c.skip 1) = .ok ((chomping, if shown then some 2 else none),
      (c.skip 1).skip (headerText shown chomping).length) :=
    takeBlockHeader_text (t := t) (by simp [hrest])
  obtain ⟨c₀, hc₀⟩ : ∃ c₀, (c.skip 1).skip (headerText shown chomping).length = c₀ := ⟨_, rfl⟩
  have hrest₀ : c₀.rest = '\n' :: t := by simp [← hc₀, hrest, Nat.add_comm 1]
  rw [hc₀] at hheader
  have hblanks : c₀.skipWhile isBlank = c₀ := by
    have : isBlank '\n' = false := rfl
    simp [Cursor.skipWhile, Cursor.takeWhile, hrest₀, this]
  have hbreak := Cursor.takeBreak_of_isBreak hrest₀ rfl rfl
  refine ⟨c₀.skipBreak, by simp [Cursor.skipBreak, hbreak], by simp [Cursor.skipBreak, hbreak], ?_⟩
  have hsign : c₀.head ≠ '#' := by simp [Cursor.head_of_cons hrest₀]
  have hend : atBreakOrEnd c₀.rest = true := by simp [hrest₀, atBreakOrEnd, isBreak]
  have hlength : c₀.skipBreak.rest.length = t.length := by simp [Cursor.skipBreak, hbreak]
  have hgiven : (if shown then some 2 else none).map (fun w =>
      if 0 ≤ (k : Int) then (k : Int).toNat + w else w) = if shown then some (k + 2) else none := by
    cases shown <;> simp
  have hparent : ((k : Int) + 1).toNat = k + 1 := by omega
  simp only [takeBlock, hheader, hblanks, hsign, bind, Except.bind, if_false, hend, Bool.not_true,
    Bool.false_eq_true, hlength, hgiven, hparent]
  rfl

theorem kept_of_holds {s s' : BlockScan} {w body ends : List Char} (h : s.Holds s' w body ends)
    {length : Nat} (hlength : length ≠ 1 ∨ ends.length ≠ 1) :
    (chompingOf ends.length length).kept s' = ends := by
  obtain ⟨b, hb⟩ := List.length_eq_one_iff.mp h.lineEnd
  have htail := h.tail
  by_cases hne : ends = []
  · simp [hne, chompingOf, Chomping.kept]
  · rw [if_neg hne] at htail
    have h0 : ends.length ≠ 0 := by simpa using hne
    by_cases h1 : ends.length = 1
    · have hblanks : s'.blanks = [] := by
        have := congrArg List.length htail
        simp [hb, h1] at this
        exact this
      have hclip : (decide (ends.length = 1) && decide (length ≠ 1)) = true := by
        rcases hlength with h | h <;> simp_all
      rw [hblanks, List.append_nil] at htail
      rw [chompingOf, if_neg h0, if_pos hclip, Chomping.kept, htail]
    · rw [chompingOf, if_neg h0, if_neg (by simp [h1]), Chomping.kept, htail]

section Literal

variable {k j : Nat} {R front w : List Char}

/-- A text of breaks only: the block has no line with text, and the header keeps all of them. -/
theorem takeBlock_breaks (hR : Solid R) (hj : j ≤ k) (hne : front ≠ [])
    (hfront : ∀ x ∈ front, isPrintable x ∧ isBreak x) {c : Cursor}
    (hrest : c.rest = literalHeader front ++ '\n' :: (indented (k + 2) true front ++
      ((if front.getLast?.any isBreak then [] else ['\n']) ++ (spaces j ++ R)))) :
    ∃ mark c', takeBlock false k c = .ok ((.scalar .literal (String.ofList front), mark), c') ∧
      c'.rest = R ∧ c'.column = j := by
  have hbreaks : ∀ x ∈ front, isBreak x := fun x hx => (hfront x hx).2
  have hshown : needsWidth front = true := by
    obtain ⟨b, bs, rfl⟩ := List.exists_cons_of_ne_nil hne
    simp [needsWidth, hbreaks b (by simp)]
  have hkeep : chompingOf (breaksAtEnd front) front.length = .keep := by
    have hcount : breaksAtEnd front = front.length :=
      @breaksAtEnd_append [] front hbreaks (by simp)
    have hpos : front.length ≠ 0 := by simpa using hne
    rw [chompingOf, hcount, if_neg hpos, if_neg (by simp)]
  have hlast : front.getLast?.any isBreak = true := by
    simp [List.getLast?_eq_some_getLast hne, hbreaks _ (List.getLast_mem hne)]
  have hindented : indented (k + 2) true front = front := by
    simpa [indented] using @indented_breaks (k + 2) true front [] hne hbreaks
  rw [literalHeader_eq, hindented, if_pos hlast, List.nil_append, hshown, hkeep] at hrest
  obtain ⟨c₁, hrest₁, hcolumn₁, hrun⟩ := takeBlock_header (k := k) hrest
  obtain ⟨widest, mark, c₂, hblank, hrest₂, hcolumn₂⟩ :=
    takeBlankLines_some (n := k + 2) hR.not_break (.inr ⟨by omega, hR⟩) hfront
      (show front.length < (front ++ (spaces j ++ R)).length + 1 by
        rw [List.length_append]; omega) hcolumn₁ hrest₁
  refine ⟨mark, c₂, ?_, hrest₂, hcolumn₂⟩
  have hdone := takeBlockLines_done (n := k + 2) (c₂.rest.length + 1)
    { blanks := front, finish := mark } (show c₂.column < k + 2 by omega)
  rw [hrun]
  simp only [if_true, hblank, Option.getD_some, hdone, bind, Except.bind, pure, Except.pure]
  simp [Chomping.kept]

/-- A block as it is written: the breaks at the beginning, and the lines from the first one with
text on. -/
theorem layout_literal (hfront : ∀ x ∈ front, isBreak x) (hne : w ≠ [])
    (hw : ∀ x ∈ w.head?, isBreak x = false) (t : List Char) :
    indented (k + 2) true (front ++ w) ++
        ((if (front ++ w).getLast?.any isBreak then [] else ['\n']) ++ t) =
      front ++ (spaces (k + 2) ++ (blockBody (k + 2) w ++ t)) := by
  have hlast : (front ++ w).getLast? = w.getLast? := by
    simp [List.getLast?_append, List.getLast?_eq_some_getLast hne]
  have hindented : indented (k + 2) true (front ++ w) = front ++ indented (k + 2) true w := by
    cases hf : front with
    | nil => rfl
    | cons b bs => exact indented_breaks (by simp) (hf ▸ hfront)
  rw [hlast, hindented, indented_true hw hne]
  simp [blockBody]

/-- The blank lines at the beginning of a block and the indentation of the first line with text,
which the header tells if the text does not show it. -/
theorem takeBlankLines_front (hfront : ∀ x ∈ front, isPrintable x ∧ isBreak x) (hne : w ≠ [])
    (hw : ∀ x ∈ w.head?, isBreak x = false) (hprintable : ∀ x ∈ w, isPrintable x)
    (t : List Char) {c : Cursor} (hcolumn : c.column = 0)
    (hrest : c.rest = front ++ (spaces (k + 2) ++ (blockBody (k + 2) w ++ t))) :
    ∃ widest mark c', takeBlankLines (if needsWidth (front ++ w) then some (k + 2) else none)
        ((front ++ (spaces (k + 2) ++ (blockBody (k + 2) w ++ t))).length + 1) c =
          .ok ((front, widest, mark), c') ∧
      (if needsWidth (front ++ w) then some (k + 2) else none).getD (max widest (max (k + 1) 1)) =
        k + 2 ∧
      c'.rest = blockBody (k + 2) w ++ t ∧ c'.column = k + 2 := by
  cases hshown : needsWidth (front ++ w) with
  | true =>
    have hfuel : front.length <
        (front ++ (spaces (k + 2) ++ (blockBody (k + 2) w ++ t))).length + 1 := by
      rw [List.length_append]
      omega
    obtain ⟨widest, mark, c', hblank, hend⟩ :=
      takeBlankLines_some (blockBody_fresh hne hw) (.inl rfl) hfront hfuel hcolumn hrest
    exact ⟨widest, mark, c', hblank, rfl, hend⟩
  | false =>
    have hnone : front = [] := by
      cases hf : front with
      | nil => rfl
      | cons b bs =>
        subst hf
        simp [needsWidth, (hfront b (by simp)).2] at hshown
    subst hnone
    obtain ⟨x, r, rfl⟩ := List.exists_cons_of_ne_nil hne
    have hx : isGap x = false := by
      have hspace : x ≠ ' ' := by
        rintro rfl
        exact absurd hshown (by simp [needsWidth])
      simp [isGap, isBlank_of_isPrintable (hprintable x (by simp)), hspace, hw x rfl]
    obtain ⟨t', ht⟩ : ∃ t', blockBody (k + 2) (x :: r) ++ t = x :: t' := by
      simp [blockBody, indented, hw x rfl]
    rw [List.nil_append, ht] at hrest
    refine ⟨k + 2, c.mark, c.skip (k + 2), takeBlankLines_none hx hcolumn hrest, ?_, ?_, ?_⟩
    · simp
    · simp [hrest, ht]
    · simp [hcolumn]

/-- A text with a line that is not blank. -/
theorem takeBlock_lines (hR : Solid R) (hj : j ≤ k)
    (hfront : ∀ x ∈ front, isPrintable x ∧ isBreak x) (hne : w ≠ [])
    (hw : ∀ x ∈ w.head?, isBreak x = false) (hprintable : ∀ x ∈ w, isPrintable x) {c : Cursor}
    (hrest : c.rest = literalHeader (front ++ w) ++ '\n' :: (indented (k + 2) true (front ++ w) ++
      ((if (front ++ w).getLast?.any isBreak then [] else ['\n']) ++ (spaces j ++ R)))) :
    ∃ mark c', takeBlock false k c =
        .ok ((.scalar .literal (String.ofList (front ++ w)), mark), c') ∧
      c'.rest = R ∧ c'.column = j := by
  rw [literalHeader_eq, layout_literal (fun x hx => (hfront x hx).2) hne hw] at hrest
  obtain ⟨c₁, hrest₁, hcolumn₁, hrun⟩ := takeBlock_header (k := k) hrest
  obtain ⟨widest, mark, c₂, hblank, hindent, hrest₂, hcolumn₂⟩ :=
    takeBlankLines_front hfront hne hw hprintable (spaces j ++ R) hcolumn₁ hrest₁
  have hfuel : w.length < c₂.rest.length + 1 := by
    have := length_le_indented (k + 2) w false
    simp [hrest₂, blockBody]
    omega
  obtain ⟨s', c', body, ends, hlines, hrest', hcolumn', hholds⟩ :=
    takeBlockLines_body (s := { blanks := front, finish := mark }) hR
      (show j < k + 2 by omega) (parted isBreak w) hprintable hne hw hfuel hcolumn₂ hrest₂
  have hcount : breaksAtEnd (front ++ w) = ends.length := by
    rw [hholds.split, ← List.append_assoc]
    refine breaksAtEnd_append hholds.breaks fun x hx => hholds.last x ?_
    simpa [List.getLast?_append, List.getLast?_eq_some_getLast hholds.body_ne] using hx
  have hkept : (chompingOf ends.length (front ++ w).length).kept s' = ends := by
    refine kept_of_holds hholds ?_
    have := List.length_pos_iff.mpr hholds.body_ne
    simp only [hholds.split, List.length_append]
    omega
  refine ⟨s'.finish, c', ?_, hrest', hcolumn'⟩
  rw [hrun]
  simp only [hblank, hindent, hlines, bind, Except.bind, pure, Except.pure, hcount, hkept,
    hholds.text]
  simp [hholds.split]

/-- A literal block is read back. The breaks at the beginning of its text are blank lines before the
first one with text. -/
theorem takeBlock_literal {cs : List Char} (hR : Solid R) (hj : j ≤ k) (h : allowsLiteral cs)
    {c : Cursor} (hrest : c.rest = literalHeader cs ++ '\n' :: (indented (k + 2) true cs ++
      ((if cs.getLast?.any isBreak then [] else ['\n']) ++ (spaces j ++ R)))) :
    ∃ mark c', takeBlock false k c = .ok ((.scalar .literal (String.ofList cs), mark), c') ∧
      c'.rest = R ∧ c'.column = j := by
  simp only [allowsLiteral, Bool.and_eq_true, Bool.not_eq_true', List.all_eq_true] at h
  obtain ⟨⟨⟨hne, hprintable⟩, -⟩, -⟩ := h
  obtain ⟨front, w, rfl, hfront, hw⟩ : ∃ front w, cs = front ++ w ∧ (∀ x ∈ front, isBreak x) ∧
      ∀ x ∈ w.head?, isBreak x = false :=
    ⟨cs.takeWhile isBreak, cs.dropWhile isBreak, List.takeWhile_append_dropWhile.symm,
      fun x hx => List.mem_takeWhile_imp hx, head?_dropWhile isBreak cs⟩
  obtain ⟨hprintable, hprintable'⟩ := List.forall_mem_append.mp hprintable
  have hfront' : ∀ x ∈ front, isPrintable x ∧ isBreak x :=
    fun x hx => ⟨hprintable x hx, hfront x hx⟩
  by_cases hempty : w = []
  · subst hempty
    rw [List.append_nil] at hne hrest ⊢
    exact takeBlock_breaks hR hj (by simpa using hne) hfront' hrest
  · exact takeBlock_lines hR hj hfront' hempty hw hprintable' hrest

end Literal

end CommuteSim.Yaml
