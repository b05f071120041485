import CommuteSim.Proofs.Yaml.Block
import CommuteSim.Proofs.Yaml.Plain
import CommuteSim.Yaml.Token.Lexer

/-!
# The tokens of an entry

What the lexer has made of a text is its outline: the kinds of the tokens so far and the columns of
the collections that are open. The lemmas say how the outline grows when the lexer takes a key with
its colon, and when it takes a scalar that the printer has written behind a colon.
-/

namespace CommuteSim.Yaml

/-! ## Outlines -/

/-- The kinds of the tokens so far, and the columns of the open block collections, the innermost
first and -1 at the bottom. -/
structure Outline where
  kinds : List TokenKind
  columns : List Int

namespace Outline

/-- The collections to the right of a column closed. -/
def close (o : Outline) (j : Int) : Outline where
  kinds := o.kinds ++ (o.columns.takeWhile (j < ·)).map fun _ => .blockEnd
  columns := o.columns.dropWhile (j < ·)

/-- With further tokens. -/
def add (o : Outline) (kinds : List TokenKind) : Outline := { o with kinds := o.kinds ++ kinds }

/-- With a mapping open at a column. -/
def opened (o : Outline) (k : Int) : Outline :=
  if o.columns.head?.any (· < k) then ⟨o.kinds ++ [.blockMappingStart], k :: o.columns⟩ else o

/-- No collection is open to the right of a column. -/
def Within (o : Outline) (k : Int) : Prop := ∀ i ∈ o.columns.head?, i ≤ k

/-- Inside the bottom. -/
def Grounded (o : Outline) : Prop := -1 ∈ o.columns

variable {o : Outline} {j k : Int} {ks ks' : List TokenKind}

@[simp] theorem add_columns : (o.add ks).columns = o.columns := rfl

@[simp] theorem add_add : (o.add ks).add ks' = o.add (ks ++ ks') := by simp [add]

@[simp] theorem grounded_add : (o.add ks).Grounded ↔ o.Grounded := .rfl

@[simp] theorem within_add : (o.add ks).Within k ↔ o.Within k := .rfl

theorem close_of_within (h : o.Within k) : o.close k = o := by
  obtain ⟨kinds, columns⟩ := o
  cases columns with
  | nil => simp [close]
  | cons i is =>
    have : ¬k < i := by simpa using h i rfl
    simp [close, this]

theorem within_close : (o.close k).Within k := by
  intro i hi
  have := List.head?_dropWhile_not (k < ·) o.columns
  rw [show o.columns.dropWhile (k < ·) = (o.close k).columns from rfl, Option.mem_def.mp hi] at this
  simpa using this

theorem Grounded.close (h : o.Grounded) (hk : -1 ≤ k) : (o.close k).Grounded := by
  have hmem : (-1 : Int) ∈ o.columns.takeWhile (k < ·) ++ o.columns.dropWhile (k < ·) := by
    rwa [List.takeWhile_append_dropWhile]
  rcases List.mem_append.mp hmem with h | h
  · have := List.mem_takeWhile_imp h
    simp only [decide_eq_true_eq] at this
    omega
  · exact h

theorem Grounded.ne_nil (h : o.Grounded) : o.columns ≠ [] := List.ne_nil_of_mem h

/-- A column further left closes what is left. -/
theorem close_close (h : j ≤ k) : (o.close k).close j = o.close j := by
  obtain ⟨kinds, columns⟩ := o
  induction columns generalizing kinds with
  | nil => simp [close]
  | cons i is ih =>
    by_cases hk : k < i
    · have hj : j < i := by omega
      have := ih (kinds ++ [.blockEnd])
      simpa [close, hk, hj] using this
    · simp [close, hk]

theorem Within.mono (h : o.Within j) (hj : j ≤ k) : o.Within k :=
  fun i hi => Int.le_trans (h i hi) hj

theorem within_opened (h : o.Within k) : (o.opened k).Within k := by
  by_cases hk : o.columns.head?.any (· < k)
  · simp [opened, hk, Within]
  · rwa [opened, if_neg hk]

theorem Grounded.opened (h : o.Grounded) : (o.opened k).Grounded := by
  rw [Outline.opened]
  split
  · exact List.mem_cons_of_mem _ h
  · exact h

end Outline

/-! ## Styles -/

/-- The style that a text is written in can hold it. -/
theorem settled_allows (style : ScalarStyle) (cs : List Char) :
    match style.settled cs with
    | .plain => allowsPlain cs
    | .singleQuoted => allowsSingleQuotes cs
    | .doubleQuoted => True
    | .literal => allowsLiteral cs
    | .folded => False := by
  cases style <;> simp only [ScalarStyle.settled]
  · by_cases hplain : allowsPlain cs
    · simp [hplain]
    · by_cases hsingle : allowsSingleQuotes cs <;> simp [hplain, hsingle]
  · by_cases hsingle : allowsSingleQuotes cs <;> simp [hsingle]
  · by_cases hliteral : allowsLiteral cs <;> simp [hliteral]
  · by_cases hliteral : allowsLiteral cs <;> simp [hliteral]

/-- A style that keeps a text: a plain scalar is not empty, and single quotes hold no line feed. -/
def ScalarStyle.Keeps (style : ScalarStyle) (cs : List Char) : Prop :=
  (style.settled cs = .plain → cs ≠ []) ∧ (style.settled cs = .singleQuoted → '\n' ∉ cs)

namespace Lexer

/-! ## White space before a token -/

/-- A text whose first character begins a token wherever it stands. -/
def Fresh (R : List Char) : Prop := ∀ x ∈ R.head?, isGap x = false ∧ x ≠ '#' ∧ x ≠ '\uFEFF'

@[simp] theorem fresh_cons {x : Char} {r : List Char} :
    Fresh (x :: r) ↔ isGap x = false ∧ x ≠ '#' ∧ x ≠ '\uFEFF' := by
  simp [Fresh]

/-- The cursor behind the blanks and the comment of a line. -/
def behindBlanks (l : Lexer) : Cursor :=
  let c := l.cursor
  let c := if c.column = 0 && c.head = '\uFEFF' then c.skip 1 else c
  let c := c.skipWhile fun x => x = ' ' || (x = '\t' && (l.inFlow || !l.keyAllowed))
  if c.head = '#' then c.skipComment else c

theorem skipSpace_succ (fuel : Nat) (l : Lexer) :
    skipSpace (fuel + 1) l =
      if l.behindBlanks.rest.head?.any isBreak then
        skipSpace fuel { l with
          cursor := l.behindBlanks.skipBreak, keyAllowed := l.keyAllowed || !l.inFlow }
      else { l with cursor := l.behindBlanks } := rfl

/-- White space changes nothing but the cursor and whether a key may follow. -/
theorem exists_skipSpace (fuel : Nat) (l : Lexer) :
    ∃ c b, skipSpace fuel l = { l with cursor := c, keyAllowed := b } := by
  induction fuel generalizing l with
  | zero => exact ⟨l.cursor, l.keyAllowed, rfl⟩
  | succ fuel ih =>
    rw [skipSpace_succ]
    split
    · obtain ⟨c, b, h⟩ := ih { l with
        cursor := l.behindBlanks.skipBreak, keyAllowed := l.keyAllowed || !l.inFlow }
      exact ⟨c, b, h⟩
    · exact ⟨_, _, rfl⟩

/-- Spaces are skipped up to what begins a token or a line. -/
theorem behindBlanks_spaces {m : Nat} {R : List Char} {l : Lexer}
    (hR : ∀ x ∈ R.head?, isBlank x = false ∧ x ≠ '#' ∧ x ≠ '\uFEFF')
    (hrest : l.cursor.rest = spaces m ++ R) : l.behindBlanks = l.cursor.skip m := by
  have hmark : l.cursor.head ≠ '\uFEFF' := by
    cases m with
    | zero =>
      cases R with
      | nil => simp [Cursor.head, hrest]
      | cons x r => simpa [Cursor.head, hrest] using (hR x rfl).2.2
    | succ m => simp [Cursor.head, hrest, spaces_succ]
  have htake := Cursor.skipWhile_of_append
    (p := fun x => x = ' ' || (x = '\t' && (l.inFlow || !l.keyAllowed))) hrest
    (fun x hx => by simp [List.eq_of_mem_replicate hx])
    (fun x hx => by
      have := (hR x hx).1
      simp only [isBlank, Bool.or_eq_false_iff, decide_eq_false_iff_not] at this
      simp [this])
  have hafter : (l.cursor.skip m).rest = R := by simp [hrest]
  have hsign : (l.cursor.skip m).head ≠ '#' := by
    rw [Cursor.head, hafter]
    cases R with
    | nil => decide
    | cons x r => exact (hR x rfl).2.1
  rw [length_spaces] at htake
  simp only [behindBlanks, hmark, Bool.and_eq_true, decide_eq_true_eq, and_false, if_false,
    Cursor.skipWhile, htake, hsign]

/-- Indentation before a token. -/
theorem skipSpace_spaces {R : List Char} (hR : Fresh R) {m fuel : Nat} {l : Lexer}
    (hrest : l.cursor.rest = spaces m ++ R) :
    skipSpace (fuel + 1) l = { l with cursor := l.cursor.skip m } := by
  have hbehind := behindBlanks_spaces
    (fun x hx => ⟨(isGap_eq_false.mp (hR x hx).1).1, (hR x hx).2⟩) hrest
  have hafter : (l.cursor.skip m).rest = R := by simp [hrest]
  have hbreak : R.head?.any isBreak = false := by
    cases R with
    | nil => rfl
    | cons x r => exact (isGap_eq_false.mp (hR x rfl).1).2
  rw [skipSpace_succ, hbehind, hafter, hbreak]
  rfl

/-- A line break and the indentation of the next line. -/
theorem skipSpace_line {R : List Char} (hR : Fresh R) {m fuel : Nat} {l : Lexer}
    (hrest : l.cursor.rest = '\n' :: (spaces m ++ R)) :
    ∃ c, skipSpace (fuel + 2) l = { l with cursor := c, keyAllowed := l.keyAllowed || !l.inFlow } ∧
      c.rest = R ∧ c.column = m := by
  have hbehind : l.behindBlanks = l.cursor := by
    simpa using @behindBlanks_spaces 0 ('\n' :: (spaces m ++ R)) l (by simp [isBlank]) hrest
  have hbreak := Cursor.takeBreak_of_isBreak hrest rfl rfl
  rw [skipSpace_succ, hbehind, if_pos (by simp [hrest, isBreak]), skipSpace_spaces hR
    (m := m) (by simp [Cursor.skipBreak, hbreak])]
  exact ⟨_, rfl, by simp [Cursor.skipBreak, hbreak], by simp [Cursor.skipBreak, hbreak]⟩

/-! ## States of the lexer -/

/-- What the lexer has made of the text so far. -/
def outline (l : Lexer) : Outline where
  kinds := l.tokens.toList.map (·.kind)
  columns := l.indent :: l.outerIndents

/-- Outside flow collections, with no key pending. -/
structure Calm (l : Lexer) : Prop where
  block : l.outerPlaces = []
  idle : l.place.possible = false

/-- The state in which the next token is taken. -/
def arrived (l : Lexer) : Lexer := skipSpace (l.cursor.rest.length + 1) l

/-- The lexer comes to `R` at a column next, where a key may begin; with the collections closed
that end there its outline is `o`. -/
structure Reaches (l : Lexer) (R : List Char) (j : Nat) (o : Outline) : Prop extends Calm l where
  rest : l.arrived.cursor.rest = R
  column : l.arrived.cursor.column = j
  keyAllowed : l.arrived.keyAllowed = true
  closed : l.outline.close j = o
  grounded : l.outline.Grounded

/-- The lexer is behind the colon of a key in a mapping at column `k`. -/
structure Behind (l : Lexer) (t : List Char) (k : Nat) (o : Outline) : Prop extends Calm l where
  rest : l.cursor.rest = t
  column : k < l.cursor.column
  keyAllowed : l.keyAllowed = false
  outline : l.outline = o
  indent : l.indent = k
  grounded : o.Grounded

section

variable (l : Lexer) (j : Int)

@[simp] theorem outline_arrived : l.arrived.outline = l.outline := by
  obtain ⟨c, b, h⟩ := exists_skipSpace (l.cursor.rest.length + 1) l
  rw [arrived, h]
  rfl

@[simp] theorem place_arrived : l.arrived.place = l.place := by
  obtain ⟨c, b, h⟩ := exists_skipSpace (l.cursor.rest.length + 1) l
  rw [arrived, h]

@[simp] theorem outerPlaces_arrived : l.arrived.outerPlaces = l.outerPlaces := by
  obtain ⟨c, b, h⟩ := exists_skipSpace (l.cursor.rest.length + 1) l
  rw [arrived, h]

@[simp] theorem cursor_closeBlocks : (l.closeBlocks j).cursor = l.cursor := by
  rw [closeBlocks]
  split <;> rfl

@[simp] theorem place_closeBlocks : (l.closeBlocks j).place = l.place := by
  rw [closeBlocks]
  split <;> rfl

@[simp] theorem outerPlaces_closeBlocks : (l.closeBlocks j).outerPlaces = l.outerPlaces := by
  rw [closeBlocks]
  split <;> rfl

@[simp] theorem keyAllowed_closeBlocks : (l.closeBlocks j).keyAllowed = l.keyAllowed := by
  rw [closeBlocks]
  split <;> rfl

end

theorem drop_takeWhile (p : Int → Bool) (is : List Int) :
    is.drop (is.takeWhile p).length = is.dropWhile p := by
  have := congrArg (List.drop (is.takeWhile p).length) (List.takeWhile_append_dropWhile (p := p)
    (l := is))
  rw [List.drop_left] at this
  exact this.symm

theorem outline_closeBlocks {l : Lexer} (h : l.outerPlaces = []) (hg : l.outline.Grounded) {j : Int}
    (hj : -1 ≤ j) : (l.closeBlocks j).outline = l.outline.close j := by
  have hflow : l.inFlow = false := by simp [inFlow, h]
  have hne := (hg.close hj).ne_nil
  obtain ⟨i, is, his⟩ := List.exists_cons_of_ne_nil hne
  have hdrop : (l.indent :: l.outerIndents).dropWhile (j < ·) = i :: is := his
  simp only [closeBlocks, hflow, Bool.false_eq_true, if_false, outline, drop_takeWhile, hdrop,
    List.headD_cons, List.drop_succ_cons, List.drop_zero, Outline.close]
  simp

theorem closeBlocks_of_within {l : Lexer} {j : Int} (h : l.outline.Within j) :
    l.closeBlocks j = l := by
  have : ¬j < l.indent := by simpa using h l.indent rfl
  simp [closeBlocks, this]

/-! ## Taking a token -/

/-- The next token where the lexer is. -/
def token (l : Lexer) : Scan Lexer :=
  let c := l.cursor
  let gapNext := atGap (c.rest.drop 1)
  if c.rest.isEmpty then l.endToken
  else if c.column = 0 && c.head = '%' then l.directiveToken
  else if c.column = 0 && atDocumentMark c.rest then l.documentMark
  else match c.head with
    | '[' => l.flowStart .flowSequenceStart
    | '\x7b' => l.flowStart .flowMappingStart
    | ']' => l.flowEnd .flowSequenceEnd
    | '\x7d' => l.flowEnd .flowMappingEnd
    | ',' => l.flowEntry
    | '*' => l.anchorToken .reference
    | '&' => l.anchorToken .anchor
    | '!' => l.keyToken (takeTag l.inFlow)
    | '\'' => l.keyToken (takeQuoted true)
    | '"' => l.keyToken (takeQuoted false)
    | x =>
      if x = '-' && gapNext then l.blockEntry
      else if x = '?' && (l.inFlow || gapNext) then l.explicitKey
      else if x = ':' && (l.inFlow || gapNext) then l.value
      else if x = '|' && !l.inFlow then l.blockToken false
      else if x = '>' && !l.inFlow then l.blockToken true
      else if startsPlain l.inFlow c then l.plainToken
      else c.fail "a character that begins no token"

theorem next_eq (l : Lexer) :
    l.next = l.arrived.expireKeys >>= fun l => (l.closeBlocks l.cursor.column).token := rfl

/-- No pending key is too far back. -/
theorem expireKeys_of_near {l : Lexer} (hblock : l.outerPlaces = [])
    (hnear : KeyPlace.isStale l.place l.cursor = false) : l.expireKeys = .ok l := by
  cases l
  simp_all [expireKeys, expire, bind, Except.bind, pure, Except.pure]

theorem expireKeys_of_calm {l : Lexer} (h : l.Calm) : l.expireKeys = .ok l :=
  expireKeys_of_near h.block (by simp [KeyPlace.isStale, h.idle])

/-- There is no pending key to give up. -/
theorem dropKey_of_calm {l : Lexer} (h : l.Calm) : l.dropKey = .ok l := by
  obtain ⟨hblock, hidle⟩ := h
  obtain ⟨cursor, tokens, indent, outerIndents, keyAllowed, place, outerPlaces⟩ := l
  cases place
  simp_all [dropKey]

theorem next_of_calm {l : Lexer} (h : l.Calm) :
    l.next = (l.arrived.closeBlocks l.arrived.cursor.column).token := by
  rw [next_eq, expireKeys_of_calm ⟨by simp [h.block], by simp [h.idle]⟩]
  rfl

theorem startsPlain_of {c : Cursor} {x : Char} {t : List Char} (hrest : c.rest = x :: t)
    (hgap : isGap x = false) (hindicator : x ∉ "#,[]\x7b\x7d&*!|>'\"%@`".toList)
    (hgo : x = '?' ∨ x = ':' ∨ x = '-' → atGap t = false) : startsPlain false c = true := by
  have hat : atGap (x :: t) = false := hgap
  by_cases hx : x = '?' ∨ x = ':' ∨ x = '-'
  · have hnext := hgo hx
    have hblank : t.head?.any isBlank = false := by
      cases t with
      | nil => rfl
      | cons y s =>
        simp only [atGap, Bool.or_eq_false_iff] at hnext
        exact hnext.1
    rcases hx with rfl | rfl | rfl <;>
      simp [startsPlain, hrest, Cursor.head, hnext, hblank]
  · have hcontains : "-?:,[]\x7b\x7d#&*!|>'\"%@`".toList.contains x = false := by
      simp_all
    rw [startsPlain, Cursor.head_of_cons hrest, hcontains, hrest, hat]
    rfl

theorem startsIndicator_letter : ∀ x ∈ nameLetters, ∀ r, startsIndicator (x :: r) = false := by
  have hlist : ∀ x ∈ nameLetters, x ∉ "#,[]\x7b\x7d&*!|>'\"%@`?:-.".toList :=
    disjoint_of_all (by decide)
  intro x hx r
  have := hlist x hx
  simp_all [startsIndicator]

section Indicators

variable {x : Char} {r : List Char}

theorem not_mem_of_startsIndicator (h : startsIndicator (x :: r) = false) :
    x ∉ "#,[]\x7b\x7d&*!|>'\"%@`".toList := by
  simp only [startsIndicator, Bool.or_eq_false_iff] at h
  simpa using h.1.1.1

/-- A question mark, a colon or a dash that is no indicator has no gap behind it. -/
theorem atGap_of_startsIndicator (h : startsIndicator (x :: r) = false)
    (hx : x = '?' ∨ x = ':' ∨ x = '-') (t : List Char) : atGap (r ++ t) = false := by
  simp only [startsIndicator, Bool.or_eq_false_iff] at h
  have hnext := h.1.1.2
  have hr : atGap r = false := by
    rw [atGap_eq]
    rcases hx with rfl | rfl | rfl <;> simpa using hnext
  exact atGap_append hr t

/-- A line that begins with a letter is no mark of a document. -/
theorem atDocumentMark_letter (h : x ∈ nameLetters) : atDocumentMark (x :: r) = false := by
  have hletter := letter_ne x h
  exact atDocumentMark_of_ne (by rintro rfl; simp at hletter) (by rintro rfl; simp at hletter)

end Indicators

/-- A text that begins like a plain scalar is taken as one. -/
theorem token_plain {l : Lexer} (hblock : l.outerPlaces = []) {x : Char} {r t : List Char}
    (hstart : startsIndicator (x :: r) = false) (hgap : isGap x = false)
    (hrest : l.cursor.rest = x :: (r ++ t))
    (hzero : l.cursor.column = 0 → x ∈ nameLetters) : l.token = l.plainToken := by
  have hflow : l.inFlow = false := by simp [inFlow, hblock]
  have hhead : l.cursor.head = x := Cursor.head_of_cons hrest
  have hindicator := not_mem_of_startsIndicator hstart
  have hgo := fun hx => atGap_of_startsIndicator hstart hx t
  have hpercent : ¬(l.cursor.column = 0 ∧ x = '%') := by
    rintro ⟨h0, rfl⟩
    exact absurd (hzero h0) (by decide)
  have hmark : ¬(l.cursor.column = 0 ∧ atDocumentMark (x :: (r ++ t)) = true) := by
    rintro ⟨h0, hmark⟩
    exact Bool.false_ne_true ((atDocumentMark_letter (hzero h0)).symm.trans hmark)
  unfold token
  simp only [hrest, hhead, List.isEmpty_cons, Bool.false_eq_true, if_false, Bool.and_eq_true,
    decide_eq_true_eq, hpercent, hmark, List.drop_succ_cons, List.drop_zero, hflow,
    Bool.false_or, Bool.not_false, Bool.and_true]
  have hne : ∀ y, y ∈ "#,[]\x7b\x7d&*!|>'\"%@`".toList → x ≠ y := by
    rintro y hy rfl
    exact hindicator hy
  split
  case h_11 =>
    have hdash : ¬(x = '-' ∧ atGap (r ++ t) = true) := by
      rintro ⟨hx, hat⟩
      simp [hgo (.inr (.inr hx))] at hat
    have hquery : ¬(x = '?' ∧ atGap (r ++ t) = true) := by
      rintro ⟨hx, hat⟩
      simp [hgo (.inl hx)] at hat
    have hcolon : ¬(x = ':' ∧ atGap (r ++ t) = true) := by
      rintro ⟨hx, hat⟩
      simp [hgo (.inr (.inl hx))] at hat
    have hplain : startsPlain false l.cursor = true :=
      startsPlain_of hrest hgap hindicator hgo
    simp only [hdash, hquery, hcolon, hne '|' (by decide), hne '>' (by decide), hplain, if_false,
      if_true]
  all_goals exact absurd rfl (hne _ (by decide))

/-- The other characters that a written scalar or the colon behind a key begins with. -/
theorem token_quote {l : Lexer} {single : Bool} {r : List Char}
    (hrest : l.cursor.rest = (if single then '\'' else '"') :: r) :
    l.token = l.keyToken (takeQuoted single) := by
  have hhead := Cursor.head_of_cons hrest
  cases single <;> simp_all [token, atDocumentMark]

theorem token_colon {l : Lexer} {r : List Char} (hrest : l.cursor.rest = ':' :: r)
    (hgap : atGap r) : l.token = l.value := by
  have hhead := Cursor.head_of_cons hrest
  simp_all [token, atDocumentMark]

theorem token_bar {l : Lexer} (hblock : l.outerPlaces = []) {r : List Char}
    (hrest : l.cursor.rest = '|' :: r) : l.token = l.blockToken false := by
  have hhead := Cursor.head_of_cons hrest
  have hflow : l.inFlow = false := by simp [inFlow, hblock]
  simp_all [token, atDocumentMark]

theorem token_end {l : Lexer} (hrest : l.cursor.rest = []) : l.token = l.endToken := by
  simp [token, hrest]

/-! ## Coming to a line -/

theorem reaches_here {l : Lexer} (h : l.Calm) (hg : l.outline.Grounded) {R : List Char}
    (hR : Fresh R) (hrest : l.cursor.rest = R) (hkey : l.keyAllowed = true) :
    l.Reaches R l.cursor.column (l.outline.close l.cursor.column) := by
  have harrived : l.arrived = l := by
    rw [arrived, skipSpace_spaces hR (m := 0) (by simpa using hrest)]
    simp
  exact ⟨h, by rw [harrived, hrest], by rw [harrived], by rw [harrived, hkey], rfl, hg⟩

theorem reaches_line {l : Lexer} (h : l.Calm) (hg : l.outline.Grounded) {j : Nat} {R : List Char}
    (hR : Fresh R) (hrest : l.cursor.rest = '\n' :: (spaces j ++ R)) :
    l.Reaches R j (l.outline.close j) := by
  have hflow : l.inFlow = false := by simp [inFlow, h.block]
  obtain ⟨c, hskip, hrest', hcolumn⟩ :=
    @skipSpace_line R hR j (spaces j ++ R).length l hrest
  have harrived : l.arrived = { l with cursor := c, keyAllowed := l.keyAllowed || !l.inFlow } := by
    rw [arrived, hrest]
    exact hskip
  refine ⟨h, ?_, ?_, ?_, rfl, hg⟩
  · rw [harrived]
    exact hrest'
  · rw [harrived]
    exact hcolumn
  · rw [harrived]
    simp [hflow]

/-- The lexer is on `R` at column `j`, where a key may begin and no collection is left to close,
and its outline is `o`. -/
structure StandsOn (l : Lexer) (R : List Char) (j : Nat) (o : Outline) : Prop extends Calm l where
  rest : l.cursor.rest = R
  column : l.cursor.column = j
  keyAllowed : l.keyAllowed = true
  outline : l.outline = o

/-- The token that comes next is the one at the place that is reached. -/
theorem Reaches.next_token {l : Lexer} {R : List Char} {j : Nat} {o : Outline}
    (h : l.Reaches R j o) : ∃ l₀ : Lexer, l.next = l₀.token ∧ l₀.StandsOn R j o := by
  refine ⟨l.arrived.closeBlocks l.arrived.cursor.column, next_of_calm h.toCalm,
    ⟨by simp [h.block], by simp [h.idle]⟩, by simp [h.rest], by simp [h.column],
    by simp [h.keyAllowed], ?_⟩
  rw [h.column, outline_closeBlocks (by simp [h.block]) (by simp [h.grounded]) (by omega),
    outline_arrived, h.closed]

/-- What the next line begins with: a name or nothing. -/
def StartsLine (R : List Char) : Prop := ∀ x ∈ R.head?, x ∈ nameLetters

theorem StartsLine.fresh {R : List Char} (h : StartsLine R) : Fresh R := by
  intro x hx
  have hne := letter_ne x (h x hx)
  exact ⟨isGap_letter x (h x hx), by rintro rfl; simp at hne, by rintro rfl; simp at hne⟩

theorem StartsLine.solid {R : List Char} (h : StartsLine R) : Solid R :=
  fun x hx => (h.fresh x hx).1

/-! ## A scalar behind its colon -/

/-- The lexer behind the space that follows a colon. -/
def afterSpace (l : Lexer) : Lexer := { l with cursor := l.cursor.skip 1 }

theorem Behind.next_eq {l : Lexer} {t : List Char} {k : Nat} {o : Outline}
    (h : l.Behind (' ' :: t) k o) (ht : Fresh t) :
    l.next = l.afterSpace.token := by
  have harrived : l.arrived = l.afterSpace := by
    rw [arrived, skipSpace_spaces ht (m := 1) (by simpa [spaces] using h.rest)]
    rfl
  have hwithin : l.outline.Within (l.cursor.column + 1 : Nat) := by
    intro i hi
    have hcolumn := h.column
    have hindent := h.indent
    obtain rfl : l.indent = i := by simpa [Lexer.outline] using hi
    omega
  rw [next_of_calm h.toCalm, harrived]
  exact congrArg token (closeBlocks_of_within hwithin)

/-- The lexer with one token more, behind which it stands at `c`. -/
def took (l : Lexer) (t : Token) (c : Cursor) (allowed : Bool) : Lexer :=
  { l with tokens := l.tokens.push t, cursor := c, keyAllowed := allowed }

@[simp] theorem outline_took (l : Lexer) (t : Token) (c : Cursor) (b : Bool) :
    (l.took t c b).outline = l.outline.add [t.kind] := by
  simp [outline, Outline.add, took]

section

variable {l : Lexer} {k j : Nat} {o : Outline} {R cs : List Char}

@[simp] theorem outline_addTo (l : Lexer) (kind : TokenKind) (c : Cursor) :
    (l.addTo kind c).outline = l.outline.add [kind] := by
  simp [outline, Outline.add, addTo]

/-- The next token is a scalar, and behind it comes `R` at column `j` of the next line. -/
def Takes (l : Lexer) (kind : TokenKind) (j : Nat) (R : List Char) : Prop :=
  ∃ a b c allowed, l.next = .ok (l.took ⟨kind, a, b⟩ c allowed) ∧
    (c.rest = R ∧ c.column = j ∧ allowed = true ∨ c.rest = '\n' :: (spaces j ++ R))

theorem Behind.reaches {t : List Char} (h : l.Behind t k o) {kind : TokenKind} (hR : StartsLine R)
    (htakes : l.Takes kind j R) :
    ∃ l', l.next = .ok l' ∧ l'.Reaches R j ((o.add [kind]).close j) ∧
      l'.outline.kinds.getLast? = some kind := by
  obtain ⟨a, b, c, allowed, hnext, hend⟩ := htakes
  have houtline : (l.took ⟨kind, a, b⟩ c allowed).outline = o.add [kind] := by
    rw [outline_took, h.outline]
  have hcalm : (l.took ⟨kind, a, b⟩ c allowed).Calm := ⟨h.block, h.idle⟩
  have hg : (l.took ⟨kind, a, b⟩ c allowed).outline.Grounded := by
    rw [houtline]
    exact h.grounded
  refine ⟨_, hnext, ?_, by simp [houtline, Outline.add]⟩
  rw [← houtline]
  rcases hend with ⟨hrest, rfl, hallowed⟩ | hrest
  · exact reaches_here hcalm hg hR.fresh hrest hallowed
  · exact reaches_line hcalm hg hR.fresh hrest

theorem Behind.takes_plain (hplain : allowsPlain cs) (hne : cs ≠ []) (hj : j ≤ k)
    (hR : StartsLine R) (h : l.Behind (' ' :: (cs ++ '\n' :: (spaces j ++ R))) k o) :
    l.Takes (.scalar .plain (String.ofList cs)) j R := by
  have hcs := plain_of_allowsPlain hplain
  have hwords := hcs.words hne
  obtain ⟨x, r, rfl⟩ := List.exists_cons_of_ne_nil hne
  have hgap : isGap x = false := by
    have hspace : x ≠ ' ' := fun hx => hwords.head_ne (by simp [hx])
    simp [hcs.isGap_eq (List.mem_cons_self), hspace]
  have hfresh : Fresh (x :: r ++ '\n' :: (spaces j ++ R)) :=
    fresh_cons.mpr ⟨hgap, fun hx => hwords.not_comment (by simp [hx]),
      ne_of_isPrintable (hcs.printable x (List.mem_cons_self)) (by decide)⟩
  obtain ⟨s, c, htake, htext, hbroken, hrest, hcolumn⟩ :=
    takePlain_line hR.solid (show j < k + 1 by omega) hcs hne
      (show k + 1 ≤ (l.cursor.skip 1).column by simpa using h.column.le)
      (show (l.cursor.skip 1).rest = _ by simp [h.rest])
  have hindent : (l.indent + 1).toNat = k + 1 := by
    rw [h.indent]
    omega
  have hflow : l.outerPlaces.isEmpty = true := by simp [h.block]
  refine ⟨(l.cursor.skip 1).mark, s.finish, c, true, ?_, .inl ⟨hrest, hcolumn, rfl⟩⟩
  rw [h.next_eq hfresh, @token_plain l.afterSpace h.block x r
    ('\n' :: (spaces j ++ R)) hcs.starts hgap (by simp [afterSpace, h.rest]) (by simp [afterSpace])]
  simp only [afterSpace, plainToken, markKey, h.keyAllowed, inFlow, hflow, Bool.not_true, hindent,
    htake, htext, hbroken, bind, Except.bind, pure, Except.pure, Bool.false_eq_true, if_false]
  rfl

theorem Behind.takes_quoted (single : Bool) {t : List Char} {style : ScalarStyle}
    (htake : ∀ c : Cursor, c.rest = (if single then '\'' else '"') :: t →
      ∃ c', takeQuoted single c = .ok (.scalar style (String.ofList cs), c') ∧
        c'.rest = '\n' :: (spaces j ++ R))
    (h : l.Behind (' ' :: (if single then '\'' else '"') :: t) k o) :
    l.Takes (.scalar style (String.ofList cs)) j R := by
  have hrest : (l.cursor.skip 1).rest = (if single then '\'' else '"') :: t := by simp [h.rest]
  have hfresh : Fresh ((if single then '\'' else '"') :: t) := by
    cases single <;> exact fresh_cons.mpr (by decide)
  obtain ⟨c, hc, hend⟩ := htake (l.cursor.skip 1) hrest
  refine ⟨(l.cursor.skip 1).mark, c.mark, c, false, ?_, .inr hend⟩
  rw [h.next_eq hfresh, @token_quote l.afterSpace single t hrest]
  simp only [afterSpace, keyToken, markKey, h.keyAllowed, hc, bind, Except.bind, pure, Except.pure,
    if_false, Bool.false_eq_true]
  rfl

theorem Behind.takes_literal (hliteral : allowsLiteral cs) (hj : j ≤ k) (hR : StartsLine R)
    (h : l.Behind (' ' :: (literalHeader cs ++ '\n' :: (indented (k + 2) true cs ++
      ((if cs.getLast?.any isBreak then [] else ['\n']) ++ (spaces j ++ R))))) k o) :
    l.Takes (.scalar .literal (String.ofList cs)) j R := by
  have hrest : (l.cursor.skip 1).rest = literalHeader cs ++ '\n' :: (indented (k + 2) true cs ++
      ((if cs.getLast?.any isBreak then [] else ['\n']) ++ (spaces j ++ R))) := by simp [h.rest]
  obtain ⟨mark, c, hc, hend, hcolumn⟩ := takeBlock_literal hR.solid hj hliteral hrest
  have hbar := literalHeader_eq cs
  have hfresh : Fresh ((l.cursor.skip 1).rest) := by
    rw [hrest, hbar]
    exact fresh_cons.mpr (by decide)
  refine ⟨(l.cursor.skip 1).mark, mark, c, true, ?_, .inl ⟨hend, hcolumn, rfl⟩⟩
  rw [hrest] at hfresh
  rw [h.next_eq hfresh, @token_bar l.afterSpace h.block _ (hrest.trans (by rw [hbar]; rfl))]
  simp only [blockToken, dropKey_of_calm (l := l.afterSpace) ⟨h.block, h.idle⟩, bind, Except.bind]
  rw [← h.indent] at hc
  simp only [afterSpace, hc, pure, Except.pure]
  rfl

/-- A scalar behind its colon. -/
theorem Behind.takes_scalar {style : ScalarStyle} {s : String} (hkeeps : style.Keeps s.toList)
    (hj : j ≤ k) (hR : StartsLine R)
    (h : l.Behind (' ' :: (scalarLine (k + 2) style s ++ (spaces j ++ R))) k o) :
    l.Takes (.scalar (style.settled s.toList) s) j R := by
  obtain ⟨cs, rfl⟩ : ∃ cs, s = String.ofList cs := ⟨s.toList, String.ofList_toList.symm⟩
  simp only [scalarLine, String.toList_ofList] at hkeeps h ⊢
  have hallows := settled_allows style cs
  obtain ⟨hne, hline⟩ := hkeeps
  cases hsettled : style.settled cs with
  | plain =>
    simp only [hsettled] at hallows
    simp only [hsettled, List.append_assoc, List.singleton_append] at h
    exact h.takes_plain hallows (hne hsettled) hj hR
  | singleQuoted =>
    simp only [hsettled] at hallows
    simp only [hsettled, List.append_assoc, singleQuotedText_eq, List.cons_append] at h
    refine Behind.takes_quoted true (fun c hc => ?_) h
    exact takeQuoted_single (n := k + 2) (by omega) (by simp) hallows (hline hsettled)
      (by simpa [singleQuotedText_eq] using hc)
  | doubleQuoted =>
    simp only [hsettled, List.append_assoc, List.cons_append, List.nil_append] at h
    refine Behind.takes_quoted false (fun c hc => ?_) h
    exact takeQuoted_double (by simpa [escaped] using hc)
  | literal =>
    simp only [hsettled] at hallows
    simp only [hsettled, List.append_assoc, List.cons_append] at h
    exact h.takes_literal hallows hj hR
  | folded => simp [hsettled] at hallows

end

/-! ## A key and its colon -/

/-- A token put in front of those that came since `o`. -/
theorem outline_insert {l : Lexer} {o : Outline} {ks : List TokenKind} (h : l.outline = o.add ks)
    (kind : TokenKind) (m : Mark) :
    (l.insert o.kinds.length kind m).outline = o.add (kind :: ks) := by
  obtain ⟨hkinds, hcolumns⟩ := Outline.mk.inj h
  have htake : (l.tokens.toList.take o.kinds.length).map (·.kind) = o.kinds := by
    rw [List.map_take, hkinds, List.take_left]
  have hdrop : (l.tokens.toList.drop o.kinds.length).map (·.kind) = ks := by
    rw [List.map_drop, hkinds, List.drop_left]
  simp only [outline, insert, Outline.add, List.map_append, List.map_cons, htake, hdrop]
  simpa using hcolumns

/-- A mapping opened in front of the tokens that came since `o`, if its column is new. -/
theorem openBlock_eq {l : Lexer} (hblock : l.outerPlaces = []) {o : Outline} {ks : List TokenKind}
    (h : l.outline = o.add ks) {k : Nat} (hk : o.Within k) (m : Mark) :
    ∃ l', l.openBlock k o.kinds.length .blockMappingStart m = l' ∧
      l'.outline = (o.opened k).add ks ∧ l'.indent = k ∧
      l' = { l with
        tokens := l'.tokens, indent := l'.indent, outerIndents := l'.outerIndents } := by
  have hflow : l.inFlow = false := by simp [inFlow, hblock]
  have hcolumns : l.indent :: l.outerIndents = o.columns := (Outline.mk.inj h).2
  have hindent : l.indent ≤ k := hk _ (by rw [← hcolumns]; rfl)
  refine ⟨_, rfl, ?_⟩
  by_cases hlt : l.indent < k
  · have hnot : ¬(k : Int) ≤ l.indent := by omega
    have hopened : o.opened k = ⟨o.kinds ++ [.blockMappingStart], (k : Int) :: o.columns⟩ := by
      rw [Outline.opened, ← hcolumns]
      simp [hlt]
    have hinsert := outline_insert h .blockMappingStart m
    have hkinds : (l.insert o.kinds.length .blockMappingStart m).outline.kinds =
        ((o.opened k).add ks).kinds := by
      rw [hinsert, hopened]
      simp [Outline.add]
    simp only [openBlock, hflow, hnot, Bool.false_or, decide_false, Bool.false_eq_true, if_false]
    refine ⟨?_, rfl, rfl⟩
    rw [hopened] at hkinds ⊢
    rw [← hcolumns] at hkinds ⊢
    exact congrArg₂ Outline.mk hkinds rfl
  · have hle : (k : Int) ≤ l.indent := by omega
    have hopened : o.opened k = o := by
      rw [Outline.opened, ← hcolumns]
      simp [hlt]
    simp only [openBlock, hle, decide_true, Bool.or_true, if_true]
    exact ⟨by rw [h, hopened], by omega, trivial⟩

section

variable {l : Lexer} {name t : List Char} {k : Nat} {o : Outline}

/-- The place where a key begins. -/
def keyPlace (l : Lexer) : KeyPlace :=
  ⟨true, !l.inFlow && l.indent = l.cursor.column, l.tokens.size, l.cursor.index, l.mark⟩

/-- The lexer behind the name of a key, whose place it remembers. -/
def tookName (l : Lexer) (name : List Char) : Lexer :=
  ({ l with place := l.keyPlace } : Lexer).took
    ⟨.scalar .plain (String.ofList name), l.mark, (l.cursor.skip name.length).mark⟩
    (l.cursor.skip name.length) false

/-- The name of a key is taken as a scalar. -/
theorem token_name (hname : IsName name) (ht : atGap t) (h : l.StandsOn (name ++ ':' :: t) k o) :
    l.token = .ok (l.tookName name) := by
  have hrest := h.rest
  have htake : takePlain l.inFlow (l.indent + 1).toNat l.cursor =
      .ok (⟨name, {}, (l.cursor.skip name.length).mark⟩, l.cursor.skip name.length) := by
    rw [show l.inFlow = false by simp [inFlow, h.block]]
    exact takePlain_name ht hname hrest
  obtain ⟨x, r, rfl⟩ := List.exists_cons_of_ne_nil hname.ne_nil
  have hx := hname.letters x (by simp)
  rw [token_plain h.block (startsIndicator_letter x hx r) (isGap_letter x hx) (t := ':' :: t)
    (by simpa using hrest) fun _ => hx]
  simp only [inFlow] at htake
  simp only [plainToken, markKey, h.keyAllowed, if_true, dropKey_of_calm h.toCalm, bind,
    Except.bind, pure, Except.pure, inFlow, htake]
  rfl

theorem outline_tookName (h : l.outline = o) :
    (l.tookName name).outline = o.add [.scalar .plain (String.ofList name)] := by
  rw [tookName, outline_took, ← h]
  rfl

theorem rest_tookName (h : l.cursor.rest = name ++ t) : (l.tookName name).cursor.rest = t := by
  simp [tookName, took, h]

/-- The colon behind a name is the next token: the name is not too far back, and no collection
ends there. -/
theorem next_tookName (hname : IsName name) (ht : atGap t) (hwithin : o.Within k)
    (h : l.StandsOn (name ++ ':' :: t) k o) :
    (l.tookName name).next = (l.tookName name).value := by
  obtain ⟨l₁, hl₁⟩ : ∃ l₁, l.tookName name = l₁ := ⟨_, rfl⟩
  have hrest : l₁.cursor.rest = ':' :: t := hl₁ ▸ rest_tookName h.rest
  have harrived : l₁.arrived = l₁ := by
    have hfresh : Fresh (':' :: t) := fresh_cons.mpr (by decide)
    rw [arrived, skipSpace_spaces hfresh (m := 0) hrest]
    simp
  have hnear : l₁.expireKeys = .ok l₁ := by
    refine expireKeys_of_near (by rw [← hl₁]; exact h.block) ?_
    have hshort := hname.short
    simp [← hl₁, tookName, took, keyPlace, KeyPlace.isStale, Lexer.mark, Cursor.mark]
    omega
  have hcolumn : l₁.outline.Within l₁.cursor.column := by
    rw [← hl₁, outline_tookName h.outline, Outline.within_add]
    refine hwithin.mono ?_
    simp only [tookName, took, Cursor.skip_column, h.column]
    omega
  rw [hl₁, next_eq, harrived, hnear, ← token_colon hrest ht]
  exact congrArg token (closeBlocks_of_within hcolumn)

/-- The colon behind a name makes it a key, in a mapping that may begin with it. -/
theorem value_tookName (hwithin : o.Within k) (hgrounded : o.Grounded)
    (h : l.StandsOn (name ++ ':' :: t) k o) :
    ∃ l₂, (l.tookName name).value = .ok l₂ ∧
      l₂.Behind t k ((o.opened k).add [.key, .scalar .plain (String.ofList name), .value]) := by
  obtain ⟨l₁, hl₁⟩ : ∃ l₁, l₁ = l.tookName name := ⟨_, rfl⟩
  have hposition : l.tokens.size = o.kinds.length := by
    rw [← h.outline, Lexer.outline]
    simp
  have hinsert : (l₁.insert l.tokens.size .key l.mark).outline =
      o.add [.key, .scalar .plain (String.ofList name)] := by
    rw [hposition]
    exact outline_insert (hl₁ ▸ outline_tookName h.outline) .key l.mark
  have hblock : (l₁.insert l.tokens.size .key l.mark).outerPlaces = [] := by
    rw [hl₁]
    exact h.block
  obtain ⟨l', hopen, houtline', hindent', heq⟩ := openBlock_eq hblock hinsert hwithin l.mark
  have hplace : l₁.place = l.keyPlace := by rw [hl₁]; rfl
  have hcursor' : l'.cursor = l.cursor.skip name.length := by rw [heq, hl₁]; rfl
  have hblock' : l'.outerPlaces = [] := by rw [heq]; exact hblock
  rw [← hl₁]
  refine ⟨{ l' with place := { l.keyPlace with possible := false }, keyAllowed := false }.addTo
    .value (l'.cursor.skip 1), ?_, ⟨hblock', rfl⟩, ?_, ?_, rfl, ?_, hindent', hgrounded.opened⟩
  · rw [← hposition] at hopen
    have hcolumn : l.mark.column = k := h.column
    simp only [value, hplace, show l.keyPlace.possible = true from rfl, if_true, hcolumn,
      show l.keyPlace.position = l.tokens.size from rfl,
      show l.keyPlace.mark = l.mark from rfl, hopen, pure, Except.pure]
  · simp [addTo, hcursor', h.rest, ← List.drop_drop]
  · simp [addTo, hcursor', h.column]
  · rw [outline_addTo, show ({ l' with
      place := { l.keyPlace with possible := false }, keyAllowed := false } : Lexer).outline =
        l'.outline from rfl, houtline', Outline.add_add]
    rfl

/-- A key and its colon: two tokens more, and a mapping opened if the column is new. -/
theorem Reaches.next_key (hname : IsName name) (ht : atGap t)
    (h : l.Reaches (name ++ ':' :: t) k o) :
    ∃ l₁ l₂, l.next = .ok l₁ ∧
      l₁.outline.kinds.getLast? = some (.scalar .plain (String.ofList name)) ∧
      l₁.next = .ok l₂ ∧ l₂.outline.kinds.getLast? = some .value ∧
      l₂.Behind t k ((o.opened k).add [.key, .scalar .plain (String.ofList name), .value]) := by
  have hwithin : o.Within k := h.closed ▸ Outline.within_close
  have hgrounded : o.Grounded := h.closed ▸ h.grounded.close (by omega)
  obtain ⟨l₀, hnext, hon⟩ := h.next_token
  obtain ⟨l₂, hvalue, hbehind⟩ := value_tookName hwithin hgrounded hon
  refine ⟨l₀.tookName name, l₂, hnext.trans (token_name hname ht hon), ?_,
    (next_tookName hname ht hwithin hon).trans hvalue, ?_, hbehind⟩
  · rw [outline_tookName hon.outline]
    simp [Outline.add]
  · rw [hbehind.outline]
    simp [Outline.add]

end

end Lexer

end CommuteSim.Yaml
