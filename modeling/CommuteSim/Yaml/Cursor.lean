/-!
# Places in a YAML text

A cursor is a place in a text: the characters that are still to come, and the line, column and
index of the next one, all counted from zero.
-/

namespace CommuteSim.Yaml

/-- The line and column of a character. -/
structure Mark where
  line : Nat
  column : Nat
  deriving DecidableEq, Repr

/-! ## Classes of characters -/

def isBreak (c : Char) : Bool :=
  c = '\n' || c = '\r' || c = '\x85' || c = '\u2028' || c = '\u2029'

def isBlank (c : Char) : Bool := c = ' ' || c = '\t'

/-- The characters of names: ASCII letters and digits, `_` and `-`. -/
def isNameChar (c : Char) : Bool := c.isAlphanum || c = '_' || c = '-'

/-- The characters that may stand in a text at all. -/
def isAllowed (c : Char) : Bool :=
  let n := c.toNat
  n = 0x9 || n = 0xA || n = 0xD || (0x20 ≤ n && n ≤ 0x7E) || n = 0x85 ||
    (0xA0 ≤ n && n ≤ 0xD7FF) || (0xE000 ≤ n && n ≤ 0xFFFD) || 0x10000 ≤ n

/-- Whether the text is at its end or at a line break. -/
def atBreakOrEnd : List Char → Bool
  | [] => true
  | c :: _ => isBreak c

/-- Whether the text is at its end, at a line break or at a blank. -/
def atGap : List Char → Bool
  | [] => true
  | c :: _ => isBlank c || isBreak c

/-- Whether the text is at `---` or `...`, set off by a gap. -/
def atDocumentMark : List Char → Bool
  | '-' :: '-' :: '-' :: r => atGap r
  | '.' :: '.' :: '.' :: r => atGap r
  | _ => false

/-! ## Cursors -/

/-- A place in a text. -/
structure Cursor where
  rest : List Char
  index : Nat := 0
  line : Nat := 0
  column : Nat := 0

namespace Cursor

def mark (c : Cursor) : Mark := ⟨c.line, c.column⟩

/-- The next character, NUL at the end. -/
def head (c : Cursor) : Char := c.rest.headD '\x00'

/-- The cursor `n` characters further on the same line. -/
def skip (c : Cursor) (n : Nat) : Cursor :=
  { c with rest := c.rest.drop n, index := c.index + n, column := c.column + n }

/-- Takes the characters up to the first one outside a class that holds no line breaks. -/
def takeWhile (c : Cursor) (p : Char → Bool) : List Char × Cursor :=
  let taken := c.rest.takeWhile p
  (taken, c.skip taken.length)

/-- Skips the characters of such a class. -/
def skipWhile (c : Cursor) (p : Char → Bool) : Cursor := (c.takeWhile p).2

/-- Takes a line break. Every break is read as a line feed but the two Unicode separators, which
stay as they are. At any other character nothing is taken. -/
def takeBreak (c : Cursor) : List Char × Cursor :=
  let next (n : Nat) : Cursor :=
    { rest := c.rest.drop n, index := c.index + n, line := c.line + 1, column := 0 }
  match c.rest with
  | '\r' :: '\n' :: _ => (['\n'], next 2)
  | '\r' :: _ | '\n' :: _ | '\x85' :: _ => (['\n'], next 1)
  | '\u2028' :: _ => (['\u2028'], next 1)
  | '\u2029' :: _ => (['\u2029'], next 1)
  | _ => ([], c)

/-- Skips a line break. -/
def skipBreak (c : Cursor) : Cursor := c.takeBreak.2

/-- Skips to the end of the line. -/
def skipComment (c : Cursor) : Cursor := c.skipWhile (!isBreak ·)

end Cursor

/-- A text that is not YAML: what is wrong, and where. -/
structure SyntaxError where
  problem : String
  mark : Mark
  deriving Repr

/-- The outcome of taking something from a text. -/
abbrev Scan := Except SyntaxError

/-- The text is wrong at the cursor. -/
def Cursor.fail {α : Type} (c : Cursor) (problem : String) : Scan α :=
  .error ⟨problem, c.mark⟩

end CommuteSim.Yaml
