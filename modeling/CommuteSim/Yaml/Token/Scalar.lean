import CommuteSim.Json.Value
import CommuteSim.Yaml.Token

/-!
# Scalars of YAML

Line breaks inside a plain or quoted scalar are folded: one break is a blank, and of several the
first is dropped. A block scalar keeps its lines or folds them, by its style, and its last line
break goes by its chomping.
-/

namespace CommuteSim.Yaml

/-! ## Gaps inside flow scalars -/

/-- The white space between two parts of a scalar. -/
structure Gap where
  /-- The blanks, if the gap lies within one line. -/
  blanks : List Char := []
  /-- The first line break. -/
  first : List Char := []
  /-- The further line breaks. -/
  more : List Char := []
  /-- Whether the gap has left the line. -/
  broken : Bool := false

/-- The text that a gap stands for. -/
def Gap.text (g : Gap) : List Char :=
  if g.broken then
    if g.first = ['\n'] then
      if g.more.isEmpty then [' '] else g.more
    else g.first ++ g.more
  else g.blanks

/-- Takes the white space at the cursor. `tabProblem` tells, for a column, whether a tab at the
start of a later line is an error there. -/
def takeGap (tabProblem : Nat → Bool) : (fuel : Nat) → Gap → Cursor → Scan (Gap × Cursor)
  | 0, g, c => .ok (g, c)
  | fuel + 1, g, c =>
    match c.rest with
    | [] => .ok (g, c)
    | x :: _ =>
      if isBlank x then
        if g.broken && x = '\t' && tabProblem c.column then
          c.fail "a tab stands where only spaces indent"
        else
          let g := if g.broken then g else { g with blanks := g.blanks ++ [x] }
          takeGap tabProblem fuel g (c.skip 1)
      else if isBreak x then
        let (br, c) := c.takeBreak
        let g := if g.broken then { g with more := g.more ++ br }
          else { g with blanks := [], first := br, broken := true }
        takeGap tabProblem fuel g c
      else .ok (g, c)

/-! ## Quoted scalars -/

/-- The number that `count` hexadecimal digits at the cursor write. -/
def takeHex (c : Cursor) (count : Nat) : Scan (Nat × Cursor) :=
  let digits := c.rest.take count
  match digits.foldl (fun n d => do return (← n) * 16 + (← Json.hexDigit? d)) (some 0) with
  | some n =>
    if digits.length = count then .ok (n, c.skip count)
    else c.fail "an escape needs more hexadecimal digits"
  | none => c.fail "an escape needs hexadecimal digits"

/-- The character that a simple escape stands for. -/
def escapeChar? : Char → Option Char
  | '0' => some '\x00'
  | 'a' => some '\x07'
  | 'b' => some '\x08'
  | 't' | '\t' => some '\t'
  | 'n' => some '\n'
  | 'v' => some '\x0b'
  | 'f' => some '\x0c'
  | 'r' => some '\r'
  | 'e' => some '\x1b'
  | ' ' => some ' '
  | '"' => some '"'
  | '/' => some '/'
  | '\\' => some '\\'
  | 'N' => some '\x85'
  | '_' => some '\xa0'
  | 'L' => some '\u2028'
  | 'P' => some '\u2029'
  | _ => none

/-- The number of digits of a numeric escape. -/
def escapeDigits? : Char → Option Nat
  | 'x' => some 2
  | 'u' => some 4
  | 'U' => some 8
  | _ => none

/-- Takes an escape, the cursor being at its backslash. -/
def takeEscape (c : Cursor) : Scan (Char × Cursor) :=
  match c.rest.drop 1 with
  | [] => c.fail "an escape is cut off"
  | x :: _ =>
    match escapeChar? x, escapeDigits? x with
    | some y, _ => .ok (y, c.skip 2)
    | none, none => c.fail "an unknown escape"
    | none, some count => do
      let (n, after) ← takeHex (c.skip 2) count
      if (0xD800 ≤ n && n ≤ 0xDFFF) || 0x10FFFF < n then c.fail "an escape of no character"
      else .ok (Char.ofNat n, after)

/-- How a part of a quoted scalar ends. -/
inductive PartEnd where
  | quote
  | gap
  /-- An escaped line break, which stands for nothing. -/
  | joined
  deriving DecidableEq

/-- Takes characters up to the closing quote or a gap. -/
def takeQuotedPart (single : Bool) : (fuel : Nat) → Cursor → Scan ((List Char × PartEnd) × Cursor)
  | 0, c => .ok (([], .gap), c)
  | fuel + 1, c => do
    match c.rest with
    | [] => return (([], .gap), c)
    | x :: r =>
      if isBlank x || isBreak x then return (([], .gap), c)
      else if single then
        if x = '\'' then
          if r.head? = some '\'' then
            let ((cs, e), c) ← takeQuotedPart single fuel (c.skip 2)
            return (('\'' :: cs, e), c)
          else return (([], .quote), c)
        else
          let ((cs, e), c) ← takeQuotedPart single fuel (c.skip 1)
          return ((x :: cs, e), c)
      else if x = '"' then return (([], .quote), c)
      else if x = '\\' then
        if r.head?.any isBreak then return (([], .joined), (c.skip 1).skipBreak)
        else
          let (y, c) ← takeEscape c
          let ((cs, e), c) ← takeQuotedPart single fuel c
          return ((y :: cs, e), c)
      else
        let ((cs, e), c) ← takeQuotedPart single fuel (c.skip 1)
        return ((x :: cs, e), c)

/-- Takes the parts of a quoted scalar up to its closing quote. -/
def takeQuotedParts (single : Bool) : (fuel : Nat) → Cursor → Scan ((List Char) × Cursor)
  | 0, c => c.fail "a quoted scalar is cut off"
  | fuel + 1, c => do
    if c.column = 0 && atDocumentMark c.rest then
      c.fail "a document begins inside a quoted scalar"
    else if c.rest.isEmpty then c.fail "a quoted scalar is cut off"
    else
      let ((part, ending), c) ← takeQuotedPart single (c.rest.length + 1) c
      match ending with
      | .quote => return (part, c.skip 1)
      | .gap | .joined =>
        let (gap, c) ← takeGap (fun _ => false) (c.rest.length + 1)
          { broken := ending = .joined } c
        -- A closing quote right after an escaped line break ends the scalar as any other does.
        let (rest, c) ← takeQuotedParts single fuel c
        return (part ++ gap.text ++ rest, c)

/-- Takes a quoted scalar, the cursor being at its opening quote. -/
def takeQuoted (single : Bool) (c : Cursor) : Scan (TokenKind × Cursor) := do
  let (text, after) ← takeQuotedParts single (c.rest.length + 1) (c.skip 1)
  return (.scalar (if single then .singleQuoted else .doubleQuoted) (String.ofList text), after)

/-! ## Plain scalars -/

/-- Whether a plain scalar cannot go on with the character at the cursor. -/
def endsPlain (inFlow : Bool) : List Char → Bool
  | [] => true
  | x :: r =>
    (x = ':' && atGap r) ||
      (inFlow && (x = ',' || x = '[' || x = ']' || x = '\x7b' || x = '\x7d'))

/-- Whether a colon at the cursor is an error inside a flow collection. -/
def isStrayColon : List Char → Bool
  | ':' :: x :: _ =>
    x = ',' || x = '?' || x = '[' || x = ']' || x = '\x7b' || x = '\x7d'
  | _ => false

/-- Takes the characters of a plain scalar up to a gap or its end. -/
def takePlainPart (inFlow : Bool) : (fuel : Nat) → Cursor → Scan ((List Char) × Cursor)
  | 0, c => .ok ([], c)
  | fuel + 1, c => do
    match c.rest with
    | [] => return ([], c)
    | x :: _ =>
      if isBlank x || isBreak x then return ([], c)
      else if inFlow && isStrayColon c.rest then c.fail "a colon inside a plain scalar"
      else if endsPlain inFlow c.rest then return ([], c)
      else
        let (cs, c) ← takePlainPart inFlow fuel (c.skip 1)
        return (x :: cs, c)

/-- What has been read of a plain scalar. -/
structure PlainScan where
  text : List Char := []
  /-- The gap after the text. -/
  gap : Gap := {}
  /-- Where the text ends. -/
  finish : Mark

/-- Takes the parts of a plain scalar; a line below `indent` ends it in block context. -/
def takePlainParts (inFlow : Bool) (indent : Nat) : (fuel : Nat) → PlainScan → Cursor →
    Scan (PlainScan × Cursor)
  | 0, s, c => .ok (s, c)
  | fuel + 1, s, c => do
    if (c.column = 0 && atDocumentMark c.rest) || c.head = '#' then return (s, c)
    else
      let (part, c) ← takePlainPart inFlow (c.rest.length + 1) c
      let s : PlainScan := if part.isEmpty then s
        else { text := s.text ++ s.gap.text ++ part, gap := {}, finish := c.mark }
      if !(c.rest.head?.any fun x => isBlank x || isBreak x) then return (s, c)
      else
        let (gap, c) ← takeGap (· < indent) (c.rest.length + 1) s.gap c
        let s := { s with gap := gap }
        if !inFlow && c.column < indent then return (s, c)
        else takePlainParts inFlow indent fuel s c

/-- Takes a plain scalar: its text, where it ends, and whether a line break follows it. -/
def takePlain (inFlow : Bool) (indent : Nat) (c : Cursor) : Scan (PlainScan × Cursor) :=
  takePlainParts inFlow indent (c.rest.length + 1) { finish := c.mark } c

/-! ## Block scalars -/

/-- What becomes of the line breaks at the end of a block scalar. -/
inductive Chomping where
  | strip
  | clip
  | keep
  deriving DecidableEq

/-- The header of a block scalar: chomping, and indentation relative to its parent. -/
def takeBlockHeader (c : Cursor) : Scan ((Chomping × Option Nat) × Cursor) := do
  let chomping? (c : Cursor) : Option Chomping × Cursor :=
    if c.head = '+' then (some .keep, c.skip 1)
    else if c.head = '-' then (some .strip, c.skip 1)
    else (none, c)
  let indent? (c : Cursor) : Scan ((Option Nat) × Cursor) :=
    if c.head = '0' then c.fail "a block scalar indented by zero"
    else if c.head.isDigit then .ok (some (c.head.toNat - 48), c.skip 1)
    else .ok (none, c)
  match chomping? c with
  | (some chomping, c) =>
    let (indent, c) ← indent? c
    return ((chomping, indent), c)
  | (none, c) =>
    let (indent, c) ← indent? c
    if indent.isNone then return ((.clip, none), c)
    else
      let (chomping, c) := chomping? c
      return ((chomping.getD .clip, indent), c)

/-- Takes blank lines and the indentation of the line after them. `indent` is `none` while the
indentation is to be found out. The result holds the line breaks, the widest indentation seen, and
where the last blank line ended. -/
def takeBlankLines (indent : Option Nat) :
    (fuel : Nat) → Cursor → Scan ((List Char × Nat × Mark) × Cursor)
  | 0, c => .ok (([], 0, c.mark), c)
  | fuel + 1, c => do
    let before := c.mark
    let spaces := c.rest.takeWhile (· = ' ')
    let room := match indent with
      | none => spaces.length
      | some n => min spaces.length (n - c.column)
    let c := c.skip room
    let open_ := match indent with
      | none => true
      | some n => c.column < n
    if open_ && c.head = '\t' then c.fail "a tab stands where only spaces indent"
    else if c.rest.head?.any isBreak then
      let width := c.column
      let (br, c) := c.takeBreak
      let ((more, widest, finish), c) ← takeBlankLines indent fuel c
      return ((br ++ more, max width widest, finish), c)
    else return (([], c.column, before), c)

/-- The text of a block scalar so far. -/
structure BlockScan where
  text : List Char := []
  /-- The line break after the last line. -/
  lineEnd : List Char := []
  /-- The blank lines after it. -/
  blanks : List Char := []
  /-- Whether the last line began with a blank. -/
  startedBlank : Bool := false
  finish : Mark

/-- Adds one line; in a folded scalar a single break between two lines that do not start with a
blank is a space. -/
def BlockScan.addLine (s : BlockScan) (folded : Bool) (line : List Char) : BlockScan :=
  let blank := line.head?.any isBlank
  let joint :=
    if folded && s.lineEnd = ['\n'] && !s.startedBlank && !blank then
      if s.blanks.isEmpty then [' '] else []
    else s.lineEnd
  { s with text := s.text ++ joint ++ s.blanks ++ line, startedBlank := blank }

/-- Takes the lines of a block scalar that are indented by `indent`. -/
def takeBlockLines (folded : Bool) (indent : Nat) : (fuel : Nat) → BlockScan → Cursor →
    Scan (BlockScan × Cursor)
  | 0, s, c => .ok (s, c)
  | fuel + 1, s, c => do
    if c.column = indent && !c.rest.isEmpty then
      let (line, c) := c.takeWhile (!isBreak ·)
      let s := s.addLine folded line
      let (lineEnd, c) := c.takeBreak
      let ((blanks, _, finish), c) ← takeBlankLines (some indent) (c.rest.length + 1) c
      takeBlockLines folded indent fuel
        { s with lineEnd := lineEnd, blanks := blanks, finish := finish } c
    else return (s, c)

/-- Takes a block scalar, the cursor being at its indicator; `parent` is the indentation around
it, -1 at the top. -/
def takeBlock (folded : Bool) (parent : Int) (c : Cursor) : Scan ((TokenKind × Mark) × Cursor) := do
  let ((chomping, width), c) ← takeBlockHeader (c.skip 1)
  let c := c.skipWhile isBlank
  let c := if c.head = '#' then c.skipComment else c
  if !atBreakOrEnd c.rest then c.fail "text after the header of a block scalar"
  else
    let c := c.skipBreak
    let given := width.map fun w => if 0 ≤ parent then parent.toNat + w else w
    let ((blanks, widest, finish), c) ← takeBlankLines given (c.rest.length + 1) c
    let indent := given.getD (max widest (max (parent + 1).toNat 1))
    let (s, c) ← takeBlockLines folded indent (c.rest.length + 1)
      { blanks := blanks, finish := finish } c
    let tail := match chomping with
      | .strip => []
      | .clip => s.lineEnd
      | .keep => s.lineEnd ++ s.blanks
    let style : ScalarStyle := if folded then .folded else .literal
    return ((.scalar style (String.ofList (s.text ++ tail)), s.finish), c)

end CommuteSim.Yaml
