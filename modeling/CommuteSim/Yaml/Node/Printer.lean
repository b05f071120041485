import CommuteSim.Yaml.Content
import CommuteSim.Yaml.Node

/-!
# Trees as text

Mappings and sequences are written as blocks; a sequence inside a mapping is not indented. The
style of a scalar is a wish: a text that a plain scalar cannot hold is quoted, one that single
quotes or a literal block cannot hold stands in double quotes. Lines may have any length.
-/

namespace CommuteSim.Yaml

/-! ## What a scalar can hold -/

/-- The characters that need no escape. -/
def isPrintable (c : Char) : Bool :=
  let n := c.toNat
  n = 0xA || (0x20 ≤ n && n ≤ 0x7E) || (0xA0 ≤ n && n ≤ 0xFFFD && n ≠ 0xFEFF) || 0x10000 ≤ n

/-- Each character with the one after it, if there is one. -/
def withNext : List Char → List (Char × Option Char)
  | [] => []
  | c :: r => (c, r.head?) :: withNext r

def isGap (c : Char) : Bool := isBlank c || isBreak c

/-- Whether some break is followed by a space. -/
def hasBreakSpace (cs : List Char) : Bool :=
  (withNext cs).any fun (c, next) => isBreak c && next = some ' '

/-- Whether some space is followed by a break. -/
def hasSpaceBreak (cs : List Char) : Bool :=
  (withNext cs).any fun (c, next) => c = ' ' && next.any isBreak

/-- Whether a text begins like something else than a plain scalar. -/
def startsIndicator : List Char → Bool
  | [] => false
  | c :: r =>
    "#,[]\x7b\x7d&*!|>'\"%@`".toList.contains c ||
      ((c = '?' || c = ':' || c = '-') && r.head?.all isGap) ||
      (c = '-' && r.take 2 = ['-', '-']) || (c = '.' && r.take 2 = ['.', '.'])

/-- Whether a text holds what ends a plain scalar: a colon before a gap, a number sign after one. -/
def holdsIndicator (cs : List Char) : Bool :=
  (withNext (cs.drop 1)).any (fun (c, next) => c = ':' && next.all isGap) ||
    (withNext cs).any fun (c, next) => isGap c && next = some '#'

def allowsPlain (cs : List Char) : Bool :=
  cs.all isPrintable && !cs.any isBreak && cs.head? ≠ some ' ' && cs.getLast? ≠ some ' ' &&
    !startsIndicator cs && !holdsIndicator cs

def allowsSingleQuotes (cs : List Char) : Bool :=
  cs.all isPrintable && !hasBreakSpace cs && !hasSpaceBreak cs

def allowsLiteral (cs : List Char) : Bool :=
  !cs.isEmpty && cs.all isPrintable && !hasSpaceBreak cs && cs.getLast? ≠ some ' '

/-- The style in which a text is written, given the one that was wished for. -/
def ScalarStyle.settled (style : ScalarStyle) (cs : List Char) : ScalarStyle :=
  match style with
  | plain =>
    if allowsPlain cs then plain else if allowsSingleQuotes cs then singleQuoted else doubleQuoted
  | singleQuoted => if allowsSingleQuotes cs then singleQuoted else doubleQuoted
  | literal | folded => if allowsLiteral cs then literal else doubleQuoted
  | doubleQuoted => doubleQuoted

/-! ## Scalars -/

def spaces (n : Nat) : List Char := List.replicate n ' '

/-- The text after breaks, `indent` before each part that follows a break. -/
def indented (indent : Nat) (atStart : Bool) : List Char → List Char
  | [] => []
  | c :: r =>
    if isBreak c then c :: indented indent true r
    else (if atStart then spaces indent else []) ++ c :: indented indent false r

def singleQuotedText (indent : Nat) (cs : List Char) : List Char :=
  let doubled := cs.flatMap fun c => if c = '\'' then ['\'', '\''] else [c]
  let final := if cs.getLast?.any isBreak then spaces indent else []
  '\'' :: indented indent false doubled ++ final ++ ['\'']

/-- A character inside double quotes. -/
def doubleQuotedChar (c : Char) : List Char :=
  let hex (mark : Char) (width : Nat) : List Char :=
    let digits := (Nat.toDigits 16 c.toNat).map Char.toUpper
    '\\' :: mark :: List.replicate (width - digits.length) '0' ++ digits
  if isPrintable c && !isBreak c && c ≠ '"' && c ≠ '\\' then [c]
  else match c with
    | '\x00' => ['\\', '0']
    | '\x07' => ['\\', 'a']
    | '\x08' => ['\\', 'b']
    | '\t' => ['\\', 't']
    | '\n' => ['\\', 'n']
    | '\x0b' => ['\\', 'v']
    | '\x0c' => ['\\', 'f']
    | '\r' => ['\\', 'r']
    | '\x1b' => ['\\', 'e']
    | '"' => ['\\', '"']
    | '\\' => ['\\', '\\']
    | '\x85' => ['\\', 'N']
    | '\u2028' => ['\\', 'L']
    | '\u2029' => ['\\', 'P']
    | c => if c.toNat ≤ 0xFF then hex 'x' 2 else if c.toNat ≤ 0xFFFF then hex 'u' 4 else hex 'U' 8

/-- The header of a literal block: an indentation if the text begins with white space, and what
becomes of the breaks at its end. -/
def literalHeader (cs : List Char) : List Char :=
  let indentation := if cs.head?.any (fun c => c = ' ' || isBreak c) then ['2'] else []
  let breaks := (cs.reverse.takeWhile isBreak).length
  let chomping := if breaks = 0 then ['-'] else if breaks = 1 && cs.length ≠ 1 then [] else ['+']
  '|' :: indentation ++ chomping

/-- A scalar with the line break after it; `indent` is the indentation of its further lines. -/
def scalarLine (indent : Nat) (style : ScalarStyle) (s : String) : List Char :=
  let cs := s.toList
  match style.settled cs with
  | .plain => cs ++ ['\n']
  | .singleQuoted => singleQuotedText indent cs ++ ['\n']
  | .doubleQuoted => '"' :: cs.flatMap doubleQuotedChar ++ ['"', '\n']
  | .literal | .folded =>
    literalHeader cs ++ '\n' :: indented indent true cs ++
      (if cs.getLast?.any isBreak then [] else ['\n'])

/-- A text as a scalar that reads back as text: as a block if it has lines, in quotes if it would
read as something else. -/
def ScalarStyle.forText (s : String) : ScalarStyle :=
  let words := ["y", "yes", "n", "no", "on", "off", "true", "false", "null", "nil", "~", "nan"]
  if s.toList.contains '\n' then literal
  else
    match Content.ofPlain s with
    | .text _ =>
      let ambiguous := s.toList.head?.any (fun c => c.isDigit || c = '-' || c = '.' || c = '+') ||
        words.contains s.toLower
      if ambiguous then singleQuoted else plain
    | _ => singleQuoted

/-! ## Trees -/

namespace Node

/-- A scalar whose plain text is meant. -/
def word (s : String) : Node := .scalar {} .plain s

/-- A text. -/
def ofText (s : String) : Node := .scalar {} (ScalarStyle.forText s) s

/-- A sequence. -/
def ofItems (items : List Node) : Node := .sequence {} items true

/-- A mapping from names. -/
def ofFields (fields : List (String × Node)) : Node :=
  .mapping {} (fields.map fun (k, v) => (word k, v)) true

/-- Where a node is written. -/
inductive Slot where
  /-- As the whole document. -/
  | top
  /-- After the dash of an item. -/
  | item
  /-- After the colon of an entry. -/
  | field

/-- What stands between an indicator and a node on the same line. -/
def Slot.blank : Slot → List Char
  | top => []
  | item | field => [' ']

mutual

/-- A node in its slot, with the line break after it. `indent` is the indentation of the collection
around it. Collections follow a dash on its line and a colon on the next one. -/
def written (slot : Slot) (indent : Nat) : Node → List Char
  | scalar _ style s => slot.blank ++ scalarLine (indent + 2) style s
  | sequence _ items _ =>
    if items.isEmpty then slot.blank ++ ['[', ']', '\n']
    else match slot with
      | .top => itemLines true indent items
      | .item => ' ' :: itemLines false (indent + 2) items
      | .field => '\n' :: itemLines true indent items
  | mapping _ entries _ =>
    if entries.isEmpty then slot.blank ++ ['\x7b', '\x7d', '\n']
    else match slot with
      | .top => entryLines true indent entries
      | .item => ' ' :: entryLines false (indent + 2) entries
      | .field => '\n' :: entryLines true (indent + 2) entries
  | reference .. | cut => ['\n']

/-- The lines of a block sequence; the first one is indented if `fresh` holds. -/
def itemLines (fresh : Bool) (indent : Nat) : List Node → List Char
  | [] => []
  | n :: rest =>
    (if fresh then spaces indent else []) ++ '-' :: written .item indent n ++
      itemLines true indent rest

/-- The lines of a block mapping; the first one is indented if `fresh` holds. -/
def entryLines (fresh : Bool) (indent : Nat) : List (Node × Node) → List Char
  | [] => []
  | (k, v) :: rest =>
    let key := match k with
      | scalar _ style s => (scalarLine indent style s).dropLast
      | _ => []
    (if fresh then spaces indent else []) ++ key ++ ':' :: written .field indent v ++
      entryLines true indent rest

end

/-- The text of a document. -/
def text (n : Node) : String := String.ofList (written .top 0 n)

end Node

end CommuteSim.Yaml
