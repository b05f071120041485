import CommuteSim.Json.Value
import CommuteSim.Yaml.Token

/-!
# Directives, anchors and tags of YAML
-/

namespace CommuteSim.Yaml

/-! ## Tags -/

/-- The punctuation of a tag; the last three only where nothing can be mistaken for the end of a
flow collection. -/
def isTagChar (wide : Bool) (c : Char) : Bool :=
  isNameChar c || ";/?:@&=+$.%!~*'()".toList.contains c || (wide && (c = ',' || c = '[' || c = ']'))

/-- The bytes that the `%XX` escapes at the cursor write, at most `count` of them. -/
def takeTagBytes : (count : Nat) → Cursor → Scan (List UInt8 × Cursor)
  | 0, c => .ok ([], c)
  | count + 1, c =>
    match c.rest with
    | '%' :: a :: b :: _ =>
      match Json.hexDigit? a, Json.hexDigit? b with
      | some x, some y => do
        let (more, c) ← takeTagBytes count (c.skip 3)
        return ((x * 16 + y).toUInt8 :: more, c)
      | _, _ => c.fail "an escape in a tag needs two hexadecimal digits"
    | _ => c.fail "a character in a tag is escaped in part"

/-- The number of bytes of the character whose first byte this is. -/
def sequenceLength? (b : UInt8) : Option Nat :=
  if b < 0x80 then some 1
  else if b &&& 0xE0 = 0xC0 then some 2
  else if b &&& 0xF0 = 0xE0 then some 3
  else if b &&& 0xF8 = 0xF0 then some 4
  else none

/-- Takes a character written by `%XX` escapes. -/
def takeTagEscape (c : Cursor) : Scan (List Char × Cursor) := do
  let (start, _) ← takeTagBytes 1 c
  match start.head?.bind sequenceLength? with
  | none => c.fail "an escape in a tag begins no character"
  | some count =>
    let (bytes, after) ← takeTagBytes count c
    match String.fromUTF8? ⟨bytes.toArray⟩ with
    | some s => return (s.toList, after)
    | none => c.fail "an escape in a tag is no character"

/-- Takes the characters of a tag. -/
def takeTagChars (wide : Bool) : (fuel : Nat) → Cursor → Scan (List Char × Cursor)
  | 0, c => .ok ([], c)
  | fuel + 1, c => do
    if !isTagChar wide c.head then return ([], c)
    else
      let (x, c) ← if c.head = '%' then takeTagEscape c else pure ([c.head], c.skip 1)
      let (xs, c) ← takeTagChars wide fuel c
      return (x ++ xs, c)

/-- Takes the part of a tag after its handle, which must not be empty. -/
def takeTagText (wide : Bool) (c : Cursor) : Scan (String × Cursor) := do
  let (text, after) ← takeTagChars wide (c.rest.length + 1) c
  if text.isEmpty then c.fail "a tag is missing" else return (String.ofList text, after)

/-- Takes `!`, then name characters, then `!` if it stands there. -/
def takeHandle (c : Cursor) : Scan (List Char × Cursor) :=
  if c.head ≠ '!' then c.fail "a tag must begin with an exclamation mark"
  else
    let (name, after) := (c.skip 1).takeWhile isNameChar
    if after.head = '!' then .ok ('!' :: name ++ ['!'], after.skip 1)
    else .ok ('!' :: name, after)

/-- Takes a tag, the cursor being at its exclamation mark. The forms are `!<text>`, which has no
handle, `!name!text`, and `!text` with the handle `!`. A lone `!` counts as text. -/
def takeTag (inFlow : Bool) (c : Cursor) : Scan (TokenKind × Cursor) := do
  let (kind, after) ←
    if (c.skip 1).head = '<' then do
      let (text, after) ← takeTagText true (c.skip 2)
      if after.head ≠ '>' then after.fail "a tag is not closed"
      else pure (TokenKind.tag "" text, after.skip 1)
    else do
      let (handle, after) ← takeHandle c
      if handle.length > 1 && handle.getLast? = some '!' then
        let (text, after) ← takeTagText false after
        pure (.tag (String.ofList handle) text, after)
      else
        let (text, after) ← takeTagChars false (after.rest.length + 1) after
        let whole := handle.drop 1 ++ text
        pure (if whole.isEmpty then .tag "" "!" else .tag "!" (String.ofList whole), after)
  if atGap after.rest || (inFlow && after.head = ',') then return (kind, after)
  else after.fail "a tag is not set off"

/-! ## Anchors and aliases -/

/-- Takes the name of an anchor or alias, the cursor being at its indicator. -/
def takeAnchorName (c : Cursor) : Scan (String × Cursor) :=
  let (name, after) := (c.skip 1).takeWhile isNameChar
  let setOff := atGap after.rest || "?:,]\x7d%@`".toList.contains after.head
  if name.isEmpty || !setOff then after.fail "an anchor needs a name of letters and digits"
  else .ok (String.ofList name, after)

/-! ## Directives -/

/-- Takes the number of a version. -/
def takeVersionNumber (c : Cursor) : Scan (Nat × Cursor) :=
  let (digits, after) := c.takeWhile Char.isDigit
  if digits.isEmpty || digits.length > 9 then
    c.fail "a version needs numbers of at most nine digits"
  else .ok (digits.foldl (fun n d => n * 10 + (d.toNat - 48)) 0, after)

/-- Takes the value of a version directive. -/
def takeVersion (c : Cursor) : Scan (TokenKind × Cursor) := do
  let (major, c) ← takeVersionNumber (c.skipWhile isBlank)
  if c.head ≠ '.' then c.fail "a version needs two numbers"
  else
    let (minor, c) ← takeVersionNumber (c.skip 1)
    return (.versionDirective major minor, c)

/-- Takes the value of a tag directive: a handle and the text that it stands for. -/
def takeTagDirective (c : Cursor) : Scan (TokenKind × Cursor) := do
  let (handle, c) ← takeHandle (c.skipWhile isBlank)
  if handle.getLast? ≠ some '!' then c.fail "a handle must end with an exclamation mark"
  else if !c.rest.head?.any isBlank then c.fail "a handle is not set off"
  else
    let (text, c) ← takeTagText true (c.skipWhile isBlank)
    if !atGap c.rest then c.fail "a tag is not set off"
    else return (.tagDirective (String.ofList handle) text, c)

/-- Takes the name of a directive and with it its value. -/
def takeNamedDirective (c : Cursor) : Scan (TokenKind × Cursor) :=
  let (name, after) := c.takeWhile isNameChar
  if !atGap after.rest then after.fail "the name of a directive is not set off"
  else if name = "YAML".toList then takeVersion after
  else if name = "TAG".toList then takeTagDirective after
  else c.fail "an unknown directive"

/-- Takes a directive and the rest of its line, the cursor being at its percent sign. The mark is
the end of the directive itself. -/
def takeDirective (c : Cursor) : Scan ((TokenKind × Mark) × Cursor) := do
  let (kind, c) ← takeNamedDirective (c.skip 1)
  let finish := c.mark
  let c := c.skipWhile isBlank
  let c := if c.head = '#' then c.skipComment else c
  if !atBreakOrEnd c.rest then c.fail "text after a directive"
  else return ((kind, finish), c.skipBreak)

end CommuteSim.Yaml
