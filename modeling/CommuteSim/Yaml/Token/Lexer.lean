import CommuteSim.Yaml.Token.Property
import CommuteSim.Yaml.Token.Scalar

/-!
# From a text to its tokens

Indentation and keys need no marks of their own in YAML, so the lexer adds them: block collections
are opened and closed by the column of their first token, and a `key` token is put in front of the
tokens of a key once the colon after it is seen. Where a key may be pending its place is kept as a
`KeyPlace`; there is one for each flow collection that is open and one for the block around them.
-/

namespace CommuteSim.Yaml

/-- A place where a key may have begun. -/
structure KeyPlace where
  /-- Whether a colon can still follow. -/
  possible : Bool := false
  /-- Whether a colon must follow, because the indentation opens a mapping here. -/
  required : Bool := false
  /-- The number of tokens before the place. -/
  position : Nat := 0
  index : Nat := 0
  mark : Mark := ⟨0, 0⟩
  deriving Inhabited

/-- The state of the lexer. -/
structure Lexer where
  cursor : Cursor
  tokens : Array Token := #[]
  /-- The column of the innermost open block collection, -1 without one. -/
  indent : Int := -1
  outerIndents : List Int := []
  /-- Whether a key may begin at the next token. -/
  keyAllowed : Bool := true
  /-- The place of a pending key of the innermost collection. -/
  place : KeyPlace := {}
  /-- The places of the collections around it, one for each open flow collection. -/
  outerPlaces : List KeyPlace := []

namespace Lexer

def inFlow (l : Lexer) : Bool := !l.outerPlaces.isEmpty

def mark (l : Lexer) : Mark := l.cursor.mark

def add (l : Lexer) (t : Token) : Lexer := { l with tokens := l.tokens.push t }

/-- Adds a token that covers the text from the cursor of `l` to `c`. -/
def addTo (l : Lexer) (kind : TokenKind) (c : Cursor) : Lexer :=
  { l with tokens := l.tokens.push ⟨kind, l.mark, c.mark⟩, cursor := c }

/-- Puts a token of no extent before the token at `position`. -/
def insert (l : Lexer) (position : Nat) (kind : TokenKind) (mark : Mark) : Lexer :=
  let t : Token := ⟨kind, mark, mark⟩
  { l with tokens := (l.tokens.toList.take position ++ t :: l.tokens.toList.drop position).toArray }

/-! ## Pending keys -/

/-- Gives up the pending key of the innermost collection. -/
def dropKey (l : Lexer) : Scan Lexer :=
  if l.place.possible && l.place.required then .error ⟨"a colon is missing", l.place.mark⟩
  else .ok { l with place := { l.place with possible := false } }

/-- Remembers that a key may begin at the next token. -/
def markKey (l : Lexer) : Scan Lexer :=
  if l.keyAllowed then do
    let required := !l.inFlow && l.indent = l.cursor.column
    let l ← l.dropKey
    return { l with place := ⟨true, required, l.tokens.size, l.cursor.index, l.mark⟩ }
  else .ok l

/-- A key lies on one line and is at most 1024 characters long. -/
def KeyPlace.isStale (k : KeyPlace) (c : Cursor) : Bool :=
  k.possible && (k.mark.line < c.line || k.index + 1024 < c.index)

def expire (c : Cursor) (k : KeyPlace) : Scan KeyPlace :=
  if KeyPlace.isStale k c then
    if k.required then .error ⟨"a colon is missing", k.mark⟩
    else .ok { k with possible := false }
  else .ok k

/-- Gives up all pending keys that are too far back. -/
def expireKeys (l : Lexer) : Scan Lexer := do
  let outer ← l.outerPlaces.mapM (expire l.cursor)
  let place ← expire l.cursor l.place
  return { l with place := place, outerPlaces := outer }

/-! ## Indentation -/

/-- Opens a block collection at a column to the right of the innermost one. -/
def openBlock (l : Lexer) (column position : Nat) (kind : TokenKind) (mark : Mark) : Lexer :=
  if l.inFlow || column ≤ l.indent then l
  else
    let l := { l with outerIndents := l.indent :: l.outerIndents, indent := column }
    l.insert position kind mark

/-- Closes the block collections to the right of a column. -/
def closeBlocks (l : Lexer) (column : Int) : Lexer :=
  if l.inFlow then l
  else
    let columns := l.indent :: l.outerIndents
    let closed := columns.takeWhile (column < ·)
    let left := columns.drop closed.length
    { l with
      tokens := l.tokens ++ (closed.map fun _ => ⟨.blockEnd, l.mark, l.mark⟩).toArray
      indent := left.headD (-1)
      outerIndents := left.drop 1 }

/-! ## One token -/

/-- Skips white space and comments. A tab is white space only where no key can begin, and a line
break outside flow collections allows keys again. -/
def skipSpace : (fuel : Nat) → Lexer → Lexer
  | 0, l => l
  | fuel + 1, l =>
    let c := l.cursor
    let c := if c.column = 0 && c.head = '\uFEFF' then c.skip 1 else c
    let c := c.skipWhile fun x => x = ' ' || (x = '\t' && (l.inFlow || !l.keyAllowed))
    let c := if c.head = '#' then c.skipComment else c
    if c.rest.head?.any isBreak then
      skipSpace fuel { l with cursor := c.skipBreak, keyAllowed := l.keyAllowed || !l.inFlow }
    else { l with cursor := c }

def flowStart (l : Lexer) (kind : TokenKind) : Scan Lexer := do
  let l ← l.markKey
  let l := { l with outerPlaces := l.place :: l.outerPlaces, place := {}, keyAllowed := true }
  return l.addTo kind (l.cursor.skip 1)

def flowEnd (l : Lexer) (kind : TokenKind) : Scan Lexer := do
  let l ← l.dropKey
  let l := match l.outerPlaces with
    | [] => l
    | k :: rest => { l with place := k, outerPlaces := rest }
  return { l with keyAllowed := false }.addTo kind (l.cursor.skip 1)

def flowEntry (l : Lexer) : Scan Lexer := do
  let l ← l.dropKey
  return { l with keyAllowed := true }.addTo .flowEntry (l.cursor.skip 1)

/-- Opens a block collection for an indicator at the cursor, where one may stand. -/
def openBlockHere (l : Lexer) (kind : TokenKind) (problem : String) : Scan Lexer :=
  if l.inFlow then .ok l
  else if !l.keyAllowed then l.cursor.fail problem
  else .ok (l.openBlock l.cursor.column l.tokens.size kind l.mark)

def blockEntry (l : Lexer) : Scan Lexer := do
  let l ← l.openBlockHere .blockSequenceStart "a sequence cannot begin here"
  let l ← l.dropKey
  return { l with keyAllowed := true }.addTo .blockEntry (l.cursor.skip 1)

def explicitKey (l : Lexer) : Scan Lexer := do
  let l ← l.openBlockHere .blockMappingStart "a mapping cannot begin here"
  let l ← l.dropKey
  return { l with keyAllowed := !l.inFlow }.addTo .key (l.cursor.skip 1)

def value (l : Lexer) : Scan Lexer := do
  if l.place.possible then
    let k := l.place
    let l := l.insert k.position .key k.mark
    let l := l.openBlock k.mark.column k.position .blockMappingStart k.mark
    let l := { l with place := { k with possible := false }, keyAllowed := false }
    return l.addTo .value (l.cursor.skip 1)
  else
    let l ← l.openBlockHere .blockMappingStart "a value cannot stand here"
    return { l with keyAllowed := !l.inFlow }.addTo .value (l.cursor.skip 1)

/-- Adds a token that may begin a key. -/
def keyToken (l : Lexer) (take : Cursor → Scan (TokenKind × Cursor)) : Scan Lexer := do
  let l ← l.markKey
  let (kind, c) ← take l.cursor
  return { l with keyAllowed := false }.addTo kind c

def anchorToken (l : Lexer) (kind : String → TokenKind) : Scan Lexer :=
  l.keyToken fun c => do
    let (name, c) ← takeAnchorName c
    return (kind name, c)

def plainToken (l : Lexer) : Scan Lexer := do
  let l ← l.markKey
  let (s, c) ← takePlain l.inFlow (l.indent + 1).toNat l.cursor
  let kind : TokenKind := .scalar .plain (String.ofList s.text)
  return { l with
    tokens := l.tokens.push ⟨kind, l.mark, s.finish⟩
    cursor := c
    keyAllowed := s.gap.broken }

def blockToken (l : Lexer) (folded : Bool) : Scan Lexer := do
  let l ← l.dropKey
  let ((kind, finish), c) ← takeBlock folded l.indent l.cursor
  return { l with
    tokens := l.tokens.push ⟨kind, l.mark, finish⟩
    cursor := c
    keyAllowed := true }

def directiveToken (l : Lexer) : Scan Lexer := do
  let l ← (l.closeBlocks (-1)).dropKey
  let ((kind, finish), c) ← takeDirective l.cursor
  return { l with
    tokens := l.tokens.push ⟨kind, l.mark, finish⟩
    cursor := c
    keyAllowed := false }

def documentMark (l : Lexer) : Scan Lexer := do
  let l ← (l.closeBlocks (-1)).dropKey
  let kind : TokenKind := if l.cursor.head = '-' then .documentStart else .documentEnd
  return { l with keyAllowed := false }.addTo kind (l.cursor.skip 3)

def endToken (l : Lexer) : Scan Lexer := do
  let c := l.cursor
  let l := if c.column = 0 then l
    else { l with cursor := { c with line := c.line + 1, column := 0 } }
  let l ← (l.closeBlocks (-1)).dropKey
  return { l with keyAllowed := false }.addTo .streamEnd l.cursor

/-- Whether a plain scalar can begin at the cursor. -/
def startsPlain (inFlow : Bool) (c : Cursor) : Bool :=
  let x := c.head
  let next := c.rest.drop 1
  (!atGap c.rest && !"-?:,[]\x7b\x7d#&*!|>'\"%@`".toList.contains x) ||
    (x = '-' && !next.head?.any isBlank) ||
    (!inFlow && (x = '?' || x = ':') && !atGap next)

/-- Takes the next token. -/
def next (l : Lexer) : Scan Lexer := do
  let l := skipSpace (l.cursor.rest.length + 1) l
  let l ← l.expireKeys
  let l := l.closeBlocks l.cursor.column
  let c := l.cursor
  let gapNext := atGap (c.rest.drop 1)
  if c.rest.isEmpty then l.endToken
  else if c.column = 0 && c.head = '%' then l.directiveToken
  else if c.column = 0 && atDocumentMark c.rest then l.documentMark
  else match c.head with
    | '[' => l.flowStart .flowSequenceStart
    | '\x7b' => l.flowStart .flowMappingStart
    | ']' => l.flowEnd .flowSequenceEnd
    | '\x7d' => l.flowEnd .flowMappingEnd
    | ',' => l.flowEntry
    | '*' => l.anchorToken .reference
    | '&' => l.anchorToken .anchor
    | '!' => l.keyToken (takeTag l.inFlow)
    | '\'' => l.keyToken (takeQuoted true)
    | '"' => l.keyToken (takeQuoted false)
    | x =>
      if x = '-' && gapNext then l.blockEntry
      else if x = '?' && (l.inFlow || gapNext) then l.explicitKey
      else if x = ':' && (l.inFlow || gapNext) then l.value
      else if x = '|' && !l.inFlow then l.blockToken false
      else if x = '>' && !l.inFlow then l.blockToken true
      else if startsPlain l.inFlow c then l.plainToken
      else c.fail "a character that begins no token"

end Lexer

/-! ## All tokens -/

/-- The tokens of a text, and the fault that ends them early. -/
structure Lexed where
  tokens : List Token
  fault : Option SyntaxError

/-- The tokens before the first pending key, which a fault makes known: whether a key stands in
front of the others will not be found out. -/
def Lexer.settled (l : Lexer) : List Token :=
  let pending := (l.place :: l.outerPlaces).filter (·.possible)
  l.tokens.toList.take (pending.foldl (fun n k => min n k.position) l.tokens.size)

/-- Takes tokens up to the end of the text or a fault. -/
def Lexer.run : (fuel : Nat) → Lexer → Lexed
  | 0, l => ⟨l.tokens.toList, none⟩
  | fuel + 1, l =>
    match l.next with
    | .error e => ⟨l.settled, some e⟩
    | .ok l =>
      if l.tokens.back?.any (·.kind = .streamEnd) then ⟨l.tokens.toList, none⟩
      else l.run fuel

/-- The tokens of a text. Every token but the last takes a character, so the length of the text
bounds their number. A text with a character that YAML does not allow has none. -/
def tokens (text : String) : Lexed :=
  let chars := text.toList
  if chars.all isAllowed then Lexer.run (2 * chars.length + 2) { cursor := { rest := chars } }
  else ⟨[], some ⟨"a character that is not allowed", ⟨0, 0⟩⟩⟩

end CommuteSim.Yaml
