import CommuteSim.Yaml.Node
import CommuteSim.Yaml.Token.Lexer

/-!
# From tokens to a tree
-/

namespace CommuteSim.Yaml

/-- The state of reading a tree: the tokens to come, the texts that tag handles stand for, and the
numbers that the names of anchors have at the moment. -/
structure TreeReader where
  rest : List Token
  handles : List (String × String) := [("!", "!"), ("!!", "tag:yaml.org,2002:")]
  anchors : List (String × Nat) := []

namespace TreeReader

def kind? (r : TreeReader) : Option TokenKind := r.rest.head?.map (·.kind)

/-- Whether the next token is one of those given. -/
def sees (r : TreeReader) (kinds : List TokenKind) : Bool := r.kind?.any kinds.contains

def skip (r : TreeReader) : TreeReader := { r with rest := r.rest.drop 1 }

/-- Where the next token starts. -/
def start (r : TreeReader) : Mark := (r.rest.head?.map (·.start)).getD ⟨0, 0⟩

/-- Where the next token ends. -/
def finish (r : TreeReader) : Mark := (r.rest.head?.map (·.finish)).getD ⟨0, 0⟩

/-- Gives a name the next number. A name that is given anew keeps the count of names, so the
number that follows may be given twice. -/
def bind (r : TreeReader) (name : Option String) : Option Nat × TreeReader :=
  match name with
  | none => (none, r)
  | some name =>
    let number := r.anchors.length
    (some number, { r with anchors := (name, number) :: r.anchors.filter (·.1 ≠ name) })

/-- The text of a tag; `none` for a handle that stands for nothing. -/
def tagText? (r : TreeReader) (handle suffix : String) : Option String :=
  if handle = "" then some suffix else (r.handles.lookup handle).map (· ++ suffix)

/-! ## Nodes -/

/-- The properties before a node, its anchor still a name. -/
structure Given where
  mark : Mark
  anchor : Option String := none
  tag : Option String := none

/-- Whether a node has properties, so that its content may be empty. -/
def Given.isSome (g : Given) : Bool := g.anchor.isSome || g.tag.isSome

def takeAnchor (g : Given) (r : TreeReader) : Given × TreeReader :=
  match r.kind? with
  | some (.anchor name) => ({ g with anchor := some name }, r.skip)
  | _ => (g, r)

/-- Takes a tag; `none` if its handle stands for nothing. -/
def takeTag (g : Given) (r : TreeReader) : Option (Given × TreeReader) :=
  match r.kind? with
  | some (.tag handle suffix) =>
    (r.tagText? handle suffix).map fun t => ({ g with tag := some t }, r.skip)
  | _ => some (g, r)

/-- Takes an anchor and a tag, in either order. -/
def takeProperties (r : TreeReader) : Option (Given × TreeReader) :=
  let (g, r) := takeAnchor { mark := r.start } r
  match takeTag g r with
  | none => none
  | some (g, r) => some (if g.anchor.isSome then (g, r) else takeAnchor g r)

/-- A scalar that is not written. -/
def emptyAt (mark : Mark) : Node := .scalar { mark := mark } .plain ""

/-- The properties of a node that begins, and the state in which its anchor has its number. -/
def begin (g : Given) (r : TreeReader) : Properties × TreeReader :=
  let (anchor, r) := r.bind g.anchor
  ({ mark := g.mark, anchor := anchor, tag := g.tag }, r)

/-- Where a collection stands. -/
inductive Layout where
  | block
  /-- A block sequence at the column of the mapping around it. -/
  | flush
  | flow
  deriving DecidableEq

/-- The kinds of tokens that may follow an indicator without a node. -/
def Layout.closers : Layout → List TokenKind
  | block => [.blockEntry, .blockEnd]
  | flush => [.blockEntry, .key, .value, .blockEnd]
  | flow => [.flowEntry, .flowSequenceEnd]

mutual

/-- Takes a node. `block` tells whether block collections may stand here, `flush` whether a
sequence may begin without indentation. -/
def node (block flush : Bool) : (fuel : Nat) → TreeReader → Node × TreeReader
  | 0, r => (.cut, r)
  | fuel + 1, r =>
    match r.kind? with
    | some (.reference name) =>
      match r.anchors.lookup name with
      | some a => (.reference r.start a, r.skip)
      | none => (.cut, r)
    | _ =>
      match takeProperties r with
      | none => (.cut, r)
      | some (g, r) =>
        let (p, s) := begin g r
        let sequence (layout : Layout) (s : TreeReader) : Node × TreeReader :=
          let (items, closed, s) := items layout true fuel s
          (.sequence p items closed, s)
        match r.kind? with
        | none => (.cut, r)
        | some (.scalar style text) =>
          (.scalar { p with tag := p.tag.filter (· ≠ "!") } style text, s.skip)
        | some .flowSequenceStart => sequence .flow s.skip
        | some .flowMappingStart =>
          let (entries, closed, s) := flowEntries true fuel s.skip
          (.mapping p entries closed, s)
        | some kind =>
          if flush && kind = .blockEntry then sequence .flush s
          else if block && kind = .blockSequenceStart then sequence .block s.skip
          else if block && kind = .blockMappingStart then
            let (entries, closed, s) := blockEntries fuel s.skip
            (.mapping p entries closed, s)
          else if g.isSome then (.scalar p .plain "", s)
          else (.cut, r)

/-- Takes the items of a sequence and its end. -/
def items (layout : Layout) (first : Bool) : (fuel : Nat) → TreeReader →
    List Node × Bool × TreeReader
  | 0, r => ([], false, r)
  | fuel + 1, r =>
    let item (n : Node) (r : TreeReader) : List Node × Bool × TreeReader :=
      if n.isWhole then
        let (more, closed, r) := items layout false fuel r
        (n :: more, closed, r)
      else ([n], false, r)
    match layout, r.kind? with
    | _, none => ([], false, r)
    | .flow, some .flowSequenceEnd => ([], true, r.skip)
    | .flow, some _ =>
      if !first && !r.sees [.flowEntry] then ([], false, r)
      else
        let r := if first then r else r.skip
        match r.kind? with
        | none => ([], false, r)
        | some .flowSequenceEnd => ([], true, r.skip)
        | some .key =>
          let (n, r) := pairItem r.start fuel r.skip
          item n r
        | some _ =>
          let (n, r) := node false false fuel r
          item n r
    | layout, some .blockEntry =>
      let mark := r.finish
      let r := r.skip
      if r.rest.isEmpty then ([], false, r)
      else if r.sees layout.closers then item (emptyAt mark) r
      else
        let (n, r) := node true false fuel r
        item n r
    | .block, some .blockEnd => ([], true, r.skip)
    | .block, some _ => ([], false, r)
    | .flush, some _ => ([], true, r)

/-- Takes the entries of a block mapping and its end. -/
def blockEntries : (fuel : Nat) → TreeReader → List (Node × Node) × Bool × TreeReader
  | 0, r => ([], false, r)
  | fuel + 1, r =>
    let closers : List TokenKind := [.key, .value, .blockEnd]
    match r.kind? with
    | some .blockEnd => ([], true, r.skip)
    | some .key =>
      let mark := r.finish
      let r := r.skip
      let (k, r) :=
        if r.rest.isEmpty then (.cut, r)
        else if r.sees closers then (emptyAt mark, r)
        else node true true fuel r
      if !k.isWhole then ([(k, .cut)], false, r)
      else
        let (v, r) :=
          if r.sees [.value] then
            let mark := r.finish
            let r := r.skip
            if r.rest.isEmpty then (.cut, r)
            else if r.sees closers then (emptyAt mark, r)
            else node true true fuel r
          else if r.rest.isEmpty then (.cut, r)
          else (emptyAt r.start, r)
        if !v.isWhole then ([(k, v)], false, r)
        else
          let (more, closed, r) := blockEntries fuel r
          ((k, v) :: more, closed, r)
    | _ => ([], false, r)

/-- Takes the value of a flow mapping's entry; `closer` ends the collection. -/
def flowValue (closer : TokenKind) : (fuel : Nat) → TreeReader → Node × TreeReader
  | 0, r => (.cut, r)
  | fuel + 1, r =>
    if r.rest.isEmpty then (.cut, r)
    else if r.sees [.value] then
      let r := r.skip
      if r.rest.isEmpty then (.cut, r)
      else if r.sees [.flowEntry, closer] then (emptyAt r.start, r)
      else node false false fuel r
    else (emptyAt r.start, r)

/-- Takes the entries of a flow mapping and its end. -/
def flowEntries (first : Bool) : (fuel : Nat) → TreeReader → List (Node × Node) × Bool × TreeReader
  | 0, r => ([], false, r)
  | fuel + 1, r =>
    let entry (k v : Node) (r : TreeReader) : List (Node × Node) × Bool × TreeReader :=
      if v.isWhole then
        let (more, closed, r) := flowEntries false fuel r
        ((k, v) :: more, closed, r)
      else ([(k, v)], false, r)
    match r.kind? with
    | none => ([], false, r)
    | some .flowMappingEnd => ([], true, r.skip)
    | some _ =>
      if !first && !r.sees [.flowEntry] then ([], false, r)
      else
        let r := if first then r else r.skip
        match r.kind? with
        | none => ([], false, r)
        | some .flowMappingEnd => ([], true, r.skip)
        | some .key =>
          let r := r.skip
          let (k, r) :=
            if r.rest.isEmpty then (.cut, r)
            else if r.sees [.value, .flowEntry, .flowMappingEnd] then (emptyAt r.start, r)
            else node false false fuel r
          if !k.isWhole then ([(k, .cut)], false, r)
          else
            let (v, r) := flowValue .flowMappingEnd fuel r
            entry k v r
        | some _ =>
          let (k, r) := node false false fuel r
          if !k.isWhole || r.rest.isEmpty then ([(k, .cut)], false, r)
          else entry k (emptyAt r.start) r

/-- Takes a pair that stands as an item in a flow sequence: a mapping of one entry. Where the key
is missing, the token in its place is taken for it. -/
def pairItem (mark : Mark) : (fuel : Nat) → TreeReader → Node × TreeReader
  | 0, r => (.cut, r)
  | fuel + 1, r =>
    let (k, r) :=
      if r.rest.isEmpty then (.cut, r)
      else if r.sees [.value, .flowEntry, .flowSequenceEnd] then (emptyAt r.finish, r.skip)
      else node false false fuel r
    if !k.isWhole then (.mapping { mark := mark } [(k, .cut)] false, r)
    else
      let (v, r) := flowValue .flowSequenceEnd fuel r
      (.mapping { mark := mark } [(k, v)] (v.isWhole && !r.rest.isEmpty), r)

end

/-! ## Documents -/

/-- The tokens that end the content of a document. -/
def atDocumentEdge (r : TreeReader) : Bool :=
  match r.kind? with
  | some (.versionDirective ..) | some (.tagDirective ..) | some .documentStart
  | some .documentEnd | some .streamEnd => true
  | _ => false

/-- Takes directives: a version at most once and only 1.1 or 1.2, a handle at most once. `none` at
a fault. -/
def directives (versioned : Bool) (given : List (String × String)) : (fuel : Nat) →
    TreeReader → Option TreeReader
  | 0, _ => none
  | fuel + 1, r =>
    match r.kind? with
    | some (.versionDirective major minor) =>
      if versioned || major ≠ 1 || (minor ≠ 1 && minor ≠ 2) then none
      else directives true given fuel r.skip
    | some (.tagDirective handle text) =>
      if given.any (·.1 = handle) then none
      else directives versioned ((handle, text) :: given) fuel r.skip
    | _ => some { r with handles := given ++ r.handles }

/-- The content of a document and the state after it. -/
def content (r : TreeReader) : Node × TreeReader :=
  if r.atDocumentEdge then (emptyAt r.start, r)
  else node true false (4 * r.rest.length + 8) r

/-- Whether something follows a document. -/
def more (r : TreeReader) : Bool :=
  (r.rest.dropWhile (·.kind = .documentEnd)).head?.all (·.kind ≠ .streamEnd)

/-- Reads the first document of a text. -/
def document (r : TreeReader) : Document :=
  let finishing (n : Node) (r : TreeReader) : Document :=
    let ended := n.isWhole && !r.rest.isEmpty
    { root := some n, ended := ended, more := ended && r.more }
  match r.kind? with
  | none => { root := some .cut, ended := false }
  | some .streamEnd => { root := none }
  | some .documentEnd => { root := some .cut, ended := false }
  | some _ =>
    if r.atDocumentEdge then
      match directives false [] (r.rest.length + 1) r with
      | some r =>
        if r.sees [.documentStart] && !r.skip.rest.isEmpty then
          let (n, r) := r.skip.content
          finishing n r
        else { root := some .cut, ended := false }
      | none => { root := some .cut, ended := false }
    else
      let (n, r) := r.content
      finishing n r

end TreeReader

/-- The first document of a text. -/
def Document.ofText (text : String) : Document :=
  (TreeReader.mk (tokens text).tokens [("!", "!"), ("!!", "tag:yaml.org,2002:")] []).document

end CommuteSim.Yaml
