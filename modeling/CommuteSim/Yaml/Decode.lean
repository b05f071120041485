import CommuteSim.Reading.Mismatch
import CommuteSim.Yaml.Content
import CommuteSim.Yaml.Node.Reader

/-!
# Domain values from YAML

A decoder turns a node into a value. It fails either because the data has the wrong shape, which
is reported with the place of the innermost node that knows one, or because the text stops being
YAML before the value is complete.

A structure is read from a mapping. Fields it does not have are skipped, a field that it has may
be given once, and fields that are not given keep their values from the start.
-/

namespace CommuteSim.Yaml

/-! ## Places and failures -/

/-- A step from a node into a collection. -/
inductive Step where
  | field (name : String)
  | item (index : Nat)
  /-- The value of a key that is no scalar. -/
  | unnamed
  deriving DecidableEq, Repr

def Step.text : Step → String
  | .field name => name
  | .item i => s!"\\[{i}\\]"
  | .unnamed => "?"

/-- The steps from the root of a document. -/
abbrev Path := List Step

def Path.text (p : Path) : String := ".".intercalate (p.map Step.text)

/-- Why a document gives no value. -/
inductive Failure where
  /-- The text stops being YAML. -/
  | notYaml
  /-- The data has the wrong shape. -/
  | mismatch (m : Mismatch) (place : Option (Path × Mark))
  /-- Something follows the document. -/
  | moreDocuments

/-- The word for the absent value in messages about YAML. -/
def absentWord : String := "unit value"

/-- The place of a failure as it stands in messages: the path unless it is empty, and the line and
column unless they are the first. -/
def placed (path : Path) (mark : Mark) (text : String) : String :=
  let before := if path.isEmpty then "" else path.text ++ ": "
  let line := mark.line + 1
  let column := mark.column + 1
  let after := if mark = ⟨0, 0⟩ then "" else s!" at line {line} column {column}"
  before ++ text ++ after

/-- The message of a failure; none where the text is at fault. -/
def Failure.message? : Failure → Option String
  | notYaml => none
  | mismatch m none => some (m.message absentWord)
  | mismatch m (some (path, mark)) => some (placed path mark (m.message absentWord))
  | moreDocuments =>
    some "deserializing from YAML containing more than one document is not supported"

/-- The outcome of decoding. -/
abbrev Decoded := Except Failure

/-- Gives a failure a place, unless it has one. -/
def Failure.at_ (path : Path) (mark : Mark) : Failure → Failure
  | mismatch m none => mismatch m (some (path, mark))
  | f => f

/-! ## Decoders -/

/-- Where a node stands: the nodes that aliases stand for, and the steps to the node. -/
structure Context where
  target : Nat → Node
  path : Path := []

def Context.into (c : Context) (s : Step) : Context := { c with path := c.path ++ [s] }

/-- Turns a node into a value. -/
abbrev Decoder (α : Type) := Context → Node → Decoded α

/-- The node itself or the one that it stands for. -/
def Context.resolve (c : Context) : Node → Node
  | .reference _ a => c.target a
  | n => n

/-- Decodes the node that is meant, and places failures there. -/
def decoding {α : Type} (f : Context → Node → Decoded α) : Decoder α := fun c n =>
  let n := c.resolve n
  match n with
  | .cut => .error .notYaml
  | n => (f c n).mapError (Failure.at_ c.path n.mark)

def mismatched {α : Type} (m : Mismatch) : Decoded α := .error (.mismatch m none)

/-! ### Scalars -/

/-- The tag that the core schema gives to a kind of scalar. -/
def coreTag (name : String) : String := "tag:yaml.org,2002:" ++ name

/-- The words for plain content that is not what is needed. -/
def Content.found : Content → Found
  | .null => .absent
  | .bool b => .bool b
  | .integer n => .integer n
  | .wide n => .described (if n < 0 then s!"integer `{n}` as i128" else s!"integer `{n}` as u128")
  | .real x => .real x
  | .text s => .string s

/-- The mismatch of a scalar with what is needed. A core tag says what the scalar should be. -/
def scalarMismatch (tag : Option String) (style : ScalarStyle) (s expected : String) : Mismatch :=
  let tagged (content : Option Content) (wanted : String) : Mismatch :=
    match content with
    | some c => .invalidType c.found expected
    | none => .invalidValue (.string s) wanted
  let bare : Mismatch :=
    if style = .plain then .invalidType (Content.ofPlain s).found expected
    else .invalidType (.string s) expected
  match tag with
  | none => bare
  | some t =>
    if t = coreTag "bool" then tagged ((Content.bool? s).map .bool) "a boolean"
    else if t = coreTag "int" then tagged (Content.ofInteger? s) "an integer"
    else if t = coreTag "float" then tagged ((Content.real? s).map .real) "a float"
    else if t = coreTag "null" then tagged (if Content.isNull s then some .null else none) "null"
    else if t.startsWith "!" then bare
    else .invalidType (.string s) expected

/-- The mismatch of a node with what is needed. -/
def nodeMismatch (expected : String) : Node → Mismatch
  | .scalar p style s => scalarMismatch p.tag style s expected
  | .mapping .. => .invalidType .map expected
  | _ => .invalidType .sequence expected

/-- Decodes a scalar whose plain text means something; the same text may be a literal block with
the core tag of that name. -/
def plainScalar {α : Type} (core expected : String) (read : String → Option α) : Decoder α :=
  decoding fun _ n =>
    let value := match n with
      | .scalar p style s =>
        if style = .plain || (style = .literal && p.tag = some (coreTag core)) then read s else none
      | _ => none
    match value with
    | some a => .ok a
    | none => mismatched (nodeMismatch expected n)

def decodeBool : Decoder Bool := plainScalar "bool" "a boolean" Content.bool?

def decodeUInt64 : Decoder UInt64 :=
  plainScalar "int" "u64" fun s => (Content.naturalBelow? UInt64.size s).map Nat.toUInt64

def decodeUInt32 : Decoder UInt32 :=
  decoding fun c n => do
    let wide ← plainScalar "int" "u32" (Content.naturalBelow? UInt64.size) c n
    if wide < UInt32.size then .ok wide.toUInt32
    else mismatched (.invalidValue (.integer wide) "u32")

def decodeFloat : Decoder Float := plainScalar "float" "f64" Content.real?

/-- Decodes the text of any scalar. -/
def decodeText (expected : String) : Decoder String :=
  decoding fun _ n =>
    match n with
    | .scalar _ _ s => .ok s
    | n => mismatched (nodeMismatch expected n)

/-- Decodes a value that may be absent: a plain scalar that is empty or a word for the absent value
is none. -/
def decodeOption {α : Type} (f : Decoder α) : Decoder (Option α) := fun c n =>
  let present := (f c (c.resolve n)).map some
  match c.resolve n with
  | .scalar p .plain s =>
    if p.tag = some (coreTag "null") then
      if Content.isNull s then .ok none
      else mismatched (.invalidValue (.string s) "null")
    else if p.tag.isNone && (s.isEmpty || Content.isNull s) then .ok none
    else present
  | _ => present

/-- Decodes one of several named values, written as its name or as a tag `!name` on nothing. -/
def decodeNamed {α : Type} (known : List α) (name : α → String) : Decoder α := fun c n =>
  let n := c.resolve n
  let find (given : String) : Decoded α :=
    match known.find? (name · = given) with
    | some a => .ok a
    | none => mismatched (.unknownVariant given (known.map name))
  let variant? (p : Properties) : Option String :=
    p.tag.bind fun t =>
      match t.toList with
      | ['!'] => some t
      | '!' :: v => some (String.ofList v)
      | _ => none
  let unit (f : Decoded Unit) : Decoded Unit := f.mapError (Failure.at_ c.path n.mark)
  match n with
  | .cut => .error .notYaml
  | .scalar p style s =>
    match variant? p with
    | some v => do
      let a ← find v
      let nothing := style = .plain && (s.isEmpty || Content.isNull s)
      unit (if nothing then .ok () else mismatched (.invalidValue (.string s) "null"))
      return a
    | none => (find s).mapError (Failure.at_ c.path n.mark)
  | n =>
    match n with
    | .sequence p _ _ | .mapping p _ _ =>
      match variant? p with
      | some v => do
        let a ← find v
        unit (mismatched (nodeMismatch "unit" n))
        return a
      | none =>
        unit (mismatched (nodeMismatch "a YAML tag starting with '!'" n)) >>= fun _ =>
          .error .notYaml
    | _ => .error .notYaml

/-! ### Collections -/

/-- Whether a node is an empty plain scalar, which stands for an empty collection. -/
def isVoid : Node → Bool
  | .scalar _ .plain "" => true
  | _ => false

def decodeItems {α : Type} (f : Decoder α) (c : Context) (closed : Bool) :
    (index : Nat) → List Node → Decoded (List α)
  | _, [] => if closed then .ok [] else .error .notYaml
  | i, n :: rest => do
    let a ← f (c.into (.item i)) n
    let more ← decodeItems f c closed (i + 1) rest
    return a :: more

/-- Decodes a sequence of values. -/
def decodeList {α : Type} (f : Decoder α) : Decoder (List α) :=
  decoding fun c n =>
    match n with
    | .sequence _ items closed => decodeItems f c closed 0 items
    | n => if isVoid n then .ok [] else mismatched (nodeMismatch "a sequence" n)

/-- A field of a structure: its name, and how its node changes the structure. -/
structure Field (σ : Type) where
  name : String
  set : Context → Node → σ → Decoded σ
  /-- Whether the field must be given. -/
  required : Bool := false

/-- A field that holds a value of its own. -/
def Field.of {σ α : Type} (name : String) (f : Decoder α) (put : α → σ → σ) : Field σ :=
  { name := name, set := fun c n s => (f c n).map (put · s) }

/-- The same field, which must be given. -/
def Field.needed {σ : Type} (f : Field σ) : Field σ := { f with required := true }

/-- The step that a key names. -/
def keyStep : Node → Step
  | .scalar _ _ s => .field s
  | _ => .unnamed

/-- Takes the entries of a mapping one after the other; `seen` holds the fields already given. -/
def decodeEntries {σ : Type} (fields : List (Field σ)) (c : Context) :
    (seen : List String) → List (Node × Node) → σ → Decoded (List String × σ)
  | seen, [], s => .ok (seen, s)
  | seen, (k, v) :: rest, s => do
    let name ← decodeText "field identifier" c k
    match fields.find? (·.name = name) with
    | none => if v.isWhole then decodeEntries fields c seen rest s else .error .notYaml
    | some field =>
      if seen.contains name then mismatched (.duplicateField name)
      else
        let s ← field.set (c.into (keyStep k)) v s
        decodeEntries fields c (name :: seen) rest s

/-- The first field that must be given and is not. -/
def firstMissing {σ : Type} (fields : List (Field σ)) (seen : List String) : Option String :=
  (fields.find? fun f => f.required && !seen.contains f.name).map (·.name)

/-- Decodes a structure: `start` with the given fields put in. -/
def decodeStructure {σ : Type} (name : String) (fields : List (Field σ)) (start : σ) : Decoder σ :=
  decoding fun c n => do
    let finish (seen : List String) (s : σ) : Decoded σ :=
      match firstMissing fields seen with
      | some f => mismatched (.missingField f)
      | none => .ok s
    match n with
    | .mapping _ entries closed =>
      let (seen, s) ← decodeEntries fields c [] entries start
      if closed then finish seen s else .error .notYaml
    | n =>
      if isVoid n then finish [] start
      else mismatched (nodeMismatch (s!"struct {name}") n)

/-! ### Documents -/

/-- Decodes the only document of a text; `absent` is the value of a text without one. -/
def Document.decode {α : Type} (d : Document) (absent : α) (f : Decoder α) : Decoded α := do
  match d.root with
  | none => .ok absent
  | some root =>
    let a ← f { target := d.target } root
    if !d.ended then .error .notYaml
    else if d.more then .error .moreDocuments
    else return a

end CommuteSim.Yaml
