import CommuteSim.Yaml.Content
import CommuteSim.Yaml.Node

/-!
# Values without a schema

A document can be read without knowing what it should hold. Each scalar then is what it stands for,
aliases are put in full, and tags are kept. No mapping may hold two equal keys, and neither nesting
nor aliases may go too far.
-/

namespace CommuteSim.Yaml

/-- A value of any shape. -/
inductive Value where
  | null
  | bool (b : Bool)
  | integer (n : Int)
  | real (x : Float)
  | text (s : String)
  | sequence (items : List Value)
  | mapping (entries : List (Value × Value))
  | tagged (tag : String) (value : Value)

namespace Value

/-! ## Equality -/

/-- Whether two floats are the same number, or both none. -/
def sameFloat (x y : Float) : Bool := x == y || (x.isNaN && y.isNaN)

mutual

/-- Whether two values are equal. The order of entries does not matter. -/
def same : Value → Value → Bool
  | null, null => true
  | bool a, bool b => a == b
  | integer m, integer n => m == n
  | real x, real y => sameFloat x y
  | text s, text t => s == t
  | sequence as, sequence bs => sameItems as bs
  | mapping as, mapping bs => as.length == bs.length && sameEntries as bs
  | tagged s a, tagged t b => s == t && same a b
  | _, _ => false

def sameItems : List Value → List Value → Bool
  | [], [] => true
  | a :: as, b :: bs => same a b && sameItems as bs
  | _, _ => false

/-- Whether each entry is among others. -/
def sameEntries : List (Value × Value) → List (Value × Value) → Bool
  | [], _ => true
  | (k, v) :: rest, bs => (bs.any fun b => same k b.1 && same v b.2) && sameEntries rest bs

end

/-! ## From nodes -/

/-- What content stands for. An integer of more than 64 bits stands for nothing. -/
def ofContent? : Content → Option Value
  | .null => some null
  | .bool b => some (bool b)
  | .integer n => some (integer n)
  | .wide _ => none
  | .real x => some (real x)
  | .text s => some (text s)

/-- The tag that a document gives to a node for purposes of its own. -/
def localTag? (p : Properties) : Option String :=
  p.tag.bind fun t =>
    match t.toList with
    | ['!'] => some t
    | '!' :: name => some (String.ofList name)
    | _ => none

/-- What a scalar stands for. A core tag says what the scalar must be. -/
def ofScalar? (p : Properties) (style : ScalarStyle) (s : String) : Option Value :=
  let bare := if style = .plain then ofContent? (.ofPlain s) else some (text s)
  match p.tag with
  | none => bare
  | some t =>
    if t = "tag:yaml.org,2002:bool" then (Content.bool? s).map bool
    else if t = "tag:yaml.org,2002:int" then (Content.ofInteger? s).bind ofContent?
    else if t = "tag:yaml.org,2002:float" then (Content.real? s).map real
    else if t = "tag:yaml.org,2002:null" then if Content.isNull s then some null else none
    else if t.startsWith "!" then bare
    else some (text s)

/-- The reading of a value; the state is the number of aliases that may still be followed. -/
abbrev Reading := StateT Nat Option

/-- Follows an alias to what it stands for. -/
def follow (target : Nat → Node) : Node → Reading Node
  | .reference _ a => fun
    | 0 => none
    | left + 1 => some (target a, left)
  | n => return n

/-- Puts entries together. Equal keys are refused. -/
def ofEntries (entries : List (Value × Value)) : Option Value :=
  let distinct := entries.foldl (fun seen e =>
    seen.bind fun keys => if keys.any (same e.1) then none else some (e.1 :: keys)) (some [])
  distinct.map fun _ => mapping entries

/-- Reads a node in which collections may be nested so deep. -/
def ofNode (target : Nat → Node) : (depth : Nat) → Node → Reading Value
  | depth, n => do
    let n ← follow target n
    let (p, value) ← match n, depth with
      | .scalar p style s, _ => do pure (p, ← (ofScalar? p style s : Reading Value))
      | .sequence p items true, depth + 1 => do
        pure (p, sequence (← items.mapM (ofNode target depth)))
      | .mapping p entries true, depth + 1 => do
        let entries ← entries.mapM fun (k, v) => do
          let k ← ofNode target depth k
          let v ← ofNode target depth v
          pure (k, v)
        pure (p, ← (ofEntries entries : Reading Value))
      | _, _ => failure
    pure (match localTag? p with
      | some t => tagged t value
      | none => value)

/-- How deep collections may be nested. -/
def greatestDepth : Nat := 128

/-- How often aliases may be followed for each thing that stands in a document. -/
def aliasesEach : Nat := 100

end Value

mutual

/-- The number of things that stand in a tree: a collection counts for its begin and its end. -/
def Node.size : Node → Nat
  | .scalar .. | .reference .. | .cut => 1
  | .sequence _ items _ => 2 + Node.sizeItems items
  | .mapping _ entries _ => 2 + Node.sizeEntries entries

def Node.sizeItems : List Node → Nat
  | [] => 0
  | n :: rest => n.size + Node.sizeItems rest

def Node.sizeEntries : List (Node × Node) → Nat
  | [] => 0
  | (k, v) :: rest => k.size + v.size + Node.sizeEntries rest

end

/-- The value of a document, absent in a text without one. -/
def Document.value? (d : Document) : Option Value :=
  if !d.ended || d.more then none
  else match d.root with
    | none => some .null
    | some root =>
      let left := root.size * Value.aliasesEach
      ((Value.ofNode d.target Value.greatestDepth root).run left).map (·.1)

/-! ## Shapes -/

namespace Value

/-- A value without its tags. -/
def untagged : Value → Value
  | tagged _ v => untagged v
  | v => v

/-- The value of a key of a mapping. -/
def get? (v : Value) (key : String) : Option Value :=
  match v.untagged with
  | mapping entries => (entries.find? fun e => same e.1 (text key)).map (·.2)
  | _ => none

def text? (v : Value) : Option String :=
  match v.untagged with
  | text s => some s
  | _ => none

def uint32? (v : Value) : Option UInt32 :=
  match v.untagged with
  | integer n => if 0 ≤ n ∧ n < UInt32.size then some n.toNat.toUInt32 else none
  | _ => none

def float? (v : Value) : Option Float :=
  match v.untagged with
  | integer n => some (Binary64.ofInt n)
  | real x => some x
  | _ => none

/-- The items of a sequence; the absent value has none. -/
def list? {α : Type} (f : Value → Option α) (v : Value) : Option (List α) :=
  match v.untagged with
  | sequence items => items.mapM f
  | null => some []
  | _ => none

/-- A value that may be absent. -/
def option? {α : Type} (f : Value → Option α) : Value → Option (Option α)
  | null => some none
  | v => (f v).map some

/-- A field of a structure. -/
structure Member (σ : Type) where
  name : String
  put : Value → σ → Option σ
  /-- Whether the field must be given. -/
  required : Bool := false

/-- A field that holds a value of its own. -/
def Member.of {σ α : Type} (name : String) (read : Value → Option α) (put : α → σ → σ) : Member σ :=
  { name := name, put := fun v s => (read v).map (put · s) }

/-- The same field, which must be given. -/
def Member.needed {σ : Type} (m : Member σ) : Member σ := { m with required := true }

/-- Takes the entries of a mapping one after the other; `seen` holds the fields already given. -/
def putEntries {σ : Type} (members : List (Member σ)) :
    (seen : List String) → List (Value × Value) → σ → Option (List String × σ)
  | seen, [], s => some (seen, s)
  | seen, (k, v) :: rest, s => do
    let name ← k.text?
    match members.find? (·.name = name) with
    | none => putEntries members seen rest s
    | some m =>
      if seen.contains name then none
      else putEntries members (name :: seen) rest (← m.put v s)

/-- A structure: `start` with the given fields put in. The absent value gives none of them. -/
def structure? {σ : Type} (members : List (Member σ)) (start : σ) (v : Value) : Option σ := do
  let (seen, s) ← match v.untagged with
    | null => some ([], start)
    | mapping entries => putEntries members [] entries start
    | _ => none
  if members.any fun m => m.required && !seen.contains m.name then none else some s

end Value

end CommuteSim.Yaml
