import CommuteSim.Yaml.Token

/-!
# Trees of YAML

A document is a tree of scalars, sequences and mappings, some of them anchored so that an alias can
stand for them. A text may stop being YAML in the middle of its document. What was understood
before that point is kept: the tree then ends in `cut`, or in a collection that is not closed.
-/

namespace CommuteSim.Yaml

/-- What stands before a node. -/
structure Properties where
  /-- Where the node begins. -/
  mark : Mark := ⟨0, 0⟩
  /-- The number under which aliases find the node. -/
  anchor : Option Nat := none
  tag : Option String := none
  deriving DecidableEq, Repr

/-- A node of a document. -/
inductive Node where
  | scalar (properties : Properties) (style : ScalarStyle) (text : String)
  | sequence (properties : Properties) (items : List Node) (closed : Bool)
  | mapping (properties : Properties) (entries : List (Node × Node)) (closed : Bool)
  | reference (mark : Mark) (target : Nat)
  /-- Here the text stops being YAML. -/
  | cut
  deriving Repr

namespace Node

/-- Induction on a tree, together with its lists of items and of entries. -/
theorem induction {P : Node → Prop} {Q : List Node → Prop} {R : List (Node × Node) → Prop}
    (scalar : ∀ p style text, P (.scalar p style text))
    (sequence : ∀ p items closed, Q items → P (.sequence p items closed))
    (mapping : ∀ p entries closed, R entries → P (.mapping p entries closed))
    (reference : ∀ m a, P (.reference m a)) (cut : P .cut)
    (noItem : Q []) (item : ∀ n rest, P n → Q rest → Q (n :: rest))
    (noEntry : R []) (entry : ∀ k v rest, P k → P v → R rest → R ((k, v) :: rest)) :
    (∀ n, P n) ∧ (∀ items, Q items) ∧ ∀ entries, R entries := by
  let both (e : Node × Node) : Prop := P e.1 ∧ P e.2
  have cons : ∀ e rest, both e → R rest → R (e :: rest) :=
    fun e rest he hrest => entry e.1 e.2 rest he.1 he.2 hrest
  have pair : ∀ k v, P k → P v → both (k, v) := fun _ _ hk hv => ⟨hk, hv⟩
  exact
    ⟨@Node.rec P Q R both scalar sequence mapping reference cut noItem item noEntry cons pair,
      @Node.rec_1 P Q R both scalar sequence mapping reference cut noItem item noEntry cons pair,
      @Node.rec_2 P Q R both scalar sequence mapping reference cut noItem item noEntry cons pair⟩

/-- Where a node begins. -/
def mark : Node → Mark
  | scalar p _ _ | sequence p _ _ | mapping p _ _ => p.mark
  | reference m _ => m
  | cut => ⟨0, 0⟩

/-- Whether the text of a node is understood to its end. -/
def isWhole : Node → Bool
  | scalar .. | reference .. => true
  | sequence _ _ closed | mapping _ _ closed => closed
  | cut => false

/-- A node with a number for aliases, if it has one. -/
def named (anchor : Option Nat) (n : Node) : List (Nat × Node) :=
  match anchor with
  | some a => [(a, n)]
  | none => []

mutual

/-- The anchored nodes of a tree in the order in which they begin. -/
def anchored : Node → List (Nat × Node)
  | n@(scalar p _ _) => named p.anchor n
  | n@(sequence p items _) => named p.anchor n ++ anchoredItems items
  | n@(mapping p entries _) => named p.anchor n ++ anchoredEntries entries
  | reference .. | cut => []

def anchoredItems : List Node → List (Nat × Node)
  | [] => []
  | n :: r => anchored n ++ anchoredItems r

def anchoredEntries : List (Node × Node) → List (Nat × Node)
  | [] => []
  | (k, v) :: r => anchored k ++ anchored v ++ anchoredEntries r

end

end Node

/-- What a text holds as YAML. -/
structure Document where
  /-- The tree of the first document; `none` in a text without one. -/
  root : Option Node
  /-- Whether the text is understood to the end of that document. -/
  ended : Bool := true
  /-- Whether something follows that document. -/
  more : Bool := false

/-- The node that an alias stands for: of several anchored nodes of one number the last to begin. -/
def Document.target (d : Document) (a : Nat) : Node :=
  match (d.root.map Node.anchored).getD [] |>.reverse.lookup a with
  | some n => n
  | none => .cut

end CommuteSim.Yaml
