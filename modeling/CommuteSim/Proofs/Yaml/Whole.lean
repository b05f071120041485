import CommuteSim.Proofs.Yaml.Structure
import CommuteSim.Yaml.Node.Reader

/-!
# Texts that are understood to the end

A text may stop being YAML anywhere, and the tree that is read tells where. If a document is
understood to its end, then so is every node in it: nothing is cut, and every collection is closed.
No alias stands for another alias.

Main statements: `Document.complete_of_ended` and `Document.direct_target`.
-/

namespace CommuteSim.Yaml

mutual

/-- Everything in a tree is understood to its end. -/
def Node.Complete : Node → Prop
  | .scalar .. | .reference .. => True
  | .sequence _ items closed => closed = true ∧ CompleteItems items
  | .mapping _ entries closed => closed = true ∧ CompleteEntries entries
  | .cut => False

def CompleteItems : List Node → Prop
  | [] => True
  | n :: rest => n.Complete ∧ CompleteItems rest

def CompleteEntries : List (Node × Node) → Prop
  | [] => True
  | (k, v) :: rest => k.Complete ∧ v.Complete ∧ CompleteEntries rest

end

theorem Node.Complete.isWhole {n : Node} (h : n.Complete) : n.isWhole = true := by
  cases n with
  | scalar | reference => rfl
  | sequence | mapping => exact h.1
  | cut => exact h.elim

namespace TreeReader

/-- A node that is complete if it is understood to its end. -/
def SoundNode (x : Node × TreeReader) : Prop := x.1.isWhole = true → x.1.Complete

/-- Items that are complete if their collection is closed. -/
def SoundItems (x : List Node × Bool × TreeReader) : Prop := x.2.1 = true → CompleteItems x.1

def SoundEntries (x : List (Node × Node) × Bool × TreeReader) : Prop :=
  x.2.1 = true → CompleteEntries x.1

/-- With so much fuel, what is read is sound. -/
structure Sound (fuel : Nat) : Prop where
  node : ∀ block flush r, SoundNode (node block flush fuel r)
  items : ∀ layout first r, SoundItems (items layout first fuel r)
  blockEntries : ∀ r, SoundEntries (blockEntries fuel r)
  flowValue : ∀ closer r, SoundNode (flowValue closer fuel r)
  flowEntries : ∀ first r, SoundEntries (flowEntries first fuel r)
  pairItem : ∀ mark r, SoundNode (pairItem mark fuel r)

theorem sound_zero : Sound 0 where
  node := nofun
  items := nofun
  blockEntries := nofun
  flowValue := nofun
  flowEntries := nofun
  pairItem := nofun

variable {fuel : Nat} {r : TreeReader}

theorem soundNode_cut : SoundNode (.cut, r) := nofun

theorem soundNode_scalar (p : Properties) (style : ScalarStyle) (text : String) :
    SoundNode (.scalar p style text, r) := fun _ => trivial

theorem soundEntries_open (entries : List (Node × Node)) : SoundEntries (entries, false, r) :=
  nofun

theorem SoundItems.sequence {x : List Node × Bool × TreeReader} (h : SoundItems x)
    (p : Properties) : SoundNode (.sequence p x.1 x.2.1, x.2.2) :=
  fun hclosed => ⟨hclosed, h hclosed⟩

theorem SoundEntries.mapping {x : List (Node × Node) × Bool × TreeReader} (h : SoundEntries x)
    (p : Properties) : SoundNode (.mapping p x.1 x.2.1, x.2.2) :=
  fun hclosed => ⟨hclosed, h hclosed⟩

theorem Sound.node_succ (h : Sound fuel) (block flush : Bool) (r : TreeReader) :
    SoundNode (TreeReader.node block flush (fuel + 1) r) := by
  unfold TreeReader.node
  split
  · split
    · exact fun _ => trivial
    · exact soundNode_cut
  · split
    · exact soundNode_cut
    · rename_i g r' _
      dsimp only
      split
      · exact soundNode_cut
      · exact soundNode_scalar _ _ _
      · exact (h.items _ _ _).sequence _
      · exact (h.flowEntries _ _).mapping _
      · split
        · exact (h.items _ _ _).sequence _
        · split
          · exact (h.items _ _ _).sequence _
          · split
            · exact (h.blockEntries _).mapping _
            · split
              · exact soundNode_scalar _ _ _
              · exact soundNode_cut

theorem Sound.flowValue_succ (h : Sound fuel) (closer : TokenKind) (r : TreeReader) :
    SoundNode (TreeReader.flowValue closer (fuel + 1) r) := by
  unfold TreeReader.flowValue
  split
  · exact soundNode_cut
  · split
    · dsimp only
      split
      · exact soundNode_cut
      · split
        · exact fun _ => trivial
        · exact h.node _ _ _
    · exact fun _ => trivial

theorem SoundItems.cons {x : List Node × Bool × TreeReader} {n : Node} (h : SoundItems x)
    (hn : n.isWhole = true → n.Complete) :
    SoundItems (if n.isWhole then (n :: x.1, x.2.1, x.2.2) else ([n], false, r)) := by
  split
  · rename_i hwhole
    exact fun hclosed => ⟨hn hwhole, h hclosed⟩
  · exact nofun

theorem SoundEntries.cons {x : List (Node × Node) × Bool × TreeReader} {k v : Node}
    (h : SoundEntries x) (hk : k.Complete) (hv : v.isWhole = true → v.Complete) :
    SoundEntries (if v.isWhole then ((k, v) :: x.1, x.2.1, x.2.2) else ([(k, v)], false, r)) := by
  split
  · rename_i hwhole
    exact fun hclosed => ⟨hk, hv hwhole, h hclosed⟩
  · exact nofun

theorem Sound.items_succ (h : Sound fuel) (layout : Layout) (first : Bool) (r : TreeReader) :
    SoundItems (TreeReader.items layout first (fuel + 1) r) := by
  have hitem : ∀ x : Node × TreeReader, SoundNode x →
      SoundItems (if x.1.isWhole then
        (x.1 :: (TreeReader.items layout false fuel x.2).1,
          (TreeReader.items layout false fuel x.2).2.1,
          (TreeReader.items layout false fuel x.2).2.2)
        else ([x.1], false, x.2)) :=
    fun x hx => (h.items layout false x.2).cons hx
  unfold TreeReader.items
  dsimp only
  split
  · exact nofun
  · exact fun _ => trivial
  · split
    · exact nofun
    · split
      · exact nofun
      · exact fun _ => trivial
      · exact hitem _ (h.pairItem _ _)
      · exact hitem _ (h.node _ _ _)
  · split
    · exact nofun
    · split
      · exact hitem (emptyAt _, _) fun _ => trivial
      · exact hitem _ (h.node _ _ _)
  · exact fun _ => trivial
  · exact nofun
  · exact fun _ => trivial

/-- A node may be missing in its place. -/
theorem SoundNode.orEmpty {x : Node × TreeReader} (h : SoundNode x) (ends missing : Bool)
    (m : Mark) (s s' : TreeReader) :
    SoundNode (if ends then (.cut, s) else if missing then (emptyAt m, s') else x) := by
  split
  · exact soundNode_cut
  · split
    · exact fun _ => trivial
    · exact h

/-- A key that is not understood to its end is the last one. -/
theorem SoundNode.key {x : Node × TreeReader} (h : SoundNode x) {stops : Bool}
    (hstops : stops = false → x.1.isWhole = true) {more : List (Node × Node) × Bool × TreeReader}
    (hmore : x.1.Complete → SoundEntries more) :
    SoundEntries (if stops then ([(x.1, .cut)], false, x.2) else more) := by
  split
  · exact nofun
  · rename_i hgoes
    exact hmore (h (hstops (Bool.eq_false_iff.mpr hgoes)))

theorem Sound.pairItem_succ (h : Sound fuel) (mark : Mark) (r : TreeReader) :
    SoundNode (TreeReader.pairItem mark (fuel + 1) r) := by
  have hpair : ∀ x : Node × TreeReader, SoundNode x → SoundNode
      (if !x.1.isWhole then (.mapping { mark := mark } [(x.1, .cut)] false, x.2)
      else (.mapping { mark := mark } [(x.1, (TreeReader.flowValue .flowSequenceEnd fuel x.2).1)]
          ((TreeReader.flowValue .flowSequenceEnd fuel x.2).1.isWhole &&
            !(TreeReader.flowValue .flowSequenceEnd fuel x.2).2.rest.isEmpty),
        (TreeReader.flowValue .flowSequenceEnd fuel x.2).2)) := by
    intro x hx
    split
    · exact nofun
    · rename_i hwhole
      intro hclosed
      have hvalue := (Bool.and_eq_true_iff.mp hclosed).1
      exact ⟨hclosed, hx (by simpa using hwhole), h.flowValue _ _ hvalue, trivial⟩
  unfold TreeReader.pairItem
  exact hpair _ ((h.node _ _ _).orEmpty _ _ _ _ _)

theorem Sound.blockEntries_succ (h : Sound fuel) (r : TreeReader) :
    SoundEntries (TreeReader.blockEntries (fuel + 1) r) := by
  have hentry : ∀ k : Node, k.Complete → ∀ x : Node × TreeReader, SoundNode x → SoundEntries
      (if !x.1.isWhole then ([(k, x.1)], false, x.2)
      else ((k, x.1) :: (TreeReader.blockEntries fuel x.2).1,
        (TreeReader.blockEntries fuel x.2).2.1, (TreeReader.blockEntries fuel x.2).2.2)) := by
    intro k hk x hx
    split
    · exact soundEntries_open _
    · rename_i hwhole
      exact fun hclosed => ⟨hk, hx (by simpa using hwhole), h.blockEntries _ hclosed⟩
  have hvalue : ∀ s : TreeReader, SoundNode
      (if s.sees [.value] then
        if s.skip.rest.isEmpty then (.cut, s.skip)
        else if s.skip.sees [.key, .value, .blockEnd] then (emptyAt s.finish, s.skip)
        else TreeReader.node true true fuel s.skip
      else if s.rest.isEmpty then (.cut, s) else (emptyAt s.start, s)) := by
    intro s
    split
    · exact (h.node _ _ _).orEmpty _ _ _ _ _
    · split
      · exact soundNode_cut
      · exact fun _ => trivial
  unfold TreeReader.blockEntries
  dsimp only
  split
  · exact fun _ => trivial
  · refine ((h.node _ _ _).orEmpty _ _ _ _ _).key (fun hgoes => by simpa using hgoes) fun hk => ?_
    exact hentry _ hk _ (hvalue _)
  · exact soundEntries_open _

theorem Sound.flowEntries_succ (h : Sound fuel) (first : Bool) (r : TreeReader) :
    SoundEntries (TreeReader.flowEntries first (fuel + 1) r) := by
  unfold TreeReader.flowEntries
  dsimp only
  split
  · exact nofun
  · exact fun _ => trivial
  · split
    · exact nofun
    · split
      · exact nofun
      · exact fun _ => trivial
      · refine ((h.node _ _ _).orEmpty _ _ _ _ _).key (fun hgoes => by simpa using hgoes) ?_
        exact fun hk => (h.flowEntries _ _).cons hk (h.flowValue _ _)
      · refine (h.node _ _ _).key (fun hgoes => ?_) fun hk => ?_
        · rw [Bool.or_eq_false_iff] at hgoes
          simpa using hgoes.1
        · exact (h.flowEntries _ _).cons hk fun _ => trivial

/-- Whatever the fuel, what is read is sound. By induction on the fuel. -/
theorem sound (fuel : Nat) : Sound fuel := by
  induction fuel with
  | zero => exact sound_zero
  | succ fuel ih =>
      exact ⟨ih.node_succ, ih.items_succ, ih.blockEntries_succ, ih.flowValue_succ,
        ih.flowEntries_succ, ih.pairItem_succ⟩

/-! ## Documents -/

theorem soundNode_content (r : TreeReader) : SoundNode r.content := by
  unfold content
  split
  · exact fun _ => trivial
  · exact (sound _).node _ _ _

/-- A document that is complete if it is understood to its end. -/
def SoundDocument (d : Document) : Prop := ∀ n ∈ d.root, d.ended = true → n.Complete

theorem soundDocument (r : TreeReader) : SoundDocument r.document := by
  have hfinish : ∀ (x : Node × TreeReader) (more : Bool), SoundNode x →
      SoundDocument ⟨some x.1, x.1.isWhole && !x.2.rest.isEmpty, more⟩ := by
    intro x more hx n hn hended
    obtain rfl := Option.some.inj hn
    exact hx (Bool.and_eq_true_iff.mp hended).1
  unfold document
  dsimp only
  split
  · exact fun _ _ => nofun
  · exact nofun
  · exact fun _ _ => nofun
  · split
    · split
      · split
        · exact hfinish _ _ (soundNode_content _)
        · exact fun _ _ => nofun
      · exact fun _ _ => nofun
    · exact hfinish _ _ (soundNode_content _)

end TreeReader

/-- A document that is understood to its end is complete. -/
theorem Document.complete_of_ended {text : String} {n : Node}
    (hroot : (Document.ofText text).root = some n) (hended : (Document.ofText text).ended = true) :
    n.Complete :=
  TreeReader.soundDocument _ n hroot hended

/-! ## Aliases -/

/-- What an alias can stand for in a tree that is complete. -/
def Node.Sure (n : Node) : Prop := n.Complete ∧ ∀ m a, n ≠ .reference m a

theorem sure_of_named {anchor : Option Nat} {n : Node} (h : n.Sure) :
    ∀ x ∈ n.named anchor, x.2.Sure := by
  intro x hx
  cases anchor with
  | none => cases hx
  | some a =>
      obtain rfl := List.mem_singleton.mp hx
      exact h

/-- What is anchored in a complete tree can be stood for. By induction on the tree. -/
theorem sure_anchored :
    (∀ n : Node, n.Complete → ∀ x ∈ n.anchored, x.2.Sure) ∧
      (∀ items, CompleteItems items → ∀ x ∈ Node.anchoredItems items, x.2.Sure) ∧
      ∀ entries, CompleteEntries entries → ∀ x ∈ Node.anchoredEntries entries, x.2.Sure := by
  apply Node.induction
  case scalar =>
    intro p style text h
    rw [Node.anchored]
    exact sure_of_named ⟨h, nofun⟩
  case sequence =>
    intro p items closed hitems h x hx
    rw [Node.anchored] at hx
    rcases List.mem_append.mp hx with hx | hx
    · exact sure_of_named ⟨h, nofun⟩ x hx
    · exact hitems h.2 x hx
  case mapping =>
    intro p entries closed hentries h x hx
    rw [Node.anchored] at hx
    rcases List.mem_append.mp hx with hx | hx
    · exact sure_of_named ⟨h, nofun⟩ x hx
    · exact hentries h.2 x hx
  case reference => exact fun _ _ _ => nofun
  case cut => exact fun _ => nofun
  case noItem => exact fun _ => nofun
  case item =>
    intro n rest hn hrest h x hx
    rw [Node.anchoredItems] at hx
    rcases List.mem_append.mp hx with hx | hx
    · exact hn h.1 x hx
    · exact hrest h.2 x hx
  case noEntry => exact fun _ => nofun
  case entry =>
    intro k v rest hk hv hrest h x hx
    rw [Node.anchoredEntries] at hx
    rcases List.mem_append.mp hx with hx | hx
    · rcases List.mem_append.mp hx with hx | hx
      · exact hk h.1 x hx
      · exact hv h.2.1 x hx
    · exact hrest h.2.2 x hx

/-- In a document that is complete an alias stands for what is complete, or for nothing. -/
theorem Document.target_cases {d : Document} (h : ∀ n ∈ d.root, n.Complete) (a : Nat) :
    d.target a = .cut ∨ (d.target a).Sure := by
  unfold Document.target
  split
  · rename_i n hn
    right
    obtain ⟨before, after, hlist, -⟩ := List.lookup_eq_some_iff.mp hn
    cases hroot : d.root with
    | none =>
        rw [hroot] at hlist
        simp at hlist
    | some root =>
        have hmem : (a, n) ∈ root.anchored := by
          rw [hroot] at hlist
          refine List.mem_reverse.mp ?_
          change root.anchored.reverse = _ at hlist
          rw [hlist]
          simp
        exact sure_anchored.1 root (h root hroot) _ hmem
  · exact .inl rfl

/-- No alias stands for another alias. -/
theorem Document.direct_target {d : Document} (h : ∀ n ∈ d.root, n.Complete) :
    Direct d.target := by
  intro a m b heq
  rcases d.target_cases h a with hcut | hsure
  · cases hcut.symm.trans heq
  · exact hsure.2 m b heq

theorem CompleteEntries.of_mem {entries : List (Node × Node)} (h : CompleteEntries entries) :
    ∀ e ∈ entries, e.2.Complete := by
  induction entries with
  | nil => exact nofun
  | cons e rest ih =>
      intro e' he'
      rcases List.mem_cons.mp he' with rfl | he'
      · exact h.2.1
      · exact ih h.2.2 e' he'

/-- The entries that are meant by a node of a complete document are complete. -/
theorem Document.complete_entries? {d : Document} (h : ∀ n ∈ d.root, n.Complete) {n : Node}
    (hn : n.Complete) {entries : List (Node × Node)}
    (hentries : entries? d.target n = some entries) : CompleteEntries entries := by
  have hmeant : meant d.target n = .cut ∨ (meant d.target n).Complete := by
    cases n with
    | reference m a => exact (d.target_cases h a).imp id And.left
    | _ => exact .inr hn
  unfold entries? at hentries
  split at hentries
  · rename_i heq
    cases hentries
    rw [heq] at hmeant
    exact (hmeant.resolve_left nofun).2
  · cases hentries
    trivial
  · cases hentries

/-- Where everything is understood to its end, what a table does not know is left out. -/
theorem Table.admits_iff {σ : Type} {T : Table σ} {t : Nat → Node} {entries : List (Node × Node)}
    (h : CompleteEntries entries) : T.Admits t entries ↔ Keyed t entries := by
  refine forall₂_congr fun e he => ?_
  rw [Option.isSome_iff_exists]
  exact exists_congr fun k => and_iff_left fun _ => (h.of_mem e he).isWhole

end CommuteSim.Yaml
