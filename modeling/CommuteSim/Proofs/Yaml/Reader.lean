import CommuteSim.Proofs.Yaml.Allowed
import CommuteSim.Proofs.Yaml.Tree
import CommuteSim.Yaml.Node.Reader

/-!
# Reading a written tree back

A tree of named values that is written as a document is read back as the same tree, up to the
places of its nodes and with every scalar in the style that it was written in.
-/

namespace CommuteSim.Yaml

/-! ## The tokens of a document -/

/-- A text whose tokens are at an end. -/
theorem Lexer.run_end {l l' : Lexer} (h : l.next = .ok l')
    (hlast : l'.outline.kinds.getLast? = some .streamEnd) (fuel : Nat) :
    (l.run (fuel + 1)).tokens.map (·.kind) = l'.outline.kinds := by
  rw [run_succ, h]
  simp only [isEnd_eq, hlast, decide_true, if_true]
  rfl

theorem tokens_text {p : Properties} {entries : List (Node × Node)} {closed : Bool}
    (h : (Node.mapping p entries closed).Legible) :
    (tokens (Node.mapping p entries closed).text).tokens.map (·.kind) =
      (Node.mapping p entries closed).kinds ++ [.streamEnd] := by
  obtain ⟨hne, hentries⟩ := h
  have hwritten : Node.written .top 0 (.mapping p entries closed) =
      Node.entryLines true 0 entries := by
    simp [Node.written, hne]
  have hallowed : (Node.entryLines true 0 entries).all isAllowed :=
    List.all_eq_true.mpr (allowed_tree.2.2 entries true 0)
  obtain ⟨cs, hcs⟩ : ∃ cs, Node.entryLines true 0 entries = cs := ⟨_, rfl⟩
  rw [Node.text, hwritten, tokens, String.toList_ofList, if_pos hallowed, hcs]
  -- The first line is at column 0, inside no collection.
  obtain ⟨l, hl⟩ : ∃ l : Lexer, { cursor := { rest := cs } } = l := ⟨_, rfl⟩
  have houtline : l.outline = ⟨[], [-1]⟩ := by rw [← hl]; rfl
  have hgrounded : l.outline.Grounded := by simp [houtline, Outline.Grounded]
  obtain ⟨c, R₀, heq, hR₀, hc⟩ := exists_line (R := []) (by simp [Lexer.StartsLine]) (Nat.le_refl 0)
    hentries
  obtain rfl : c = 0 := by omega
  have hstart : l.Reaches R₀ 0 (l.outline.close (0 : Nat)) := by
    have hrest : l.cursor.rest = R₀ := by rw [← hl, ← hcs]; simpa using heq
    have hcolumn : l.cursor.column = 0 := by rw [← hl]
    have hcalm : l.Calm := hl ▸ ⟨rfl, rfl⟩
    simpa only [hcolumn] using
      Lexer.reaches_here hcalm hgrounded hR₀.fresh hrest (by rw [← hl])
  have hwithin : l.outline.Within (0 : Nat) := by simp [houtline, Outline.Within]
  obtain ⟨n, l₁, hn, hsteps, hreaches⟩ := takes_legible.2 entries hentries (Nat.le_refl 0)
    (by simp [Lexer.StartsLine]) hR₀ heq hwithin (fun h => absurd h hne) hstart
  -- Then the text is at its end.
  obtain ⟨l₂, hnext, hkinds⟩ := hreaches.next_end
  rw [Outline.close_close (by omega),
    Outline.close_opened (by simp [houtline]) hgrounded (by omega), houtline,
    Outline.close_of_within (by simp [Outline.Within])] at hkinds
  rw [hcs] at hn
  obtain ⟨fuel, hfuel⟩ : ∃ fuel, 2 * cs.length + 2 = n + (fuel + 1) :=
    ⟨2 * cs.length + 1 - n, by omega⟩
  rw [hfuel, hl, Lexer.run_of_steps hsteps, Lexer.run_end hnext (by simp [hkinds]), hkinds]
  rfl

/-! ## Trees that are read back -/

mutual

/-- A tree that is read where another one was written. -/
inductive Echoes : Node → Node → Prop where
  | scalar (m : Mark) (p : Properties) (style : ScalarStyle) (s : String) :
    Echoes (.scalar ⟨m, none, none⟩ (style.settled s.toList) s) (.scalar p style s)
  | mapping (m : Mark) (p : Properties) (closed : Bool) {entries' entries : List (Node × Node)}
    (h : EchoesEntries entries' entries) :
    Echoes (.mapping ⟨m, none, none⟩ entries' true) (.mapping p entries closed)

inductive EchoesEntries : List (Node × Node) → List (Node × Node) → Prop where
  | nil : EchoesEntries [] []
  | cons {k' k v' v : Node} {rest' rest : List (Node × Node)} (key : Echoes k' k)
    (value : Echoes v' v) (tail : EchoesEntries rest' rest) :
    EchoesEntries ((k', v') :: rest') ((k, v) :: rest)

end

theorem Echoes.isWhole {n' n : Node} (h : Echoes n' n) : n'.isWhole := by
  cases h <;> rfl

namespace TreeReader

/-- The kinds of the tokens to come. -/
def Shows (r : TreeReader) (ks : List TokenKind) : Prop := r.rest.map (·.kind) = ks

section

variable {r : TreeReader} {kind : TokenKind} {ks : List TokenKind}

theorem Shows.kind? (h : r.Shows (kind :: ks)) : r.kind? = some kind := by
  obtain ⟨t, ts, hrest, rfl, -⟩ := List.map_eq_cons_iff.mp h
  simp [TreeReader.kind?, hrest]

theorem Shows.skip (h : r.Shows (kind :: ks)) : r.skip.Shows ks := by
  obtain ⟨t, ts, hrest, -, rfl⟩ := List.map_eq_cons_iff.mp h
  simp [Shows, TreeReader.skip, hrest]

theorem Shows.isEmpty (h : r.Shows (kind :: ks)) : r.rest.isEmpty = false := by
  obtain ⟨t, ts, hrest, -, -⟩ := List.map_eq_cons_iff.mp h
  simp [hrest]

theorem Shows.sees (h : r.Shows (kind :: ks)) (kinds : List TokenKind) :
    r.sees kinds = kinds.contains kind := by
  simp [TreeReader.sees, h.kind?]

/-- A node without anchor and tag. -/
theorem takeProperties_of_kind (h : r.kind? = some kind) (hanchor : ∀ a, kind ≠ .anchor a)
    (htag : ∀ a b, kind ≠ .tag a b) : takeProperties r = some ({ mark := r.start }, r) := by
  have hnone (g : Given) : takeAnchor g r = (g, r) := by
    rw [takeAnchor, h]
    cases kind <;> first | rfl | exact absurd rfl (hanchor _)
  have hbare (g : Given) : takeTag g r = some (g, r) := by
    rw [takeTag, h]
    cases kind <;> first | rfl | exact absurd rfl (htag _ _)
  simp [takeProperties, hnone, hbare]

end

/-- Where a node comes next, no entry is left without one. -/
theorem Shows.node {r : TreeReader} {n : Node} (hn : n.Legible) {ks : List TokenKind}
    (h : r.Shows (n.kinds ++ ks)) :
    r.rest.isEmpty = false ∧ r.sees [.key, .value, .blockEnd] = false := by
  cases n with
  | scalar p style s => exact ⟨h.isEmpty, h.sees _⟩
  | mapping p entries closed => exact ⟨h.isEmpty, h.sees _⟩
  | _ => exact hn.elim

theorem IsKey.legible {n : Node} (h : n.IsKey) : n.Legible := by
  obtain ⟨p, s, rfl, hname, -⟩ := h.exists_name
  refine ⟨fun _ => hname.ne_nil, fun h => ?_⟩
  rw [settled_letters hname.letters] at h
  cases h

/-- A node is taken from its tokens. -/
def TakesNode (n : Node) : Prop :=
  ∀ ⦃r : TreeReader⦄ ⦃ks : List TokenKind⦄ ⦃fuel : Nat⦄ (flush : Bool), r.Shows (n.kinds ++ ks) →
    n.kinds.length < fuel →
    ∃ n' r', node true flush fuel r = (n', r') ∧ Echoes n' n ∧ r'.Shows ks

/-- The entries of a mapping are taken from their tokens. -/
def TakesBlock (es : List (Node × Node)) : Prop :=
  ∀ ⦃r : TreeReader⦄ ⦃ks : List TokenKind⦄ ⦃fuel : Nat⦄,
    r.Shows (entryKinds es ++ .blockEnd :: ks) → (entryKinds es).length < fuel →
    ∃ es' r', blockEntries fuel r = (es', true, r') ∧ EchoesEntries es' es ∧ r'.Shows ks

theorem takesNode_scalar (p : Properties) (style : ScalarStyle) (s : String) :
    TakesNode (.scalar p style s) := by
  intro r ks fuel flush hr hfuel
  obtain _ | fuel := fuel
  · cases hfuel
  have hr : r.Shows (.scalar (style.settled s.toList) s :: ks) := hr
  have hproperties := takeProperties_of_kind hr.kind? (by simp) (by simp)
  refine ⟨_, r.skip, ?_, .scalar r.start p style s, hr.skip⟩
  simp only [node, hr.kind?, hproperties, begin, bind]
  rfl

theorem takesNode_mapping {p : Properties} {entries : List (Node × Node)} {closed : Bool}
    (htakes : TakesBlock entries) : TakesNode (.mapping p entries closed) := by
  intro r ks fuel flush hr hfuel
  obtain _ | fuel := fuel
  · cases hfuel
  have hr : r.Shows (.blockMappingStart :: (entryKinds entries ++ .blockEnd :: ks)) := by
    simpa [Node.kinds] using hr
  have hproperties := takeProperties_of_kind hr.kind? (by simp) (by simp)
  simp only [Node.kinds, List.length_append, List.length_cons] at hfuel
  obtain ⟨entries', r', htake, hechoes, hr'⟩ := htakes hr.skip (show _ < fuel by omega)
  refine ⟨_, r', ?_, .mapping r.start p closed hechoes, hr'⟩
  simp [node, hr.kind?, hproperties, begin, bind, htake]

theorem takesBlock_nil : TakesBlock [] := by
  intro r ks fuel hr hfuel
  obtain _ | fuel := fuel
  · cases hfuel
  have hr : r.Shows (.blockEnd :: ks) := hr
  refine ⟨[], r.skip, ?_, .nil, hr.skip⟩
  simp [blockEntries, hr.kind?]

theorem takesBlock_cons {k v : Node} {rest : List (Node × Node)} (hk : k.Legible) (hv : v.Legible)
    (htakesKey : TakesNode k) (htakes : TakesNode v) (htakesRest : TakesBlock rest) :
    TakesBlock ((k, v) :: rest) := by
  intro r ks fuel hr hfuel
  obtain _ | fuel := fuel
  · cases hfuel
  have hr : r.Shows (.key :: (k.kinds ++
      .value :: (v.kinds ++ (entryKinds rest ++ .blockEnd :: ks)))) := by
    simpa [entryKinds] using hr
  simp only [entryKinds, List.length_append, List.length_cons] at hfuel
  obtain ⟨k', r₁, htake₁, hechoes₁, hr₁⟩ := htakesKey true hr.skip (show _ < fuel by omega)
  obtain ⟨v', r₂, htake₂, hechoes₂, hr₂⟩ := htakes true hr₁.skip (show _ < fuel by omega)
  obtain ⟨es', r₃, htake₃, hechoes₃, hr₃⟩ := htakesRest hr₂ (show _ < fuel by omega)
  refine ⟨(k', v') :: es', r₃, ?_, .cons hechoes₁ hechoes₂ hechoes₃, hr₃⟩
  obtain ⟨hrest₀, hsees₀⟩ := hr.skip.node hk
  obtain ⟨hrest₁, hsees₁⟩ := hr₁.skip.node hv
  have hvalue : r₁.sees [.value] = true := hr₁.sees _
  simp [blockEntries, hr.kind?, hrest₀, hsees₀, htake₁, hechoes₁.isWhole, hvalue, hrest₁, hsees₁,
    htake₂, hechoes₂.isWhole, htake₃]

/-- A tree of named values is taken from its tokens. By induction on the tree. -/
theorem takesNode_of_legible : ∀ n : Node, n.Legible → TakesNode n := by
  have h : (∀ n : Node, n.Legible → TakesNode n) ∧ (∀ _ : List Node, True) ∧
      ∀ es, LegibleEntries es → TakesBlock es := by
    apply Node.induction
    case scalar => exact fun p style s _ => takesNode_scalar p style s
    case mapping => exact fun p entries closed hentries hn => takesNode_mapping (hentries hn.2)
    case sequence => exact fun _ _ _ _ hn => hn.elim
    case reference => exact fun _ _ hn => hn.elim
    case cut => exact fun hn => hn.elim
    case noItem => trivial
    case item => exact fun _ _ _ _ => trivial
    case noEntry => exact fun _ => takesBlock_nil
    case entry =>
      intro k v rest hk hv hrest h
      have hkey := IsKey.legible h.1
      exact takesBlock_cons hkey h.2.1 (hk hkey) (hv h.2.1) (hrest h.2.2)
  exact h.1

/-- A document that consists of one mapping. -/
theorem document_kinds {p : Properties} {entries : List (Node × Node)} {closed : Bool}
    (h : (Node.mapping p entries closed).Legible) {r : TreeReader}
    (hr : r.Shows ((Node.mapping p entries closed).kinds ++ [.streamEnd])) :
    ∃ n', r.document = { root := some n', ended := true, more := false } ∧
      Echoes n' (.mapping p entries closed) := by
  have hlength : (Node.mapping p entries closed).kinds.length < 4 * r.rest.length + 8 := by
    have : (r.rest.map (·.kind)).length = _ := congrArg List.length hr
    rw [List.length_map, List.length_append] at this
    omega
  obtain ⟨n', r', htake, hechoes, hr'⟩ := takesNode_of_legible _ h false hr hlength
  have hkind : r.kind? = some .blockMappingStart := Shows.kind? hr
  have hedge : r.atDocumentEdge = false := by simp [atDocumentEdge, hkind]
  have hmore : r'.more = false := by
    obtain ⟨t, ts, hrest, hend, -⟩ := List.map_eq_cons_iff.mp hr'
    simp [more, hrest, hend]
  refine ⟨n', ?_, hechoes⟩
  simp [document, hkind, hedge, content, htake, hechoes.isWhole, hr'.isEmpty, hmore]

end TreeReader

/-- A tree of named values that is written as a document is read back. -/
theorem Document.ofText_text {p : Properties} {entries : List (Node × Node)} {closed : Bool}
    (h : (Node.mapping p entries closed).Legible) :
    ∃ n', Document.ofText (Node.mapping p entries closed).text =
        { root := some n', ended := true, more := false } ∧
      Echoes n' (.mapping p entries closed) :=
  TreeReader.document_kinds h (tokens_text h)

end CommuteSim.Yaml
