import CommuteSim.Yaml.Decode
import Mathlib.Data.List.Forall2
import Mathlib.Data.List.Nodup
import Mathlib.Data.List.Pairwise

/-!
# What a mapping gives a structure

A structure that is read from a mapping has, for each of its fields, the value that the mapping
gives, or the one that it had from the start. The order of the entries does not matter, and what is
given under other names is left out. A table says which fields there are and what nodes mean for
them; it is about values only, and knows of no decoder.

Main statements: `decodeStructure_ok_iff`, by which a decoder does what a table says, and
`Table.exists_filled`, that there is a structure for any values.
-/

namespace CommuteSim.Yaml

/-! ## What a mapping gives -/

/-- The node itself, or the one that it stands for. -/
def meant (t : Nat → Node) : Node → Node
  | .reference _ a => t a
  | n => n

/-- The text of a key that is a scalar. -/
def keyText? (t : Nat → Node) (n : Node) : Option String :=
  match meant t n with
  | .scalar _ _ s => some s
  | _ => none

/-- The nodes that are given under a name. -/
def given (t : Nat → Node) (name : String) (entries : List (Node × Node)) : List Node :=
  (entries.filter fun e => keyText? t e.1 = some name).map (·.2)

/-- The entries of a node that a structure can be read from: a mapping that is understood to its
end, or nothing at all. -/
def entries? (t : Nat → Node) (n : Node) : Option (List (Node × Node)) :=
  match meant t n with
  | .mapping _ entries true => some entries
  | .scalar _ .plain "" => some []
  | _ => none

/-! ## Tables -/

/-- A field of a structure: its name, the values that it can have, what nodes mean for it, and its
place in the structure. -/
structure Slot (σ : Type) where
  name : String
  Value : Type
  Means : (Nat → Node) → Node → Value → Prop
  get : σ → Value
  put : Value → σ → σ

/-- The value after some nodes are given for a field: that of the only one, or the one before. -/
inductive Slot.Takes {σ : Type} (x : Slot σ) (t : Nat → Node) (before after : x.Value) :
    List Node → Prop where
  | absent : after = before → Takes x t before after []
  | given {n : Node} : x.Means t n after → Takes x t before after [n]

/-- Two fields that do not touch each other. -/
def Slot.Apart {σ : Type} (x y : Slot σ) : Prop :=
  (∀ v s, x.get (y.put v s) = x.get s) ∧ ∀ v s, y.get (x.put v s) = y.get s

/-- The fields of a structure. They have different names and different places, and make up the
structure. -/
structure Table (σ : Type) where
  slots : List (Slot σ)
  nodup : (slots.map (·.name)).Nodup
  get_put : ∀ x ∈ slots, ∀ v s, x.get (x.put v s) = v
  apart : slots.Pairwise Slot.Apart
  ext : ∀ s s', (∀ x ∈ slots, x.get s = x.get s') → s = s'

/-- All keys are scalars. -/
def Keyed (t : Nat → Node) (entries : List (Node × Node)) : Prop :=
  ∀ e ∈ entries, (keyText? t e.1).isSome = true

/-- Whether keys are scalars, and what is given under names that a table does not have is understood
to its end. -/
def Table.Admits {σ : Type} (T : Table σ) (t : Nat → Node) (entries : List (Node × Node)) : Prop :=
  ∀ e ∈ entries, ∃ k, keyText? t e.1 = some k ∧ (k ∉ T.slots.map (·.name) → e.2.isWhole = true)

/-- What a node means for a structure: each field has the value that is given, or the one from the
start. -/
def Table.Fills {σ : Type} (T : Table σ) (start : σ) (t : Nat → Node) (n : Node) (s : σ) : Prop :=
  ∃ entries, entries? t n = some entries ∧ T.Admits t entries ∧
    ∀ x ∈ T.slots, x.Takes t (x.get start) (x.get s) (given t x.name entries)

section Table

variable {σ : Type} {T : Table σ} {t : Nat → Node} {entries : List (Node × Node)} {k v : Node}
  {name : String} {x y : Slot σ}

theorem given_cons_self (h : keyText? t k = some name) :
    given t name ((k, v) :: entries) = v :: given t name entries := by
  simp [given, h]

theorem given_cons_of_ne (h : keyText? t k ≠ some name) :
    given t name ((k, v) :: entries) = given t name entries := by
  simp [given, h]

theorem admits_cons : T.Admits t ((k, v) :: entries) ↔
    (∃ name, keyText? t k = some name ∧
      (name ∉ T.slots.map (·.name) → v.isWhole = true)) ∧ T.Admits t entries :=
  List.forall_mem_cons

theorem Table.apart_of_ne (hx : x ∈ T.slots) (hy : y ∈ T.slots) (h : x.name ≠ y.name) :
    Slot.Apart x y := by
  have hsymm : Std.Symm (Slot.Apart (σ := σ)) := ⟨fun _ _ hxy => ⟨hxy.2, hxy.1⟩⟩
  exact T.apart.forall hx hy fun heq => h (congrArg Slot.name heq)

theorem Slot.Takes.of_nil {before after : x.Value} (h : x.Takes t before after []) :
    after = before := by
  cases h
  assumption

theorem Slot.Takes.of_cons {before after : x.Value} {n : Node} {nodes : List Node}
    (h : x.Takes t before after (n :: nodes)) : ∃ v, x.Means t n v := by
  cases h
  exact ⟨after, by assumption⟩

theorem Slot.takes_iff {before after : x.Value} {nodes : List Node} :
    x.Takes t before after nodes ↔
      nodes.length ≤ 1 ∧ (nodes = [] → after = before) ∧ ∀ n ∈ nodes, x.Means t n after := by
  constructor
  · intro h
    cases h with
    | absent hafter => exact ⟨Nat.zero_le 1, fun _ => hafter, nofun⟩
    | given hmeans =>
        exact ⟨Nat.le_refl 1, nofun, fun n hn => List.mem_singleton.mp hn ▸ hmeans⟩
  · rintro ⟨hlength, habsent, hmeans⟩
    match nodes with
    | [] => exact .absent (habsent rfl)
    | [n] => exact .given (hmeans n List.mem_cons_self)
    | _ :: _ :: _ => exact absurd hlength (by simp)

/-- The nodes that are given under a name in any of some nodes. -/
def givenIn (t : Nat → Node) (name : String) (nodes : List Node) : List Node :=
  nodes.flatMap fun n => given t name ((entries? t n).getD [])

/-- A structure in a structure: what is given for it at most once can be told field by field. -/
theorem Table.merges_iff {start s : σ} {nodes : List Node} :
    nodes.length ≤ 1 ∧ (nodes = [] → s = start) ∧ (∀ n ∈ nodes, T.Fills start t n s) ↔
      nodes.length ≤ 1 ∧
      (∀ n ∈ nodes, ∃ entries, entries? t n = some entries ∧ T.Admits t entries) ∧
      ∀ x ∈ T.slots, x.Takes t (x.get start) (x.get s) (givenIn t x.name nodes) := by
  match nodes with
  | [] =>
      constructor
      · rintro ⟨hlength, hstart, -⟩
        refine ⟨hlength, nofun, fun x _ => ?_⟩
        rw [hstart rfl]
        exact .absent rfl
      · rintro ⟨hlength, -, htakes⟩
        exact ⟨hlength, fun _ => T.ext s start fun x hx => (htakes x hx).of_nil, nofun⟩
  | [n] =>
      have hgiven : ∀ {entries name}, entries? t n = some entries →
          givenIn t name [n] = given t name entries := by
        intro entries name h
        rw [givenIn, List.flatMap_singleton, h]
        rfl
      simp only [List.forall_mem_singleton]
      constructor
      · rintro ⟨hlength, -, entries, hentries, hadmits, htakes⟩
        refine ⟨hlength, ⟨entries, hentries, hadmits⟩, fun x hx => ?_⟩
        rw [hgiven hentries]
        exact htakes x hx
      · rintro ⟨hlength, ⟨entries, hentries, hadmits⟩, htakes⟩
        refine ⟨hlength, nofun, entries, hentries, hadmits, fun x hx => ?_⟩
        rw [← hgiven hentries]
        exact htakes x hx
  | _ :: _ :: _ => exact ⟨fun h => absurd h.1 (by simp), fun h => absurd h.1 (by simp)⟩

theorem Table.eq_of_name (hx : x ∈ T.slots) (hy : y ∈ T.slots) (h : x.name = y.name) : x = y :=
  List.inj_on_of_nodup_map T.nodup hx hy h

/-- There is a structure with any values for its fields. By induction on the fields: the last one to
be put in leaves the others alone. -/
theorem Table.exists_filled (T : Table σ) (s : σ) {P : ∀ x : Slot σ, x.Value → Prop}
    (h : ∀ x ∈ T.slots, ∃ v, P x v) : ∃ s', ∀ x ∈ T.slots, P x (x.get s') := by
  have hpart : ∀ slots : List (Slot σ), slots.Pairwise Slot.Apart →
      (∀ x ∈ slots, x ∈ T.slots) → ∃ s', ∀ x ∈ slots, P x (x.get s') := by
    intro slots hapart hin
    induction slots with
    | nil => exact ⟨s, nofun⟩
    | cons x rest ih =>
        obtain ⟨hx, hrest⟩ := List.pairwise_cons.mp hapart
        obtain ⟨s', hs'⟩ := ih hrest fun y hy => hin y (List.mem_cons_of_mem x hy)
        obtain ⟨v, hv⟩ := h x (hin x List.mem_cons_self)
        refine ⟨x.put v s', fun y hy => ?_⟩
        rcases List.mem_cons.mp hy with rfl | hy
        · rwa [T.get_put y (hin y List.mem_cons_self)]
        · rw [(hx y hy).2]
          exact hs' y hy
  exact hpart T.slots T.apart fun _ hx => hx

end Table

/-! ## Decoders -/

/-- Aliases stand for nodes that are no aliases. -/
def Direct (t : Nat → Node) : Prop := ∀ a m b, t a ≠ .reference m b

/-- A field of a decoder puts in what a node means. -/
structure Slot.Reads {σ : Type} (x : Slot σ) (f : Field σ) : Prop where
  name : f.name = x.name
  optional : f.required = false
  set : ∀ {c : Context}, Direct c.target → ∀ n s s',
    f.set c n s = .ok s' ↔ ∃ v, x.Means c.target n v ∧ s' = x.put v s

section Decode

variable {σ α : Type} {T : Table σ} {fields : List (Field σ)} {c : Context} {n k v : Node} {a : α}
  {x : Slot σ} {f : Field σ} {name : String} {entries : List (Node × Node)} {seen : List String}
  {s s' : σ}

theorem resolve_eq_meant (c : Context) (n : Node) : c.resolve n = meant c.target n := by
  cases n <;> rfl

theorem meant_ne_reference {t : Nat → Node} (h : Direct t) {n : Node} {m : Mark} {a : Nat} :
    meant t n ≠ .reference m a := by
  cases n with
  | reference m' b => exact h b m a
  | _ => exact nofun

theorem meant_meant {t : Nat → Node} (h : Direct t) (n : Node) :
    meant t (meant t n) = meant t n := by
  cases hn : meant t n with
  | reference m a => exact absurd hn (meant_ne_reference h)
  | _ => rfl

/-- A decoder gives a value where it does for the node that is meant, which is there. -/
theorem decoding_ok_iff (f : Context → Node → Decoded α) :
    decoding f c n = .ok a ↔ meant c.target n ≠ .cut ∧ f c (meant c.target n) = .ok a := by
  unfold decoding
  rw [resolve_eq_meant]
  dsimp only
  split
  · rename_i hcut
    exact ⟨nofun, fun h => absurd hcut h.1⟩
  · rename_i hthere
    rw [and_iff_right hthere]
    cases f c (meant c.target n) with
    | error e => exact ⟨nofun, nofun⟩
    | ok b => exact ⟨fun h => h, fun h => h⟩

theorem decodeText_ok_iff (expected : String) {text : String} :
    decodeText expected c n = .ok text ↔
      ∃ p style, meant c.target n = .scalar p style text := by
  unfold decodeText
  rw [decoding_ok_iff]
  cases meant c.target n with
  | scalar p style s =>
      refine ⟨fun h => ⟨p, style, by rw [Except.ok.inj h.2]⟩, ?_⟩
      rintro ⟨q, style', h⟩
      cases h
      exact ⟨nofun, rfl⟩
  | cut => exact ⟨fun h => absurd rfl h.1, nofun⟩
  | _ => exact ⟨nofun, nofun⟩

theorem keyText?_eq_some {t : Nat → Node} {name : String} :
    keyText? t n = some name ↔ ∃ p style, meant t n = .scalar p style name := by
  unfold keyText?
  cases meant t n with
  | scalar p style s =>
      refine ⟨fun h => ⟨p, style, by rw [Option.some.inj h]⟩, ?_⟩
      rintro ⟨q, style', h⟩
      cases h
      rfl
  | _ => exact ⟨nofun, nofun⟩

/-- A node means one value at most. -/
theorem Slot.Reads.functional (h : x.Reads f) (hx : x ∈ T.slots) (hc : Direct c.target)
    {v w : x.Value} (hv : x.Means c.target n v) (hw : x.Means c.target n w) (s : σ) : v = w := by
  have hsetv := (h.set hc n s _).mpr ⟨v, hv, rfl⟩
  have hsetw := (h.set hc n s _).mpr ⟨w, hw, rfl⟩
  have hboth : x.put v s = x.put w s := Except.ok.inj (hsetv.symm.trans hsetw)
  rw [← T.get_put x hx v s, hboth, T.get_put x hx]

/-! ### Entries -/

/-- What is to be taken for a field whose name may have been given before. -/
def Slot.Goes (x : Slot σ) (t : Nat → Node) (seen : List String) (before after : x.Value)
    (nodes : List Node) : Prop :=
  (x.name ∈ seen → nodes = []) ∧ x.Takes t before after nodes

theorem find?_slot (hfields : List.Forall₂ Slot.Reads T.slots fields) (name : String) :
    (fields.find? (·.name = name) = none ∧ name ∉ T.slots.map (·.name)) ∨
      ∃ x f, x ∈ T.slots ∧ x.Reads f ∧ x.name = name ∧
        fields.find? (·.name = name) = some f := by
  generalize T.slots = slots at hfields
  induction hfields with
  | nil => exact .inl ⟨rfl, nofun⟩
  | @cons x f slots fields hxf _ ih =>
      by_cases hname : f.name = name
      · refine .inr ⟨x, f, List.mem_cons_self, hxf, hxf.name.symm.trans hname, ?_⟩
        simp [hname]
      · have hne : x.name ≠ name := fun heq => hname (hxf.name.trans heq)
        rcases ih with ⟨hnone, hnot⟩ | ⟨y, g, hy, hyg, hyname, hsome⟩
        · exact .inl ⟨by simpa [hname] using hnone, by simpa [hne.symm] using hnot⟩
        · exact .inr ⟨y, g, List.mem_cons_of_mem x hy, hyg, hyname, by simpa [hname] using hsome⟩

/-- One more node for a field is taken if it is the first one, and then it is the only one. -/
theorem Slot.goes_cons (hxf : x.Reads f) (hx : x ∈ T.slots) (hc : Direct c.target)
    {nodes : List Node} {a after : x.Value} (ha : x.Means c.target v a) (hseen : x.name ∉ seen)
    (s : σ) :
    x.Goes c.target (x.name :: seen) a after nodes ↔
      x.Goes c.target seen (x.get s) after (v :: nodes) := by
  constructor
  · rintro ⟨hnil, htakes⟩
    obtain rfl := hnil List.mem_cons_self
    cases htakes with
    | absent hafter => exact ⟨fun h => absurd h hseen, .given (hafter ▸ ha)⟩
  · rintro ⟨-, htakes⟩
    cases htakes with
    | given hafter => exact ⟨fun _ => rfl, .absent (hxf.functional hx hc hafter ha s)⟩

theorem decodeEntries_cons (hkey : keyText? c.target k = some name) :
    decodeEntries fields c seen ((k, v) :: entries) s =
      match fields.find? (·.name = name) with
      | none => if v.isWhole then decodeEntries fields c seen entries s else .error .notYaml
      | some f =>
        if seen.contains name then mismatched (.duplicateField name)
        else f.set (c.into (keyStep k)) v s >>= decodeEntries fields c (name :: seen) entries := by
  rw [decodeEntries, (decodeText_ok_iff _).mpr (keyText?_eq_some.mp hkey)]
  rfl

/-- What is given under a name that the table does not have is left out. -/
theorem decodeEntries_foreign (hkey : keyText? c.target k = some name)
    (hfind : fields.find? (·.name = name) = none) :
    (∃ seen', decodeEntries fields c seen ((k, v) :: entries) s = .ok (seen', s')) ↔
      v.isWhole = true ∧ ∃ seen', decodeEntries fields c seen entries s = .ok (seen', s') := by
  rw [decodeEntries_cons hkey, hfind]
  dsimp only
  split
  · rename_i hwhole
    rw [and_iff_right hwhole]
  · rename_i hcut
    exact ⟨nofun, fun h => absurd h.1 hcut⟩

/-- A field is given once, with what is a value for it. -/
theorem decodeEntries_known (hkey : keyText? c.target k = some x.name) (hxf : x.Reads f)
    (hfind : fields.find? (·.name = x.name) = some f) (hc : Direct c.target) :
    (∃ seen', decodeEntries fields c seen ((k, v) :: entries) s = .ok (seen', s')) ↔
      x.name ∉ seen ∧ ∃ a, x.Means c.target v a ∧
        ∃ seen', decodeEntries fields c (x.name :: seen) entries (x.put a s) = .ok (seen', s') := by
  have hset := hxf.set (c := c.into (keyStep k)) hc v s
  rw [decodeEntries_cons hkey, hfind]
  dsimp only
  split
  · rename_i hseen
    exact ⟨nofun, fun h => absurd (by simpa using hseen) h.1⟩
  · rename_i hseen
    rw [and_iff_right (by simpa using hseen)]
    constructor
    · rintro ⟨seen', h⟩
      cases hvalue : f.set (c.into (keyStep k)) v s with
      | error e =>
          rw [hvalue] at h
          cases h
      | ok s₁ =>
          obtain ⟨a, ha, rfl⟩ := (hset s₁).mp hvalue
          rw [hvalue] at h
          exact ⟨a, ha, seen', h⟩
    · rintro ⟨a, ha, seen', h⟩
      refine ⟨seen', ?_⟩
      rw [(hset _).mpr ⟨a, ha, rfl⟩]
      exact h

theorem decodeEntries_unnamed (hkey : keyText? c.target k = none) {taken : List String × σ} :
    decodeEntries fields c seen ((k, v) :: entries) s ≠ .ok taken := by
  rw [decodeEntries]
  cases hdecode : decodeText "field identifier" c k with
  | error e => exact nofun
  | ok text =>
      rw [keyText?_eq_some.mpr ((decodeText_ok_iff _).mp hdecode)] at hkey
      cases hkey

/-- What is to be taken from entries for a structure, where some names may have been given. -/
def Table.Goes (T : Table σ) (t : Nat → Node) (seen : List String) (s s' : σ)
    (entries : List (Node × Node)) : Prop :=
  T.Admits t entries ∧ ∀ x ∈ T.slots, x.Goes t seen (x.get s) (x.get s') (given t x.name entries)

theorem Table.goes_nil {t : Nat → Node} : T.Goes t seen s s' [] ↔ s' = s := by
  constructor
  · rintro ⟨-, h⟩
    exact T.ext s' s fun x hx => (h x hx).2.of_nil
  · rintro rfl
    exact ⟨nofun, fun x _ => ⟨fun _ => rfl, .absent rfl⟩⟩

theorem Table.goes_foreign {t : Nat → Node} (hkey : keyText? t k = some name)
    (hnot : name ∉ T.slots.map (·.name)) :
    T.Goes t seen s s' ((k, v) :: entries) ↔ v.isWhole = true ∧ T.Goes t seen s s' entries := by
  have hgiven : ∀ x ∈ T.slots, given t x.name ((k, v) :: entries) = given t x.name entries := by
    intro x hx
    refine given_cons_of_ne fun heq => hnot ?_
    rw [hkey] at heq
    exact Option.some.inj heq ▸ List.mem_map_of_mem hx
  have hwhole : (∃ name', keyText? t k = some name' ∧
      (name' ∉ T.slots.map (·.name) → v.isWhole = true)) ↔ v.isWhole = true := by
    constructor
    · rintro ⟨name', hname, hwhole⟩
      obtain rfl := Option.some.inj (hname.symm.trans hkey)
      exact hwhole hnot
    · exact fun hwhole => ⟨name, hkey, fun _ => hwhole⟩
  unfold Table.Goes
  rw [admits_cons, hwhole, and_assoc]
  refine and_congr_right fun _ => and_congr_right fun _ => forall₂_congr fun x hx => ?_
  rw [hgiven x hx]

/-- A name that is known must be new, and its value is put in before the rest is taken. -/
theorem Table.goes_known (hkey : keyText? c.target k = some x.name) (hxf : x.Reads f)
    (hx : x ∈ T.slots) (hc : Direct c.target) :
    T.Goes c.target seen s s' ((k, v) :: entries) ↔
      x.name ∉ seen ∧ ∃ a, x.Means c.target v a ∧
        T.Goes c.target (x.name :: seen) (x.put a s) s' entries := by
  -- the other fields do not see the value that is put in
  have hothers : ∀ {y : Slot σ} {a : x.Value}, y ∈ T.slots → y.name ≠ x.name →
      (y.Goes c.target (x.name :: seen) (y.get (x.put a s)) (y.get s')
          (given c.target y.name entries) ↔
        y.Goes c.target seen (y.get s) (y.get s')
          (given c.target y.name ((k, v) :: entries))) := by
    intro y a hy hname
    rw [given_cons_of_ne (by rw [hkey]; simpa using Ne.symm hname),
      (T.apart_of_ne hy hx hname).1]
    unfold Slot.Goes
    rw [List.mem_cons, or_iff_right hname]
  constructor
  · rintro ⟨hadmits, hgoes⟩
    have hown := hgoes x hx
    rw [given_cons_self hkey] at hown
    obtain ⟨a, ha⟩ := hown.2.of_cons
    have hfresh : x.name ∉ seen := fun hmem => absurd (hown.1 hmem) (List.cons_ne_nil _ _)
    refine ⟨hfresh, a, ha, (admits_cons.mp hadmits).2, fun y hy => ?_⟩
    by_cases hname : y.name = x.name
    · obtain rfl := T.eq_of_name hy hx hname
      rw [T.get_put y hy]
      exact (Slot.goes_cons hxf hx hc ha hfresh s).mpr hown
    · exact (hothers hy hname).mpr (hgoes y hy)
  · rintro ⟨hfresh, a, ha, hadmits, hgoes⟩
    refine ⟨admits_cons.mpr ⟨⟨x.name, hkey, fun hnot => ?_⟩, hadmits⟩, fun y hy => ?_⟩
    · exact absurd (List.mem_map_of_mem hx) hnot
    by_cases hname : y.name = x.name
    · obtain rfl := T.eq_of_name hy hx hname
      rw [given_cons_self hkey, ← Slot.goes_cons hxf hx hc ha hfresh s]
      have hown := hgoes y hy
      rwa [T.get_put y hy] at hown
    · exact (hothers hy hname).mp (hgoes y hy)

/-- The fields are taken from the entries one after the other. By induction on the entries; a name
that was given before must not be given again. -/
theorem decodeEntries_ok_iff (hfields : List.Forall₂ Slot.Reads T.slots fields)
    (hc : Direct c.target) :
    (∃ seen', decodeEntries fields c seen entries s = .ok (seen', s')) ↔
      T.Goes c.target seen s s' entries := by
  induction entries generalizing seen s with
  | nil =>
      rw [Table.goes_nil]
      constructor
      · rintro ⟨seen', h⟩
        cases h
        rfl
      · rintro rfl
        exact ⟨seen, rfl⟩
  | cons e rest ih =>
      obtain ⟨k, v⟩ := e
      cases hkey : keyText? c.target k with
      | none =>
          constructor
          · rintro ⟨seen', h⟩
            exact absurd h (decodeEntries_unnamed hkey)
          · rintro ⟨hadmits, -⟩
            obtain ⟨⟨name, hname, -⟩, -⟩ := admits_cons.mp hadmits
            cases hkey.symm.trans hname
      | some name =>
          rcases find?_slot hfields name with ⟨hnone, hnot⟩ | ⟨x, f, hx, hxf, rfl, hsome⟩
          · rw [decodeEntries_foreign hkey hnone, Table.goes_foreign hkey hnot, ih]
          · rw [decodeEntries_known hkey hxf hsome hc, Table.goes_known hkey hxf hx hc]
            simp only [ih]

theorem firstMissing_none {slots : List (Slot σ)} (hfields : List.Forall₂ Slot.Reads slots fields)
    (seen : List String) : firstMissing fields seen = none := by
  induction hfields with
  | nil => rfl
  | cons hxf _ ih =>
      unfold firstMissing at ih ⊢
      rw [List.find?_cons, hxf.optional, Bool.false_and]
      exact ih

theorem isVoid_iff {p : Properties} {style : ScalarStyle} {text : String} :
    isVoid (.scalar p style text) = true ↔ style = .plain ∧ text = "" := by
  unfold isVoid
  split
  · rename_i h
    cases h
    exact ⟨fun _ => ⟨rfl, rfl⟩, fun _ => rfl⟩
  · rename_i hnot
    refine ⟨nofun, ?_⟩
    rintro ⟨rfl, rfl⟩
    exact absurd rfl (hnot p)

/-- The entries of a scalar, which has some if nothing is written in it. -/
theorem entries?_scalar {t : Nat → Node} {p : Properties} {style : ScalarStyle} {text : String}
    (h : meant t n = .scalar p style text) :
    entries? t n = if style = .plain ∧ text = "" then some [] else none := by
  unfold entries?
  rw [h]
  split
  · rename_i heq
    cases heq
  · rename_i heq
    cases heq
    rw [if_pos ⟨rfl, rfl⟩]
  · rename_i hnot
    rw [if_neg]
    rintro ⟨rfl, rfl⟩
    exact hnot p rfl

/-- What is taken counts if it is taken to the end. -/
theorem closed_ok_iff {x : Decoded (List String × σ)} {closed : Bool} :
    (x >>= fun taken => if closed then .ok taken.2 else .error .notYaml) = .ok s' ↔
      closed = true ∧ ∃ seen', x = .ok (seen', s') := by
  cases x with
  | error e => exact ⟨nofun, fun ⟨_, _, h⟩ => nomatch h⟩
  | ok taken =>
      cases closed with
      | false => exact ⟨nofun, fun h => nomatch h.1⟩
      | true =>
          refine ⟨fun h => ⟨rfl, taken.1, ?_⟩, ?_⟩
          · cases h
            rfl
          · rintro ⟨-, seen', h⟩
            cases h
            rfl

/-- A structure is read from the entries of a node that has some. -/
theorem decodeStructure_entries (hfields : List.Forall₂ Slot.Reads T.slots fields)
    (name : String) :
    decodeStructure name fields s c n = .ok s' ↔ ∃ entries, entries? c.target n = some entries ∧
      ∃ seen', decodeEntries fields c [] entries s = .ok (seen', s') := by
  unfold decodeStructure
  rw [decoding_ok_iff]
  simp only [firstMissing_none hfields]
  cases hn : meant c.target n with
  | mapping p entries closed =>
      rw [and_iff_right nofun, entries?, hn]
      refine closed_ok_iff.trans ?_
      cases closed with
      | false => exact ⟨fun h => (nomatch h.1), fun ⟨_, h, _⟩ => nomatch h⟩
      | true => simp only [true_and, Option.some.injEq, exists_eq_left']
  | scalar p style text =>
      rw [and_iff_right nofun, entries?_scalar hn]
      by_cases hvoid : style = .plain ∧ text = ""
      · obtain ⟨rfl, rfl⟩ := hvoid
        rw [if_pos ⟨rfl, rfl⟩]
        constructor
        · intro h
          cases h
          exact ⟨[], rfl, [], rfl⟩
        · rintro ⟨entries, hsame, seen', h⟩
          cases hsame
          cases h
          rfl
      · dsimp only
        rw [if_neg hvoid, if_neg fun h => hvoid (isVoid_iff.mp h)]
        exact ⟨nofun, fun ⟨_, h, _⟩ => nomatch h⟩
  | cut =>
      rw [entries?, hn]
      exact ⟨fun h => absurd rfl h.1, fun ⟨_, h, _⟩ => nomatch h⟩
  | sequence | reference =>
      rw [entries?, hn]
      exact ⟨fun h => (nomatch h.2), fun ⟨_, h, _⟩ => nomatch h⟩

/-- A structure is read as its table says. -/
theorem decodeStructure_ok_iff (hfields : List.Forall₂ Slot.Reads T.slots fields)
    (hc : Direct c.target) (name : String) :
    decodeStructure name fields s c n = .ok s' ↔ T.Fills s c.target n s' := by
  rw [decodeStructure_entries hfields]
  refine exists_congr fun entries => and_congr_right fun _ => ?_
  rw [decodeEntries_ok_iff hfields hc]
  refine and_congr_right fun _ => forall₂_congr fun x _ => ?_
  exact and_iff_right fun h => absurd h List.not_mem_nil

end Decode

end CommuteSim.Yaml
