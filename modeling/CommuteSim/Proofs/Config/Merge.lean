import CommuteSim.Proofs.Config.Settings
import Mathlib

/-!
# Documents that give some of the settings

Each setting has the value that the document gives, or its default. Neither the order of the entries
nor what is given under other names matters, and it does not matter why a setting is not given: what
can be seen of a document is its outline, and documents are as good as each other if one outline can
be rearranged into the other. A document that gives a section or a setting twice, or something that
is no value of its type, is refused.

Main statement: `Configuration.ofText_merges`.
-/

namespace CommuteSim

open Yaml

/-! ## Outlines -/

/-- What is written under names, in this order; what is written is told for scalars only. -/
abbrev Rows := List (String × Option ScalarText)

/-- The sections of a document in their order, with their rows. -/
abbrev Outline := List (String × Rows)

def rowsOf (t : Nat → Node) (entries : List (Node × Node)) : Rows :=
  entries.filterMap fun e => (keyText? t e.1).map fun name => (name, written? t e.2)

/-- The outline of a document with these entries. -/
def outlineOf (t : Nat → Node) (entries : List (Node × Node)) : Outline :=
  entries.filterMap fun e =>
    (keyText? t e.1).map fun name => (name, rowsOf t ((entries? t e.2).getD []))

/-- What is written under a name. -/
def written (name : String) (rows : Rows) : List (Option ScalarText) :=
  (rows.filter fun r => r.1 = name).map (·.2)

/-- What is written for a setting. -/
def Setting.written (x : Setting) (o : Outline) : List (Option ScalarText) :=
  (o.filter fun s => s.1 = x.around).flatMap fun s => CommuteSim.written x.name s.2

/-- Outlines that differ in the order of their sections and of the rows of these, in what is not
known, and in sections without a row. -/
inductive Rearranged : Outline → Outline → Prop where
  | reorder {o o' : Outline} : o.Perm o' → Rearranged o o'
  | reorderSection {o : Outline} {around : String} {rows rows' : Rows} :
      rows.Perm rows' → Rearranged ((around, rows) :: o) ((around, rows') :: o)
  | unknownSection {o : Outline} {around : String} {rows : Rows} :
      around ∉ sectionNames → Rearranged o ((around, rows) :: o)
  | unknownSetting {o : Outline} {around name : String} {rows : Rows} {w : Option ScalarText} :
      (∀ x ∈ settings, x.around = around → x.name ≠ name) →
        Rearranged ((around, rows) :: o) ((around, (name, w) :: rows) :: o)
  | emptySection {o : Outline} {around : String} : Rearranged o ((around, []) :: o)
  | symm {o o' : Outline} : Rearranged o o' → Rearranged o' o
  | trans {o o' o'' : Outline} : Rearranged o o' → Rearranged o' o'' → Rearranged o o''

section Outlines

variable {t t' : Nat → Node} {entries entries' : List (Node × Node)} {name : String}
  {around : String} {rows rows' : Rows} {o o' : Outline} {x : Setting}

theorem written_perm (h : rows.Perm rows') : (written name rows).Perm (written name rows') :=
  (h.filter _).map _

theorem written_cons {w : Option ScalarText} (rows : Rows) :
    written name ((around, w) :: rows) =
      if around = name then w :: written name rows else written name rows := by
  unfold written
  rw [List.filter_cons]
  by_cases h : around = name <;> simp [h]

theorem Setting.written_cons (rows : Rows) (o : Outline) :
    x.written ((around, rows) :: o) =
      if around = x.around then CommuteSim.written x.name rows ++ x.written o else x.written o := by
  unfold Setting.written
  rw [List.filter_cons]
  by_cases h : around = x.around <;> simp [h]

/-- The rows of a section show what is given under each name. -/
theorem written_rowsOf :
    written name (rowsOf t entries) = (given t name entries).map (written? t) := by
  induction entries with
  | nil => rfl
  | cons e rest ih =>
      obtain ⟨k, v⟩ := e
      unfold rowsOf
      rw [List.filterMap_cons]
      cases hkey : keyText? t k with
      | none =>
          rw [given_cons_of_ne (by rw [hkey]; exact nofun)]
          exact ih
      | some key =>
          change written name ((key, written? t v) :: rowsOf t rest) = _
          rw [written_cons, ih]
          by_cases h : key = name
          · rw [if_pos h, given_cons_self (by rw [hkey, h])]
            rfl
          · rw [if_neg h, given_cons_of_ne (by rwa [hkey, ne_eq, Option.some.injEq])]

/-- The outline of a document shows what is given for each setting. -/
theorem Setting.written_outlineOf (x : Setting) :
    x.written (outlineOf t entries) = (x.nodes t entries).map (written? t) := by
  induction entries with
  | nil => rfl
  | cons e rest ih =>
      obtain ⟨k, v⟩ := e
      unfold outlineOf Setting.nodes givenFor
      rw [List.filterMap_cons]
      cases hkey : keyText? t k with
      | none =>
          rw [given_cons_of_ne (by rw [hkey]; exact nofun)]
          exact ih
      | some key =>
          change x.written ((key, rowsOf t ((entries? t v).getD [])) :: outlineOf t rest) = _
          rw [Setting.written_cons, ih, written_rowsOf]
          by_cases h : key = x.around
          · rw [if_pos h, given_cons_self (by rw [hkey, h])]
            exact List.map_append.symm
          · rw [if_neg h, given_cons_of_ne (by rwa [hkey, ne_eq, Option.some.injEq])]
            rfl

theorem around_mem_sectionNames (hx : x ∈ settings) : x.around ∈ sectionNames := by
  unfold settings at hx
  simp only [List.mem_append, List.mem_map] at hx
  rcases hx with (⟨y, -, rfl⟩ | ⟨y, -, rfl⟩) | ⟨y, -, rfl⟩ <;> simp [sectionNames, Setting.ofSlot]

/-- Whatever is rearranged, the same is written for each setting. By induction on the way of it. -/
theorem Rearranged.written_perm (h : Rearranged o o') (hx : x ∈ settings) :
    (x.written o).Perm (x.written o') := by
  induction h with
  | reorder hperm => exact (hperm.filter _).flatMap_right _
  | reorderSection hperm =>
      rw [Setting.written_cons, Setting.written_cons]
      split
      · exact (CommuteSim.written_perm hperm).append_right _
      · exact .refl _
  | unknownSection hunknown =>
      rw [Setting.written_cons, if_neg]
      rintro rfl
      exact hunknown (around_mem_sectionNames hx)
  | unknownSetting hunknown =>
      rw [Setting.written_cons, Setting.written_cons]
      split
      · rename_i haround
        rw [CommuteSim.written_cons, if_neg fun hname => hunknown x hx haround.symm hname.symm]
      · exact .refl _
  | emptySection =>
      rw [Setting.written_cons]
      split <;> exact .refl _
  | symm _ ih => exact ih.symm
  | trans _ _ ih ih' => exact ih.trans ih'

theorem legible_of_mem (hx : x ∈ settings) : Legible x.Means := by
  revert x
  simp only [settings, GlobalSettings.table, ControllerSettings.table, LoggingSettings.table,
    List.forall_mem_append, List.forall_mem_map, List.forall_mem_cons]
  refine ⟨⟨⟨legible_natural _ _, List.forall_mem_nil _⟩, legible_natural _ _, legible_natural _ _,
    legible_text, legible_optionalText, legible_bool, legible_named _, legible_bool, legible_bool,
    List.forall_mem_nil _⟩, legible_text, List.forall_mem_nil _⟩

/-- What a document gives is a matter of its outline. -/
theorem Merged.rearranged {c : Configuration} (h : Merged t entries c)
    (hrearranged : Rearranged (outlineOf t entries) (outlineOf t' entries')) :
    Merged t' entries' c := by
  intro x hx
  have hperm := hrearranged.written_perm hx
  rw [x.written_outlineOf, x.written_outlineOf] at hperm
  constructor
  · intro hnil
    rw [hnil, List.map_nil] at hperm
    exact (h x hx).1 (List.map_eq_nil_iff.mp hperm.eq_nil)
  · intro n' hn'
    -- a node of the first document says the same as the one given here
    obtain ⟨n, hn, hsame⟩ := List.mem_map.mp (hperm.mem_iff.mpr (List.mem_map_of_mem hn'))
    exact legible_of_mem hx t n t' n' hsame _ ((h x hx).2 n hn)

end Outlines

/-! ## Documents -/

/-- The settings that are numbers, and what they are below. -/
def numbers : List (String × String × Nat) := [
  ("global", "random_seed", UInt64.size),
  ("controller", "first_iteration", UInt32.size),
  ("controller", "last_iteration", UInt32.size)]

section Documents

variable {text : String} {t : Nat → Node} {entries : List (Node × Node)} {c : Configuration}

theorem Proper.ofText_ok_iff (h : IsMapping text t entries) (hproper : Proper t entries) :
    Configuration.ofText text = .ok c ↔ Merged t entries c := by
  rw [Configuration.ofText_ok_iff h]
  exact ⟨fun hall => hall.2.2.2, fun hmerged =>
    ⟨hproper.keyed, hproper.sections, fun x hx => (hproper.typed x hx).1, hmerged⟩⟩

/-- A document from which no configuration comes is refused. -/
theorem exists_failure (h : ∀ c, Configuration.ofText text ≠ .ok c) :
    ∃ f, Configuration.ofText text = .error f := by
  cases hread : Configuration.ofText text with
  | error f => exact ⟨f, rfl⟩
  | ok c => exact absurd hread (h c)

/-- A node that is given for a setting and is no value of its type. -/
theorem refused_of_untyped (h : IsMapping text t entries) {x : Setting} (hx : x ∈ settings)
    {n : Node} (hn : n ∈ x.nodes t entries) (huntyped : ∀ v, ¬ x.Means t n v) :
    ∃ f, Configuration.ofText text = .error f := by
  refine exists_failure fun c hread => ?_
  obtain ⟨-, -, -, hmerged⟩ := (Configuration.ofText_ok_iff h).mp hread
  exact huntyped _ ((hmerged x hx).2 n hn)

theorem ofSlot_controller_mem {y : Slot ControllerSettings}
    (h : y ∈ ControllerSettings.table.slots) :
    Setting.ofSlot "controller" (·.controller) y ∈ settings :=
  List.mem_append_left _ (List.mem_append_right _ (List.mem_map_of_mem h))

theorem exists_number {around name : String} {limit : Nat} (h : (around, name, limit) ∈ numbers) :
    ∃ x ∈ settings, x.around = around ∧ x.name = name ∧
      ∀ t n v, x.Means t n v → ∃ k, MeansNatural limit t n k := by
  simp only [numbers, List.mem_cons, List.not_mem_nil, or_false, Prod.mk.injEq] at h
  rcases h with ⟨rfl, rfl, rfl⟩ | ⟨rfl, rfl, rfl⟩ | ⟨rfl, rfl, rfl⟩
  · exact ⟨_, List.mem_append_left _ (List.mem_append_left _ (.head _)), rfl, rfl,
      fun _ _ v hv => ⟨v.toNat, hv⟩⟩
  · exact ⟨_, ofSlot_controller_mem (.head _), rfl, rfl, fun _ _ v hv => ⟨v.toNat, hv⟩⟩
  · exact ⟨_, ofSlot_controller_mem (.tail _ (.head _)), rfl, rfl, fun _ _ v hv => ⟨v.toNat, hv⟩⟩

theorem exists_policy :
    ∃ x ∈ settings, x.around = "controller" ∧ x.name = "overwrite_files" ∧
      ∀ t n v, x.Means t n v → ∃ policy, MeansNamed OverwritePolicy.name t n policy := by
  have hin : ControllerSettings.table.slots[5] ∈ ControllerSettings.table.slots :=
    List.getElem_mem _
  exact ⟨_, ofSlot_controller_mem hin, rfl, rfl, fun _ _ v hv => ⟨v, hv⟩⟩

/-- A proper document gives the configuration that has the given values, and the defaults beside
them; nothing else about it matters. Where a section or a setting is given twice, or what is given
is no value, there is no configuration. -/
theorem Configuration.ofText_merges (h : IsMapping text t entries) :
    (Proper t entries →
      (∃ c, ofText text = .ok c) ∧ ∀ c, ofText text = .ok c ↔ Merged t entries c) ∧
    (Proper t entries → ∀ text' t' entries', IsMapping text' t' entries' → Proper t' entries' →
      Rearranged (outlineOf t entries) (outlineOf t' entries') → ofText text' = ofText text) ∧
    (∀ around ∈ sectionNames, 2 ≤ (given t around entries).length → ∃ f, ofText text = .error f) ∧
    (∀ around ∈ sectionNames, ∀ n ∈ given t around entries, ¬ IsSection t n →
      ∃ f, ofText text = .error f) ∧
    (∀ x ∈ settings, 2 ≤ (x.nodes t entries).length → ∃ f, ofText text = .error f) ∧
    (∀ x ∈ settings, ∀ n ∈ x.nodes t entries, (∀ v, ¬ x.Means t n v) →
      ∃ f, ofText text = .error f) ∧
    (∀ around name limit, (around, name, limit) ∈ numbers → ∀ n ∈ givenFor t entries around name,
      ∀ tag style s z, written? t n = some (tag, style, s) → Content.integer? s = some z →
        (z < 0 ∨ (limit : Int) ≤ z) → ∃ f, ofText text = .error f) ∧
    ∀ n ∈ givenFor t entries "controller" "overwrite_files", ∀ style s,
      written? t n = some (none, style, s) → (∀ policy : OverwritePolicy, policy.name ≠ s) →
        ∃ f, ofText text = .error f := by
  have hok := fun c => Configuration.ofText_ok_iff (c := c) h
  refine ⟨fun hproper => ?_, fun hproper text' t' entries' h' hproper' hrearranged => ?_,
    fun around haround htwice => exists_failure fun c hread => ?_,
    fun around haround n hn hnone => exists_failure fun c hread => ?_,
    fun x hx htwice => exists_failure fun c hread => ?_, fun x hx n hn huntyped => ?_,
    fun around name limit hnumber n hn tag style s z hwritten hz hout => ?_,
    fun n hn style s hwritten hunknown => ?_⟩
  · obtain ⟨c, hmerged⟩ := hproper.exists_configuration
    exact ⟨⟨c, (hproper.ofText_ok_iff h).mpr hmerged⟩, fun _ => hproper.ofText_ok_iff h⟩
  · obtain ⟨c, hmerged⟩ := hproper.exists_configuration
    rw [(hproper.ofText_ok_iff h).mpr hmerged]
    exact (hproper'.ofText_ok_iff h').mpr (hmerged.rearranged hrearranged)
  · obtain ⟨-, hsections, -⟩ := (hok c).mp hread
    have hone := (hsections around haround).1
    omega
  · obtain ⟨-, hsections, -⟩ := (hok c).mp hread
    exact hnone ((hsections around haround).2 n hn)
  · obtain ⟨-, -, hone, -⟩ := (hok c).mp hread
    have hone := hone x hx
    omega
  · exact refused_of_untyped h hx hn huntyped
  · obtain ⟨x, hx, rfl, rfl, hvalue⟩ := exists_number hnumber
    refine refused_of_untyped h hx hn fun v hv => ?_
    obtain ⟨k, hk⟩ := hvalue t n v hv
    exact not_meansNatural hwritten hz hout k hk
  · obtain ⟨x, hx, haround, hname, hvalue⟩ := exists_policy
    rw [← haround, ← hname] at hn
    refine refused_of_untyped h hx hn fun v hv => ?_
    obtain ⟨policy, hpolicy⟩ := hvalue t n v hv
    exact not_meansNamed hwritten (hunknown policy) hpolicy

end Documents

/-! ### A document with one setting -/

/-- The entries of a document that gives a level, beside a key that is not known. -/
def levelEntries : List (Node × Node) :=
  [(.scalar {} .plain "a", .scalar { mark := ⟨0, 3⟩ } .plain "1"),
    (.scalar { mark := ⟨1, 0⟩ } .plain "logging",
      .mapping { mark := ⟨2, 2⟩ } [(.scalar { mark := ⟨2, 2⟩ } .plain "level",
        .scalar { mark := ⟨2, 9⟩ } .plain "warn")] true)]

theorem given_levelEntries (t : Nat → Node) :
    given t "global" levelEntries = [] ∧ given t "controller" levelEntries = [] ∧
      given t "logging" levelEntries =
        [.mapping { mark := ⟨2, 2⟩ } [(.scalar { mark := ⟨2, 2⟩ } .plain "level",
          .scalar { mark := ⟨2, 9⟩ } .plain "warn")] true] :=
  ⟨rfl, rfl, rfl⟩

theorem isMapping_levelEntries :
    IsMapping "a: 1\nlogging:\n  level: warn\n"
      (Document.ofText "a: 1\nlogging:\n  level: warn\n").target levelEntries := by
  have hdocument : Document.ofText "a: 1\nlogging:\n  level: warn\n" =
      ⟨some (.mapping {} levelEntries true), true, false⟩ := by cbv
  exact ⟨⟨_, _, congrArg Document.root hdocument⟩, rfl, congrArg Document.ended hdocument,
    congrArg Document.more hdocument⟩

theorem proper_levelEntries (t : Nat → Node) : Proper t levelEntries where
  keyed := by simp [Keyed, levelEntries, keyText?, meant]
  sections := by
    obtain ⟨hglobal, hcontroller, hlogging⟩ := given_levelEntries t
    simp only [sectionNames, List.forall_mem_cons, hglobal, hcontroller, hlogging]
    have hnone : ∀ n ∈ ([] : List Node), IsSection t n := List.forall_mem_nil _
    refine ⟨⟨Nat.zero_le 1, hnone⟩, ⟨Nat.zero_le 1, hnone⟩, ⟨Nat.le_refl 1, ?_, hnone⟩,
      List.forall_mem_nil _⟩
    exact ⟨_, rfl, fun e he => List.mem_singleton.mp he ▸ rfl⟩
  typed := by
    obtain ⟨hglobal, hcontroller, hlogging⟩ := given_levelEntries t
    simp only [settings, GlobalSettings.table, ControllerSettings.table, LoggingSettings.table,
      List.forall_mem_append, List.forall_mem_map, List.forall_mem_cons, Setting.nodes, givenFor,
      Setting.ofSlot, hglobal, hcontroller, hlogging]
    simp [givenIn, given, keyText?, meant, entries?, MeansText]

theorem merged_levelEntries (t : Nat → Node) :
    Merged t levelEntries { logging := { level := "warn" } } := by
  obtain ⟨hglobal, hcontroller, hlogging⟩ := given_levelEntries t
  unfold Merged
  simp only [settings, GlobalSettings.table, ControllerSettings.table, LoggingSettings.table,
    List.forall_mem_append, List.forall_mem_map, List.forall_mem_cons, Setting.nodes, givenFor,
    Setting.ofSlot, hglobal, hcontroller, hlogging]
  simp [givenIn, given, keyText?, meant, entries?, MeansText]

theorem Configuration.ofText_merges_level :
    IsMapping "a: 1\nlogging:\n  level: warn\n"
        (Document.ofText "a: 1\nlogging:\n  level: warn\n").target levelEntries ∧
      ofText "a: 1\nlogging:\n  level: warn\n" = .ok { logging := { level := "warn" } } :=
  ⟨isMapping_levelEntries, (((ofText_merges isMapping_levelEntries).1 (proper_levelEntries _)).2
    _).mpr (merged_levelEntries _)⟩

end CommuteSim
