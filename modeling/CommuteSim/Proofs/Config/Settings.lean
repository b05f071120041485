import CommuteSim.Config.Yaml
import CommuteSim.Proofs.Yaml.Typed
import CommuteSim.Proofs.Yaml.Whole

/-!
# What a document says about each setting

A configuration is read from a document in two steps: its sections are structures, and so is the
whole. What comes of it can be told setting by setting: each one has the value that the document
gives, or its default. That rests on an agreement: a section that leaves out all its settings comes
to the same as one that is left out itself, although the reader has the values from two places.

Main statements: `ControllerSettings.omitted_eq` and the ones beside it for that agreement;
`Configuration.ofText_ok_iff`, by which the settings alone decide what comes of a document, and
`Proper.exists_configuration`, that every proper document gives a configuration.
-/

namespace CommuteSim

open Yaml

/-! ## What is left out -/

/-- What sections have in the place of settings that are left out are the settings of the sections
that stand in the place of those left out. -/
theorem GlobalSettings.omitted_eq : omitted = {} := rfl

theorem ControllerSettings.omitted_eq : omitted = {} := rfl

theorem LoggingSettings.omitted_eq : omitted = {} := rfl

/-- What stands in the place of sections that are left out makes up the default configuration. -/
theorem Configuration.omitted_eq : omitted = {} := rfl

/-! ## The settings -/

def GlobalSettings.table : Table GlobalSettings where
  slots := [
    { name := "random_seed", Value := UInt64
      Means := fun t n v => MeansNatural UInt64.size t n v.toNat
      get := (·.randomSeed), put := fun v s => { s with randomSeed := v } }]
  nodup := by decide
  get_put := by simp
  apart := by simp
  ext := fun s s' h => by
    cases s
    cases s'
    simpa using h

def ControllerSettings.table : Table ControllerSettings where
  slots := [
    { name := "first_iteration", Value := UInt32
      Means := fun t n v => MeansNatural UInt32.size t n v.toNat
      get := (·.firstIteration), put := fun v s => { s with firstIteration := v } },
    { name := "last_iteration", Value := UInt32
      Means := fun t n v => MeansNatural UInt32.size t n v.toNat
      get := (·.lastIteration), put := fun v s => { s with lastIteration := v } },
    { name := "output_directory", Value := String, Means := MeansText
      get := (·.outputDirectory), put := fun v s => { s with outputDirectory := v } },
    { name := "run_id", Value := Option String, Means := MeansOptionalText
      get := (·.runId), put := fun v s => { s with runId := v } },
    { name := "create_graphs", Value := Bool, Means := MeansBool
      get := (·.createGraphs), put := fun v s => { s with createGraphs := v } },
    { name := "overwrite_files", Value := OverwritePolicy, Means := MeansNamed OverwritePolicy.name
      get := (·.overwritePolicy), put := fun v s => { s with overwritePolicy := v } },
    { name := "write_iteration_directories", Value := Bool, Means := MeansBool
      get := (·.iterationDirectories), put := fun v s => { s with iterationDirectories := v } },
    { name := "capture_panics", Value := Bool, Means := MeansBool
      get := (·.capturePanics), put := fun v s => { s with capturePanics := v } }]
  nodup := by decide
  get_put := by simp
  apart := by simp [Slot.Apart]
  ext := fun s s' h => by
    cases s
    cases s'
    simpa using h

def LoggingSettings.table : Table LoggingSettings where
  slots := [
    { name := "level", Value := String, Means := MeansText
      get := (·.level), put := fun v s => { s with level := v } }]
  nodup := by decide
  get_put := by simp
  apart := by simp
  ext := fun s s' h => by
    cases s
    cases s'
    simpa using h

/-- The sections are the fields of a configuration. -/
def Configuration.table : Table Configuration where
  slots := [
    { name := "global", Value := GlobalSettings, Means := GlobalSettings.table.Fills .omitted
      get := (·.global), put := fun v s => { s with global := v } },
    { name := "controller", Value := ControllerSettings
      Means := ControllerSettings.table.Fills .omitted
      get := (·.controller), put := fun v s => { s with controller := v } },
    { name := "logging", Value := LoggingSettings, Means := LoggingSettings.table.Fills .omitted
      get := (·.logging), put := fun v s => { s with logging := v } }]
  nodup := by decide
  get_put := by simp
  apart := by simp [Slot.Apart]
  ext := fun s s' h => by
    cases s
    cases s'
    simpa using h

/-! ## Their decoders -/

section Decoders

variable {c : Yaml.Context} {n : Node}

theorem reads_of {σ α : Type} {name : String} {f : Decoder α}
    {Means : (Nat → Node) → Node → α → Prop} {get : σ → α} {put : α → σ → σ}
    (h : ∀ {c : Yaml.Context}, Direct c.target → ∀ n a, f c n = .ok a ↔ Means c.target n a) :
    Slot.Reads ⟨name, α, Means, get, put⟩ (Field.of name f put) where
  name := rfl
  optional := rfl
  set := by
    intro c hc n s s'
    unfold Field.of
    dsimp only
    cases hvalue : f c n with
    | error e =>
        refine ⟨nofun, ?_⟩
        rintro ⟨v, hv, -⟩
        cases hvalue.symm.trans ((h hc n v).mpr hv)
    | ok a =>
        constructor
        · intro hput
          exact ⟨a, (h hc n a).mp hvalue, (Except.ok.inj hput).symm⟩
        · rintro ⟨v, hv, rfl⟩
          obtain rfl := Except.ok.inj (hvalue.symm.trans ((h hc n v).mpr hv))
          rfl

theorem overwritePolicy_ok_iff {policy : OverwritePolicy} :
    OverwritePolicy.decode c n = .ok policy ↔
      MeansNamed OverwritePolicy.name c.target n policy := by
  refine decodeNamed_ok_iff (fun a => ?_) (fun a b h => ?_) (fun a => ?_)
  · cases a <;> decide
  · cases a <;> cases b <;> first | rfl | exact absurd h (by decide)
  · cases a <;> decide

theorem globalSettings_ok_iff (hc : Direct c.target) {s : GlobalSettings} :
    GlobalSettings.decode c n = .ok s ↔ GlobalSettings.table.Fills .omitted c.target n s :=
  decodeStructure_ok_iff (.cons (reads_of fun _ _ _ => decodeUInt64_ok_iff) .nil) hc _

theorem controllerSettings_ok_iff (hc : Direct c.target) {s : ControllerSettings} :
    ControllerSettings.decode c n = .ok s ↔
      ControllerSettings.table.Fills .omitted c.target n s := by
  refine decodeStructure_ok_iff (.cons ?_ (.cons ?_ (.cons ?_ (.cons ?_ (.cons ?_ (.cons ?_
    (.cons ?_ (.cons ?_ .nil)))))))) hc _
  · exact reads_of fun hc _ _ => decodeUInt32_ok_iff hc
  · exact reads_of fun hc _ _ => decodeUInt32_ok_iff hc
  · exact reads_of fun _ _ _ => decodeText_ok_iff _
  · exact reads_of fun hc _ _ => decodeOption_text_ok_iff hc _
  · exact reads_of fun _ _ _ => decodeBool_ok_iff
  · exact reads_of fun _ _ _ => overwritePolicy_ok_iff
  · exact reads_of fun _ _ _ => decodeBool_ok_iff
  · exact reads_of fun _ _ _ => decodeBool_ok_iff

theorem loggingSettings_ok_iff (hc : Direct c.target) {s : LoggingSettings} :
    LoggingSettings.decode c n = .ok s ↔ LoggingSettings.table.Fills .omitted c.target n s :=
  decodeStructure_ok_iff (.cons (reads_of fun _ _ _ => decodeText_ok_iff _) .nil) hc _

theorem configuration_ok_iff (hc : Direct c.target) {s : Configuration} :
    Configuration.decode c n = .ok s ↔ Configuration.table.Fills .omitted c.target n s := by
  refine decodeStructure_ok_iff (.cons ?_ (.cons ?_ (.cons ?_ .nil))) hc _
  · exact reads_of fun hc _ _ => globalSettings_ok_iff hc
  · exact reads_of fun hc _ _ => controllerSettings_ok_iff hc
  · exact reads_of fun hc _ _ => loggingSettings_ok_iff hc

end Decoders

/-! ## What a document gives -/

/-- A setting of a configuration: the section around it, its name there, and what nodes mean for
it. -/
structure Setting where
  around : String
  name : String
  Value : Type
  Means : (Nat → Node) → Node → Value → Prop
  value : Configuration → Value

/-- The setting that is a field of a section. -/
def Setting.ofSlot {σ : Type} (around : String) (part : Configuration → σ) (x : Slot σ) :
    Setting where
  around := around
  name := x.name
  Value := x.Value
  Means := x.Means
  value := fun c => x.get (part c)

/-- All settings. -/
def settings : List Setting :=
  GlobalSettings.table.slots.map (.ofSlot "global" (·.global)) ++
    ControllerSettings.table.slots.map (.ofSlot "controller" (·.controller)) ++
      LoggingSettings.table.slots.map (.ofSlot "logging" (·.logging))

/-- The names of the sections. -/
def sectionNames : List String := ["global", "controller", "logging"]

/-- The nodes that are given for a name in a section. -/
def givenFor (t : Nat → Node) (entries : List (Node × Node)) (around name : String) : List Node :=
  givenIn t name (given t around entries)

/-- The nodes that are given for a setting. -/
def Setting.nodes (x : Setting) (t : Nat → Node) (entries : List (Node × Node)) : List Node :=
  givenFor t entries x.around x.name

/-- A section that is given is a mapping, or nothing, and its keys are scalars. -/
def IsSection (t : Nat → Node) (n : Node) : Prop :=
  ∃ inner, entries? t n = some inner ∧ Keyed t inner

/-- The entries of a document in which each section and each setting is given at most once, with a
value of its type. -/
structure Proper (t : Nat → Node) (entries : List (Node × Node)) : Prop where
  keyed : Keyed t entries
  sections : ∀ around ∈ sectionNames, (given t around entries).length ≤ 1 ∧
    ∀ n ∈ given t around entries, IsSection t n
  typed : ∀ x ∈ settings, (x.nodes t entries).length ≤ 1 ∧
    ∀ n ∈ x.nodes t entries, ∃ v, x.Means t n v

/-- A configuration in which every setting has the value that is given, or the one that it has in
the default configuration. -/
def Merged (t : Nat → Node) (entries : List (Node × Node)) (c : Configuration) : Prop :=
  ∀ x ∈ settings, (x.nodes t entries = [] → x.value c = x.value {}) ∧
    ∀ n ∈ x.nodes t entries, x.Means t n (x.value c)

/-- A text that is one document, with a mapping for its root. -/
structure IsMapping (text : String) (t : Nat → Node) (entries : List (Node × Node)) : Prop where
  root : ∃ p closed, (Document.ofText text).root = some (.mapping p entries closed)
  target : (Document.ofText text).target = t
  ended : (Document.ofText text).ended = true
  single : (Document.ofText text).more = false

section Documents

variable {text : String} {t : Nat → Node} {entries : List (Node × Node)} {c : Configuration}

theorem given_complete {t : Nat → Node} (h : CompleteEntries entries) {around : String} :
    ∀ n ∈ given t around entries, n.Complete := by
  intro n hn
  obtain ⟨e, he, rfl⟩ := List.mem_map.mp hn
  exact h.of_mem e (List.mem_of_mem_filter he)

/-- A section can be told setting by setting. -/
theorem section_iff {σ : Type} (T : Table σ) (start s : σ) {d : Document} (around : String)
    (hd : ∀ n ∈ d.root, n.Complete) (h : CompleteEntries entries) :
    (given d.target around entries).length ≤ 1 ∧ (given d.target around entries = [] → s = start) ∧
        (∀ n ∈ given d.target around entries, T.Fills start d.target n s) ↔
      ((given d.target around entries).length ≤ 1 ∧
        ∀ n ∈ given d.target around entries, IsSection d.target n) ∧
      ∀ x ∈ T.slots, (givenFor d.target entries around x.name).length ≤ 1 ∧
        (givenFor d.target entries around x.name = [] → x.get s = x.get start) ∧
          ∀ n ∈ givenFor d.target entries around x.name, x.Means d.target n (x.get s) := by
  rw [Table.merges_iff, ← and_assoc]
  refine and_congr (and_congr_right fun _ => forall₂_congr fun n hn => ?_)
    (forall₂_congr fun x _ => Slot.takes_iff)
  refine exists_congr fun inner => and_congr_right fun hinner => ?_
  exact Table.admits_iff (d.complete_entries? hd (given_complete h n hn) hinner)

/-- A document is told by its sections, and they by their settings. -/
theorem configuration_fills_iff {d : Document} {p : Properties}
    (hd : ∀ n ∈ d.root, n.Complete) (h : CompleteEntries entries) :
    Configuration.table.Fills .omitted d.target (.mapping p entries true) c ↔
      Keyed d.target entries ∧
      (∀ around ∈ sectionNames, (given d.target around entries).length ≤ 1 ∧
        ∀ n ∈ given d.target around entries, IsSection d.target n) ∧
      (∀ x ∈ settings, (x.nodes d.target entries).length ≤ 1) ∧ Merged d.target entries c := by
  have hfills : Configuration.table.Fills .omitted d.target (.mapping p entries true) c ↔
      Keyed d.target entries ∧ ∀ x ∈ Configuration.table.slots,
        x.Takes d.target (x.get .omitted) (x.get c) (given d.target x.name entries) := by
    constructor
    · rintro ⟨entries', hsame, hadmits, htakes⟩
      cases hsame
      exact ⟨(Table.admits_iff h).mp hadmits, htakes⟩
    · rintro ⟨hkeyed, htakes⟩
      exact ⟨entries, rfl, (Table.admits_iff h).mpr hkeyed, htakes⟩
  have hglobal := section_iff GlobalSettings.table {} c.global "global" hd h
  have hcontroller := section_iff ControllerSettings.table {} c.controller "controller" hd h
  have hlogging := section_iff LoggingSettings.table {} c.logging "logging" hd h
  unfold Merged
  -- a setting is left out with its section or without it, which comes to the same
  rw [hfills, Configuration.omitted_eq, ← forall₂_and]
  refine and_congr_right fun _ => ?_
  simp only [Configuration.table, List.forall_mem_cons, Slot.takes_iff, sectionNames, settings,
    List.forall_mem_append, List.forall_mem_map]
  rw [GlobalSettings.omitted_eq, ControllerSettings.omitted_eq, LoggingSettings.omitted_eq, hglobal,
    hcontroller, hlogging]
  constructor
  · rintro ⟨⟨hg, hgs⟩, ⟨hc, hcs⟩, ⟨hl, hls⟩, -⟩
    exact ⟨⟨hg, hc, hl, nofun⟩, ⟨hgs, hcs⟩, hls⟩
  · rintro ⟨⟨hg, hc, hl, -⟩, ⟨hgs, hcs⟩, hls⟩
    exact ⟨⟨hg, hgs⟩, ⟨hc, hcs⟩, ⟨hl, hls⟩, nofun⟩

/-- What comes of a document can be told setting by setting. -/
theorem Configuration.ofText_ok_iff (h : IsMapping text t entries) :
    Configuration.ofText text = .ok c ↔
      Keyed t entries ∧
      (∀ around ∈ sectionNames, (given t around entries).length ≤ 1 ∧
        ∀ n ∈ given t around entries, IsSection t n) ∧
      (∀ x ∈ settings, (x.nodes t entries).length ≤ 1) ∧ Merged t entries c := by
  obtain ⟨⟨p, closed, hroot⟩, rfl, hended, hmore⟩ := h
  -- where the text is understood to its end the whole tree is there, and all that aliases mean
  have hcomplete := Document.complete_of_ended hroot hended
  have hd : ∀ n ∈ (Document.ofText text).root, n.Complete := by
    intro n hn
    rw [hroot] at hn
    exact Option.some.inj hn ▸ hcomplete
  obtain ⟨rfl, hentries⟩ := hcomplete
  have hdecode : Configuration.decode { target := (Document.ofText text).target }
      (.mapping p entries true) = .ok c ↔ _ :=
    (configuration_ok_iff (Document.direct_target hd)).trans (configuration_fills_iff hd hentries)
  rw [← hdecode]
  unfold Configuration.ofText Document.decode
  rw [hroot, hended, hmore]
  dsimp only [bind, Except.bind]
  cases Configuration.decode { target := (Document.ofText text).target }
    (.mapping p entries true) <;> rfl

/-- There is a section with the values that are given for its settings. -/
theorem exists_section {σ : Type} (T : Table σ) (start : σ) (around : String)
    (part : Configuration → σ) (hpart : part {} = start)
    (h : ∀ x ∈ T.slots.map (Setting.ofSlot around part),
      ∀ n ∈ x.nodes t entries, ∃ v, x.Means t n v)
    (hlength : ∀ x ∈ T.slots.map (Setting.ofSlot around part), (x.nodes t entries).length ≤ 1) :
    ∃ s, ∀ c : Configuration, part c = s → ∀ x ∈ T.slots.map (Setting.ofSlot around part),
      (x.nodes t entries = [] → x.value c = x.value {}) ∧
        ∀ n ∈ x.nodes t entries, x.Means t n (x.value c) := by
  -- a field has the value of the only node that is given, or the one from the start
  obtain ⟨s, hs⟩ := T.exists_filled start (P := fun x v =>
    (givenFor t entries around x.name = [] → v = x.get start) ∧
      ∀ n ∈ givenFor t entries around x.name, x.Means t n v) fun x hx => by
    have hmem := List.mem_map_of_mem (f := Setting.ofSlot around part) hx
    have hone := hlength _ hmem
    have htyped := h _ hmem
    change (givenFor t entries around x.name).length ≤ 1 at hone
    change ∀ n ∈ givenFor t entries around x.name, _ at htyped
    match hnodes : givenFor t entries around x.name with
    | [] => exact ⟨x.get start, fun _ => rfl, nofun⟩
    | [n] =>
        obtain ⟨v, hv⟩ := htyped n (by rw [hnodes]; exact List.mem_cons_self)
        exact ⟨v, nofun, fun m hm => List.mem_singleton.mp hm ▸ hv⟩
    | _ :: _ :: _ =>
        rw [hnodes] at hone
        exact absurd hone (by simp)
  refine ⟨s, fun c hc x hx => ?_⟩
  obtain ⟨y, hy, rfl⟩ := List.mem_map.mp hx
  obtain ⟨habsent, hgiven⟩ := hs y hy
  refine ⟨fun hnil => ?_, fun n hn => ?_⟩
  · change y.get (part c) = y.get (part {})
    rw [hc, hpart]
    exact habsent hnil
  · change y.Means t n (y.get (part c))
    rw [hc]
    exact hgiven n hn

/-- There is a configuration with the values that a document gives. -/
theorem Proper.exists_configuration (h : Proper t entries) : ∃ c, Merged t entries c := by
  have hin := h.typed
  unfold settings at hin
  simp only [List.forall_mem_append] at hin
  obtain ⟨⟨hglobal, hcontroller⟩, hlogging⟩ := hin
  obtain ⟨g, hg⟩ := exists_section GlobalSettings.table {} "global" (·.global) rfl
    (fun x hx => (hglobal x hx).2) fun x hx => (hglobal x hx).1
  obtain ⟨s, hs⟩ := exists_section ControllerSettings.table {} "controller" (·.controller) rfl
    (fun x hx => (hcontroller x hx).2) fun x hx => (hcontroller x hx).1
  obtain ⟨l, hl⟩ := exists_section LoggingSettings.table {} "logging" (·.logging) rfl
    (fun x hx => (hlogging x hx).2) fun x hx => (hlogging x hx).1
  refine ⟨⟨g, s, l⟩, fun x hx => ?_⟩
  rcases List.mem_append.mp hx with hx | hx
  · rcases List.mem_append.mp hx with hx | hx
    · exact hg _ rfl x hx
    · exact hs _ rfl x hx
  · exact hl _ rfl x hx

end Documents

end CommuteSim
