import CommuteSim.Files.System
import CommuteSim.Proofs.Files.Path

/-!
# Which entries an operation on files can change

A path that is followed without a look at the files leads to a location; who follows it in the files
comes to the same location or fails. So each operation changes entries at or below the location of
its path only, but for the directories around it that `createAll` makes where there is nothing.

Main statements: `write_changes`, `removeAll_changes` and `createAll_grows`; `createAll_leads` for
the directory that is there afterwards.
-/

namespace CommuteSim

namespace FileSystem

/-! ## Entries -/

section Entries

variable {s : FileSystem} {l m : Location} {e : FileEntry}

theorem lookup_filter_of {f : Location × FileEntry → Bool} (h : ∀ e, f (l, e) = true)
    (es : List (Location × FileEntry)) : (es.filter f).lookup l = es.lookup l := by
  induction es with
  | nil => rfl
  | cons x rest ih =>
      obtain ⟨a, e⟩ := x
      by_cases hla : l = a
      · subst hla
        rw [List.filter_cons_of_pos (h e), List.lookup_cons_self, List.lookup_cons_self]
      · have hne : (l == a) = false := beq_eq_false_iff_ne.mpr hla
        cases hf : f (a, e) with
        | true =>
            rw [List.filter_cons_of_pos hf, List.lookup_cons, List.lookup_cons, hne, ih]
        | false =>
            rw [List.filter_cons_of_neg (Bool.eq_false_iff.mp hf), List.lookup_cons, hne, ih]

theorem lookup_filter_none {f : Location × FileEntry → Bool} (h : ∀ e, f (l, e) = false)
    (es : List (Location × FileEntry)) : (es.filter f).lookup l = none := by
  refine List.lookup_eq_none_iff.mpr fun x hx => ?_
  obtain ⟨a, e⟩ := x
  rw [bne_iff_ne]
  rintro rfl
  have hf := (List.mem_filter.mp hx).2
  rw [h e] at hf
  cases hf

theorem entry?_root (s : FileSystem) : s.entry? [] = some .directory := rfl

theorem entry?_of_ne_nil (h : l ≠ []) : s.entry? l = s.entries.lookup l := by
  rw [ entry?, if_neg (by simpa using h)]

theorem entry?_put_self (h : l ≠ []) : entry? (s.put l e) l = some e := by
  rw [entry?_of_ne_nil h, put, List.lookup_cons_self]

theorem entry?_put_of_ne (h : m ≠ l) : entry? (s.put l e) m = s.entry? m := by
  by_cases hm : m = []
  · rw [hm, entry?_root, entry?_root]
  · rw [entry?_of_ne_nil hm, entry?_of_ne_nil hm, put, List.lookup_cons, beq_eq_false_iff_ne.mpr h]
    exact lookup_filter_of (fun _ => by simpa using h) s.entries

theorem not_isBelow_root (l : Location) : isBelow [] l = false := by
  simp [isBelow]

theorem entry?_clear (s : FileSystem) (l m : Location) :
    entry? (s.clear l) m = if isBelow m l then none else s.entry? m := by
  by_cases hm : m = []
  · rw [hm, not_isBelow_root]
    rfl
  · rw [entry?_of_ne_nil hm, entry?_of_ne_nil hm, clear]
    cases hb : isBelow m l with
    | true => exact lookup_filter_none (fun _ => by simp [hb]) s.entries
    | false => exact lookup_filter_of (fun _ => by simp [hb]) s.entries

theorem entry?_drop_of_ne (h : m ≠ l) : entry? (s.drop l) m = s.entry? m := by
  by_cases hm : m = []
  · rw [hm, entry?_root, entry?_root]
  · rw [entry?_of_ne_nil hm, entry?_of_ne_nil hm, drop]
    exact lookup_filter_of (fun _ => by simpa using h) s.entries

theorem entry?_drop_self (h : l ≠ []) : entry? (s.drop l) l = none := by
  rw [entry?_of_ne_nil h, drop]
  exact lookup_filter_none (fun _ => by simp) s.entries

end Entries

/-! ## Below a location -/

theorem isBelow_iff {l above : Location} :
    isBelow l above = true ↔ ∃ rest, rest ≠ [] ∧ l = above ++ rest := by
  rw [isBelow, Bool.and_eq_true, decide_eq_true_eq, List.isPrefixOf_iff_prefix]
  constructor
  · rintro ⟨hlength, rest, rfl⟩
    refine ⟨rest, ?_, rfl⟩
    rintro rfl
    rw [List.append_nil] at hlength
    exact Nat.lt_irrefl _ hlength
  · rintro ⟨rest, hrest, rfl⟩
    refine ⟨?_, List.prefix_append above rest⟩
    rw [List.length_append]
    exact Nat.lt_add_of_pos_right (List.length_pos_iff.mpr hrest)

theorem isBelow_trans {l m n : Location} (h : isBelow l m = true) (h' : isBelow m n = true) :
    isBelow l n = true := by
  obtain ⟨a, ha, rfl⟩ := isBelow_iff.mp h
  obtain ⟨b, -, rfl⟩ := isBelow_iff.mp h'
  refine isBelow_iff.mpr ⟨b ++ a, ?_, by rw [List.append_assoc]⟩
  exact fun hnil => ha (List.append_eq_nil_iff.mp hnil).2

theorem isBelow_append {above rest : Location} (h : rest ≠ []) :
    isBelow (above ++ rest) above = true :=
  isBelow_iff.mpr ⟨rest, h, rfl⟩

/-! ## Following names -/

/-- The location that a name leads to. -/
def stepTo (here : Location) (name : String) : Location :=
  if name = "." then here else if name = ".." then here.dropLast else here ++ [name]

/-- The location that names lead to, whatever stands there. -/
def follow (here : Location) (names : List String) : Location := names.foldl stepTo here

/-- A name that leads to something in a directory. -/
def Ordinary (name : String) : Prop := name ≠ "." ∧ name ≠ ".."

/-- A name that is not too long, or leads nowhere or up. -/
def Passable (name : String) : Prop := name = "." ∨ name = ".." ∨ name.utf8ByteSize ≤ 255

section Follow

variable {s t : FileSystem} {here d l : Location} {names rest : List String} {name : String}

theorem stepTo_of_ordinary (h : Ordinary name) : stepTo here name = here ++ [name] := by
  rw [stepTo, if_neg h.1, if_neg h.2]

theorem follow_append (here : Location) (names rest : List String) :
    follow here (names ++ rest) = follow (follow here names) rest :=
  List.foldl_append

theorem follow_cons (here : Location) (name : String) (rest : List String) :
    follow here (name :: rest) = follow (stepTo here name) rest := rfl

theorem follow_of_ordinary (h : ∀ n ∈ names, Ordinary n) : follow here names = here ++ names := by
  induction names generalizing here with
  | nil => exact (List.append_nil here).symm
  | cons n rest ih =>
      rw [follow_cons, stepTo_of_ordinary (h n List.mem_cons_self),
        ih fun m hm => h m (List.mem_cons_of_mem n hm), List.append_assoc]
      rfl

/-- A dot leads nowhere. -/
theorem follow_filter_dots (here : Location) (names : List String) :
    follow here (names.filter (· ≠ ".")) = follow here names := by
  induction names generalizing here with
  | nil => rfl
  | cons name rest ih =>
      rw [follow_cons]
      by_cases hdot : name = "."
      · rw [List.filter_cons_of_neg (by simpa using hdot), ih, stepTo, if_pos hdot]
      · rw [List.filter_cons_of_pos (by simpa using hdot), follow_cons, ih]

theorem walk_cons_ok (h : s.walk here (name :: rest) = .ok l) :
    s.entry? here = some .directory ∧ Passable name ∧ s.walk (stepTo here name) rest = .ok l := by
  rw [walk] at h
  split at h
  · rename_i hdirectory
    refine ⟨hdirectory, ?_⟩
    unfold stepTo
    split at h
    · rename_i hdot
      rw [if_pos hdot]
      exact ⟨.inl hdot, h⟩
    · rename_i hdot
      rw [if_neg hdot]
      split at h
      · rename_i hup
        rw [if_pos hup]
        exact ⟨.inr (.inl hup), h⟩
      · rename_i hup
        rw [if_neg hup]
        split at h
        · cases h
        · rename_i hshort
          exact ⟨.inr (.inr (Nat.le_of_not_lt hshort)), h⟩
  · cases h
  · cases h

theorem walk_cons (h : s.entry? here = some .directory) (hn : Passable name)
    (rest : List String) : s.walk here (name :: rest) = s.walk (stepTo here name) rest := by
  rw [walk, h, stepTo]
  dsimp only
  split
  · rfl
  · rename_i hdot
    split
    · rfl
    · rename_i hup
      exact if_neg (Nat.not_lt.mpr ((hn.resolve_left hdot).resolve_left hup))

/-- Names that can be followed lead through directories, to where they lead if nobody looks. -/
theorem walk_ok (h : s.walk here names = .ok l) :
    l = follow here names ∧
      ∀ a b, names = a ++ b → s.entry? (follow here a) = some .directory := by
  induction names generalizing here with
  | nil =>
      rw [walk] at h
      split at h
      · rename_i hdirectory
        cases h
        refine ⟨rfl, fun a b hab => ?_⟩
        rw [(List.append_eq_nil_iff.mp hab.symm).1]
        exact hdirectory
      · cases h
      · cases h
  | cons name rest ih =>
      obtain ⟨hdirectory, -, hrest⟩ := walk_cons_ok h
      obtain ⟨hl, hdirectories⟩ := ih hrest
      refine ⟨hl, fun a b hab => ?_⟩
      cases a with
      | nil => exact hdirectory
      | cons c a =>
          obtain ⟨rfl, hparts⟩ := List.cons_eq_cons.mp hab
          exact hdirectories a b hparts

/-- Names that can be followed can be followed where no directory is gone, and further names from
where they lead. -/
theorem walk_append (h : s.walk here names = .ok d)
    (hkeep : ∀ m, s.entry? m = some .directory → t.entry? m = some .directory) :
    t.walk here (names ++ rest) = t.walk d rest := by
  induction names generalizing here with
  | nil =>
      rw [walk] at h
      split at h
      · cases h
        rfl
      · cases h
      · cases h
  | cons name names ih =>
      obtain ⟨hdirectory, hname, hrest⟩ := walk_cons_ok h
      rw [List.cons_append, walk_cons (hkeep _ hdirectory) hname]
      exact ih hrest

/-- Names that can be followed can be followed wherever the directories on the way are. -/
theorem walk_keeps (h : s.walk here names = .ok d)
    (hkeep : ∀ a b, names = a ++ b → t.entry? (follow here a) = some .directory) :
    t.walk here names = .ok d := by
  induction names generalizing here with
  | nil =>
      have hhere : t.entry? here = some .directory := hkeep [] [] rfl
      have hd : d = here := (walk_ok h).1
      rw [walk, hhere, hd]
  | cons name rest ih =>
      obtain ⟨-, hpassable, hrest⟩ := walk_cons_ok h
      have hhere : t.entry? here = some .directory := hkeep [] _ rfl
      rw [walk_cons hhere hpassable]
      exact ih hrest fun a b hab => hkeep (name :: a) b (congrArg (name :: ·) hab)

end Follow

/-! ## Following paths -/

/-- The location of the last step of a path. -/
def LastStep.location : LastStep → Location
  | .name d n => d ++ [n]
  | .here d => d
  | .up d => d.dropLast
  | .root => []

/-- The location of a path, whatever stands there. -/
def locate (s : FileSystem) (path : String) : Location :=
  follow (s.start (.ofText path)) (PathParts.ofText path).names

section Approach

variable {s t : FileSystem} {p : PathParts} {step : LastStep} {d l : Location} {e : FileEntry}
  {n path : String}

/-- Parts that can be approached are none, or end in a name behind a directory. -/
theorem approach_cases (h : s.approach p = .ok step) :
    (p.names = [] ∧ step = .root) ∨ ∃ init last d, p.names = init ++ [last] ∧
      s.walk (s.start p) init = .ok d ∧ (last = "." ∧ step = .here d ∨
        last = ".." ∧ step = .up d ∨ Ordinary last ∧ Passable last ∧ step = .name d last) := by
  unfold approach at h
  split at h
  · rename_i hnone
    cases h
    exact .inl ⟨List.getLast?_eq_none_iff.mp hnone, rfl⟩
  · rename_i last hlast
    right
    obtain ⟨init, hinit⟩ := List.getLast?_eq_some_iff.mp hlast
    rw [hinit, List.dropLast_concat] at h
    cases hwalk : s.walk (s.start p) init with
    | error e =>
        rw [hwalk] at h
        cases h
    | ok d =>
        rw [hwalk] at h
        refine ⟨init, last, d, hinit, hwalk, ?_⟩
        change (if last = "." then _ else _) = _ at h
        split at h
        · rename_i hdot
          cases h
          exact .inl ⟨hdot, rfl⟩
        · rename_i hdot
          split at h
          · rename_i hup
            cases h
            exact .inr (.inl ⟨hup, rfl⟩)
          · rename_i hup
            split at h
            · cases h
            · rename_i hshort
              cases h
              exact .inr (.inr ⟨⟨hdot, hup⟩, .inr (.inr (Nat.le_of_not_lt hshort)), rfl⟩)

/-- Parts that can be approached lead to where they lead if nobody looks. -/
theorem approach_ok (h : s.approach p = .ok step) :
    (p.names = [] ∧ step = .root) ∨
      (step ≠ .root ∧ step.location = follow (s.start p) p.names) := by
  rcases approach_cases h with hroot | ⟨init, last, d, hnames, hwalk, hstep⟩
  · exact .inl hroot
  · right
    rw [hnames, follow_append, ← (walk_ok hwalk).1]
    rcases hstep with ⟨rfl, rfl⟩ | ⟨rfl, rfl⟩ | ⟨hordinary, -, rfl⟩
    · exact ⟨LastStep.noConfusion, rfl⟩
    · exact ⟨LastStep.noConfusion, rfl⟩
    · exact ⟨LastStep.noConfusion, (stepTo_of_ordinary hordinary).symm⟩

theorem approach_name (h : s.approach p = .ok (.name d n)) :
    d ++ [n] = follow (s.start p) p.names := by
  rcases approach_ok h with ⟨-, hstep⟩ | ⟨-, hlocation⟩
  · cases hstep
  · exact hlocation

theorem checked_ok (h : checked path = .ok p) : p = .ofText path ∧ path ≠ "" := by
  unfold checked at h
  split at h
  · cases h
  · split at h
    · cases h
    · rename_i hempty
      split at h
      · cases h
      · cases h
        exact ⟨rfl, fun heq => hempty (String.isEmpty_iff.mpr heq)⟩

/-- A path that leads to something can be approached. -/
theorem approach_of_find (h : s.find path = .ok (l, e)) :
    checked path = .ok (.ofText path) ∧ ∃ step, s.approach (.ofText path) = .ok step ∧
      match step with
      | .name d n => l = d ++ [n] ∧ s.entry? l = some e
      | .here d => l = d ∧ e = .directory
      | .up d => l = d.dropLast ∧ e = .directory
      | .root => l = [] ∧ e = .directory := by
  unfold find at h
  cases hchecked : checked path with
  | error x =>
      rw [hchecked] at h
      cases h
  | ok p =>
      rw [hchecked] at h
      obtain ⟨rfl, -⟩ := checked_ok hchecked
      refine ⟨rfl, ?_⟩
      change (s.approach (.ofText path) >>= _) = _ at h
      cases happroach : s.approach (.ofText path) with
      | error x =>
          rw [happroach] at h
          cases h
      | ok step =>
          rw [happroach] at h
          refine ⟨step, rfl, ?_⟩
          cases step with
          | root | here d | up d =>
              cases h
              exact ⟨rfl, rfl⟩
          | name d n =>
              dsimp only [bind, Except.bind] at h
              split at h
              · cases h
              · rename_i hentry
                cases h
                exact ⟨rfl, hentry⟩
              · rename_i c hentry
                split at h
                · cases h
                · cases h
                  exact ⟨rfl, hentry⟩

/-- A path that leads to something leads to its location. -/
theorem find_ok (h : s.find path = .ok (l, e)) : l = s.locate path := by
  obtain ⟨hchecked, step, happroach, hstep⟩ := approach_of_find h
  have hlocation : l = step.location := by
    cases step <;> exact hstep.1
  rw [hlocation]
  rcases approach_ok happroach with ⟨hnames, rfl⟩ | ⟨-, hlocated⟩
  · rw [locate, hnames, start, PathParts.absolute_of_names_nil (checked_ok hchecked).2 hnames]
    rfl
  · exact hlocated

end Approach

/-! ## Operations -/

/-- Only entries at locations of the kind `A` are changed. -/
structure Changes (A : Location → Prop) (s t : FileSystem) : Prop where
  workingDirectory : t.workingDirectory = s.workingDirectory
  entry : ∀ l, ¬ A l → t.entry? l = s.entry? l

/-- Only directories are made, at locations of the kind `A` where there was nothing. -/
structure Grows (A : Location → Prop) (s t : FileSystem) : Prop where
  workingDirectory : t.workingDirectory = s.workingDirectory
  entry : ∀ l, t.entry? l = s.entry? l ∨
    A l ∧ s.entry? l = none ∧ t.entry? l = some .directory

section Operations

variable {A B : Location → Prop} {s t u : FileSystem} {p : PathParts} {path : String}

theorem Changes.refl (A : Location → Prop) (s : FileSystem) : Changes A s s :=
  ⟨rfl, fun _ _ => rfl⟩

theorem Changes.trans (h : Changes A s t) (h' : Changes A t u) : Changes A s u where
  workingDirectory := h'.workingDirectory.trans h.workingDirectory
  entry := fun l hl => (h'.entry l hl).trans (h.entry l hl)

theorem Changes.mono (h : Changes A s t) (hA : ∀ l, A l → B l) : Changes B s t where
  workingDirectory := h.workingDirectory
  entry := fun l hl => h.entry l fun ha => hl (hA l ha)

theorem Grows.refl (A : Location → Prop) (s : FileSystem) : Grows A s s :=
  ⟨rfl, fun _ => .inl rfl⟩

theorem Grows.trans (h : Grows A s t) (h' : Grows A t u) : Grows A s u where
  workingDirectory := h'.workingDirectory.trans h.workingDirectory
  entry := by
    intro l
    rcases h.entry l with hsame | ⟨hA, hnone, hdirectory⟩
    · rcases h'.entry l with hsame' | ⟨hA, hnone, hdirectory⟩
      · exact .inl (hsame'.trans hsame)
      · exact .inr ⟨hA, hsame ▸ hnone, hdirectory⟩
    · rcases h'.entry l with hsame' | ⟨-, hnone', -⟩
      · exact .inr ⟨hA, hnone, hsame'.trans hdirectory⟩
      · rw [hdirectory] at hnone'
        cases hnone'

theorem Grows.directory {l : Location} (h : Grows A s t)
    (hl : s.entry? l = some .directory) : t.entry? l = some .directory := by
  rcases h.entry l with hsame | ⟨-, hnone, -⟩
  · exact hsame.trans hl
  · exact nomatch hl.symm.trans hnone

theorem Grows.file {l : Location} {content : ByteArray} (h : Grows A s t)
    (hl : t.entry? l = some (.file content)) : s.entry? l = some (.file content) := by
  rcases h.entry l with hsame | ⟨-, -, hdirectory⟩
  · exact hsame.symm.trans hl
  · exact nomatch hl.symm.trans hdirectory

theorem grows_put {l : Location} (hA : A l) (hl : s.entry? l = none) :
    Grows A s (s.put l .directory) where
  workingDirectory := rfl
  entry := by
    intro m
    by_cases hm : m = l
    · subst hm
      refine .inr ⟨hA, hl, entry?_put_self ?_⟩
      rintro rfl
      cases hl
    · exact .inl (entry?_put_of_ne hm)

theorem Changes.start (h : Changes A s t) (p : PathParts) : t.start p = s.start p := by
  rw [FileSystem.start, FileSystem.start, h.workingDirectory]

/-- A file is written at the location of its path, and takes the place of no directory. -/
theorem write_ok {content : ByteArray} (h : s.write path content = .ok t) :
    t = s.put (s.locate path) (.file content) ∧ s.entry? (s.locate path) ≠ some .directory := by
  unfold write at h
  cases hchecked : checked path with
  | error x =>
      rw [hchecked] at h
      cases h
  | ok p =>
      rw [hchecked] at h
      obtain ⟨rfl, -⟩ := checked_ok hchecked
      change (s.approach (.ofText path) >>= _) = _ at h
      cases happroach : s.approach (.ofText path) with
      | error x =>
          rw [happroach] at h
          cases h
      | ok step =>
          rw [happroach] at h
          cases step with
          | root => cases h
          | here d => cases h
          | up d => cases h
          | name d n =>
              have hlocation : d ++ [n] = s.locate path := approach_name happroach
              change (if _ then _ else _) = _ at h
              split at h
              · cases h
              · rw [hlocation] at h
                split at h
                · cases h
                · rename_i hentry
                  cases h
                  exact ⟨rfl, hentry⟩

/-- What a write changes: one entry, which is no directory. -/
theorem write_changes {content : ByteArray} (h : s.write path content = .ok t) :
    Changes (· = s.locate path) s t ∧
      ∀ l, s.entry? l = some .directory → t.entry? l = some .directory := by
  obtain ⟨rfl, hentry⟩ := write_ok h
  refine ⟨⟨rfl, fun l hl => entry?_put_of_ne hl⟩, fun l hl => ?_⟩
  have hne : l ≠ s.locate path := by
    rintro rfl
    exact hentry hl
  rwa [entry?_put_of_ne hne]

/-- A file that is written is there. -/
theorem entry?_write {content : ByteArray} (h : s.write path content = .ok t) :
    t.entry? (s.locate path) = some (.file content) := by
  obtain ⟨rfl, hentry⟩ := write_ok h
  refine entry?_put_self ?_
  intro hroot
  rw [hroot] at hentry
  exact hentry rfl

/-- What is removed lies at the location of the path or below it. -/
theorem removeAll_changes (s : FileSystem) (path : String) :
    Changes (fun l => l = s.locate path ∨ isBelow l (s.locate path) = true) s
      (s.removeAll path).2 := by
  unfold removeAll
  split
  · exact .refl _ s
  · exact .refl _ s
  · rename_i l hfind
    obtain rfl := find_ok hfind
    have hclear : Changes (fun l => l = s.locate path ∨ isBelow l (s.locate path) = true) s
        (s.clear (s.locate path)) := by
      refine ⟨rfl, fun m hm => ?_⟩
      rw [entry?_clear, if_neg fun hb => hm (.inr hb)]
    dsimp only
    split
    · rename_i d n happroach
      cases hchecked : checked path with
      | error x =>
          rw [hchecked] at happroach
          cases happroach
      | ok p =>
          rw [hchecked] at happroach
          obtain ⟨rfl, -⟩ := checked_ok hchecked
          have hlocation : d ++ [n] = (s.clear (s.locate path)).locate path :=
            approach_name happroach
          have hsame : (s.clear (s.locate path)).locate path = s.locate path := rfl
          rw [hlocation, hsame]
          exact hclear.trans ⟨rfl, fun m hm => entry?_drop_of_ne fun heq => hm (.inl heq)⟩
    · exact hclear
    · exact hclear
    · exact hclear
    · exact hclear

/-! ### Making directories -/

theorem makeParts_ok (h : s.makeParts p = .ok t) (hA : A (follow (s.start p) p.names)) :
    Grows A s t := by
  unfold makeParts at h
  cases happroach : s.approach p with
  | error x =>
      rw [happroach] at h
      cases h
  | ok step =>
      rw [happroach] at h
      cases step with
      | root => cases h
      | here d => cases h
      | up d => cases h
      | name d n =>
          rw [← approach_name happroach] at hA
          change (if _ then _ else _) = _ at h
          split at h
          · cases h
          · rename_i hentry
            cases h
            exact grows_put hA (Option.not_isSome_iff_eq_none.mp hentry)

theorem Grows.start (h : Grows A s t) (p : PathParts) : t.start p = s.start p := by
  rw [FileSystem.start, FileSystem.start, h.workingDirectory]

theorem ensureParts_grows {around : FileSystem → FileResult Unit × FileSystem}
    (hA : A (follow (s.start p) p.names)) (haround : Grows A s (around s).2) :
    Grows A s (s.ensureParts p around).2 := by
  have hsettle : ∀ (v : FileSystem) (e : OsError), Grows A s v →
      Grows A s (if v.partsLeadToDirectory p then ((.ok (), v) : FileResult Unit × FileSystem)
        else (.error e, v)).2 := by
    intro v e hv
    split <;> exact hv
  unfold ensureParts
  dsimp only
  split
  · rename_i t hmake
    exact makeParts_ok hmake hA
  · split
    · rename_i t hfailed
      rw [hfailed] at haround
      exact haround
    · rename_i t hmade
      rw [hmade] at haround
      split
      · rename_i u hmake
        rw [← haround.start] at hA
        exact haround.trans (makeParts_ok hmake hA)
      · exact hsettle t _ haround
  · exact hsettle s _ (.refl A s)

theorem ensureNames_grows {absolute : Bool} {names : List String} (count : Nat)
    (hA : ∀ a b, names = a ++ b → A (follow (s.start { absolute := absolute, names := a }) a)) :
    Grows A s (ensureNames absolute names count s).2 := by
  induction count with
  | zero => exact .refl A s
  | succ count ih =>
      exact ensureParts_grows (hA _ _ (List.take_append_drop _ _).symm) ih

/-- Dropping dots from the names of a path changes no location on the way. -/
theorem follow_normal (p : PathParts) {here : Location} {a b : List String}
    (h : p.normal.names = a ++ b) :
    ∃ c d, p.names = c ++ d ∧ follow here a = follow here c := by
  have hdotless : p.normal.names.filter (· ≠ ".") = p.names.filter (· ≠ ".") := by
    unfold PathParts.normal
    dsimp only
    split
    · rename_i rest hnames
      cases p.absolute <;> simp [hnames]
    · simp
  rw [h, List.filter_append] at hdotless
  obtain ⟨c, d, hnames, hc, -⟩ := List.filter_eq_append_iff.mp hdotless.symm
  refine ⟨c, d, hnames, ?_⟩
  rw [← follow_filter_dots here a, ← hc, follow_filter_dots]

/-- The directories that are made lie on the way along the names of the path. -/
theorem createAll_grows (s : FileSystem) (path : String) :
    Grows (fun l => ∃ a b, (PathParts.ofText path).names = a ++ b ∧
      l = follow (s.start (.ofText path)) a) s (s.createAll path).2 := by
  unfold createAll
  split
  · exact .refl _ s
  · split
    · exact .refl _ s
    · rename_i p hchecked
      obtain ⟨rfl, -⟩ := checked_ok hchecked
      have hway : ∀ a b, (PathParts.ofText path).normal.names = a ++ b →
          ∃ c d, (PathParts.ofText path).names = c ++ d ∧
            follow (s.start (.ofText path)) a = follow (s.start (.ofText path)) c :=
        fun a b h => follow_normal _ h
      refine ensureParts_grows ?_ (ensureNames_grows _ hway)
      exact ⟨_, [], (List.append_nil _).symm, rfl⟩

/-! ### Directories that are made -/

theorem walk_of_leads (h : s.partsLeadToDirectory p = true) :
    ∃ l, s.walk (s.start p) p.names = .ok l := by
  unfold partsLeadToDirectory at h
  cases hwalk : s.walk (s.start p) p.names with
  | ok l => exact ⟨l, rfl⟩
  | error e =>
      rw [hwalk] at h
      cases h

/-- A directory that is made is there. -/
theorem makeParts_leads (h : s.makeParts p = .ok t) : t.partsLeadToDirectory p = true := by
  unfold makeParts at h
  cases happroach : s.approach p with
  | error x =>
      rw [happroach] at h
      cases h
  | ok step =>
      rw [happroach] at h
      cases step with
      | root => cases h
      | here d => cases h
      | up d => cases h
      | name d n =>
          obtain ⟨-, hroot⟩ | ⟨init, last, d', hnames, hwalk, hstep⟩ := approach_cases happroach
          · cases hroot
          obtain ⟨-, hup⟩ | ⟨-, hup⟩ | ⟨hordinary, hpassable, hstep⟩ := hstep
          · cases hup
          · cases hup
          cases hstep
          change (if _ then _ else _) = _ at h
          split at h
          · cases h
          · rename_i hentry
            cases h
            have hnone := Option.not_isSome_iff_eq_none.mp hentry
            have hkeep : ∀ m, s.entry? m = some .directory →
                entry? (s.put (d ++ [n]) .directory) m = some .directory := by
              intro m hm
              rw [entry?_put_of_ne, hm]
              rintro rfl
              cases hm.symm.trans hnone
            have hd := (walk_ok hwalk).2 init [] (List.append_nil _).symm
            rw [← (walk_ok hwalk).1] at hd
            have hmade : (s.put (d ++ [n]) .directory).walk (s.start p) p.names =
                .ok (d ++ [n]) := by
              rw [hnames, walk_append hwalk hkeep, walk_cons (hkeep d hd) hpassable,
                stepTo_of_ordinary hordinary, walk, entry?_put_self (by simp)]
            unfold partsLeadToDirectory
            have hstart : (s.put (d ++ [n]) .directory).start p = s.start p := rfl
            rw [hstart, hmade]

theorem ensureParts_leads {around : FileSystem → FileResult Unit × FileSystem}
    (h : (s.ensureParts p around).1 = .ok ()) :
    (s.ensureParts p around).2.partsLeadToDirectory p = true := by
  have hsettle : ∀ (v : FileSystem) (e : OsError),
      (if v.partsLeadToDirectory p then ((.ok (), v) : FileResult Unit × FileSystem)
        else (.error e, v)).1 = .ok () →
      (if v.partsLeadToDirectory p then ((.ok (), v) : FileResult Unit × FileSystem)
        else (.error e, v)).2.partsLeadToDirectory p = true := by
    intro v e hv
    split at hv
    · rename_i hleads
      rw [if_pos hleads]
      exact hleads
    · cases hv
  unfold ensureParts at h ⊢
  dsimp only at h ⊢
  split at h
  · rename_i t hmake
    exact makeParts_leads hmake
  · split at h
    · cases h
    · split at h
      · rename_i u hmake
        exact makeParts_leads hmake
      · exact hsettle _ _ h
  · exact hsettle _ _ h

/-- A directory that is made with all around it is there. -/
theorem createAll_leads (h : (s.createAll path).1 = .ok ()) (hpath : path ≠ "") :
    (s.createAll path).2.partsLeadToDirectory (.ofText path) = true := by
  have hempty : ¬ path.isEmpty = true := fun h => hpath (String.isEmpty_iff.mp h)
  unfold createAll at h ⊢
  rw [if_neg hempty] at h ⊢
  cases hchecked : checked path with
  | error x =>
      rw [hchecked] at h
      cases h
  | ok p =>
      obtain ⟨rfl, -⟩ := checked_ok hchecked
      rw [hchecked] at h
      exact ensureParts_leads h

/-! ## Files that stay -/

/-- Files at locations of the kind `P` are still there, with the same content. -/
structure Retains (P : Location → Prop) (s t : FileSystem) : Prop where
  workingDirectory : t.workingDirectory = s.workingDirectory
  file : ∀ l content, P l → s.entry? l = some (.file content) → t.entry? l = some (.file content)

theorem Retains.refl (P : Location → Prop) (s : FileSystem) : Retains P s s :=
  ⟨rfl, fun _ _ _ h => h⟩

/-- Files stay where entries elsewhere are changed. -/
theorem Retains.changes {P : Location → Prop} (h : Retains P s t) (h' : Changes A t u)
    (hA : ∀ l, P l → ¬ A l) : Retains P s u where
  workingDirectory := h'.workingDirectory.trans h.workingDirectory
  file := by
    intro l content hl hfile
    rw [h'.entry l (hA l hl)]
    exact h.file l content hl hfile

/-- Files stay where directories are made. -/
theorem Retains.grows {P : Location → Prop} (h : Retains P s t) (h' : Grows A t u) :
    Retains P s u where
  workingDirectory := h'.workingDirectory.trans h.workingDirectory
  file := by
    intro l content hl hfile
    have hbefore := h.file l content hl hfile
    rcases h'.entry l with hsame | ⟨-, hnone, -⟩
    · exact hsame.trans hbefore
    · exact nomatch hbefore.symm.trans hnone

/-- A file that is written leaves all others alone. -/
theorem retains_write {content : ByteArray} (h : s.write path content = .ok t) :
    Retains (· ≠ s.locate path) s t :=
  (Retains.refl _ s).changes (write_changes h).1 fun _ hl => hl

end Operations

end FileSystem

end CommuteSim
