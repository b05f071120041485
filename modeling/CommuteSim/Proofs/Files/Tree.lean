import CommuteSim.Proofs.Files.System
import Mathlib.Data.List.Induction

/-!
# File systems that are trees

In a tree everything but the root stands in a directory, so nothing stands below a place where no
directory is. A path without `..` leads down such a tree: all directories on the way lie above its
location. All operations keep a tree a tree, and what they do depends on what stands where alone.

Main statements: `IsTree.write`, `IsTree.removeAll` and `IsTree.createAll`; `find_of_leads` for
paths that lead to a directory; `faithful_createAll`.
-/

namespace CommuteSim

namespace FileSystem

/-- Everything stands in a directory. -/
def IsTree (s : FileSystem) : Prop :=
  ∀ l name e, s.entry? (l ++ [name]) = some e → s.entry? l = some .directory

section Tree

variable {s t : FileSystem} {l m : Location} {e : FileEntry}

/-- That a file system is a tree shows in its entries. -/
theorem isTree_iff : s.IsTree ↔ ∀ x ∈ s.entries, s.entry? x.1.dropLast = some .directory := by
  constructor
  · rintro htree ⟨l, e⟩ hx
    rcases List.eq_nil_or_concat l with rfl | ⟨init, name, rfl⟩
    · exact entry?_root s
    · rw [List.concat_eq_append] at hx ⊢
      rw [List.dropLast_concat]
      cases hfound : s.entry? (init ++ [name]) with
      | some found => exact htree init name found hfound
      | none =>
          rw [entry?_of_ne_nil (by simp), List.lookup_eq_none_iff] at hfound
          exact absurd rfl (bne_iff_ne.mp (hfound _ hx))
  · intro h l name e hfound
    rw [entry?_of_ne_nil (by simp), List.lookup_eq_some_iff] at hfound
    obtain ⟨before, after, hentries, -⟩ := hfound
    have haround := h (l ++ [name], e) (by rw [hentries]; simp)
    rwa [List.dropLast_concat] at haround

instance : Decidable s.IsTree := decidable_of_iff _ isTree_iff.symm

/-- All that lies above a directory is a directory. -/
theorem IsTree.above (h : s.IsTree) (hl : s.entry? l = some e) (hm : isBelow l m = true) :
    s.entry? m = some .directory := by
  obtain ⟨rest, hrest, rfl⟩ := isBelow_iff.mp hm
  clear hm
  induction rest using List.reverseRecOn generalizing e with
  | nil => exact absurd rfl hrest
  | append_singleton rest name ih =>
      rw [← List.append_assoc] at hl
      have haround := h _ name e hl
      by_cases hnil : rest = []
      · rwa [hnil, List.append_nil] at haround
      · exact ih hnil haround

theorem IsTree.of_begins (h : s.IsTree) (hl : s.entry? l = some .directory) (hm : m <+: l) :
    s.entry? m = some .directory := by
  obtain ⟨rest, rfl⟩ := hm
  by_cases hrest : rest = []
  · rwa [hrest, List.append_nil] at hl
  · exact h.above hl (isBelow_append hrest)

/-- Nothing stands below a place where no directory is. -/
theorem IsTree.below (h : s.IsTree) (hl : s.entry? l ≠ some .directory)
    (hm : isBelow m l = true) : s.entry? m = none := by
  cases hfound : s.entry? m with
  | none => rfl
  | some e => exact absurd (h.above hfound hm) hl

/-- In a directory that holds nothing, nothing stands below. -/
theorem IsTree.below_of_empty (h : s.IsTree) (hl : ∀ name, s.entry? (l ++ [name]) = none)
    (hm : isBelow m l = true) : s.entry? m = none := by
  obtain ⟨rest, hrest, rfl⟩ := isBelow_iff.mp hm
  obtain ⟨name, rest, rfl⟩ := List.exists_cons_of_ne_nil hrest
  by_cases hnil : rest = []
  · rw [hnil, hl name]
  · refine h.below (l := l ++ [name]) (by rw [hl name]; exact nofun) ?_
    rw [List.append_cons]
    exact isBelow_append hnil

theorem not_isBelow_of_begins (h : m <+: l) : isBelow m l = false := by
  refine Bool.eq_false_iff.mpr fun hbelow => ?_
  rw [isBelow, Bool.and_eq_true, decide_eq_true_eq] at hbelow
  exact Nat.not_lt.mpr h.length_le hbelow.1

/-! ## Operations on a tree -/

theorem IsTree.put (h : s.IsTree) {d : Location} {name : String}
    (hd : s.entry? d = some .directory)
    (he : s.entry? (d ++ [name]) = some .directory → e = .directory) :
    (s.put (d ++ [name]) e).IsTree := by
  intro l n e' hfound
  by_cases hsame : l ++ [n] = d ++ [name]
  · rw [(List.append_inj_left' hsame rfl), entry?_put_of_ne (by simp), hd]
  · rw [entry?_put_of_ne hsame] at hfound
    have haround := h l n e' hfound
    by_cases hplace : l = d ++ [name]
    · subst hplace
      rw [entry?_put_self (by simp), he haround]
    · rwa [entry?_put_of_ne hplace]

theorem IsTree.clear (h : s.IsTree) (l : Location) : (s.clear l).IsTree := by
  intro m name e hfound
  rw [entry?_clear] at hfound ⊢
  split at hfound
  · cases hfound
  · rename_i hout
    have haround := h m name e hfound
    rw [if_neg fun hin => hout (isBelow_trans (isBelow_append (by simp)) hin)]
    exact haround

/-- What holds nothing can be dropped. -/
theorem IsTree.drop (h : s.IsTree) (hl : ∀ name, s.entry? (l ++ [name]) = none) :
    (s.drop l).IsTree := by
  intro m name e hfound
  by_cases hsame : m ++ [name] = l
  · rw [hsame, entry?_drop_self (by rw [← hsame]; simp)] at hfound
    cases hfound
  · rw [entry?_drop_of_ne hsame] at hfound
    rw [entry?_drop_of_ne, h m name e hfound]
    rintro rfl
    cases (hl name).symm.trans hfound

/-- The last step of a path leads out of a directory. -/
theorem entry?_of_approach {p : PathParts} {n : String} (h : s.approach p = .ok (.name l n)) :
    s.entry? l = some .directory := by
  obtain ⟨-, hroot⟩ | ⟨init, last, d, -, hwalk, hstep⟩ := approach_cases h
  · cases hroot
  obtain ⟨-, hhere⟩ | ⟨-, hup⟩ | ⟨-, -, hname⟩ := hstep
  · cases hhere
  · cases hup
  · cases hname
    obtain ⟨rfl, hway⟩ := walk_ok hwalk
    exact hway init [] (List.append_nil _).symm

theorem IsTree.makeParts {p : PathParts} (h : s.IsTree) (hmade : s.makeParts p = .ok t) :
    t.IsTree := by
  unfold FileSystem.makeParts at hmade
  cases happroach : s.approach p with
  | error x =>
      rw [happroach] at hmade
      cases hmade
  | ok step =>
      rw [happroach] at hmade
      cases step with
      | root => cases hmade
      | here d => cases hmade
      | up d => cases hmade
      | name d n =>
          change (if _ then _ else _) = _ at hmade
          split at hmade
          · cases hmade
          · cases hmade
            exact h.put (entry?_of_approach happroach) fun _ => rfl

theorem IsTree.ensureParts {p : PathParts} {around : FileSystem → FileResult Unit × FileSystem}
    (h : s.IsTree) (haround : (around s).2.IsTree) : (s.ensureParts p around).2.IsTree := by
  have hsettle : ∀ (v : FileSystem) (e : OsError), v.IsTree →
      (if v.partsLeadToDirectory p then ((.ok (), v) : FileResult Unit × FileSystem)
        else (.error e, v)).2.IsTree := by
    intro v e hv
    split <;> exact hv
  unfold FileSystem.ensureParts
  dsimp only
  split
  · rename_i t hmade
    exact h.makeParts hmade
  · split
    · rename_i t hfailed
      rwa [hfailed] at haround
    · rename_i t hdone
      rw [hdone] at haround
      split
      · rename_i u hmade
        exact haround.makeParts hmade
      · exact hsettle t _ haround
  · exact hsettle s _ h

theorem IsTree.ensureNames {absolute : Bool} {names : List String} (count : Nat) (h : s.IsTree) :
    (ensureNames absolute names count s).2.IsTree := by
  induction count with
  | zero => exact h
  | succ count ih => exact h.ensureParts ih

/-- Making directories keeps a tree a tree, also where it fails halfway. -/
theorem IsTree.createAll (h : s.IsTree) (path : String) : (s.createAll path).2.IsTree := by
  unfold FileSystem.createAll
  split
  · exact h
  · split
    · exact h
    · exact h.ensureParts (h.ensureNames _)

/-- Removing a directory keeps a tree a tree, also where only its contents can be removed. -/
theorem IsTree.removeAll (h : s.IsTree) (path : String) : (s.removeAll path).2.IsTree := by
  unfold FileSystem.removeAll
  split
  · exact h
  · exact h
  · rename_i l hfind
    have hclear := h.clear l
    dsimp only
    split
    · rename_i d n happroach
      cases hchecked : checked path with
      | error x =>
          rw [hchecked] at happroach
          cases happroach
      | ok p =>
          rw [hchecked] at happroach
          obtain ⟨rfl, -⟩ := checked_ok hchecked
          have hplace : d ++ [n] = l := (approach_name happroach).trans (find_ok hfind).symm
          refine hclear.drop fun name => ?_
          rw [hplace, entry?_clear, if_pos (isBelow_append (by simp))]
    · exact hclear
    · exact hclear
    · exact hclear
    · exact hclear

/-- Writing a file keeps a tree a tree. -/
theorem IsTree.write {path : String} {content : ByteArray} (h : s.IsTree)
    (hwritten : s.write path content = .ok t) : t.IsTree := by
  have hfree := (write_ok hwritten).2
  unfold FileSystem.write at hwritten
  cases hchecked : checked path with
  | error x =>
      rw [hchecked] at hwritten
      cases hwritten
  | ok p =>
      rw [hchecked] at hwritten
      obtain ⟨rfl, -⟩ := checked_ok hchecked
      change (s.approach (.ofText path) >>= _) = _ at hwritten
      cases happroach : s.approach (.ofText path) with
      | error x =>
          rw [happroach] at hwritten
          cases hwritten
      | ok step =>
          rw [happroach] at hwritten
          cases step with
          | root => cases hwritten
          | here d => cases hwritten
          | up d => cases hwritten
          | name d n =>
              have hplace : d ++ [n] = s.locate path := approach_name happroach
              change (if _ then _ else _) = _ at hwritten
              split at hwritten
              · cases hwritten
              · split at hwritten
                · cases hwritten
                · cases hwritten
                  refine h.put (entry?_of_approach happroach) fun hthere => ?_
                  rw [hplace] at hthere
                  exact absurd hthere hfree

end Tree

/-! ## Paths that lead to a directory -/

section Paths

variable {s t : FileSystem} {path : String} {names rest : List String} {here l : Location}
  {e : FileEntry}

/-- The way of a path without `..` leads down. -/
theorem follow_begins (h : ".." ∉ names) (here : Location) : here <+: follow here names := by
  induction names generalizing here with
  | nil => exact List.prefix_refl here
  | cons name names ih =>
      rw [follow_cons]
      refine List.IsPrefix.trans ?_ (ih (fun hmem => h (List.mem_cons_of_mem _ hmem)) _)
      have hup : name ≠ ".." := fun heq => h (heq ▸ List.mem_cons_self)
      rw [stepTo, if_neg hup]
      split
      · exact List.prefix_refl here
      · exact List.prefix_append here [name]

theorem way_begins (h : ".." ∉ (PathParts.ofText path).names)
    (hab : (PathParts.ofText path).names = names ++ rest) :
    follow (s.start (.ofText path)) names <+: s.locate path := by
  rw [locate, hab, follow_append]
  rw [hab] at h
  exact follow_begins (fun hmem => h (List.mem_append_right names hmem)) _

/-- Names that can be followed can be followed in two parts. -/
theorem walk_split (h : s.walk here (names ++ rest) = .ok l) :
    s.walk here names = .ok (follow here names) ∧ s.walk (follow here names) rest = .ok l := by
  induction names generalizing here with
  | nil =>
      have hhere := (walk_ok h).2 [] rest rfl
      refine ⟨?_, h⟩
      rw [walk, show s.entry? here = _ from hhere]
      rfl
  | cons name names ih =>
      obtain ⟨hdirectory, hname, hrest⟩ := walk_cons_ok h
      rw [walk_cons hdirectory hname]
      exact ih hrest

/-- A path that leads to a directory is found to do so. -/
theorem find_of_leads (hchecked : checked path = .ok (.ofText path))
    (h : s.partsLeadToDirectory (.ofText path) = true) :
    s.find path = .ok (s.locate path, .directory) := by
  obtain ⟨l, hwalk⟩ := walk_of_leads h
  have hthere := (walk_ok hwalk).2 _ [] (List.append_nil _).symm
  unfold find approach
  rw [hchecked]
  dsimp only [bind, Except.bind]
  rcases List.eq_nil_or_concat (PathParts.ofText path).names with hnil | ⟨init, last, hnames⟩
  · have habsolute := PathParts.absolute_of_names_nil (checked_ok hchecked).2 hnil
    rw [locate, start, habsolute, hnil]
    rfl
  · rw [List.concat_eq_append] at hnames
    rw [hnames] at hwalk hthere
    obtain ⟨hinit, hlast⟩ := walk_split hwalk
    have hpassable := (walk_cons_ok hlast).2.1
    have hplace : s.locate path =
        stepTo (follow (s.start (.ofText path)) init) last := by
      rw [locate, hnames, follow_append]
      rfl
    rw [hplace, hnames, List.getLast?_concat, List.dropLast_concat, hinit]
    rw [follow_append] at hthere
    change s.entry? (stepTo _ last) = _ at hthere
    unfold stepTo at hthere ⊢
    dsimp only
    by_cases hdot : last = "."
    · rw [if_pos hdot, if_pos hdot]
      rfl
    · rw [if_neg hdot] at hthere
      rw [if_neg hdot, if_neg hdot]
      by_cases hup : last = ".."
      · rw [if_pos hup, if_pos hup]
        rfl
      · have hsize := (hpassable.resolve_left hdot).resolve_left hup
        rw [if_neg hup] at hthere
        rw [if_neg hup, if_neg hup, if_neg (Nat.not_lt.mpr hsize)]
        dsimp only [pure, Except.pure]
        rw [hthere]

theorem find_of_pathExists (h : s.pathExists path = true) : ∃ l e, s.find path = .ok (l, e) := by
  unfold pathExists at h
  cases hfind : s.find path with
  | ok found => exact ⟨found.1, found.2, rfl⟩
  | error x =>
      rw [hfind] at h
      cases h

/-- What a path leads to in a tree stands there. -/
theorem IsTree.entry?_of_find (htree : s.IsTree) (h : s.find path = .ok (l, e)) :
    s.entry? l = some e := by
  obtain ⟨-, step, happroach, hstep⟩ := approach_of_find h
  obtain ⟨-, rfl⟩ | ⟨init, last, d, -, hwalk, hlast⟩ := approach_cases happroach
  · obtain ⟨rfl, rfl⟩ := hstep
    exact entry?_root s
  · obtain ⟨rfl, hway⟩ := walk_ok hwalk
    have hd := hway init [] (List.append_nil _).symm
    obtain ⟨-, rfl⟩ | ⟨-, rfl⟩ | ⟨-, -, rfl⟩ := hlast
    · obtain ⟨rfl, rfl⟩ := hstep
      exact hd
    · obtain ⟨rfl, rfl⟩ := hstep
      exact htree.of_begins hd (List.dropLast_prefix _)
    · exact hstep.2

/-- The way to what a path leads to leads through directories. -/
theorem way_of_find (h : s.find path = .ok (l, e))
    (hab : (PathParts.ofText path).names = names ++ rest) (hrest : rest ≠ []) :
    s.entry? (follow (s.start (.ofText path)) names) = some .directory := by
  obtain ⟨-, step, happroach, -⟩ := approach_of_find h
  rcases approach_cases happroach with ⟨hnil, -⟩ | ⟨init, last, d, hnames, hwalk, -⟩
  · exact absurd (List.append_eq_nil_iff.mp (hab.symm.trans hnil)).2 hrest
  · rcases List.eq_nil_or_concat rest with rfl | ⟨between, name, rfl⟩
    · exact absurd rfl hrest
    · rw [List.concat_eq_append, ← List.append_assoc] at hab
      exact (walk_ok hwalk).2 names between (List.append_inj_left' (hnames.symm.trans hab) rfl)

/-- All that is on the way to what a path leads to in a tree is there. -/
theorem IsTree.exists_of_way (htree : s.IsTree) (h : s.pathExists path = true)
    (hab : (PathParts.ofText path).names = names ++ rest) :
    s.entry? (follow (s.start (.ofText path)) names) ≠ none := by
  obtain ⟨l, e, hfind⟩ := find_of_pathExists h
  by_cases hrest : rest = []
  · have hplace : follow (s.start (.ofText path)) names = l := by
      rw [find_ok hfind, locate, hab, hrest, List.append_nil]
    rw [hplace, htree.entry?_of_find hfind]
    exact Option.some_ne_none e
  · rw [way_of_find hfind hab hrest]
    exact Option.some_ne_none _

theorem isDirectory_iff (s : FileSystem) (path : String) :
    s.isDirectory path = true ↔ s.find path = .ok (s.locate path, .directory) := by
  unfold isDirectory
  constructor
  · intro h
    split at h
    · rename_i l hfind
      rw [hfind, find_ok hfind]
    · cases h
  · intro h
    rw [h]

theorem pathExists_of_find (h : s.find path = .ok (l, e)) : s.pathExists path = true := by
  rw [pathExists, h]
  rfl

/-- What can be listed is a directory. -/
theorem find_of_list {found : List String} (h : s.list path = .ok found) :
    s.find path = .ok (s.locate path, .directory) := by
  unfold list at h
  cases hfind : s.find path with
  | error x =>
      rw [hfind] at h
      cases h
  | ok place =>
      obtain ⟨l, - | c⟩ := place
      · rw [find_ok hfind]
      · rw [hfind] at h
        cases h

/-- A directory lists something exactly where something stands in it. -/
theorem list_of_find (h : s.find path = .ok (l, .directory)) :
    ∃ names, s.list path = .ok names ∧ (names = [] ↔ ∀ name, s.entry? (l ++ [name]) = none) := by
  refine ⟨_, by rw [list, h]; rfl, ?_⟩
  rw [List.filterMap_eq_nil_iff]
  constructor
  · intro hempty name
    rw [entry?_of_ne_nil (by simp), List.lookup_eq_none_iff]
    rintro ⟨m, found⟩ hfound
    rw [bne_iff_ne]
    rintro rfl
    have hnone := hempty _ hfound
    simp at hnone
  · rintro hnone ⟨m, found⟩ hfound
    dsimp only
    split
    · rename_i hin
      rcases List.eq_nil_or_concat m with rfl | ⟨init, name, rfl⟩
      · rfl
      · rw [List.concat_eq_append, List.dropLast_concat] at hin
        have hmissing := hnone name
        rw [entry?_of_ne_nil (by simp), List.lookup_eq_none_iff, ← hin] at hmissing
        exact absurd (List.concat_eq_append ..) (bne_iff_ne.mp (hmissing _ hfound)).symm
    · rfl

/-- What is removed is found at the end of a way that does not lead through what it holds. -/
theorem removeAll_ok (h : (s.removeAll path).1 = .ok ()) :
    (s.removeAll path).2 = (s.clear (s.locate path)).drop (s.locate path) ∧
      ∃ d n, s.locate path = d ++ [n] ∧
        (s.clear (s.locate path)).approach (.ofText path) = .ok (.name d n) := by
  unfold removeAll at h ⊢
  cases hfind : s.find path with
  | error x =>
      rw [hfind] at h
      cases h
  | ok found =>
      rw [hfind] at h
      obtain ⟨l, - | c⟩ := found
      · obtain rfl := find_ok hfind
        cases hchecked : checked path with
        | error x =>
            rw [hchecked] at h
            cases h
        | ok p =>
            obtain ⟨rfl, -⟩ := checked_ok hchecked
            rw [hchecked] at h
            dsimp only [bind, Except.bind] at h ⊢
            cases happroach : (s.clear (s.locate path)).approach (.ofText path) with
            | error x =>
                rw [happroach] at h
                cases h
            | ok step =>
                rw [happroach] at h
                cases step with
                | name d n =>
                    have hplace : d ++ [n] = (s.clear (s.locate path)).locate path :=
                      approach_name happroach
                    change d ++ [n] = s.locate path at hplace
                    dsimp only
                    rw [hplace]
                    exact ⟨rfl, d, n, hplace.symm, rfl⟩
                | here d => cases h
                | up d => cases h
                | root => cases h
      · cases h

/-- What is removed is gone with all below it, and all else is there. -/
theorem entry?_removeAll (h : s.removeAll path = (.ok (), t)) (m : Location) :
    t.entry? m =
      if m = s.locate path ∨ isBelow m (s.locate path) = true then none else s.entry? m := by
  have hok : (s.removeAll path).1 = .ok () := by rw [h]
  have hremoved := removeAll_ok hok
  rw [h] at hremoved
  obtain ⟨rfl, d, n, hplace, -⟩ := hremoved
  by_cases hm : m = s.locate path
  · rw [if_pos (.inl hm), hm]
    exact entry?_drop_self (by rw [hplace]; simp)
  · rw [entry?_drop_of_ne hm, entry?_clear]
    exact if_congr (by simp [hm]) rfl rfl

theorem workingDirectory_removeAll (h : s.removeAll path = (.ok (), t)) :
    t.workingDirectory = s.workingDirectory := by
  have hchanges := removeAll_changes s path
  rw [h] at hchanges
  exact hchanges.workingDirectory

/-! ## Directories that are made -/

/-- Without `..`, the directories that are made stand at the location of the path or above it. -/
theorem createAll_grows_above (hup : ".." ∉ (PathParts.ofText path).names) :
    Grows (· <+: s.locate path) s (s.createAll path).2 := by
  have hgrows := createAll_grows s path
  refine ⟨hgrows.workingDirectory, fun m => ?_⟩
  rcases hgrows.entry m with hsame | ⟨⟨a, b, hab, rfl⟩, hmade⟩
  · exact .inl hsame
  · exact .inr ⟨way_begins hup hab, hmade⟩

theorem checked_of_createAll (h : (s.createAll path).1 = .ok ()) (hpath : path ≠ "") :
    checked path = .ok (.ofText path) := by
  have hempty : ¬ path.isEmpty = true := fun he => hpath (String.isEmpty_iff.mp he)
  unfold createAll at h
  rw [if_neg hempty] at h
  cases hchecked : checked path with
  | error x =>
      rw [hchecked] at h
      cases h
  | ok p => rw [(checked_ok hchecked).1]

/-- A directory that is made is found. -/
theorem find_createAll (h : (s.createAll path).1 = .ok ()) (hpath : path ≠ "") :
    (s.createAll path).2.find path = .ok (s.locate path, .directory) := by
  have hworking := (createAll_grows s path).workingDirectory
  rw [find_of_leads (checked_of_createAll h hpath) (createAll_leads h hpath), locate, start,
    hworking]
  rfl

/-- The way to a directory that is made leads through directories. -/
theorem way_createAll (h : (s.createAll path).1 = .ok ()) (hpath : path ≠ "")
    (hab : (PathParts.ofText path).names = names ++ rest) :
    FileSystem.entry? (s.createAll path).2 (follow (s.start (.ofText path)) names) =
      some .directory := by
  obtain ⟨l, hwalk⟩ := walk_of_leads (createAll_leads h hpath)
  rw [(createAll_grows s path).start] at hwalk
  exact (walk_ok hwalk).2 names rest hab

theorem entry?_createAll (h : (s.createAll path).1 = .ok ()) (hpath : path ≠ "") :
    FileSystem.entry? (s.createAll path).2 (s.locate path) = some .directory :=
  way_createAll h hpath (List.append_nil _).symm

/-- A directory that can be made and is not found is not there, if the way to it would be there. -/
theorem entry?_of_createAll (h : (s.createAll path).1 = .ok ()) (hpath : path ≠ "")
    (hmissing : s.pathExists path = false)
    (hway : s.entry? (s.locate path) = some .directory → ∀ a b,
      (PathParts.ofText path).names = a ++ b →
        s.entry? (follow (s.start (.ofText path)) a) = some .directory) :
    s.entry? (s.locate path) = none := by
  have hgrows := createAll_grows s path
  have hthere := entry?_createAll h hpath
  rcases hgrows.entry (s.locate path) with hsame | ⟨-, hnone, -⟩
  · -- a directory that was there already would have been found
    obtain ⟨l, hwalk⟩ := walk_of_leads (createAll_leads h hpath)
    rw [hgrows.start] at hwalk
    have hbefore := walk_keeps hwalk (hway (hsame.symm.trans hthere))
    have hleads : s.partsLeadToDirectory (.ofText path) = true := by
      rw [partsLeadToDirectory, hbefore]
    rw [pathExists_of_find (find_of_leads (checked_of_createAll h hpath) hleads)] at hmissing
    cases hmissing
  · exact hnone

end Paths

/-! ## File systems that are alike -/

/-- The same stands everywhere, however it is kept. -/
structure Alike (s t : FileSystem) : Prop where
  workingDirectory : t.workingDirectory = s.workingDirectory
  entry : ∀ l, t.entry? l = s.entry? l

/-- An operation that tells the same of file systems that are alike, and leaves them alike. -/
def Faithful (operation : FileSystem → FileResult Unit × FileSystem) : Prop :=
  ∀ s t, Alike s t → (operation t).1 = (operation s).1 ∧ Alike (operation s).2 (operation t).2

section Alike

variable {s t : FileSystem}

theorem Alike.start (h : Alike s t) (p : PathParts) : t.start p = s.start p := by
  rw [FileSystem.start, FileSystem.start, h.workingDirectory]

theorem Alike.put (h : Alike s t) (l : Location) (e : FileEntry) :
    Alike (s.put l e) (t.put l e) where
  workingDirectory := h.workingDirectory
  entry := by
    intro m
    by_cases hm : m = l
    · by_cases hroot : l = []
      · rw [hm, hroot]
        rfl
      · rw [hm, entry?_put_self hroot, entry?_put_self hroot]
    · rw [entry?_put_of_ne hm, entry?_put_of_ne hm, h.entry]

theorem Alike.walk (h : Alike s t) (here : Location) (names : List String) :
    t.walk here names = s.walk here names := by
  induction names generalizing here with
  | nil => rw [FileSystem.walk, FileSystem.walk, h.entry]
  | cons name rest ih => rw [FileSystem.walk, FileSystem.walk, h.entry, ih, ih, ih]

theorem Alike.approach (h : Alike s t) (p : PathParts) : t.approach p = s.approach p := by
  unfold FileSystem.approach
  rw [h.walk, h.start]

theorem Alike.leads (h : Alike s t) (p : PathParts) :
    t.partsLeadToDirectory p = s.partsLeadToDirectory p := by
  unfold partsLeadToDirectory
  rw [h.walk, h.start]

/-- A directory is made in both of two file systems that are alike, or in none. -/
theorem Alike.makeParts (h : Alike s t) (p : PathParts) :
    (∃ e, s.makeParts p = .error e ∧ t.makeParts p = .error e) ∨
      ∃ s' t', s.makeParts p = .ok s' ∧ t.makeParts p = .ok t' ∧ Alike s' t' := by
  unfold FileSystem.makeParts
  rw [h.approach]
  cases s.approach p with
  | error e => exact .inl ⟨e, rfl, rfl⟩
  | ok step =>
      cases step with
      | name d n =>
          dsimp only [bind, Except.bind]
          rw [h.entry]
          split
          · exact .inl ⟨_, rfl, rfl⟩
          · exact .inr ⟨_, _, rfl, rfl, h.put _ _⟩
      | _ => exact .inl ⟨_, rfl, rfl⟩

theorem faithful_ensureParts {around : FileSystem → FileResult Unit × FileSystem}
    (haround : Faithful around) (p : PathParts) : Faithful (·.ensureParts p around) := by
  have hsettle : ∀ e : OsError, Faithful fun v =>
      if v.partsLeadToDirectory p then (.ok (), v) else (.error e, v) := by
    intro e s t h
    dsimp only
    rw [h.leads]
    split <;> exact ⟨rfl, h⟩
  intro s t h
  unfold ensureParts
  dsimp only
  obtain ⟨e, hs, ht⟩ | ⟨s', t', hs, ht, h'⟩ := h.makeParts p
  · rw [hs, ht]
    cases e with
    | notFound =>
        dsimp only
        have hrun := haround s t h
        generalize around s = a at hrun
        generalize around t = b at hrun
        obtain ⟨ra, sa⟩ := a
        obtain ⟨rb, tb⟩ := b
        obtain ⟨rfl, hab⟩ := hrun
        cases rb with
        | error e => exact ⟨rfl, hab⟩
        | ok u =>
            dsimp only
            obtain ⟨e, hs, ht⟩ | ⟨s', t', hs, ht, h'⟩ := hab.makeParts p
            · rw [hs, ht]
              exact hsettle e sa tb hab
            · rw [hs, ht]
              exact ⟨rfl, h'⟩
    | _ => exact hsettle _ s t h
  · rw [hs, ht]
    exact ⟨rfl, h'⟩

theorem faithful_ensureNames (absolute : Bool) (names : List String) (count : Nat) :
    Faithful (ensureNames absolute names count) := by
  induction count with
  | zero => exact fun _ _ h => ⟨rfl, h⟩
  | succ count ih => exact faithful_ensureParts ih _

theorem faithful_createAll (path : String) : Faithful (·.createAll path) := by
  intro s t h
  unfold createAll
  dsimp only
  split
  · exact ⟨rfl, h⟩
  · cases checked path with
    | error e => exact ⟨rfl, h⟩
    | ok p => exact faithful_ensureParts (faithful_ensureNames _ _ _) p s t h

end Alike

end FileSystem

end CommuteSim
