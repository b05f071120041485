import CommuteSim.Proofs.Files.Tree
import CommuteSim.Proofs.Output.Provision

/-!
# What making the directory of an iteration leaves alone

The directory of an iteration is removed, if it is there, and made anew. The way to it leads along
the root of the run, which may have a detour through any directory, even through the one that is to
be removed. Still nothing is touched but that directory and what it holds, and the one around it if
that is missing.

Main statement: `createIteration_frame`.
-/

namespace CommuteSim

namespace OutputDirectory

open FileSystem

/-- The ways of making a directory anew. -/
inductive Remakes (path : String) (s : FileSystem) :
    Except OutputFailure Unit → FileSystem → Prop where
  | made : s.pathExists path = false → (s.createAll path).1 = .ok () →
      Remakes path s (.ok ()) (s.createAll path).2
  | unmade {e : OsError} : s.pathExists path = false → (s.createAll path).1 = .error e →
      Remakes path s (.error (.refused path e)) (s.createAll path).2
  | unremoved {e : OsError} : s.pathExists path = true → (s.removeAll path).1 = .error e →
      Remakes path s (.error (.refused path e)) (s.removeAll path).2
  | remade {t : FileSystem} : s.pathExists path = true → s.removeAll path = (.ok (), t) →
      (t.createAll path).1 = .ok () → Remakes path s (.ok ()) (t.createAll path).2
  | unremade {t : FileSystem} {e : OsError} : s.pathExists path = true →
      s.removeAll path = (.ok (), t) → (t.createAll path).1 = .error e →
      Remakes path s (.error (.refused path e)) (t.createAll path).2

section Remakes

variable {d : OutputDirectory} {i : IterationIndex} {s t u : FileSystem} {m : Location}
  {o : Except OutputFailure Unit} {a b : List String}

theorem remakes_createIteration (d : OutputDirectory) (i : IterationIndex) (j : FileJournal) :
    Remakes (d.iterationDirectory i) j.files ((d.createIteration i).run.run j).1
      ((d.createIteration i).run.run j).2.files := by
  let path := d.iterationDirectory i
  let create : FileWork Unit := FileWork.attempt path (·.createAll path)
  have hcreate : ∀ k : FileJournal, create.run.run k =
      ((k.files.createAll path).1.mapError (.refused path),
        { k with files := (k.files.createAll path).2 }) :=
    run_attempt path (·.createAll path)
  have hrun : (d.createIteration i).run.run j =
      (if j.files.pathExists path then do
        FileWork.say .warning "iteration directory exists; removing it"
        FileWork.attempt path (·.removeAll path)
        create
      else create : FileWork Unit).run.run j := rfl
  rw [hrun]
  split
  · rename_i hexists
    let k : FileJournal :=
      { j with lines := j.lines ++ [⟨.warning, "iteration directory exists; removing it"⟩] }
    have hremove : (FileWork.attempt path (·.removeAll path)).run k =
        ((j.files.removeAll path).1.mapError (.refused path),
          { k with files := (j.files.removeAll path).2 }) :=
      run_attempt path (·.removeAll path) k
    have hsay : (FileWork.say .warning "iteration directory exists; removing it").run j =
        (.ok (), k) := rfl
    rw [StateT.run, run_bind_except, hsay]
    dsimp only
    rw [run_bind_except, hremove]
    dsimp only
    cases hremoved : (j.files.removeAll path).1 with
    | error e => exact .unremoved hexists hremoved
    | ok =>
        have hempty : j.files.removeAll path = (.ok (), (j.files.removeAll path).2) :=
          Prod.ext hremoved rfl
        have hmade : create.run { k with files := (j.files.removeAll path).2 } = _ := hcreate _
        dsimp only [Except.mapError]
        rw [hmade]
        dsimp only
        cases hresult : ((j.files.removeAll path).2.createAll path).1 with
        | error e => exact .unremade hexists hempty hresult
        | ok => exact .remade hexists hempty hresult
  · rename_i hmissing
    rw [hcreate]
    cases hmade : (j.files.createAll path).1 with
    | error e => exact .unmade (Bool.eq_false_iff.mpr hmissing) hmade
    | ok => exact .made (Bool.eq_false_iff.mpr hmissing) hmade

theorem Remakes.workingDirectory {path : String} (h : Remakes path s o t) :
    t.workingDirectory = s.workingDirectory := by
  have hgrown := fun s : FileSystem => (createAll_grows s path).workingDirectory
  cases h with
  | made | unmade => exact hgrown s
  | unremoved => exact (removeAll_changes s path).workingDirectory
  | remade _ hu | unremade _ hu => exact (hgrown _).trans (workingDirectory_removeAll hu)

/-! ## The way to the directory of an iteration -/

theorem nonempty_iterationDirectory (d : OutputDirectory) (i : IterationIndex) :
    d.iterationDirectory i ≠ "" := by
  intro h
  have hnames := (names_iterationDirectory {} d i).2
  rw [h] at hnames
  have hempty : (PathParts.ofText "").names = [] := rfl
  rw [hempty] at hnames
  exact absurd (List.append_eq_nil_iff.mp hnames.symm).2 (List.cons_ne_nil _ _)

/-- In a tree with the root in it, the directory around those of the iterations and the directory of
an iteration are all that can be missing on the way. -/
theorem createAll_grows_iteration (htree : s.IsTree) (hroot : s.pathExists d.root = true)
    (i : IterationIndex) :
    Grows (fun m => m = s.locate d.root ++ [iterationsName] ∨
      m = s.locate (d.iterationDirectory i)) s (s.createAll (d.iterationDirectory i)).2 := by
  have hgrows := createAll_grows s (d.iterationDirectory i)
  refine ⟨hgrows.workingDirectory, fun m => ?_⟩
  rcases hgrows.entry m with hsame | ⟨⟨a, b, hab, rfl⟩, hnone, hmade⟩
  · exact .inl hsame
  · refine .inr ⟨?_, hnone, hmade⟩
    rcases way_iterationDirectory s hab with ⟨c, hc⟩ | haround | hplace
    · rw [(names_iterationDirectory s d i).1] at hnone
      exact absurd hnone (htree.exists_of_way hroot hc)
    · exact .inl haround
    · exact .inr (hplace.trans (locate_iterationDirectory s d i).symm)

/-- Once the directory of an iteration is removed, it is all that is missing on the way. -/
theorem createAll_grows_removed (h : s.removeAll (d.iterationDirectory i) = (.ok (), t)) :
    Grows (· = s.locate (d.iterationDirectory i)) t (t.createAll (d.iterationDirectory i)).2 := by
  let path := d.iterationDirectory i
  have hfst : (s.removeAll path).1 = .ok () := by rw [h]
  obtain ⟨ht, e, n, hplace, happroach⟩ := removeAll_ok hfst
  rw [h] at ht
  subst ht
  have hgrows := createAll_grows ((s.clear (s.locate path)).drop (s.locate path)) path
  refine ⟨hgrows.workingDirectory, fun m => ?_⟩
  rcases hgrows.entry m with hsame | ⟨⟨a, b, hab, rfl⟩, hnone, hmade⟩
  · exact .inl hsame
  · refine .inr ⟨?_, hnone, hmade⟩
    by_contra hne
    rw [entry?_drop_of_ne hne] at hnone
    -- what is left after the removal was approached through directories
    rcases approach_cases happroach with ⟨-, hroot⟩ | ⟨init, last, e', hnames, hwalk, -⟩
    · cases hroot
    · rcases List.eq_nil_or_concat b with rfl | ⟨rest, name, rfl⟩
      · rw [List.append_nil] at hab
        exact hne (by rw [locate, hab]; rfl)
      · rw [List.concat_eq_append, ← List.append_assoc] at hab
        have hinit := List.append_inj_left' (hnames.symm.trans hab) rfl
        cases ((walk_ok hwalk).2 a rest hinit).symm.trans hnone

/-! ## What is left alone -/

/-- An iteration directory is changed, and what is below it; and the one around it is made if it is
missing. -/
theorem Remakes.frame (h : Remakes (d.iterationDirectory i) s o t) (htree : s.IsTree)
    (hroot : s.pathExists d.root = true) (hm : m ≠ s.locate (d.iterationDirectory i))
    (hout : isBelow m (s.locate (d.iterationDirectory i)) = false) :
    t.entry? m = s.entry? m ∨ m = s.locate d.root ++ [iterationsName] ∧
      s.entry? m = none ∧ t.entry? m = some .directory := by
  have hremoved : FileSystem.entry? (s.removeAll (d.iterationDirectory i)).2 m = s.entry? m :=
    (removeAll_changes s _).entry m fun hin => hin.elim hm (Bool.eq_false_iff.mp hout)
  have hanew : ∀ {u}, s.removeAll (d.iterationDirectory i) = (.ok (), u) →
      FileSystem.entry? (u.createAll (d.iterationDirectory i)).2 m = s.entry? m := by
    intro u hu
    rw [hu] at hremoved
    rcases (createAll_grows_removed hu).entry m with hsame | ⟨rfl, -⟩
    · exact hsame.trans hremoved
    · exact absurd rfl hm
  cases h with
  | made | unmade =>
      rcases (createAll_grows_iteration htree hroot i).entry m with hsame | ⟨haround | rfl, hmade⟩
      · exact .inl hsame
      · exact .inr ⟨haround, hmade⟩
      · exact absurd rfl hm
  | unremoved => exact .inl hremoved
  | remade _ hu | unremade _ hu => exact .inl (hanew hu)

/-- The directories of two iterations lie apart, and neither is the one around them. -/
theorem apart_iterations {k : IterationIndex} (hk : k ≠ i)
    (hm : m = s.locate (d.iterationDirectory k) ∨
      isBelow m (s.locate (d.iterationDirectory k)) = true) :
    m ≠ s.locate (d.iterationDirectory i) ∧
      isBelow m (s.locate (d.iterationDirectory i)) = false ∧
        m ≠ s.locate d.root ++ [iterationsName] := by
  rw [locate_iterationDirectory] at hm ⊢
  obtain ⟨rest, rfl⟩ :
      ∃ rest, m = s.locate d.root ++ iterationsName :: iterationName k :: rest := by
    rcases hm with rfl | hm
    · exact ⟨[], rfl⟩
    · obtain ⟨rest, -, rfl⟩ := isBelow_iff.mp hm
      exact ⟨rest, by simp⟩
  have hname : iterationName k ≠ iterationName i := fun h => hk (iterationName_injective h)
  refine ⟨fun h => ?_, Bool.eq_false_iff.mpr fun h => ?_, fun h => ?_⟩
  · exact hname (List.cons.inj (List.cons.inj (List.append_cancel_left h)).2).1
  · obtain ⟨below, -, heq⟩ := isBelow_iff.mp h
    rw [List.append_assoc] at heq
    exact hname (List.cons.inj (List.cons.inj (List.append_cancel_left heq)).2).1
  · cases (List.cons.inj (List.append_cancel_left h)).2

/-! ## What is there -/

/-- The directory of an iteration is there, with all on the way to it, and holds nothing. -/
structure Blank (d : OutputDirectory) (i : IterationIndex) (s : FileSystem) : Prop where
  checked : checked (d.iterationDirectory i) = .ok (.ofText (d.iterationDirectory i))
  way : ∀ a b, (PathParts.ofText (d.iterationDirectory i)).names = a ++ b →
    s.entry? (follow (s.start (.ofText (d.iterationDirectory i))) a) = some .directory
  leads : s.partsLeadToDirectory (.ofText (d.iterationDirectory i)) = true
  below : ∀ m, isBelow m (s.locate (d.iterationDirectory i)) = true → s.entry? m = none

theorem not_isBelow_around (s : FileSystem) (d : OutputDirectory) (i : IterationIndex) :
    isBelow (s.locate d.root ++ [iterationsName]) (s.locate (d.iterationDirectory i)) = false := by
  rw [locate_iterationDirectory]
  exact not_isBelow_of_begins ⟨[iterationName i], by simp⟩

theorem blank_createAll (h : (s.createAll (d.iterationDirectory i)).1 = .ok ())
    (hbelow : ∀ m, isBelow m (s.locate (d.iterationDirectory i)) = true →
      FileSystem.entry? (s.createAll (d.iterationDirectory i)).2 m = none) :
    Blank d i (s.createAll (d.iterationDirectory i)).2 where
  checked := checked_of_createAll h (nonempty_iterationDirectory d i)
  way := fun a b hab => by
    rw [(createAll_grows s _).start]
    exact way_createAll h (nonempty_iterationDirectory d i) hab
  leads := createAll_leads h (nonempty_iterationDirectory d i)
  below := by
    rw [locate_of_workingDirectory (createAll_grows s _).workingDirectory]
    exact hbelow

/-- A directory of an iteration that can be made and is not found is not there. -/
theorem entry?_of_made (htree : s.IsTree) (hroot : s.pathExists d.root = true)
    (hmissing : s.pathExists (d.iterationDirectory i) = false)
    (hmade : (s.createAll (d.iterationDirectory i)).1 = .ok ()) :
    s.entry? (s.locate (d.iterationDirectory i)) = none := by
  refine entry?_of_createAll hmade (nonempty_iterationDirectory d i) hmissing
    fun hthere a b hab => ?_
  have hplace := locate_iterationDirectory s d i
  rcases way_iterationDirectory s hab with ⟨c, hc⟩ | haround | hend
  · rw [(names_iterationDirectory s d i).1]
    obtain ⟨l, e, hfind⟩ := find_of_pathExists hroot
    by_cases hnil : c = []
    · refine htree.of_begins hthere ?_
      rw [hplace, locate, hc, hnil, List.append_nil]
      exact List.prefix_append _ _
    · exact way_of_find hfind hc hnil
  · rw [haround]
    refine htree.of_begins hthere ?_
    rw [hplace]
    exact ⟨[iterationName i], by simp⟩
  · rw [hend, ← hplace]
    exact hthere

/-- Where it is made anew, the directory of an iteration holds nothing. -/
theorem Remakes.blank (h : Remakes (d.iterationDirectory i) s (.ok ()) t) (htree : s.IsTree)
    (hroot : s.pathExists d.root = true) : Blank d i t := by
  have hself : isBelow (s.locate (d.iterationDirectory i)) (s.locate (d.iterationDirectory i)) =
      false := not_isBelow_of_begins (List.prefix_refl _)
  cases h with
  | made hmissing hmade =>
      refine blank_createAll hmade fun m hm => ?_
      have hnone := entry?_of_made htree hroot hmissing hmade
      rcases (createAll_grows_iteration htree hroot i).entry m with hsame | ⟨rfl | rfl, -⟩
      · exact hsame.trans (htree.below (by rw [hnone]; exact nofun) hm)
      · exact nomatch (not_isBelow_around s d i).symm.trans hm
      · exact nomatch hself.symm.trans hm
  | @remade u _ hu hmade =>
      have hlocate := locate_of_workingDirectory (workingDirectory_removeAll hu)
        (d.iterationDirectory i)
      refine blank_createAll hmade fun m hm => ?_
      rcases (createAll_grows_removed hu).entry m with hsame | ⟨hplace, -⟩
      · rw [hlocate] at hm
        rw [hsame, entry?_removeAll hu, if_pos (.inr hm)]
      · rw [hplace, hlocate] at hm
        exact nomatch hself.symm.trans hm

/-! ## Making it once more -/

theorem Blank.find (h : Blank d i t) :
    t.find (d.iterationDirectory i) = .ok (t.locate (d.iterationDirectory i), .directory) :=
  find_of_leads h.checked h.leads

theorem Blank.there (h : Blank d i t) :
    t.entry? (t.locate (d.iterationDirectory i)) = some .directory :=
  h.way _ [] (List.append_nil _).symm

theorem Blank.walk (h : Blank d i t) :
    t.walk (t.start (.ofText d.root)) (PathParts.ofText d.root).names = .ok (t.locate d.root) ∧
      t.walk (t.start (.ofText (d.iterationDirectory i)))
        ((PathParts.ofText d.root).names ++ [iterationsName]) =
          .ok (t.locate d.root ++ [iterationsName]) := by
  obtain ⟨hstart, hnames⟩ := names_iterationDirectory t d i
  obtain ⟨l, hwalk⟩ := walk_of_leads h.leads
  rw [hnames] at hwalk
  have hroot := (walk_split hwalk).1
  rw [hstart] at hroot ⊢
  refine ⟨hroot, ?_⟩
  rw [List.append_cons, hstart] at hwalk
  have haround := (walk_split hwalk).1
  rw [follow_append] at haround
  exact haround

theorem Blank.around (h : Blank d i t) :
    t.entry? (t.locate d.root ++ [iterationsName]) = some .directory := by
  obtain ⟨hend, hway⟩ := walk_ok h.walk.2
  rw [hend]
  exact hway _ [] (List.append_nil _).symm

/-- The directory of an iteration that holds nothing can be removed. -/
theorem Blank.removed (h : Blank d i t) : (t.removeAll (d.iterationDirectory i)).1 = .ok () := by
  obtain ⟨-, hnames⟩ := names_iterationDirectory t d i
  rw [List.append_cons] at hnames
  have hplace := locate_iterationDirectory t d i
  rw [List.append_cons] at hplace
  have hthere := h.there
  rw [hplace] at hthere
  rw [removeAll_of_walk h.checked hnames h.walk.2 (ordinary_iterationName i)
    (Nat.le_trans (short_iterationName i).size (by decide)) hthere fun a b hab => ?_]
  refine Bool.eq_false_iff.mpr fun hbelow => ?_
  rw [← hplace] at hbelow
  have hway := h.way a (b ++ [iterationName i]) (by rw [hnames, hab, List.append_assoc])
  exact nomatch hway.symm.trans (h.below _ hbelow)

/-- It can be made again if the way to the root does not lead through it. -/
theorem Blank.again (h : Blank d i t) (hu : t.removeAll (d.iterationDirectory i) = (.ok (), u))
    (hapart : ∀ a b, (PathParts.ofText d.root).names = a ++ b →
      follow (t.start (.ofText d.root)) a ≠ t.locate (d.iterationDirectory i)) :
    (u.createAll (d.iterationDirectory i)).1 = .ok () := by
  have hplace := locate_iterationDirectory t d i
  have hkept : ∀ {m}, t.entry? m = some .directory → m ≠ t.locate (d.iterationDirectory i) →
      u.entry? m = some .directory := by
    intro m hm hne
    rw [entry?_removeAll hu, if_neg, hm]
    intro hin
    cases hm.symm.trans (h.below m (hin.resolve_left hne))
  have hreached : u.walk (u.start (.ofText (d.iterationDirectory i)))
      (PathParts.ofText d.root).names = .ok (t.locate d.root) := by
    have hstart : u.start (.ofText d.root) = t.start (.ofText d.root) := by
      rw [start, start, workingDirectory_removeAll hu]
    rw [(names_iterationDirectory u d i).1, hstart]
    exact walk_keeps h.walk.1 fun a b hab =>
      hkept ((walk_ok h.walk.1).2 a b hab) (hapart a b hab)
  have haround : u.entry? (t.locate d.root ++ [iterationsName]) = some .directory := by
    refine hkept h.around ?_
    rw [hplace]
    intro heq
    cases List.append_cancel_left heq
  have hgone : u.entry? (t.locate d.root ++ [iterationsName, iterationName i]) = none := by
    rw [← hplace, entry?_removeAll hu, if_pos (.inl rfl)]
  refine createAll_of_walk h.checked (nonempty_iterationDirectory d i)
    (names_iterationDirectory u d i).2 hreached ordinary_iterationsName (ordinary_iterationName i)
    (by decide) (Nat.le_trans (short_iterationName i).size (by decide)) ?_ ?_
  · intro c hc
    cases haround.symm.trans hc
  · intro c hc
    cases hgone.symm.trans hc

/-- What could be made anew can be made anew once more. -/
theorem Remakes.again (h : Remakes (d.iterationDirectory i) s (.ok ()) t) (htree : s.IsTree)
    (hroot : s.pathExists d.root = true)
    (hu : t.removeAll (d.iterationDirectory i) = (.ok (), u)) :
    (u.createAll (d.iterationDirectory i)).1 = .ok () := by
  have hblank := h.blank htree hroot
  cases h with
  | made hmissing hmade =>
      -- the way to the root does not lead through what was not there
      have hnone := entry?_of_made htree hroot hmissing hmade
      have hgrows := createAll_grows_iteration htree hroot i
      refine hblank.again hu fun a b hab hplace => ?_
      rw [hgrows.start, locate_of_workingDirectory hgrows.workingDirectory] at hplace
      rw [← hplace] at hnone
      exact htree.exists_of_way hroot hab hnone
  | @remade v _ hv hmade =>
      -- the same is left after both removals
      have hgrows := createAll_grows_removed hv
      have hlocate := locate_of_workingDirectory (workingDirectory_removeAll hv)
        (d.iterationDirectory i)
      have hlocate' := locate_of_workingDirectory hgrows.workingDirectory (d.iterationDirectory i)
      have halike : Alike v u := by
        refine ⟨(workingDirectory_removeAll hu).trans hgrows.workingDirectory, fun m => ?_⟩
        rw [entry?_removeAll hu, hlocate', hlocate]
        split
        · rename_i hin
          rw [entry?_removeAll hv, if_pos hin]
        · rename_i hout
          rcases hgrows.entry m with hsame | ⟨hplace, -⟩
          · exact hsame
          · exact absurd (.inl hplace) hout
      rw [(faithful_createAll _ v u halike).1]
      exact hmade

/-- Making the directory of an iteration once more succeeds, and leaves the same. -/
theorem Blank.remakes (h : Blank d i t) (h' : Remakes (d.iterationDirectory i) t o s)
    (hagain : ∀ u, t.removeAll (d.iterationDirectory i) = (.ok (), u) →
      (u.createAll (d.iterationDirectory i)).1 = .ok ()) :
    o = .ok () ∧ ∀ m, s.entry? m = t.entry? m := by
  have hexists := pathExists_of_find h.find
  cases h' with
  | made hmissing | unmade hmissing => exact nomatch hexists.symm.trans hmissing
  | unremoved _ hfailed => exact nomatch h.removed.symm.trans hfailed
  | unremade _ hu hfailed => exact nomatch (hagain _ hu).symm.trans hfailed
  | @remade u _ hu hmade =>
      refine ⟨rfl, fun m => ?_⟩
      have hlocate := locate_of_workingDirectory (workingDirectory_removeAll hu)
        (d.iterationDirectory i)
      by_cases hm : m = t.locate (d.iterationDirectory i)
      · rw [hm, h.there, ← hlocate]
        exact entry?_createAll hmade (nonempty_iterationDirectory d i)
      · rcases (createAll_grows_removed hu).entry m with hsame | ⟨hplace, -⟩
        · rw [hsame, entry?_removeAll hu]
          split
          · rename_i hin
            exact (h.below m (hin.resolve_left hm)).symm
          · rfl
        · exact absurd hplace hm

end Remakes

/-- Making the directory of an iteration touches nothing else. In a tree with the root in it, all
that is not in that directory stays as it is whether it can be made or not, but for a missing
directory around those of the iterations, which may have been made. Where it can be made it is there
and empty, and making it once more succeeds and leaves the same. The directories of all other
iterations stay, with all that they hold. -/
theorem createIteration_frame (d : OutputDirectory) (i : IterationIndex) (j : FileJournal)
    (htree : j.files.IsTree) (hroot : j.files.pathExists d.root = true) :
    let around := j.files.locate d.root ++ [iterationsName]
    let place := fun k => around ++ [iterationName k]
    let after := (d.createIteration i).run.run j
    (∀ m, m ≠ place i → isBelow m (place i) = false →
      after.2.files.entry? m = j.files.entry? m ∨
        m = around ∧ j.files.entry? m = none ∧ after.2.files.entry? m = some .directory) ∧
    (after.1 = .ok () →
      after.2.files.isDirectory (d.iterationDirectory i) = true ∧
      after.2.files.entry? around = some .directory ∧
      after.2.files.entry? (place i) = some .directory ∧
      (∀ m, isBelow m (place i) = true → after.2.files.entry? m = none) ∧
      let again := (d.createIteration i).run.run after.2
      again.1 = .ok () ∧ ∀ m, again.2.files.entry? m = after.2.files.entry? m) ∧
    (∀ k, k ≠ i → ∀ m, m = place k ∨ isBelow m (place k) = true →
      after.2.files.entry? m = j.files.entry? m) := by
  intro around place after
  have hplace : ∀ k, place k = j.files.locate (d.iterationDirectory k) := by
    intro k
    rw [locate_iterationDirectory]
    exact List.append_assoc _ _ _
  have hways : Remakes (d.iterationDirectory i) j.files after.1 after.2.files :=
    remakes_createIteration d i j
  refine ⟨fun m hm hout => ?_, fun hok => ?_, fun k hk m hm => ?_⟩
  · rw [hplace] at hm hout
    exact hways.frame htree hroot hm hout
  · rw [hok] at hways
    have hblank := hways.blank htree hroot
    have hlocate := locate_of_workingDirectory hways.workingDirectory
    have hagain : Remakes (d.iterationDirectory i) after.2.files _ _ :=
      remakes_createIteration d i after.2
    refine ⟨(isDirectory_iff _ _).mpr hblank.find, ?_, ?_, fun m hm => ?_,
      hblank.remakes hagain fun u hu => hways.again htree hroot hu⟩
    · rw [← hblank.around, hlocate]
    · rw [hplace, ← hlocate]
      exact hblank.there
    · rw [hplace, ← hlocate] at hm
      exact hblank.below m hm
  · rw [hplace] at hm
    obtain ⟨hne, hout, haround⟩ := apart_iterations hk hm
    rcases hways.frame htree hroot hne hout with hsame | ⟨heq, -⟩
    · exact hsame
    · exact absurd heq haround

/-- The first of eleven iterations is made anew, and the last one keeps its file. -/
theorem createIteration_frame_first_of_eleven :
    let d : OutputDirectory := { root := "out" }
    let files : FileSystem :=
      { entries := [(["out"], .directory), (["out", "ITERS"], .directory),
          (["out", "ITERS", "it.1"], .directory), (["out", "ITERS", "it.1", "old"], .file ⟨#[1]⟩),
          (["out", "ITERS", "it.10"], .directory),
          (["out", "ITERS", "it.10", "kept"], .file ⟨#[2]⟩)] }
    files.IsTree ∧ files.pathExists d.root = true ∧
      ((d.createIteration 1).run.run { files := files }).1 = .ok () ∧
      ((d.createIteration 1).run.run { files := files }).2.files.entry?
        ["out", "ITERS", "it.1", "old"] = none ∧
      ((d.createIteration 1).run.run { files := files }).2.files.entry?
        ["out", "ITERS", "it.10", "kept"] = some (.file ⟨#[2]⟩) := by
  intro d files
  have htree : files.IsTree := by decide
  have hroot : files.pathExists d.root = true := by decide +kernel
  have hok : ((d.createIteration 1).run.run { files := files }).1 = .ok () := by decide +kernel
  obtain ⟨-, hmade, hothers⟩ := createIteration_frame d 1 { files := files } htree hroot
  refine ⟨htree, hroot, hok, ?_, ?_⟩
  · exact (hmade hok).2.2.2.1 _ (by decide +kernel)
  · exact hothers 10 (by decide) ["out", "ITERS", "it.10", "kept"] (.inr (by decide +kernel))

end OutputDirectory

end CommuteSim
