import CommuteSim.Proofs.Files.Tree
import CommuteSim.Proofs.Output.Directory

/-!
# What stands at the place of an output directory

An output directory is made ready in two steps: what stands at its root already is dealt with as the
overwrite policy tells, then the root is made with the directories around it. Each step can fail,
the second one halfway. Whatever happens, nothing is lost but what the policy allows to delete.

Main statement: `prepare_respects`.
-/

namespace CommuteSim

namespace OutputDirectory

open FileSystem

/-! ## The two steps -/

/-- The ways of dealing with what stands at the root. -/
inductive Settles (c : ControllerSettings) (s : FileSystem) :
    Except OutputFailure Unit → FileSystem → Prop where
  | absent : s.pathExists c.outputDirectory = false → Settles c s (.ok ()) s
  | free : c.overwritePolicy = .failIfDirectoryExists → s.list c.outputDirectory = .ok [] →
      Settles c s (.ok ()) s
  | occupied {name : String} {names : List String} :
      c.overwritePolicy = .failIfDirectoryExists →
      s.list c.outputDirectory = .ok (name :: names) →
      Settles c s (.error (.occupied c.outputDirectory)) s
  | unlisted {e : OsError} : c.overwritePolicy = .failIfDirectoryExists →
      s.list c.outputDirectory = .error e →
      Settles c s (.error (.refused c.outputDirectory e)) s
  | overwritten : c.overwritePolicy = .overwriteExistingFiles → Settles c s (.ok ()) s
  | removed : c.overwritePolicy = .deleteDirectoryIfExists →
      (s.removeAll c.outputDirectory).1 = .ok () →
      Settles c s (.ok ()) (s.removeAll c.outputDirectory).2
  | unremoved {e : OsError} : c.overwritePolicy = .deleteDirectoryIfExists →
      (s.removeAll c.outputDirectory).1 = .error e →
      Settles c s (.error (.refused c.outputDirectory e)) (s.removeAll c.outputDirectory).2

/-- The ways of making an output directory ready. -/
inductive Prepares (c : ControllerSettings) (s : FileSystem) :
    Except OutputFailure OutputDirectory → FileSystem → Prop where
  | stopped {f : OutputFailure} {t : FileSystem} : Settles c s (.error f) t →
      Prepares c s (.error f) t
  | failed {t : FileSystem} {e : OsError} : Settles c s (.ok ()) t →
      (t.createAll c.outputDirectory).1 = .error e →
      Prepares c s (.error (.refused c.outputDirectory e)) (t.createAll c.outputDirectory).2
  | ready {t : FileSystem} : Settles c s (.ok ()) t →
      (t.createAll c.outputDirectory).1 = .ok () →
      Prepares c s (.ok ⟨c.outputDirectory, c.runId⟩) (t.createAll c.outputDirectory).2

section Prepare

variable {c : ControllerSettings} {s t : FileSystem} {j : FileJournal}

/-- Work that looks at the journal first goes on with what it saw. -/
theorem run_getThe {α : Type} (work : FileJournal → FileWork α) (j : FileJournal) :
    (getThe FileJournal >>= work).run.run j = (work j).run.run j := rfl

theorem settles_clearRoot (c : ControllerSettings) (j : FileJournal) :
    Settles c j.files ((clearRoot c.overwritePolicy c.outputDirectory).run.run j).1
      ((clearRoot c.overwritePolicy c.outputDirectory).run.run j).2.files := by
  cases hpolicy : c.overwritePolicy with
  | failIfDirectoryExists =>
      unfold clearRoot
      dsimp only
      rw [run_getThe]
      cases hlist : j.files.list c.outputDirectory with
      | error e => exact .unlisted hpolicy hlist
      | ok names =>
          cases names with
          | nil => exact .free hpolicy hlist
          | cons name names => exact .occupied hpolicy hlist
  | overwriteExistingFiles => exact .overwritten hpolicy
  | deleteDirectoryIfExists =>
      have hrun : (clearRoot .deleteDirectoryIfExists c.outputDirectory).run.run j =
          (FileWork.attempt c.outputDirectory (·.removeAll c.outputDirectory)).run.run
            { j with lines := j.lines ++ [⟨.info, "deleting existing output directory"⟩] } := rfl
      rw [hrun, run_attempt]
      dsimp only
      cases hremoved : (j.files.removeAll c.outputDirectory).1 with
      | error e => exact .unremoved hpolicy hremoved
      | ok u => exact .removed hpolicy hremoved

theorem prepares_prepare (c : ControllerSettings) (j : FileJournal) :
    Prepares c j.files ((prepare c).run.run j).1 ((prepare c).run.run j).2.files := by
  let finish : FileWork OutputDirectory := do
    FileWork.attempt c.outputDirectory (·.createAll c.outputDirectory)
    FileWork.say .info "output directory ready"
    return { root := c.outputDirectory, runId := c.runId }
  have hfinish : ∀ k : FileJournal, Settles c j.files (.ok ()) k.files →
      Prepares c j.files (finish.run.run k).1 (finish.run.run k).2.files := by
    intro k hk
    have hmade : (FileWork.attempt c.outputDirectory (·.createAll c.outputDirectory)).run k = _ :=
      run_attempt c.outputDirectory (·.createAll c.outputDirectory) k
    rw [StateT.run, run_bind_except, hmade]
    cases hresult : (k.files.createAll c.outputDirectory).1 with
    | error e => exact .failed hk hresult
    | ok u => exact .ready hk hresult
  have hrun : (prepare c).run.run j =
      (if j.files.pathExists c.outputDirectory then do
        clearRoot c.overwritePolicy c.outputDirectory
        finish
      else finish : FileWork OutputDirectory).run.run j := rfl
  rw [hrun]
  split
  · have hcleared := settles_clearRoot c j
    rw [StateT.run, run_bind_except]
    change Settles c j.files ((clearRoot _ _).run j).1 ((clearRoot _ _).run j).2.files at hcleared
    cases hresult : ((clearRoot c.overwritePolicy c.outputDirectory).run j).1 with
    | error f =>
        rw [hresult] at hcleared
        exact .stopped hcleared
    | ok u =>
        rw [hresult] at hcleared
        exact hfinish _ hcleared
  · rename_i hmissing
    exact hfinish j (.absent (Bool.eq_false_iff.mpr hmissing))

/-! ## What is left -/

variable {o : Except OutputFailure Unit} {o' : Except OutputFailure OutputDirectory}
  {m : Location} {path : String}

theorem Settles.changes (h : Settles c s o t) :
    Changes (fun m => c.overwritePolicy = .deleteDirectoryIfExists ∧
      (m = s.locate c.outputDirectory ∨ isBelow m (s.locate c.outputDirectory) = true)) s t := by
  cases h with
  | absent | free | occupied | unlisted | overwritten => exact .refl _ s
  | removed hpolicy | unremoved hpolicy =>
      exact (removeAll_changes s c.outputDirectory).mono fun l hl => ⟨hpolicy, hl⟩

/-- What may not be deleted is there afterwards, whether the root can be made or not. -/
theorem Prepares.keeps (h : Prepares c s o' t) {e : FileEntry}
    (hm : c.overwritePolicy = .deleteDirectoryIfExists →
      m ≠ s.locate c.outputDirectory ∧ isBelow m (s.locate c.outputDirectory) = false)
    (hentry : s.entry? m = some e) : t.entry? m = some e := by
  have hkept : ∀ {o u}, Settles c s o u → u.entry? m = some e := by
    intro o u hu
    rw [hu.changes.entry m, hentry]
    rintro ⟨hpolicy, hplace⟩
    obtain ⟨hne, hout⟩ := hm hpolicy
    exact hplace.elim hne (Bool.eq_false_iff.mp hout)
  have hgrown : ∀ {u : FileSystem}, u.entry? m = some e →
      FileSystem.entry? (u.createAll c.outputDirectory).2 m = some e := by
    intro u hu
    rcases (createAll_grows u c.outputDirectory).entry m with hsame | ⟨-, hnone, -⟩
    · exact hsame.trans hu
    · cases hu.symm.trans hnone
  cases h with
  | stopped hsettled => exact hkept hsettled
  | failed hsettled | ready hsettled => exact hgrown (hkept hsettled)

/-- Where the root can be made, what stands below it is there on the policy to overwrite only. -/
theorem Settles.below (h : Settles c s (.ok ()) t) (htree : s.IsTree)
    (hpath : c.outputDirectory ≠ "") (hup : ".." ∉ (PathParts.ofText c.outputDirectory).names)
    (hmade : (t.createAll c.outputDirectory).1 = .ok ())
    (hm : isBelow m (s.locate c.outputDirectory) = true) :
    t.entry? m = if c.overwritePolicy = .overwriteExistingFiles then s.entry? m else none := by
  cases h with
  | absent hmissing =>
      have hnone := entry?_of_createAll hmade hpath hmissing fun hl a b hab =>
        htree.of_begins hl (way_begins hup hab)
      rw [htree.below (by rw [hnone]; exact nofun) hm, ite_self]
  | free hpolicy hlist =>
      obtain ⟨names, hnames, hempty⟩ := list_of_find (find_of_list hlist)
      obtain rfl : names = [] := Except.ok.inj (hnames.symm.trans hlist)
      rw [htree.below_of_empty (hempty.mp rfl) hm, ite_self]
  | overwritten hpolicy => rw [if_pos hpolicy]
  | removed hpolicy hremoved =>
      rw [entry?_removeAll (Prod.ext hremoved rfl), if_pos (.inr hm), hpolicy]
      rfl

/-- An output directory that is ready is there, and holds what the policy keeps. -/
theorem Prepares.holds {d : OutputDirectory} (h : Prepares c s (.ok d) t) (htree : s.IsTree)
    (hpath : c.outputDirectory ≠ "")
    (hup : ".." ∉ (PathParts.ofText c.outputDirectory).names) :
    t.isDirectory c.outputDirectory = true ∧
      ∀ m, isBelow m (s.locate c.outputDirectory) = true →
        t.entry? m = if c.overwritePolicy = .overwriteExistingFiles then s.entry? m else none := by
  cases h with
  | @ready u hsettled hmade =>
      have hlocate := locate_of_workingDirectory hsettled.changes.workingDirectory c.outputDirectory
      have hgrows := createAll_grows_above (s := u) hup
      refine ⟨?_, fun m hm => ?_⟩
      · rw [isDirectory_iff, find_createAll hmade hpath,
          locate_of_workingDirectory hgrows.workingDirectory]
      · rw [← hsettled.below htree hpath hup hmade hm]
        rcases hgrows.entry m with hsame | ⟨habove, -⟩
        · exact hsame
        · rw [hlocate] at habove
          rw [not_isBelow_of_begins habove] at hm
          cases hm

/-- A directory that holds something already is refused. -/
theorem Settles.refuses (h : Settles c s o t)
    (hpolicy : c.overwritePolicy = .failIfDirectoryExists)
    (hdirectory : s.isDirectory c.outputDirectory = true) {name : String}
    (hname : s.entry? (s.locate c.outputDirectory ++ [name]) ≠ none) :
    o = .error (.occupied c.outputDirectory) := by
  have hfind := (isDirectory_iff s _).mp hdirectory
  obtain ⟨names, hlist, hempty⟩ := list_of_find hfind
  cases h with
  | occupied => rfl
  | absent hmissing =>
      rw [pathExists_of_find hfind] at hmissing
      cases hmissing
  | free _ hnone =>
      obtain rfl : names = [] := Except.ok.inj (hlist.symm.trans hnone)
      exact absurd (hempty.mp rfl name) hname
  | unlisted _ hfailed => cases hlist.symm.trans hfailed
  | overwritten hother | removed hother | unremoved hother => cases hpolicy.symm.trans hother

/-- The root is refused for what it holds just where it is a directory that holds something and
nothing may be overwritten. -/
theorem Prepares.occupied_iff (h : Prepares c s o' t) :
    o' = .error (.occupied path) ↔ path = c.outputDirectory ∧
      c.overwritePolicy = .failIfDirectoryExists ∧ s.isDirectory c.outputDirectory = true ∧
        ∃ name, s.entry? (s.locate c.outputDirectory ++ [name]) ≠ none := by
  constructor
  · rintro rfl
    cases h with
    | stopped hsettled =>
        cases hsettled with
        | occupied hpolicy hlist =>
            have hfind := find_of_list hlist
            obtain ⟨names, hnames, hempty⟩ := list_of_find hfind
            obtain rfl := Except.ok.inj (hnames.symm.trans hlist)
            refine ⟨rfl, hpolicy, (isDirectory_iff s _).mpr hfind, ?_⟩
            exact not_forall.mp fun hnone => nomatch hempty.mpr hnone
  · rintro ⟨rfl, hpolicy, hdirectory, name, hname⟩
    cases h with
    | stopped hsettled =>
        rw [Except.error.inj (hsettled.refuses hpolicy hdirectory hname)]
    | failed hsettled => cases hsettled.refuses hpolicy hdirectory hname
    | ready hsettled => cases hsettled.refuses hpolicy hdirectory hname

/-- A root that is refused for what it holds is left alone. -/
theorem Prepares.of_occupied (h : Prepares c s (.error (.occupied path)) t) : t = s := by
  cases h with
  | stopped hsettled =>
      cases hsettled with
      | occupied => rfl

/-- Making an output directory ready respects the overwrite policy. In a tree, and for a path
without `..`, nothing is lost that may not be deleted, whatever happens; an output directory that is
ready is a directory, with all that it held where files are to be overwritten, and empty otherwise;
and it is refused for what it holds just where it is a directory that holds something and the policy
is to fail, with nothing changed. -/
theorem prepare_respects (c : ControllerSettings) (j : FileJournal) (htree : j.files.IsTree)
    (hpath : c.outputDirectory ≠ "")
    (hup : ".." ∉ (PathParts.ofText c.outputDirectory).names) :
    let place := j.files.locate c.outputDirectory
    let result := ((prepare c).run.run j).1
    let after := ((prepare c).run.run j).2.files
    (∀ m e, (c.overwritePolicy = .deleteDirectoryIfExists → m ≠ place ∧ isBelow m place = false) →
      j.files.entry? m = some e → after.entry? m = some e) ∧
    (∀ d, result = .ok d → after.isDirectory c.outputDirectory = true ∧
      ∀ m, isBelow m place = true → after.entry? m =
        if c.overwritePolicy = .overwriteExistingFiles then j.files.entry? m else none) ∧
    (∀ path, result = .error (.occupied path) ↔ path = c.outputDirectory ∧
      c.overwritePolicy = .failIfDirectoryExists ∧
        j.files.isDirectory c.outputDirectory = true ∧
          ∃ name, j.files.entry? (place ++ [name]) ≠ none) ∧
    (∀ path, result = .error (.occupied path) → after = j.files) := by
  intro place result after
  have hways : Prepares c j.files result after := prepares_prepare c j
  refine ⟨fun m e hm => hways.keeps hm, fun d hd => ?_, fun path => hways.occupied_iff,
    fun path hpath => ?_⟩
  · rw [hd] at hways
    exact hways.holds htree hpath hup
  · rw [hpath] at hways
    exact hways.of_occupied

/-- A directory with a file in it is refused and left alone. -/
theorem prepare_respects_kept_file :
    let c : ControllerSettings := { outputDirectory := "out" }
    let files : FileSystem :=
      { entries := [(["out"], .directory), (["out", "kept.csv"], .file ⟨#[104, 105]⟩)] }
    files.IsTree ∧ c.outputDirectory ≠ "" ∧
      ".." ∉ (PathParts.ofText c.outputDirectory).names ∧
      ((prepare c).run.run { files := files }).1 = .error (.occupied "out") ∧
      ((prepare c).run.run { files := files }).2.files = files := by
  intro c files
  have htree : files.IsTree := by decide
  have hpath : c.outputDirectory ≠ "" := by decide
  have hup : ".." ∉ (PathParts.ofText c.outputDirectory).names := by decide
  obtain ⟨-, -, hrefused, hsame⟩ := prepare_respects c { files := files } htree hpath hup
  have hoccupied := (hrefused "out").mpr
    ⟨rfl, rfl, by decide +kernel, "kept.csv", by decide +kernel⟩
  exact ⟨htree, hpath, hup, hoccupied, hsame "out" hoccupied⟩

end Prepare

end OutputDirectory

end CommuteSim
