import CommuteSim.Proofs.Commute.Situations
import CommuteSim.Proofs.Output.Provision

/-!
# Files that are delivered

A run writes its table of scores anew after every scoring, and the loads of routes once for every
iteration. All other files that it writes lie elsewhere, and so do the directories that it makes and
remakes. So at any time the table of scores is that of the last scoring, and the loads of every
iteration that was scored are there.

Main statements: `Accommodates.keeping` for what is kept by all that a run writes,
`Accommodates.delivers` for the results in the files, and `accommodates_provided` for output
directories that can be written.
-/

namespace CommuteSim

/-- What the table of scores holds. -/
def scoresContent (m : CommuteMemory) : ByteArray := (scoresText m.history).toUTF8

/-- What the loads of routes of an iteration hold. -/
def loadsContent (s : PopulationSettings) (m : CommuteMemory) : ByteArray :=
  (loadsText s.routes (m.population.loads s.routes.length)).toUTF8

/-- The table of the last scoring is there, and the loads of all iterations that were scored are if
iterations have directories. -/
structure Delivered (s : PopulationSettings) (k : Context)
    (l : List (IterationIndex × CommuteMemory)) (files : FileSystem) : Prop where
  scores : ∀ x ∈ l.getLast?,
    files.entry? (files.locate (k.output.file scoresFile)) = some (.file (scoresContent x.2))
  loads : k.configuration.controller.iterationDirectories = true → ∀ x ∈ l,
    files.entry? (files.locate (k.output.iterationFile x.1 loadsFile)) =
      some (.file (loadsContent s x.2))

section Delivered

variable {s : PopulationSettings} {k : Context} {wanted : IterationIndex → Prop} {F : FileCourse}
  {l : List (IterationIndex × CommuteMemory)} {f g : FileSystem} {i : IterationIndex}

theorem Delivered.retained (h : Delivered s k l f) {P : Location → Prop}
    (hg : FileSystem.Retains P f g) (hscores : l ≠ [] → P (f.locate (k.output.file scoresFile)))
    (hloads : k.configuration.controller.iterationDirectories = true →
      ∀ x ∈ l, P (f.locate (k.output.iterationFile x.1 loadsFile))) : Delivered s k l g := by
  have hlocate := FileSystem.locate_of_workingDirectory hg.workingDirectory
  constructor
  · intro x hx
    rw [hlocate]
    refine hg.file _ _ (hscores ?_) (h.scores x hx)
    rintro rfl
    cases hx
  · intro hdirectories x hx
    rw [hlocate]
    exact hg.file _ _ (hloads hdirectories x hx) (h.loads hdirectories x hx)

/-- Where the same was scored, the tables of scores hold the same. -/
theorem Delivered.scores_agree {s' : PopulationSettings} (hf : Delivered s k l f)
    (hg : Delivered s' k l g) (h : l ≠ []) :
    ∃ c, f.entry? (f.locate (k.output.file scoresFile)) = some (.file c) ∧
      g.entry? (g.locate (k.output.file scoresFile)) = some (.file c) := by
  have hlast := List.getLast?_eq_some_getLast h
  exact ⟨_, hf.scores _ hlast, hg.scores _ hlast⟩

/-- Where the same was scored on the same routes, the loads of routes are the same. -/
theorem Delivered.loads_agree {s' : PopulationSettings} {m : CommuteMemory} (hf : Delivered s k l f)
    (hg : Delivered s' k l g) (hroutes : s'.routes = s.routes)
    (hdirectories : k.configuration.controller.iterationDirectories = true) (h : (i, m) ∈ l) :
    ∃ c, f.entry? (f.locate (k.output.iterationFile i loadsFile)) = some (.file c) ∧
      g.entry? (g.locate (k.output.iterationFile i loadsFile)) = some (.file c) := by
  have hsame : loadsContent s' m = loadsContent s m := by
    rw [loadsContent, loadsContent, hroutes]
  have hleft := hf.loads hdirectories (i, m) h
  have hright := hg.loads hdirectories (i, m) h
  exact ⟨loadsContent s m, hleft, hsame ▸ hright⟩

/-! ## Where the files lie -/

section Places

variable (hid : ∀ id ∈ k.output.runId, '/' ∉ id.toList)
include hid

theorem locate_scores (f : FileSystem) :
    f.locate (k.output.file scoresFile) =
      f.locate k.output.root ++ [k.output.named scoresFile] :=
  OutputDirectory.locate_file f hid ⟨by decide, by decide⟩ (by decide)

theorem locate_loads (f : FileSystem) (i : IterationIndex) :
    f.locate (k.output.iterationFile i loadsFile) = f.locate k.output.root ++
      [OutputDirectory.iterationsName, OutputDirectory.iterationName i,
        k.output.named (toString i ++ "." ++ loadsFile)] :=
  OutputDirectory.locate_iterationFile f hid i ⟨by decide, by decide⟩

theorem scores_ne_loads (f : FileSystem) (i : IterationIndex) :
    f.locate (k.output.file scoresFile) ≠ f.locate (k.output.iterationFile i loadsFile) := by
  rw [locate_scores hid, locate_loads hid]
  intro h
  exact absurd (congrArg List.length (List.append_cancel_left h)) (by simp)

theorem loads_ne_loads (f : FileSystem) {i j : IterationIndex} (hij : j ≠ i) :
    f.locate (k.output.iterationFile j loadsFile) ≠
      f.locate (k.output.iterationFile i loadsFile) := by
  rw [locate_loads hid, locate_loads hid]
  intro h
  have hnames := List.append_cancel_left h
  simp only [List.cons.injEq] at hnames
  exact hij (OutputDirectory.iterationName_injective hnames.2.1)

/-- The files of operation times lie beside the table of scores. -/
theorem times_apart {name : String} (h : name ∈ Controller.timesFiles k.configuration)
    (f : FileSystem) (i : IterationIndex) :
    f.locate (k.output.file scoresFile) ≠ f.locate (k.output.file name) ∧
      f.locate (k.output.iterationFile i loadsFile) ≠ f.locate (k.output.file name) := by
  have hname : name = Controller.reportFile ∨ name = Controller.chartFile := by
    rcases List.mem_cons.mp h with rfl | h
    · exact .inl rfl
    · split at h
      · exact .inr (List.mem_singleton.mp h)
      · cases h
  have hfacts : IsName name ∧ 2 < name.length ∧ scoresFile ≠ name := by
    rcases hname with rfl | rfl
    · exact ⟨⟨by decide, by decide⟩, by decide, by decide⟩
    · exact ⟨⟨by decide, by decide⟩, by decide, by decide⟩
  obtain ⟨hisName, hlong, hne⟩ := hfacts
  rw [locate_scores hid, locate_loads hid, OutputDirectory.locate_file f hid hisName hlong]
  constructor
  · intro h
    have hnames := List.append_cancel_left h
    simp only [List.cons.injEq, and_true] at hnames
    exact hne (k.output.named_injective hnames)
  · intro h
    exact absurd (congrArg List.length (List.append_cancel_left h)) (by simp)

/-- The directory of an iteration is made apart from what other iterations and the run have
written. -/
theorem retains_createIteration {j : FileJournal}
    (h : (k.output.createIteration i).run.run { files := f } = (.ok (), j)) :
    FileSystem.Retains (fun l => l = f.locate (k.output.file scoresFile) ∨
      ∃ i', i' ≠ i ∧ l = f.locate (k.output.iterationFile i' loadsFile)) f j.files := by
  have hends := OutputDirectory.ends_createIteration (d := k.output) (i := i) (f := f)
    (P := fun l => l = f.locate (k.output.file scoresFile) ∨
      ∃ i', i' ≠ i ∧ l = f.locate (k.output.iterationFile i' loadsFile)) ?_
  · have hretains := hends { files := f } (.refl _ f) () (by rw [h])
    rwa [h] at hretains
  · rw [OutputDirectory.locate_iterationDirectory]
    -- the directory and all below it begin with its two names
    have hbegins : ∀ l, (l = f.locate k.output.root ++
          [OutputDirectory.iterationsName, OutputDirectory.iterationName i] ∨
        FileSystem.isBelow l (f.locate k.output.root ++
          [OutputDirectory.iterationsName, OutputDirectory.iterationName i]) = true) →
        ∃ rest, l = f.locate k.output.root ++
          (OutputDirectory.iterationsName :: OutputDirectory.iterationName i :: rest) := by
      rintro l (rfl | hbelow)
      · exact ⟨[], rfl⟩
      · obtain ⟨rest, -, rfl⟩ := FileSystem.isBelow_iff.mp hbelow
        exact ⟨rest, by simp⟩
    suffices hapart : ∀ l, (l = f.locate (k.output.file scoresFile) ∨
        ∃ i', i' ≠ i ∧ l = f.locate (k.output.iterationFile i' loadsFile)) → ∀ rest,
        l ≠ f.locate k.output.root ++
          (OutputDirectory.iterationsName :: OutputDirectory.iterationName i :: rest) by
      intro l hl
      refine ⟨fun h => ?_, Bool.eq_false_iff.mpr fun h => ?_⟩
      · obtain ⟨rest, hrest⟩ := hbegins l (.inl h)
        exact hapart l hl rest hrest
      · obtain ⟨rest, hrest⟩ := hbegins l (.inr h)
        exact hapart l hl rest hrest
    rintro l (rfl | ⟨i', hi', rfl⟩) rest
    · rw [locate_scores hid]
      intro h
      exact absurd (congrArg List.length (List.append_cancel_left h)) (by simp)
    · rw [locate_loads hid]
      intro h
      have hnames := List.append_cancel_left h
      simp only [List.cons.injEq] at hnames
      exact hi' (OutputDirectory.iterationName_injective hnames.2.1)

end Places

/-! ## Runs that are accommodated -/

/-- Where all files can be written, more can be said of them if all that a run writes keeps it. -/
theorem Accommodates.keeping (h : Accommodates s k wanted F)
    {D : List (IterationIndex × CommuteMemory) → FileSystem → Prop} (hdumps : ∀ f, D [] f)
    (hbegins : ∀ l i f (j : FileJournal), (∀ x ∈ l, x.1 ≠ i) → D l f →
      (k.output.createIteration i).run.run { files := f } = (.ok (), j) → D l j.files)
    (hscores : ∀ l i m f f' f'', (∀ x ∈ l, x.1 ≠ i) → D l f →
      f.writeText (k.output.file scoresFile) (scoresText m.history) = .ok f' →
      (if k.configuration.controller.iterationDirectories then
        f'.writeText (k.output.iterationFile i loadsFile)
          (loadsText s.routes (m.population.loads s.routes.length)) = .ok f''
      else f' = f'') → D (l ++ [(i, m)]) f'')
    (htimes : ∀ name ∈ Controller.timesFiles k.configuration, ∀ l f g text, D l f →
      f.writeText (k.output.file name) text = .ok g → D l g) :
    Accommodates s k wanted fun l o files => F l o files ∧ D l files where
  dumps := by
    intro files text hfiles
    obtain ⟨files', hwritten, hF⟩ := h.dumps files text hfiles.1
    exact ⟨files', hwritten, hF, hdumps files'⟩
  begins := by
    intro l o i files hi hnew hfiles
    have hbegun := h.begins l o i files hi hnew hfiles.1
    split at hbegun
    · rename_i hdirectories
      rw [if_pos hdirectories]
      obtain ⟨j, hj, hF⟩ := hbegun
      exact ⟨j, hj, hF, hbegins l i files j hnew hfiles.2 hj⟩
    · rename_i hdirectories
      rw [if_neg hdirectories]
      exact ⟨hbegun, hfiles.2⟩
  scores := by
    intro l i m files hi hnew hfiles
    obtain ⟨files', files'', hwritten, hloads, hF⟩ := h.scores l i m files hi hnew hfiles.1
    exact ⟨files', files'', hwritten, hloads, hF,
      hscores l i m files files' files'' hnew hfiles.2 hwritten hloads⟩
  times := fun name hname l o files files' text hfiles hwritten =>
    ⟨h.times name hname l o files files' text hfiles.1 hwritten,
      htimes name hname l files files' text hfiles.2 hwritten⟩

/-- Where all files can be written, the results of a run are delivered. -/
theorem Accommodates.delivers (h : Accommodates s k wanted F)
    (hid : ∀ id ∈ k.output.runId, '/' ∉ id.toList) :
    Accommodates s k wanted fun l o files => F l o files ∧ Delivered s k l files := by
  refine h.keeping (fun f => ⟨nofun, nofun⟩) ?_ ?_ ?_
  · intro l i f j hnew hD hj
    exact hD.retained (retains_createIteration hid hj) (fun _ => .inl rfl)
      fun _ x hx => .inr ⟨x.1, hnew x hx, rfl⟩
  · intro l i m f f' f'' hnew hD hscores hloads
    have hwrite := FileSystem.retains_write hscores
    have hlocate := FileSystem.locate_of_workingDirectory hwrite.workingDirectory
    have hscored : f'.entry? (f'.locate (k.output.file scoresFile)) =
        some (.file (scoresContent m)) := by
      rw [hlocate]
      exact FileSystem.entry?_write hscores
    by_cases hdirectories : k.configuration.controller.iterationDirectories = true
    · rw [if_pos hdirectories] at hloads
      have hwrite' := FileSystem.retains_write hloads
      have hlocate' := FileSystem.locate_of_workingDirectory hwrite'.workingDirectory
      constructor
      · intro x hx
        obtain rfl : (i, m) = x := by simpa using hx
        rw [hlocate']
        exact hwrite'.file _ _ (scores_ne_loads hid f' i) hscored
      · intro _ x hx
        rw [hlocate']
        rcases List.mem_append.mp hx with hx | hx
        · have hbefore := hD.loads hdirectories x hx
          rw [← hlocate] at hbefore
          refine hwrite'.file _ _ (loads_ne_loads hid f' (hnew x hx)) ?_
          refine hwrite.file _ _ ?_ hbefore
          rw [← hlocate]
          exact (scores_ne_loads hid f' x.1).symm
        · rw [List.mem_singleton.mp hx]
          exact FileSystem.entry?_write hloads
    · rw [if_neg hdirectories] at hloads
      subst hloads
      refine ⟨fun x hx => ?_, fun h => absurd h hdirectories⟩
      obtain rfl : (i, m) = x := by simpa using hx
      exact hscored
  · intro name hname l f g text hD hwritten
    exact hD.retained (FileSystem.retains_write hwritten)
      (fun _ => (times_apart hid hname f 0).1) fun _ x _ => (times_apart hid hname f x.1).2

/-! ## Output directories that can be written -/

/-- The files that a run writes into its root. -/
def rootFiles : List String :=
  [Controller.configurationFile, scoresFile, Controller.reportFile, Controller.chartFile]

theorem filename_rootFiles : ∀ name ∈ rootFiles, OutputDirectory.Filename name := by
  intro name hname
  simp only [rootFiles, List.mem_cons, List.not_mem_nil, or_false] at hname
  rcases hname with rfl | rfl | rfl | rfl <;>
    exact ⟨⟨by decide, by decide⟩, by decide, ⟨by decide, by decide, by decide⟩, by decide⟩

theorem filename_loadsFile : OutputDirectory.Filename loadsFile :=
  ⟨⟨by decide, by decide⟩, by decide, ⟨by decide, by decide, by decide⟩, by decide⟩

/-- The iteration whose directory was made last, if iterations have directories. -/
def Context.made (k : Context) (o : Option IterationIndex) : Option IterationIndex :=
  if k.configuration.controller.iterationDirectories then o else none

/-- The output directory of a run can be written. -/
def Context.Provided (k : Context) (o : Option IterationIndex) (files : FileSystem) : Prop :=
  OutputDirectory.Provided k.output rootFiles loadsFile (k.made o) files

/-- A run is accommodated whose output directory can be written, whatever iterations are wanted. -/
theorem accommodates_provided (s : PopulationSettings) {k : Context} (hd : k.output.Fit)
    (wanted : IterationIndex → Prop) : Accommodates s k wanted fun _ o => k.Provided o := by
  have hwrite : ∀ name ∈ rootFiles, ∀ text o files, k.Provided o files → ∃ files',
      files.writeText (k.output.file name) text = .ok files' ∧ k.Provided o files' :=
    fun name hname text o files h =>
      h.write hd filename_rootFiles filename_loadsFile hname text.toUTF8
  constructor
  · exact fun files text h => hwrite _ (by decide) text none files h
  · intro l o i files _ _ h
    split
    · rename_i hdirectories
      obtain ⟨j, hj, hmade⟩ := OutputDirectory.Provided.createIteration hd filename_rootFiles
        filename_loadsFile i { files := files } h
      refine ⟨j, hj, ?_⟩
      rw [Context.Provided, Context.made, if_pos hdirectories]
      exact hmade
    · rename_i hdirectories
      rw [Context.Provided, Context.made, if_neg hdirectories] at h ⊢
      exact h
  · intro l i m files _ _ h
    obtain ⟨files', hwritten, h'⟩ := hwrite scoresFile (by decide) (scoresText m.history) _ files h
    by_cases hdirectories : k.configuration.controller.iterationDirectories = true
    · rw [Context.Provided, Context.made, if_pos hdirectories] at h'
      obtain ⟨files'', hloads, h''⟩ := h'.writeOf hd filename_rootFiles filename_loadsFile
        (loadsText s.routes (m.population.loads s.routes.length)).toUTF8
      refine ⟨files', files'', hwritten, ?_, ?_⟩
      · rw [if_pos hdirectories]
        exact hloads
      · rw [Context.Provided, Context.made, if_pos hdirectories]
        exact h''
    · exact ⟨files', files', hwritten, by rw [if_neg hdirectories], h'⟩
  · intro name hname l o files files' text h hwritten
    have hroot : name ∈ rootFiles := by
      rcases List.mem_cons.mp hname with rfl | hname
      · decide
      · split at hname
        · rw [List.mem_singleton.mp hname]
          decide
        · cases hname
    obtain ⟨files'', hwritten', h'⟩ := hwrite name hroot text o files h
    obtain rfl : files'' = files' := Except.ok.inj (hwritten'.symm.trans hwritten)
    exact h'

end Delivered

end CommuteSim
