import CommuteSim.Proofs.Output.Directory

/-!
# Operations and the contents of files

No operation that makes or removes entries looks into a file. So it makes no difference whether the
contents of all files are changed before such an operation or after it.

Main statements: `write_withContents` and `createAll_withContents`; `blind_createIteration` for the
directory of an iteration.
-/

namespace CommuteSim

variable {g : ByteArray → ByteArray}

/-- An entry with another content, if it has one. -/
def FileEntry.withContents (g : ByteArray → ByteArray) : FileEntry → FileEntry
  | .directory => .directory
  | .file c => .file (g c)

namespace FileSystem

/-- A file system with other contents of its files. -/
def withContents (g : ByteArray → ByteArray) (s : FileSystem) : FileSystem :=
  { s with entries := s.entries.map fun e => (e.1, e.2.withContents g) }

variable {s : FileSystem} {l : Location}

/-! ## Entries -/

theorem entry?_withContents (s : FileSystem) (l : Location) :
    entry? (s.withContents g) l = (s.entry? l).map (FileEntry.withContents g) := by
  by_cases hl : l = []
  · subst hl
    rfl
  · rw [entry?_of_ne_nil hl, entry?_of_ne_nil hl, withContents]
    induction s.entries with
    | nil => rfl
    | cons e rest ih =>
        rw [List.map_cons, List.lookup_cons, List.lookup_cons, ih]
        cases l == e.1 <;> rfl

theorem put_withContents (s : FileSystem) (l : Location) (e : FileEntry) :
    (s.put l e).withContents g = (s.withContents g).put l (e.withContents g) := by
  simp only [put, withContents, List.map_cons, List.filter_map]
  rfl

theorem clear_withContents (s : FileSystem) (l : Location) :
    (s.clear l).withContents g = (s.withContents g).clear l := by
  simp only [clear, withContents, List.filter_map]
  rfl

theorem drop_withContents (s : FileSystem) (l : Location) :
    (s.drop l).withContents g = (s.withContents g).drop l := by
  simp only [drop, withContents, List.filter_map]
  rfl

/-! ## Following paths -/

/-- Paths are followed through directories. By induction on the names of the path. -/
theorem walk_withContents (s : FileSystem) (here : Location) (names : List String) :
    (s.withContents g).walk here names = s.walk here names := by
  induction names generalizing here with
  | nil =>
      rw [walk, walk, entry?_withContents]
      rcases s.entry? here with - | - | - <;> rfl
  | cons name rest ih =>
      rw [walk, walk, entry?_withContents, ih, ih, ih]
      rcases s.entry? here with - | - | - <;> rfl

theorem approach_withContents (s : FileSystem) (p : PathParts) :
    (s.withContents g).approach p = s.approach p := by
  unfold approach
  rw [walk_withContents]
  rfl

theorem find_withContents (s : FileSystem) (path : String) :
    (s.withContents g).find path =
      (s.find path).map fun e => (e.1, e.2.withContents g) := by
  unfold find
  cases checked path with
  | error e => rfl
  | ok p =>
      dsimp only [bind, Except.bind]
      rw [approach_withContents]
      cases s.approach p with
      | error e => rfl
      | ok step =>
          cases step with
          | name d n =>
              dsimp only
              rw [entry?_withContents]
              rcases s.entry? (d ++ [n]) with - | - | c
              · rfl
              · rfl
              · dsimp only [Option.map_some, FileEntry.withContents]
                cases p.trailingSlash <;> rfl
          | here d => rfl
          | up d => rfl
          | root => rfl

theorem pathExists_withContents (s : FileSystem) (path : String) :
    (s.withContents g).pathExists path = s.pathExists path := by
  unfold pathExists
  rw [find_withContents]
  cases s.find path <;> rfl

/-! ## Operations -/

theorem write_withContents (s : FileSystem) (path : String) (c : ByteArray) :
    (s.withContents g).write path (g c) = (s.write path c).map (withContents g) := by
  unfold write
  cases checked path with
  | error e => rfl
  | ok p =>
      dsimp only [bind, Except.bind]
      rw [approach_withContents]
      cases s.approach p with
      | error e => rfl
      | ok step =>
          cases step with
          | name d n =>
              dsimp only
              split
              · rfl
              · rw [entry?_withContents]
                rcases s.entry? (d ++ [n]) with - | - | -
                · exact congrArg Except.ok (put_withContents s _ (.file c)).symm
                · rfl
                · exact congrArg Except.ok (put_withContents s _ (.file c)).symm
          | here d => rfl
          | up d => rfl
          | root => rfl

theorem makeParts_withContents (s : FileSystem) (p : PathParts) :
    (s.withContents g).makeParts p = (s.makeParts p).map (withContents g) := by
  unfold makeParts
  rw [approach_withContents]
  cases s.approach p with
  | error e => rfl
  | ok step =>
      cases step with
      | name d n =>
          dsimp only [bind, Except.bind]
          rw [entry?_withContents, Option.isSome_map]
          split
          · rfl
          · exact congrArg Except.ok (put_withContents s _ .directory).symm
      | here d => rfl
      | up d => rfl
      | root => rfl

/-- An operation that does not look into files, and whose result does not depend on them. -/
def Blind (g : ByteArray → ByteArray) (operation : FileSystem → FileResult Unit × FileSystem) :
    Prop :=
  ∀ s, operation (s.withContents g) = ((operation s).1, (operation s).2.withContents g)

theorem blind_ensureParts {around : FileSystem → FileResult Unit × FileSystem}
    (h : Blind g around) (p : PathParts) : Blind g (·.ensureParts p around) := by
  have hleads : ∀ t : FileSystem,
      (t.withContents g).partsLeadToDirectory p = t.partsLeadToDirectory p := by
    intro t
    unfold partsLeadToDirectory
    rw [walk_withContents]
    rfl
  have hsettle : ∀ (t : FileSystem) (e : OsError),
      (if (t.withContents g).partsLeadToDirectory p then (.ok (), t.withContents g)
        else (.error e, t.withContents g) : FileResult Unit × FileSystem) =
      ((if t.partsLeadToDirectory p then (.ok (), t) else (.error e, t) :
          FileResult Unit × FileSystem).1,
        (if t.partsLeadToDirectory p then (.ok (), t) else (.error e, t) :
          FileResult Unit × FileSystem).2.withContents g) := by
    intro t e
    rw [hleads]
    split <;> rfl
  intro s
  unfold ensureParts
  dsimp only
  rw [makeParts_withContents]
  cases s.makeParts p with
  | ok t => rfl
  | error e =>
      cases e with
      | notFound =>
          dsimp only [Except.map]
          rw [h s]
          rcases around s with ⟨- | -, t⟩
          · rfl
          · dsimp only
            rw [makeParts_withContents]
            cases t.makeParts p with
            | ok u => rfl
            | error e => exact hsettle t e
      | _ => exact hsettle s _

theorem blind_ensureNames (absolute : Bool) (names : List String) (count : Nat) :
    Blind g (ensureNames absolute names count) := by
  induction count with
  | zero => exact fun _ => rfl
  | succ count ih => exact blind_ensureParts ih _

theorem createAll_withContents (path : String) : Blind g (·.createAll path) := by
  intro s
  unfold createAll
  dsimp only
  split
  · rfl
  · cases checked path with
    | error e => rfl
    | ok p => exact blind_ensureParts (blind_ensureNames _ _ _) p s

theorem removeAll_withContents (path : String) : Blind g (·.removeAll path) := by
  intro s
  unfold removeAll
  dsimp only
  rw [find_withContents]
  cases s.find path with
  | error e => rfl
  | ok found =>
      obtain ⟨l, - | c⟩ := found
      · dsimp only [Except.map, FileEntry.withContents]
        rw [← clear_withContents]
        cases checked path with
        | error e => rfl
        | ok p =>
            dsimp only [bind, Except.bind]
            rw [approach_withContents]
            cases (s.clear l).approach p with
            | error e => rfl
            | ok step =>
                cases step with
                | name d n => exact congrArg (Prod.mk _) (drop_withContents _ _).symm
                | _ => rfl
      · rfl

end FileSystem

/-! ## Work -/

namespace FileWork

/-- A journal with other contents of the files. -/
def withContents (g : ByteArray → ByteArray) (j : FileJournal) : FileJournal :=
  { j with files := j.files.withContents g }

/-- Work that does not look into files. -/
def Blind {α : Type} (g : ByteArray → ByteArray) (work : FileWork α) : Prop :=
  ∀ j, work.run.run (withContents g j) = ((work.run.run j).1, withContents g (work.run.run j).2)

variable {α β : Type}

theorem blind_bind {work : FileWork α} {next : α → FileWork β} (h : Blind g work)
    (h' : ∀ a, Blind g (next a)) : Blind g (work >>= next) := by
  intro j
  have hwork : work.run (withContents g j) = ((work.run j).1, withContents g (work.run j).2) := h j
  rw [StateT.run, run_bind_except, StateT.run, run_bind_except, hwork]
  cases (work.run j).1 with
  | ok a => exact h' a _
  | error f => rfl

theorem blind_say (level : LogLevel) (message : String) : Blind g (say level message) :=
  fun _ => rfl

theorem blind_attempt {path : String}
    {operation : FileSystem → FileSystem.FileResult Unit × FileSystem}
    (h : FileSystem.Blind g operation) : Blind g (attempt path operation) := by
  intro j
  rw [OutputDirectory.run_attempt, OutputDirectory.run_attempt, withContents, h]
  rfl

theorem blind_pathExists {path : String} {work other : FileWork α} (h : Blind g work)
    (h' : Blind g other) : Blind g (do
      if (← getThe FileJournal).files.pathExists path then work else other) := by
  have hgiven : ∀ j : FileJournal, (do
      if (← getThe FileJournal).files.pathExists path then work else other : FileWork α).run.run j =
        (if j.files.pathExists path then work else other).run.run j := fun _ => rfl
  intro j
  rw [hgiven, hgiven, withContents, FileSystem.pathExists_withContents]
  split
  · exact h j
  · exact h' j

/-- The directory of an iteration is made without a look into files. -/
theorem blind_createIteration (d : OutputDirectory) (i : IterationIndex) :
    Blind g (d.createIteration i) := by
  have hcreate : Blind g (attempt (d.iterationDirectory i)
      (·.createAll (d.iterationDirectory i))) :=
    blind_attempt (FileSystem.createAll_withContents _)
  refine blind_pathExists (blind_bind (blind_say _ _) fun _ => ?_) hcreate
  exact blind_bind (blind_attempt (FileSystem.removeAll_withContents _)) fun _ => hcreate

end FileWork

end CommuteSim
