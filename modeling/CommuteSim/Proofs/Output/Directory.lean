import CommuteSim.Output.Directory
import CommuteSim.Proofs.Files.System
import CommuteSim.Proofs.World.Wander

/-!
# The subtree of an output directory

The root of an output directory is a path, and its names may lead through directories that lie
elsewhere. As long as all of them that do not lie below the root are there, the directory of an
iteration is made and remade below the root, and nothing is touched elsewhere. A file of the run
lies in the root unless the name of the run holds a slash.

Main statements: `confines_createIteration` and `write_keeps`; `locate_file` tells where a file of
the run is, and `locate_file_ne` that files with different names lie apart; `ends_prepare` that the
root of an output directory is there once it is ready.
-/

namespace CommuteSim

namespace FileSystem

/-! ## Where names below a root lead -/

/-- Every directory on the way to a root is there, unless it lies below that root itself. -/
def Rooted (root : String) (s : FileSystem) : Prop :=
  ∀ a b, (PathParts.ofText root).names = a ++ b →
    isBelow (follow (s.start (.ofText root)) a) (s.locate root) = true ∨
      s.entry? (follow (s.start (.ofText root)) a) = some .directory

/-- Nothing has changed but below a root and at locations of the kind `E`, and every directory that
does not lie below the root is still there. -/
structure Keeps (root : String) (E : Location → Prop) (s t : FileSystem) : Prop where
  changes : Changes (fun l => isBelow l (s.locate root) = true ∨ E l) s t
  directories : ∀ l, isBelow l (s.locate root) = false → s.entry? l = some .directory →
    t.entry? l = some .directory

section Rooted

variable {root name path : String} {E : Location → Prop} {s t u : FileSystem} {l : Location}

theorem rooted_of_leads (h : s.partsLeadToDirectory (.ofText root) = true) : Rooted root s := by
  intro a b hab
  obtain ⟨l, hwalk⟩ := walk_of_leads h
  exact .inr ((walk_ok hwalk).2 a b hab)

theorem locate_of_workingDirectory (h : t.workingDirectory = s.workingDirectory) (path : String) :
    t.locate path = s.locate path := by
  rw [locate, locate, start, start, h]

theorem Keeps.refl (root : String) (E : Location → Prop) (s : FileSystem) : Keeps root E s s :=
  ⟨.refl _ s, fun _ _ h => h⟩

theorem Keeps.locate (h : Keeps root E s t) (path : String) : t.locate path = s.locate path :=
  locate_of_workingDirectory h.changes.workingDirectory path

theorem Keeps.trans (h : Keeps root E s t) (h' : Keeps root E t u) : Keeps root E s u := by
  have hroot := h.locate root
  obtain ⟨hchanges, hdirectories⟩ := h'
  rw [hroot] at hchanges hdirectories
  exact ⟨h.changes.trans hchanges, fun l hl hs => hdirectories l hl (h.directories l hl hs)⟩

theorem Keeps.rooted (h : Keeps root E s t) (hs : Rooted root s) : Rooted root t := by
  intro a b hab
  rw [h.locate root, h.changes.start]
  rcases hs a b hab with hbelow | hdirectory
  · exact .inl hbelow
  · cases hb : isBelow (follow (s.start (.ofText root)) a) (s.locate root) with
    | true => exact .inl rfl
    | false => exact .inr (h.directories _ hb hdirectory)

/-- A file that is written is no directory on the way. -/
theorem write_keeps {content : ByteArray} (h : s.write path content = .ok t)
    (hE : E (s.locate path)) : Keeps root E s t := by
  obtain ⟨hchanges, hdirectories⟩ := write_changes h
  exact ⟨hchanges.mono fun l hl => .inr (hl ▸ hE), fun l _ hl => hdirectories l hl⟩

theorem follow_joinPath (s : FileSystem) (path : String) (h : IsName name) :
    s.start (.ofText (joinPath path name)) = s.start (.ofText path) ∧
      (PathParts.ofText (joinPath path name)).names = (PathParts.ofText path).names ++ [name] := by
  obtain ⟨hnames, habsolute⟩ := PathParts.ofText_joinPath path h
  exact ⟨by rw [start, start, habsolute], hnames⟩

/-- A name behind a path leads into what the path leads to. -/
theorem locate_joinPath (s : FileSystem) (path : String) (h : IsName name) (ho : Ordinary name) :
    s.locate (joinPath path name) = s.locate path ++ [name] := by
  obtain ⟨hstart, hnames⟩ := follow_joinPath s path h
  rw [locate, locate, hstart, hnames, follow_append]
  exact stepTo_of_ordinary ho

end Rooted

end FileSystem

namespace OutputDirectory

open FileSystem

section Locations

variable {root : String} {E : Location → Prop} {s : FileSystem} {d : OutputDirectory}
  {name : String} {i : IterationIndex}

/-! ## Where the files of a run lie -/

theorem isName_append {a b : String} (ha : '/' ∉ a.toList) (hb : IsName b) :
    IsName (a ++ "." ++ b) := by
  constructor
  · intro h
    have hlength := congrArg (fun t => t.toList.length) h
    simp at hlength
  · simp only [String.toList_append, List.mem_append]
    rintro ((h | h) | h)
    · exact ha h
    · exact absurd h (by decide)
    · exact hb.2 h

theorem isName_named (hid : ∀ id ∈ d.runId, '/' ∉ id.toList) (h : IsName name) :
    IsName (d.named name) := by
  unfold named
  cases hd : d.runId with
  | none => exact h
  | some id => exact isName_append (hid id hd) h

theorem ordinary_of_length {name : String} (h : 2 < name.length) : Ordinary name := by
  constructor
  · rintro rfl
    exact absurd h (by decide)
  · rintro rfl
    exact absurd h (by decide)

theorem ordinary_named (d : OutputDirectory) (h : 2 < name.length) : Ordinary (d.named name) := by
  refine ordinary_of_length (Nat.lt_of_lt_of_le h ?_)
  unfold named
  cases d.runId with
  | none => exact Nat.le_refl _
  | some id =>
      have hsplit : s!"{id}.{name}" = id ++ "." ++ name := rfl
      dsimp only
      rw [hsplit, String.length_append]
      exact Nat.le_add_left _ _

/-- Where the name of the run holds no slash, its files lie in the root. -/
theorem locate_file (s : FileSystem) (hid : ∀ id ∈ d.runId, '/' ∉ id.toList) (h : IsName name)
    (hlong : 2 < name.length) : s.locate (d.file name) = s.locate d.root ++ [d.named name] :=
  locate_joinPath s d.root (isName_named hid h) (ordinary_named d hlong)

/-- The name of the directory of an iteration. -/
def iterationName (i : IterationIndex) : String := s!"it.{i}"

theorem toList_index (i : IterationIndex) : (toString i).toList = Nat.toDigits 10 i.toNat :=
  String.toList_ofList

theorem slash_not_mem_index (i : IterationIndex) : '/' ∉ (toString i).toList := by
  rw [toList_index]
  intro h
  exact absurd (Nat.isDigit_of_mem_toDigits (by decide) (by decide) h) (by decide)

theorem isName_iterationName (i : IterationIndex) : IsName (iterationName i) := by
  constructor
  · intro h
    have hlength := congrArg (fun t => t.toList.length) h
    simp [iterationName, toString] at hlength
  · intro h
    have hsplit : (iterationName i).toList = "it.".toList ++ (toString i).toList :=
      String.toList_append
    rw [hsplit, List.mem_append] at h
    rcases h with h | h
    · exact absurd h (by decide)
    · exact slash_not_mem_index i h

theorem ordinary_iterationName (i : IterationIndex) : Ordinary (iterationName i) := by
  refine ordinary_of_length ?_
  have hsplit : iterationName i = "it." ++ toString i := rfl
  have hfirst : "it.".length = 3 := rfl
  rw [hsplit, String.length_append, hfirst]
  exact Nat.lt_of_lt_of_le (by decide) (Nat.le_add_right 3 _)

theorem isName_iterationsName : IsName iterationsName := ⟨by decide, by decide⟩

theorem ordinary_iterationsName : Ordinary iterationsName := ordinary_of_length (by decide)

/-- The names on the way to the directory of an iteration. -/
theorem names_iterationDirectory (s : FileSystem) (d : OutputDirectory) (i : IterationIndex) :
    s.start (.ofText (d.iterationDirectory i)) = s.start (.ofText d.root) ∧
      (PathParts.ofText (d.iterationDirectory i)).names =
        (PathParts.ofText d.root).names ++ [iterationsName, iterationName i] := by
  obtain ⟨hstart, hnames⟩ := follow_joinPath s d.root isName_iterationsName
  obtain ⟨hstart', hnames'⟩ := follow_joinPath s (joinPath d.root iterationsName)
    (isName_iterationName i)
  refine ⟨hstart'.trans hstart, ?_⟩
  rw [show d.iterationDirectory i = joinPath (joinPath d.root iterationsName) (iterationName i)
    from rfl, hnames', hnames, List.append_assoc]
  rfl

/-- The way to the directory of an iteration is that to the root, and two steps more. -/
theorem way_iterationDirectory (s : FileSystem) {a b : List String}
    (h : (PathParts.ofText (d.iterationDirectory i)).names = a ++ b) :
    (∃ c, (PathParts.ofText d.root).names = a ++ c) ∨
      follow (s.start (.ofText (d.iterationDirectory i))) a =
        s.locate d.root ++ [iterationsName] ∨
      follow (s.start (.ofText (d.iterationDirectory i))) a =
        s.locate d.root ++ [iterationsName, iterationName i] := by
  obtain ⟨hstart, hnames⟩ := names_iterationDirectory s d i
  have hroot : follow (s.start (.ofText d.root)) (PathParts.ofText d.root).names =
      s.locate d.root := rfl
  rw [hnames] at h
  rw [hstart]
  rcases List.append_eq_append_iff.mp h with ⟨c, rfl, hc⟩ | ⟨c, hc, -⟩
  · have hordinary : ∀ n ∈ c, Ordinary n := by
      intro n hn
      have hmem : n ∈ [iterationsName, iterationName i] := hc ▸ List.mem_append_left b hn
      rcases List.mem_cons.mp hmem with rfl | hmem
      · exact ordinary_iterationsName
      · rw [List.mem_singleton.mp hmem]
        exact ordinary_iterationName i
    rw [follow_append, hroot, follow_of_ordinary hordinary]
    match c, hc with
    | [], _ => exact .inl ⟨[], by simp⟩
    | [_], hc => exact .inr (.inl (by rw [(List.cons.inj hc).1]))
    | [_, _], hc =>
        refine .inr (.inr ?_)
        rw [(List.cons.inj hc).1, (List.cons.inj (List.cons.inj hc).2).1]
    | _ :: _ :: _ :: _, hc => exact nomatch (List.cons.inj (List.cons.inj hc).2).2
  · exact .inl ⟨c, hc⟩

theorem locate_iterationDirectory (s : FileSystem) (d : OutputDirectory) (i : IterationIndex) :
    s.locate (d.iterationDirectory i) = s.locate d.root ++ [iterationsName, iterationName i] := by
  have h := locate_joinPath s (joinPath d.root iterationsName) (isName_iterationName i)
    (ordinary_iterationName i)
  rw [locate_joinPath s d.root isName_iterationsName ordinary_iterationsName,
    List.append_assoc] at h
  exact h

/-! ## Where the files of an iteration lie -/

/-- Different files have different names. -/
theorem named_injective (d : OutputDirectory) {a b : String} (h : d.named a = d.named b) :
    a = b := by
  unfold named at h
  cases hd : d.runId with
  | none =>
      rw [hd] at h
      exact h
  | some id =>
      rw [hd] at h
      have hlist : (id ++ "." ++ a).toList = (id ++ "." ++ b).toList := congrArg String.toList h
      simp only [String.toList_append] at hlist
      exact String.toList_inj.mp (List.append_cancel_left hlist)

/-- Different iterations have directories of different names. -/
theorem iterationName_injective {i j : IterationIndex} (h : iterationName i = iterationName j) :
    i = j := by
  have hlist : ("it." ++ toString i).toList = ("it." ++ toString j).toList :=
    congrArg String.toList h
  simp only [String.toList_append] at hlist
  have hdigits := List.append_cancel_left hlist
  rw [toList_index, toList_index] at hdigits
  have hnat := congrArg (fun l => Nat.ofDigitChars 10 l 0) hdigits
  simp only [Nat.ofDigitChars_ten_toDigits] at hnat
  exact UInt32.toNat_inj.mp hnat

/-- The files of an iteration lie in its directory. -/
theorem locate_iterationFile (s : FileSystem) (hid : ∀ id ∈ d.runId, '/' ∉ id.toList)
    (i : IterationIndex) (h : IsName name) :
    s.locate (d.iterationFile i name) = s.locate d.root ++
      [iterationsName, iterationName i, d.named (toString i ++ "." ++ name)] := by
  have hlong : 2 < (toString i ++ "." ++ name).length := by
    have hindex : 0 < (toString i).length := by
      rw [← String.length_toList, toList_index]
      exact Nat.length_toDigits_pos
    have hname : 0 < name.length := by
      rw [← String.length_toList]
      exact List.length_pos_iff.mpr fun hnil => h.1 (String.toList_eq_nil_iff.mp hnil)
    rw [String.length_append, String.length_append]
    have hdot : ".".length = 1 := rfl
    omega
  have hfile := locate_joinPath s (d.iterationDirectory i)
    (isName_named hid (isName_append (slash_not_mem_index i) h)) (ordinary_named d hlong)
  rw [locate_iterationDirectory, List.append_assoc] at hfile
  exact hfile

/-! ## Making the directory of an iteration -/

/-- What stood there is removed, at its place below the root. -/
theorem removeAll_keeps (s : FileSystem) (d : OutputDirectory) (i : IterationIndex)
    (E : Location → Prop) : Keeps d.root E s (s.removeAll (d.iterationDirectory i)).2 := by
  have hchanges := removeAll_changes s (d.iterationDirectory i)
  rw [locate_iterationDirectory] at hchanges
  have hbelow : ∀ l, (l = s.locate d.root ++ [iterationsName, iterationName i] ∨
      isBelow l (s.locate d.root ++ [iterationsName, iterationName i]) = true) →
      isBelow l (s.locate d.root) = true := by
    rintro l (rfl | hl)
    · exact isBelow_append (List.cons_ne_nil _ _)
    · exact isBelow_trans hl (isBelow_append (List.cons_ne_nil _ _))
  refine ⟨hchanges.mono fun l hl => .inl (hbelow l hl), fun l hl hdirectory => ?_⟩
  rw [hchanges.entry l fun hin => Bool.eq_false_iff.mp hl (hbelow l hin)]
  exact hdirectory

/-- A directory that is made on the way lies below the root: one that does not is there already. -/
theorem createAll_keeps (hs : Rooted d.root s) (i : IterationIndex) (E : Location → Prop) :
    Keeps d.root E s (s.createAll (d.iterationDirectory i)).2 := by
  have hgrows := createAll_grows s (d.iterationDirectory i)
  have hstart := (names_iterationDirectory s d i).1
  have hbelow : ∀ l, (∃ a b, (PathParts.ofText (d.iterationDirectory i)).names = a ++ b ∧
      l = follow (s.start (.ofText (d.iterationDirectory i))) a) →
      s.entry? l = none → isBelow l (s.locate d.root) = true := by
    rintro l ⟨a, b, hab, rfl⟩ hnone
    rcases way_iterationDirectory s hab with ⟨c, hc⟩ | haround | hplace
    · rw [hstart] at hnone ⊢
      rcases hs a c hc with hb | hd
      · exact hb
      · rw [hd] at hnone
        cases hnone
    · rw [haround]
      exact isBelow_append (List.cons_ne_nil _ _)
    · rw [hplace]
      exact isBelow_append (List.cons_ne_nil _ _)
  constructor
  · refine ⟨hgrows.workingDirectory, fun l hl => ?_⟩
    rcases hgrows.entry l with hsame | ⟨hway, hnone, -⟩
    · exact hsame
    · exact absurd (.inl (hbelow l hway hnone)) hl
  · intro l _ hdirectory
    rcases hgrows.entry l with hsame | ⟨-, hnone, -⟩
    · exact hsame.trans hdirectory
    · rw [hdirectory] at hnone
      cases hnone

end Locations

/-! ## Work on the files -/

section Work

variable {α β : Type} {root : String} {E : Location → Prop}

/-- Work on files that touches nothing but what lies below a root. -/
def Confines (root : String) (E : Location → Prop) (work : FileWork α) : Prop :=
  ∀ j : FileJournal, Rooted root j.files → Keeps root E j.files (work.run.run j).2.files

theorem confines_bind {work : FileWork α} {next : α → FileWork β} (h : Confines root E work)
    (h' : ∀ a, Confines root E (next a)) : Confines root E (work >>= next) := by
  intro j hj
  have hwork := h j hj
  rw [StateT.run, run_bind_except]
  cases (work.run j).1 with
  | ok a => exact hwork.trans (h' a _ (hwork.rooted hj))
  | error f => exact hwork

/-- What an operation makes of the files stays, whether it succeeds or not. -/
theorem run_attempt (path : String)
    (operation : FileSystem → FileSystem.FileResult Unit × FileSystem) (j : FileJournal) :
    (FileWork.attempt path operation).run.run j =
      ((operation j.files).1.mapError (.refused path),
        { j with files := (operation j.files).2 }) := by
  have hgiven : ∀ given : FileSystem.FileResult Unit × FileSystem,
      (FileWork.attempt path fun _ => given).run.run j =
        (given.1.mapError (.refused path), { j with files := given.2 }) := by
    rintro ⟨result, files⟩
    cases result <;> rfl
  exact hgiven (operation j.files)

theorem confines_attempt {path : String}
    {operation : FileSystem → FileSystem.FileResult Unit × FileSystem}
    (h : ∀ s, Rooted root s → Keeps root E s (operation s).2) :
    Confines root E (FileWork.attempt path operation) := by
  intro j hj
  rw [run_attempt]
  exact h j.files hj

/-- Making the directory of an iteration touches nothing but what lies below the root. -/
theorem confines_createIteration (d : OutputDirectory) (i : IterationIndex) :
    Confines d.root E (d.createIteration i) := by
  have hcreate : Confines d.root E (FileWork.attempt (d.iterationDirectory i)
      (·.createAll (d.iterationDirectory i))) :=
    confines_attempt fun s hs => createAll_keeps hs i E
  refine confines_bind (fun j _ => .refl _ E j.files) fun j => ?_
  split
  · refine confines_bind (fun j _ => .refl _ E j.files) fun _ => ?_
    exact confines_bind (confines_attempt fun s _ => removeAll_keeps s d i E) fun _ => hcreate
  · exact hcreate

/-! ## Making the output directory -/

/-- Work on files as `P` tells leaves, where it succeeds, a value and files as `Q` tells. -/
def Ends (P : FileSystem → Prop) (work : FileWork α) (Q : α → FileSystem → Prop) : Prop :=
  ∀ j : FileJournal, P j.files → ∀ a, (work.run.run j).1 = .ok a → Q a (work.run.run j).2.files

theorem ends_bind {P : FileSystem → Prop} {Q : α → FileSystem → Prop} {R : β → FileSystem → Prop}
    {work : FileWork α} {next : α → FileWork β} (h : Ends P work Q)
    (h' : ∀ a, Ends (Q a) (next a) R) : Ends P (work >>= next) R := by
  intro j hj b hb
  have hwork := h j hj
  rw [StateT.run, run_bind_except] at hb ⊢
  cases hresult : (work.run j).1 with
  | ok a =>
      rw [hresult] at hb
      exact h' a _ (hwork a hresult) b hb
  | error e =>
      rw [hresult] at hb
      cases hb

theorem ends_any (P : FileSystem → Prop) (work : FileWork α) : Ends P work fun _ _ => True :=
  fun _ _ _ _ => trivial

theorem ends_attempt {path : String} {P : FileSystem → Prop}
    {operation : FileSystem → FileSystem.FileResult Unit × FileSystem}
    (h : ∀ s, P s → P (operation s).2) : Ends P (FileWork.attempt path operation) fun _ => P := by
  intro j hj _ _
  rw [run_attempt]
  exact h j.files hj

/-- A file that stands elsewhere stays when the directory of an iteration is made. -/
theorem ends_createIteration {d : OutputDirectory} {i : IterationIndex} {P : Location → Prop}
    {f : FileSystem}
    (hapart : ∀ l, P l → l ≠ f.locate (d.iterationDirectory i) ∧
      isBelow l (f.locate (d.iterationDirectory i)) = false) :
    Ends (Retains P f) (d.createIteration i) fun _ => Retains P f := by
  have hcreate : Ends (Retains P f) (FileWork.attempt (d.iterationDirectory i)
      (·.createAll (d.iterationDirectory i))) fun _ => Retains P f :=
    ends_attempt fun s hs => hs.grows (createAll_grows s (d.iterationDirectory i))
  have hremove : Ends (Retains P f) (FileWork.attempt (d.iterationDirectory i)
      (·.removeAll (d.iterationDirectory i))) fun _ => Retains P f := by
    refine ends_attempt fun s hs => hs.changes (removeAll_changes s (d.iterationDirectory i)) ?_
    intro l hl
    rw [locate_of_workingDirectory hs.workingDirectory]
    obtain ⟨hne, hbelow⟩ := hapart l hl
    exact fun h => h.elim hne (Bool.eq_false_iff.mp hbelow)
  refine ends_bind (Q := fun _ => Retains P f) (fun j hj _ _ => hj) fun j => ?_
  split
  · exact ends_bind (Q := fun _ => Retains P f) (fun j hj _ _ => hj) fun _ =>
      ends_bind hremove fun _ => hcreate
  · exact hcreate

/-- The root of an output directory is there. An empty text is no path. -/
def Made (root : String) (s : FileSystem) : Prop :=
  root ≠ "" → s.partsLeadToDirectory (.ofText root) = true

/-- Once the directories of a root are made, the root is there. -/
theorem ends_createAll (root : String) :
    Ends (fun _ => True) (FileWork.attempt root (·.createAll root)) fun _ => Made root := by
  intro j _ a ha hroot
  rw [run_attempt] at ha ⊢
  refine createAll_leads ?_ hroot
  cases hresult : (j.files.createAll root).1 with
  | ok _ => rfl
  | error e =>
      dsimp only at ha
      rw [hresult] at ha
      cases ha

/-- An output directory that is ready is where the settings say, and is there. -/
theorem ends_prepare (settings : ControllerSettings) :
    Ends (fun _ => True) (prepare settings) fun d files =>
      d = ⟨settings.outputDirectory, settings.runId⟩ ∧ Made d.root files := by
  have hsay : Ends (Made settings.outputDirectory) (FileWork.say .info "output directory ready")
      fun _ => Made settings.outputDirectory :=
    fun _ hmade _ _ => hmade
  have hreturn : Ends (Made settings.outputDirectory)
      (pure (⟨settings.outputDirectory, settings.runId⟩ : OutputDirectory)) fun d files =>
        d = ⟨settings.outputDirectory, settings.runId⟩ ∧ Made d.root files := by
    intro j hmade d hd
    cases hd
    exact ⟨rfl, hmade⟩
  have hrest := ends_bind (ends_createAll settings.outputDirectory) fun _ =>
    ends_bind hsay fun _ => hreturn
  refine ends_bind (ends_any _ _) fun j => ?_
  dsimp only
  split
  · exact ends_bind (ends_any _ _) fun _ => hrest
  · exact hrest

end Work

end OutputDirectory

end CommuteSim
