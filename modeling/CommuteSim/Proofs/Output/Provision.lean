import CommuteSim.Proofs.Output.Directory
import Mathlib.Data.String.Basic

/-!
# Output directories that can be written

An operation on files fails where its path is too long or holds a NUL, or where something stands in
its way. Neither happens below a root that is there if the root and the name of the run are short,
and no directory stands where a file is to be written, and no file where a directory is to be made.
What a run writes keeps it so.

Main statements: `write_of_walk`, `createAll_of_walk` and `removeAll_of_walk` for operations that
succeed; `Provided.write`, `Provided.writeOf` and `Provided.createIteration` for those of a run.
-/

namespace CommuteSim

/-! ## Short texts -/

/-- A text that can be a part of a path, of at most this many bytes. -/
structure ShortText (n : Nat) (text : String) : Prop where
  nonempty : text ≠ ""
  clean : '\x00' ∉ text.toList
  size : text.utf8ByteSize ≤ n

section ShortText

variable {a b : String} {m n : Nat}

theorem ShortText.append (ha : ShortText m a) (hb : ShortText n b) :
    ShortText (m + n) (a ++ b) where
  nonempty := fun h => ha.nonempty (by simpa using (String.append_eq_empty_iff.mp h).1)
  clean := by
    rw [String.toList_append, List.mem_append]
    exact fun h => h.elim ha.clean hb.clean
  size := by
    rw [String.utf8ByteSize_append]
    exact Nat.add_le_add ha.size hb.size

theorem ShortText.mono (h : ShortText m a) (hmn : m ≤ n) : ShortText n a :=
  ⟨h.nonempty, h.clean, Nat.le_trans h.size hmn⟩

theorem ShortText.joinPath (ha : ShortText m a) (hb : ShortText n b) :
    ShortText (m + n + 1) (joinPath a b) := by
  unfold CommuteSim.joinPath
  split
  · exact hb.mono (by omega)
  · split
    · exact (ha.append hb).mono (by omega)
    · have hslash : ShortText 1 "/" := ⟨by decide, by decide, by decide⟩
      exact ((ha.append hslash).append hb).mono (by omega)

theorem utf8ByteSize_le (text : String) : text.utf8ByteSize ≤ 4 * text.length := by
  obtain ⟨cs, rfl⟩ : ∃ cs, text = String.ofList cs := ⟨text.toList, String.ofList_toList.symm⟩
  rw [String.utf8ByteSize_ofList, String.length_ofList]
  induction cs with
  | nil => exact Nat.zero_le _
  | cons c rest ih =>
      have hchar := Char.utf8Size_le_four c
      rw [String.utf8Len_cons, List.length_cons]
      omega

theorem short_index (i : IterationIndex) : ShortText 40 (toString i) where
  nonempty := fun h => by
    have hlist := congrArg String.toList h
    rw [OutputDirectory.toList_index] at hlist
    exact absurd (congrArg List.length hlist) (Nat.ne_of_gt Nat.length_toDigits_pos)
  clean := by
    rw [OutputDirectory.toList_index]
    intro h
    exact absurd (Nat.isDigit_of_mem_toDigits (by decide) (by decide) h) (by decide)
  size := by
    have hdigits : (Nat.toDigits 10 i.toNat).length ≤ 10 :=
      (Nat.length_toDigits_le_iff (by decide) (by decide)).mpr
        (Nat.lt_of_lt_of_le i.toNat_lt (by decide))
    have hsize := utf8ByteSize_le (toString i)
    rw [← String.length_toList, OutputDirectory.toList_index] at hsize
    omega

end ShortText

namespace FileSystem

/-! ## Operations that succeed -/

section Operations

variable {s t : FileSystem} {p : PathParts} {path n a b : String} {init names : List String}
  {here d l : Location} {size : Nat}

theorem checked_of_short (h : ShortText size path) (hsize : size < 4096) :
    checked path = .ok (.ofText path) := by
  have hclean : ¬ path.toList.contains '\x00' = true := by simpa using h.clean
  have hempty : ¬ path.isEmpty = true := fun he => h.nonempty (String.isEmpty_iff.mp he)
  have hshort : ¬ path.utf8ByteSize ≥ 4096 := Nat.not_le.mpr (Nat.lt_of_le_of_lt h.size hsize)
  rw [checked, if_neg hclean, if_neg hempty, if_neg hshort]

theorem walk_concat (h : s.walk here init = .ok d) (hn : Ordinary n) (hsize : n.utf8ByteSize ≤ 255)
    (hdirectory : s.entry? (d ++ [n]) = some .directory) :
    s.walk here (init ++ [n]) = .ok (d ++ [n]) := by
  have hd : s.entry? d = some .directory := by
    obtain ⟨rfl, hway⟩ := walk_ok h
    exact hway init [] (List.append_nil _).symm
  rw [walk_append h fun _ hm => hm, walk_cons hd (.inr (.inr hsize)), stepTo_of_ordinary hn, walk,
    hdirectory]

theorem walk_concat_of_none (h : s.walk here init = .ok d) (hn : Ordinary n)
    (hsize : n.utf8ByteSize ≤ 255) (hnone : s.entry? (d ++ [n]) = none) :
    s.walk here (init ++ [n]) = .error .notFound := by
  have hd : s.entry? d = some .directory := by
    obtain ⟨rfl, hway⟩ := walk_ok h
    exact hway init [] (List.append_nil _).symm
  rw [walk_append h fun _ hm => hm, walk_cons hd (.inr (.inr hsize)), stepTo_of_ordinary hn, walk,
    hnone]

theorem approach_of_names (hnames : p.names = init ++ [n]) (hn : Ordinary n)
    (hsize : n.utf8ByteSize ≤ 255) :
    s.approach p = (s.walk (s.start p) init).map fun d => .name d n := by
  unfold approach
  rw [hnames, List.getLast?_concat, List.dropLast_concat]
  dsimp only
  cases s.walk (s.start p) init with
  | error e => rfl
  | ok d =>
      change (if n = "." then _ else _) = _
      rw [if_neg hn.1, if_neg hn.2, if_neg (Nat.not_lt.mpr hsize)]
      rfl

/-- A file is written into a directory that is there, if no directory stands in its place. -/
theorem write_of_walk {content : ByteArray} (hchecked : checked path = .ok (.ofText path))
    (hslash : (PathParts.ofText path).trailingSlash = false)
    (hnames : (PathParts.ofText path).names = init ++ [n])
    (hwalk : s.walk (s.start (.ofText path)) init = .ok d) (hn : Ordinary n)
    (hsize : n.utf8ByteSize ≤ 255) (hfree : s.entry? (d ++ [n]) ≠ some .directory) :
    s.write path content = .ok (s.put (d ++ [n]) (.file content)) := by
  unfold write
  rw [hchecked]
  change (s.approach (.ofText path) >>= _) = _
  rw [approach_of_names hnames hn hsize, hwalk]
  change (if _ then _ else _) = _
  rw [hslash, if_neg Bool.false_ne_true]
  split
  · rename_i hdirectory
    exact absurd hdirectory hfree
  · rfl

/-- A directory can be made in one that is there, unless it is there already. -/
theorem makeParts_of_walk (hnames : p.names = init ++ [n])
    (hwalk : s.walk (s.start p) init = .ok d) (hn : Ordinary n) (hsize : n.utf8ByteSize ≤ 255)
    (hfree : ∀ c, s.entry? (d ++ [n]) ≠ some (.file c)) :
    (∃ t, s.makeParts p = .ok t) ∨
      (s.makeParts p = .error .alreadyExists ∧ s.partsLeadToDirectory p = true) := by
  have hmake : s.makeParts p = if (s.entry? (d ++ [n])).isSome then .error .alreadyExists
      else .ok (s.put (d ++ [n]) .directory) := by
    unfold makeParts
    rw [approach_of_names hnames hn hsize, hwalk]
    rfl
  rw [hmake]
  cases hentry : s.entry? (d ++ [n]) with
  | none => exact .inl ⟨_, rfl⟩
  | some e =>
      cases e with
      | file c => exact absurd hentry (hfree c)
      | directory =>
          refine .inr ⟨rfl, ?_⟩
          rw [partsLeadToDirectory, hnames, walk_concat hwalk hn hsize hentry]

theorem ensureParts_of_walk (hnames : p.names = init ++ [n])
    (hwalk : s.walk (s.start p) init = .ok d) (hn : Ordinary n) (hsize : n.utf8ByteSize ≤ 255)
    (hfree : ∀ c, s.entry? (d ++ [n]) ≠ some (.file c))
    (around : FileSystem → FileResult Unit × FileSystem) :
    (s.ensureParts p around).1 = .ok () := by
  unfold ensureParts
  rcases makeParts_of_walk hnames hwalk hn hsize hfree with ⟨t, hmade⟩ | ⟨hthere, hleads⟩
  · rw [hmade]
  · rw [hthere]
    dsimp only
    rw [if_pos hleads]

/-- Where the directory around it is missing, and can be made, a directory is made. -/
theorem ensureParts_of_missing {around : FileSystem → FileResult Unit × FileSystem}
    (hnames : p.names = init ++ [n]) (hn : Ordinary n) (hsize : n.utf8ByteSize ≤ 255)
    (hmissing : s.walk (s.start p) init = .error .notFound) (haround : around s = (.ok (), t))
    (hwalk : t.walk (t.start p) init = .ok d)
    (hfree : ∀ c, t.entry? (d ++ [n]) ≠ some (.file c)) :
    (s.ensureParts p around).1 = .ok () := by
  have hmake : s.makeParts p = .error .notFound := by
    unfold makeParts
    rw [approach_of_names hnames hn hsize, hmissing]
    rfl
  unfold ensureParts
  rw [hmake, haround]
  dsimp only
  rcases makeParts_of_walk hnames hwalk hn hsize hfree with ⟨u, hmade⟩ | ⟨hthere, hleads⟩
  · rw [hmade]
  · rw [hthere]
    dsimp only
    rw [if_pos hleads]

/-- Without its dots a path leads where it leads with them. -/
theorem walk_filter_dots (h : s.walk here names = .ok d) :
    s.walk here (names.filter (· ≠ ".")) = .ok d := by
  induction names generalizing here with
  | nil => exact h
  | cons name rest ih =>
      obtain ⟨hdirectory, hpassable, hrest⟩ := walk_cons_ok h
      by_cases hdot : name = "."
      · rw [stepTo, if_pos hdot] at hrest
        rw [List.filter_cons_of_neg (by simpa using hdot)]
        exact ih hrest
      · rw [List.filter_cons_of_pos (by simpa using hdot), walk_cons hdirectory hpassable]
        exact ih hrest

/-- The names at the end of a path stay when dots are dropped, and those before lead to the same. -/
theorem normal_append (hnames : p.names = names ++ [a, b]) (ha : Ordinary a) (hb : Ordinary b)
    (hwalk : s.walk here names = .ok d) :
    ∃ kept, p.normal.names = kept ++ [a, b] ∧ s.walk here kept = .ok d := by
  have hdotless : (names ++ [a, b]).filter (· ≠ ".") = names.filter (· ≠ ".") ++ [a, b] := by
    simp [ha.1, hb.1]
  unfold PathParts.normal
  dsimp only
  rw [hnames]
  split
  · rename_i rest hrest
    cases names with
    | nil => exact absurd (List.cons.inj hrest).1 ha.1
    | cons first names =>
        obtain ⟨rfl, rfl⟩ := List.cons.inj hrest
        obtain ⟨hdirectory, hpassable, hwalk'⟩ := walk_cons_ok hwalk
        have hkept := walk_filter_dots hwalk'
        refine ⟨(if p.absolute then [] else ["."]) ++ names.filter (· ≠ "."), ?_, ?_⟩
        · simp [ha.1, hb.1]
        · cases p.absolute with
          | true => exact hkept
          | false =>
              change s.walk here ("." :: names.filter _) = _
              rw [walk_cons hdirectory hpassable]
              exact hkept
  · exact ⟨_, hdotless, walk_filter_dots hwalk⟩

/-- The directory around the end of a path is made, if no file stands in its place. -/
theorem ensureNames_around (hnames : p.names = names ++ [a, b])
    (hwalk : s.walk (s.start p) names = .ok d) (ha : Ordinary a) (hb : Ordinary b)
    (hasize : a.utf8ByteSize ≤ 255) (hafree : ∀ c, s.entry? (d ++ [a]) ≠ some (.file c)) :
    ∃ t, ensureNames p.absolute p.normal.names (p.normal.names.length - 1) s = (.ok (), t) ∧
      Grows (fun _ => True) s t ∧ t.entry? (d ++ [a]) = some .directory := by
  obtain ⟨kept, hkept, hwalk'⟩ := normal_append hnames ha hb hwalk
  let q : PathParts := { absolute := p.absolute, names := kept ++ [a] }
  let around := ensureNames p.absolute p.normal.names (p.normal.names.length - 1)
  have hcount : p.normal.names.length - 1 = kept.length + 1 := by
    rw [hkept, List.length_append]
    rfl
  have htake : p.normal.names.take (kept.length + 1) = kept ++ [a] := by
    rw [hkept, show kept ++ [a, b] = (kept ++ [a]) ++ [b] by simp]
    exact List.take_left' (by simp)
  have haround :
      around s = s.ensureParts q (ensureNames p.absolute p.normal.names kept.length) := by
    change ensureNames _ _ _ s = _
    rw [hcount, ensureNames, htake]
  have hmade : (around s).1 = .ok () := by
    rw [haround]
    exact ensureParts_of_walk (p := q) rfl hwalk' ha hasize hafree _
  have hleads : (around s).2.partsLeadToDirectory q = true := by
    rw [haround] at hmade ⊢
    exact ensureParts_leads hmade
  have hgrows : Grows (fun _ => True) s (around s).2 := ensureNames_grows _ fun _ _ _ => trivial
  refine ⟨(around s).2, Prod.ext hmade rfl, hgrows, ?_⟩
  obtain ⟨l, hl⟩ := walk_of_leads hleads
  have hway := (walk_ok hl).2 (kept ++ [a]) [] (List.append_nil _).symm
  have hd : follow ((around s).2.start q) kept = d := by
    rw [hgrows.start]
    exact (walk_ok hwalk').1.symm
  rw [follow_append, hd] at hway
  rwa [← stepTo_of_ordinary ha]

/-- A directory in a directory is made, and the one around it if it is missing, if no file stands in
the place of either. -/
theorem createAll_of_walk (hchecked : checked path = .ok (.ofText path)) (hpath : path ≠ "")
    (hnames : (PathParts.ofText path).names = names ++ [a, b])
    (hwalk : s.walk (s.start (.ofText path)) names = .ok d) (ha : Ordinary a) (hb : Ordinary b)
    (hasize : a.utf8ByteSize ≤ 255) (hbsize : b.utf8ByteSize ≤ 255)
    (hafree : ∀ c, s.entry? (d ++ [a]) ≠ some (.file c))
    (hbfree : ∀ c, s.entry? (d ++ [a, b]) ≠ some (.file c)) : (s.createAll path).1 = .ok () := by
  have hsplit : (PathParts.ofText path).names = (names ++ [a]) ++ [b] := by rw [hnames]; simp
  have hplace : d ++ [a] ++ [b] = d ++ [a, b] := by simp
  have hempty : ¬ path.isEmpty = true := fun h => hpath (String.isEmpty_iff.mp h)
  unfold createAll
  rw [if_neg hempty, hchecked]
  dsimp only
  cases hentry : s.entry? (d ++ [a]) with
  | some e =>
      cases e with
      | file c => exact absurd hentry (hafree c)
      | directory =>
          refine ensureParts_of_walk hsplit (walk_concat hwalk ha hasize hentry) hb hbsize ?_ _
          rw [hplace]
          exact hbfree
  | none =>
      obtain ⟨t, haround, hgrows, hthere⟩ := ensureNames_around hnames hwalk ha hb hasize hafree
      refine ensureParts_of_missing hsplit hb hbsize
        (walk_concat_of_none hwalk ha hasize hentry) haround (d := d ++ [a]) ?_ fun c hc => ?_
      · rw [hgrows.start]
        have hkept := walk_keeps hwalk fun a b hab =>
          hgrows.directory ((walk_ok hwalk).2 a b hab)
        exact walk_concat hkept ha hasize hthere
      · rw [hplace] at hc
        exact hbfree c (hgrows.file hc)

/-- Where no file stands at the end of a path, it leads to a directory or nowhere. -/
theorem find_of_walk (hchecked : checked path = .ok (.ofText path))
    (hnames : (PathParts.ofText path).names = init ++ [n])
    (hwalk : s.walk (s.start (.ofText path)) init = .ok d) (hn : Ordinary n)
    (hsize : n.utf8ByteSize ≤ 255) (hfree : ∀ c, s.entry? (d ++ [n]) ≠ some (.file c)) :
    s.find path = match s.entry? (d ++ [n]) with
      | none => .error .notFound
      | some _ => .ok (d ++ [n], .directory) := by
  have happroach := approach_of_names (s := s) hnames hn hsize
  rw [hwalk] at happroach
  unfold find
  rw [hchecked]
  dsimp only [bind, Except.bind]
  rw [happroach]
  dsimp only [Except.map]
  cases hentry : s.entry? (d ++ [n]) with
  | none => rfl
  | some e =>
      cases e with
      | directory => rfl
      | file c => exact absurd hentry (hfree c)

/-- What is found where no file stands is a directory. -/
theorem directory_of_pathExists (hchecked : checked path = .ok (.ofText path))
    (hnames : (PathParts.ofText path).names = init ++ [n])
    (hwalk : s.walk (s.start (.ofText path)) init = .ok d) (hn : Ordinary n)
    (hsize : n.utf8ByteSize ≤ 255) (hfree : ∀ c, s.entry? (d ++ [n]) ≠ some (.file c))
    (hexists : s.pathExists path = true) : s.entry? (d ++ [n]) = some .directory := by
  have hfind := find_of_walk hchecked hnames hwalk hn hsize hfree
  cases hentry : s.entry? (d ++ [n]) with
  | none =>
      rw [hentry] at hfind
      rw [pathExists, hfind] at hexists
      cases hexists
  | some e =>
      cases e with
      | file c => exact absurd hentry (hfree c)
      | directory => rfl

/-- Around what is found, where no file stands, is a directory too. -/
theorem around_of_pathExists (hchecked : checked path = .ok (.ofText path))
    (hnames : (PathParts.ofText path).names = (init ++ [a]) ++ [b])
    (hwalk : s.walk (s.start (.ofText path)) init = .ok d) (ha : Ordinary a) (hb : Ordinary b)
    (hasize : a.utf8ByteSize ≤ 255) (hbsize : b.utf8ByteSize ≤ 255)
    (hfree : ∀ c, s.entry? (d ++ [a]) ≠ some (.file c)) (hexists : s.pathExists path = true) :
    s.entry? (d ++ [a]) = some .directory := by
  cases haround : s.entry? (d ++ [a]) with
  | none =>
      have hfind : s.find path = .error .notFound := by
        unfold find
        rw [hchecked]
        dsimp only [bind, Except.bind]
        rw [approach_of_names hnames hb hbsize, walk_concat_of_none hwalk ha hasize haround]
        rfl
      rw [pathExists, hfind] at hexists
      cases hexists
  | some e =>
      cases e with
      | file c => exact absurd haround (hfree c)
      | directory => rfl

/-- A directory is removed with all that it holds, if the way to it leads through nothing in it. -/
theorem removeAll_of_walk (hchecked : checked path = .ok (.ofText path))
    (hnames : (PathParts.ofText path).names = init ++ [n])
    (hwalk : s.walk (s.start (.ofText path)) init = .ok d) (hn : Ordinary n)
    (hsize : n.utf8ByteSize ≤ 255) (hthere : s.entry? (d ++ [n]) = some .directory)
    (houtward : ∀ a b, init = a ++ b →
      isBelow (follow (s.start (.ofText path)) a) (d ++ [n]) = false) :
    s.removeAll path = (.ok (), (s.clear (d ++ [n])).drop (d ++ [n])) := by
  have hfind : s.find path = .ok (d ++ [n], .directory) := by
    rw [find_of_walk hchecked hnames hwalk hn hsize (fun c hc => nomatch hthere.symm.trans hc),
      hthere]
  have hemptied : (s.clear (d ++ [n])).walk (s.start (.ofText path)) init = .ok d := by
    refine walk_keeps hwalk fun a b hab => ?_
    rw [entry?_clear, houtward a b hab]
    exact (walk_ok hwalk).2 a b hab
  have happroach := approach_of_names (s := s.clear (d ++ [n])) hnames hn hsize
  rw [show (s.clear (d ++ [n])).start (.ofText path) = s.start (.ofText path) from rfl,
    hemptied] at happroach
  unfold removeAll
  rw [hfind, hchecked]
  dsimp only [bind, Except.bind]
  rw [happroach]
  rfl

end Operations

end FileSystem

namespace PathParts

/-- A path that ends in a name ends in no slash. -/
theorem trailingSlash_joinPath (path : String) {name : String} (h : IsName name) :
    (ofText (joinPath path name)).trailingSlash = false := by
  obtain ⟨before, hbefore⟩ : ∃ before, (joinPath path name).toList = before ++ name.toList := by
    unfold joinPath
    split
    · exact ⟨[], rfl⟩
    · split
      · exact ⟨path.toList, String.toList_append⟩
      · exact ⟨(path ++ "/").toList, String.toList_append⟩
  have hne : name.toList ≠ [] := fun hnil => h.1 (String.toList_eq_nil_iff.mp hnil)
  have hslash : (joinPath path name).endsWith "/" = false := by
    refine Bool.eq_false_iff.mpr fun hends => ?_
    obtain ⟨init, hinit⟩ := (endsWith_slash _).mp hends
    have hlast : name.toList.getLast? = some '/' := by
      rw [← List.getLast?_append_of_ne_nil before hne, ← hbefore, hinit, List.getLast?_concat]
    exact h.2 (List.mem_of_getLast? hlast)
  change (_ && (joinPath path name).endsWith "/") = false
  rw [hslash, Bool.and_false]

end PathParts

namespace OutputDirectory

open FileSystem

/-! ## The files and directories of a run -/

/-- The root and the name of the run leave room for all paths of the run. -/
structure Fit (d : OutputDirectory) : Prop where
  root : ShortText 3000 d.root
  runId : ∀ id ∈ d.runId, ShortText 150 id ∧ '/' ∉ id.toList

/-- A name that files of a run can have. -/
structure Filename (name : String) : Prop where
  isName : IsName name
  long : 2 < name.length
  short : ShortText 40 name
  dotted : '.' ∈ name.toList

/-- The root of a run is there, and the way to it does not lead through what is in it. Files of the
run can be written under these names, and files called `inner` in the directories of iterations,
without a directory in their place; and no file stands where the directory of an iteration is to be
made. The directory of the iteration `o` is there. -/
structure Provided (d : OutputDirectory) (names : List String) (inner : String)
    (o : Option IterationIndex) (s : FileSystem) : Prop where
  reached : s.walk (s.start (.ofText d.root)) (PathParts.ofText d.root).names =
    .ok (s.locate d.root)
  outward : ∀ a b, (PathParts.ofText d.root).names = a ++ b →
    isBelow (follow (s.start (.ofText d.root)) a) (s.locate d.root) = false
  files : ∀ name ∈ names, s.entry? (s.locate (d.file name)) ≠ some .directory
  filesOf : ∀ i, s.entry? (s.locate (d.iterationFile i inner)) ≠ some .directory
  around : ∀ c, s.entry? (s.locate d.root ++ [iterationsName]) ≠ some (.file c)
  directories : ∀ i c, s.entry? (s.locate (d.iterationDirectory i)) ≠ some (.file c)
  begun : ∀ i ∈ o, s.entry? (s.locate d.root ++ [iterationsName]) = some .directory ∧
    s.entry? (s.locate (d.iterationDirectory i)) = some .directory

section Provided

variable {d : OutputDirectory} {names : List String} {inner name : String}
  {o o' : Option IterationIndex} {s t : FileSystem} {i : IterationIndex} {l : Location}

theorem Fit.slashless (h : d.Fit) : ∀ id ∈ d.runId, '/' ∉ id.toList :=
  fun id hid => (h.runId id hid).2

theorem Fit.short_named {n : Nat} (h : d.Fit) (hname : ShortText n name) :
    ShortText (151 + n) (d.named name) := by
  unfold named
  cases hd : d.runId with
  | none => exact hname.mono (by omega)
  | some id =>
      have hdot : ShortText 1 "." := ⟨by decide, by decide, by decide⟩
      exact ((h.runId id hd).1.append hdot).append hname

theorem Filename.ne_iterationsName (h : Filename name) : d.named name ≠ iterationsName := by
  intro heq
  have hdot : '.' ∈ (d.named name).toList := by
    unfold named
    cases d.runId with
    | none => exact h.dotted
    | some id =>
        have hsplit : (id ++ "." ++ name).toList = (id ++ ".").toList ++ name.toList :=
          String.toList_append
        change '.' ∈ (id ++ "." ++ name).toList
        rw [hsplit]
        exact List.mem_append_right _ h.dotted
  rw [heq] at hdot
  exact absurd hdot (by decide)

theorem Filename.indexed (h : Filename name) (i : IterationIndex) :
    IsName (toString i ++ "." ++ name) ∧ 2 < (toString i ++ "." ++ name).length ∧
      ShortText 81 (toString i ++ "." ++ name) := by
  have hdot : ShortText 1 "." := ⟨by decide, by decide, by decide⟩
  refine ⟨isName_append (slash_not_mem_index i) h.isName, ?_,
    ((short_index i).append hdot).append h.short⟩
  rw [String.length_append]
  exact Nat.lt_of_lt_of_le h.long (Nat.le_add_left _ _)

theorem short_iterationName (i : IterationIndex) : ShortText 43 (iterationName i) := by
  have hfirst : ShortText 3 "it." := ⟨by decide, by decide, by decide⟩
  exact hfirst.append (short_index i)

theorem Fit.short_iterationDirectory (h : d.Fit) (i : IterationIndex) :
    ShortText 3050 (d.iterationDirectory i) := by
  have hfirst : ShortText 5 iterationsName := ⟨by decide, by decide, by decide⟩
  exact (h.root.joinPath hfirst).joinPath (short_iterationName i)

theorem locate_file_ne_iterations (hd : d.Fit) (hname : Filename name) :
    s.locate (d.file name) ≠ s.locate d.root ++ [iterationsName] := by
  rw [locate_file s hd.slashless hname.isName hname.long]
  exact fun heq => hname.ne_iterationsName (List.cons.inj (List.append_cancel_left heq)).1

theorem locate_file_ne_directory (hd : d.Fit) (hname : Filename name) (i : IterationIndex) :
    s.locate (d.file name) ≠ s.locate (d.iterationDirectory i) := by
  rw [locate_file s hd.slashless hname.isName hname.long, locate_iterationDirectory]
  exact fun heq => nomatch (List.cons.inj (List.append_cancel_left heq)).2

theorem locate_iterationFile_ne_iterations (hd : d.Fit) (hinner : Filename inner)
    (i : IterationIndex) :
    s.locate (d.iterationFile i inner) ≠ s.locate d.root ++ [iterationsName] := by
  rw [locate_iterationFile s hd.slashless i hinner.isName]
  exact fun heq => nomatch (List.cons.inj (List.append_cancel_left heq)).2

theorem locate_iterationFile_ne_directory (hd : d.Fit) (hinner : Filename inner)
    (i j : IterationIndex) :
    s.locate (d.iterationFile i inner) ≠ s.locate (d.iterationDirectory j) := by
  rw [locate_iterationFile s hd.slashless i hinner.isName, locate_iterationDirectory]
  exact fun heq =>
    nomatch (List.cons.inj (List.cons.inj (List.append_cancel_left heq)).2).2

/-- Files and directories of a run stay as they are to be where directories are lost in the root at
most, and what is new are directories of iterations and files of the run. -/
theorem Provided.kept (h : Provided d names inner o s) (hd : d.Fit)
    (hnames : ∀ name ∈ names, Filename name) (hinner : Filename inner)
    (hworking : t.workingDirectory = s.workingDirectory)
    (hkeep : ∀ l, isBelow l (s.locate d.root) = false → s.entry? l = some .directory →
      t.entry? l = some .directory)
    (hmade : ∀ l, t.entry? l = some .directory → s.entry? l = some .directory ∨
      l = s.locate d.root ++ [iterationsName] ∨ ∃ i, l = s.locate (d.iterationDirectory i))
    (hwritten : ∀ l c, t.entry? l = some (.file c) → s.entry? l = some (.file c) ∨
      (∃ name ∈ names, l = s.locate (d.file name)) ∨ ∃ i, l = s.locate (d.iterationFile i inner))
    (hbegun : ∀ i ∈ o', t.entry? (t.locate d.root ++ [iterationsName]) = some .directory ∧
      t.entry? (t.locate (d.iterationDirectory i)) = some .directory) :
    Provided d names inner o' t := by
  have hlocate : ∀ path, t.locate path = s.locate path := locate_of_workingDirectory hworking
  have hstart : t.start (.ofText d.root) = s.start (.ofText d.root) := by
    rw [start, start, hworking]
  refine ⟨?_, ?_, fun name hname hdirectory => ?_, fun i hdirectory => ?_, fun c hfound => ?_,
    fun i c hfound => ?_, hbegun⟩
  · rw [hlocate, hstart]
    exact walk_keeps h.reached fun a b hab =>
      hkeep _ (h.outward a b hab) ((walk_ok h.reached).2 a b hab)
  · rw [hlocate, hstart]
    exact h.outward
  · rw [hlocate] at hdirectory
    rcases hmade _ hdirectory with hbefore | heq | ⟨i, heq⟩
    · exact h.files name hname hbefore
    · exact locate_file_ne_iterations hd (hnames name hname) heq
    · exact locate_file_ne_directory hd (hnames name hname) i heq
  · rw [hlocate] at hdirectory
    rcases hmade _ hdirectory with hbefore | heq | ⟨j, heq⟩
    · exact h.filesOf i hbefore
    · exact locate_iterationFile_ne_iterations hd hinner i heq
    · exact locate_iterationFile_ne_directory hd hinner i j heq
  · rw [hlocate] at hfound
    rcases hwritten _ c hfound with hbefore | ⟨name, hname, heq⟩ | ⟨i, heq⟩
    · exact h.around c hbefore
    · exact locate_file_ne_iterations hd (hnames name hname) heq.symm
    · exact locate_iterationFile_ne_iterations hd hinner i heq.symm
  · rw [hlocate] at hfound
    rcases hwritten _ c hfound with hbefore | ⟨name, hname, heq⟩ | ⟨j, heq⟩
    · exact h.directories i c hbefore
    · exact locate_file_ne_directory hd (hnames name hname) i heq.symm
    · exact locate_iterationFile_ne_directory hd hinner j i heq.symm

/-- A root that is there and empty can be written. -/
theorem provided_of_empty (hd : d.Fit) (hnames : ∀ name ∈ names, Filename name)
    (hinner : Filename inner)
    (hreached : s.walk (s.start (.ofText d.root)) (PathParts.ofText d.root).names =
      .ok (s.locate d.root))
    (houtward : ∀ a b, (PathParts.ofText d.root).names = a ++ b →
      isBelow (follow (s.start (.ofText d.root)) a) (s.locate d.root) = false)
    (hempty : ∀ l, isBelow l (s.locate d.root) = true → s.entry? l = none) :
    Provided d names inner none s := by
  have hbelow : ∀ rest, rest ≠ [] → s.entry? (s.locate d.root ++ rest) = none :=
    fun rest hrest => hempty _ (isBelow_append hrest)
  refine ⟨hreached, houtward, fun name hname => ?_, fun i => ?_, fun c => ?_, fun i c => ?_, nofun⟩
  · rw [locate_file s hd.slashless (hnames name hname).isName (hnames name hname).long,
      hbelow _ (List.cons_ne_nil _ _)]
    nofun
  · rw [locate_iterationFile s hd.slashless i hinner.isName, hbelow _ (List.cons_ne_nil _ _)]
    nofun
  · rw [hbelow _ (List.cons_ne_nil _ _)]
    nofun
  · rw [locate_iterationDirectory, hbelow _ (List.cons_ne_nil _ _)]
    nofun

/-- A file of the run is written. -/
theorem Provided.put (h : Provided d names inner o s) (hd : d.Fit)
    (hnames : ∀ name ∈ names, Filename name) (hinner : Filename inner) {content : ByteArray}
    (hl : (∃ name ∈ names, l = s.locate (d.file name)) ∨
      ∃ i, l = s.locate (d.iterationFile i inner))
    (hne : l ≠ []) (hfree : s.entry? l ≠ some .directory) :
    Provided d names inner o (s.put l (.file content)) := by
  have hkeep : ∀ m, s.entry? m = some .directory →
      entry? (s.put l (.file content)) m = some .directory := by
    intro m hm
    rw [entry?_put_of_ne, hm]
    rintro rfl
    exact hfree hm
  refine h.kept hd hnames hinner rfl (fun m _ => hkeep m) (fun m hm => ?_) (fun m c hm => ?_)
    fun i hi => ⟨hkeep _ (h.begun i hi).1, hkeep _ (h.begun i hi).2⟩
  · by_cases hml : m = l
    · rw [hml, entry?_put_self hne] at hm
      cases hm
    · rw [entry?_put_of_ne hml] at hm
      exact .inl hm
  · by_cases hml : m = l
    · exact .inr (hml ▸ hl)
    · rw [entry?_put_of_ne hml] at hm
      exact .inl hm

theorem Provided.write (h : Provided d names inner o s) (hd : d.Fit)
    (hnames : ∀ name ∈ names, Filename name) (hinner : Filename inner) (hname : name ∈ names)
    (content : ByteArray) :
    ∃ t, s.write (d.file name) content = .ok t ∧ Provided d names inner o t := by
  have hisName := isName_named hd.slashless (hnames name hname).isName
  obtain ⟨hstart, hparts⟩ := follow_joinPath s d.root hisName
  have hplace := locate_file s hd.slashless (hnames name hname).isName (hnames name hname).long
  have htext := hd.short_named (hnames name hname).short
  have hfree := h.files name hname
  have hwalk := (congrArg (s.walk · _) hstart).trans h.reached
  have hwritten : s.write (d.file name) content =
      .ok (s.put (s.locate d.root ++ [d.named name]) (.file content)) :=
    write_of_walk (checked_of_short (hd.root.joinPath htext) (by decide))
      (PathParts.trailingSlash_joinPath _ hisName) hparts hwalk
      (ordinary_named d (hnames name hname).long) (Nat.le_trans htext.size (by decide))
      (hplace ▸ hfree)
  rw [← hplace] at hwritten
  exact ⟨_, hwritten, h.put hd hnames hinner (.inl ⟨name, hname, rfl⟩) (by rw [hplace]; simp) hfree⟩

/-- The way to the directory of an iteration that is there. -/
theorem Provided.walk_iterationDirectory (h : Provided d names inner (some i) s) :
    s.walk (s.start (.ofText (d.iterationDirectory i)))
        (PathParts.ofText (d.iterationDirectory i)).names =
      .ok (s.locate (d.iterationDirectory i)) := by
  obtain ⟨haround, hthere⟩ := h.begun i rfl
  obtain ⟨hstart, hparts⟩ := names_iterationDirectory s d i
  have hsplit : ∀ l : List String, l ++ [iterationsName, iterationName i] =
      (l ++ [iterationsName]) ++ [iterationName i] := fun l => by simp
  rw [locate_iterationDirectory, hsplit] at hthere ⊢
  rw [hstart, hparts, hsplit]
  exact walk_concat (walk_concat h.reached ordinary_iterationsName (by decide) haround)
    (ordinary_iterationName i) (Nat.le_trans (short_iterationName i).size (by decide)) hthere

/-- A file is written into the directory of the iteration that was begun. -/
theorem Provided.writeOf (h : Provided d names inner (some i) s) (hd : d.Fit)
    (hnames : ∀ name ∈ names, Filename name) (hinner : Filename inner) (content : ByteArray) :
    ∃ t, s.write (d.iterationFile i inner) content = .ok t ∧
      Provided d names inner (some i) t := by
  obtain ⟨hindexed, hlong, hshort⟩ := hinner.indexed i
  have hisName := isName_named hd.slashless hindexed
  obtain ⟨hstart, hparts⟩ := follow_joinPath s (d.iterationDirectory i) hisName
  have hplace : s.locate (d.iterationFile i inner) =
      s.locate (d.iterationDirectory i) ++ [d.named (toString i ++ "." ++ inner)] :=
    locate_joinPath s _ hisName (ordinary_named d hlong)
  have htext := hd.short_named hshort
  have hfree := h.filesOf i
  have hwalk := (congrArg (s.walk · _) hstart).trans h.walk_iterationDirectory
  have hwritten : s.write (d.iterationFile i inner) content =
      .ok (s.put (s.locate (d.iterationDirectory i) ++ [d.named (toString i ++ "." ++ inner)])
        (.file content)) :=
    write_of_walk (checked_of_short ((hd.short_iterationDirectory i).joinPath htext) (by decide))
      (PathParts.trailingSlash_joinPath _ hisName) hparts hwalk
      (ordinary_named d hlong) (Nat.le_trans htext.size (by decide)) (hplace ▸ hfree)
  rw [← hplace] at hwritten
  exact ⟨_, hwritten, h.put hd hnames hinner (.inr ⟨i, rfl⟩) (by rw [hplace]; simp) hfree⟩

/-- What is in the directory of an iteration is removed with it. -/
theorem Provided.removed (h : Provided d names inner o s) (hd : d.Fit)
    (hnames : ∀ name ∈ names, Filename name) (hinner : Filename inner) (i : IterationIndex) :
    Provided d names inner none ((s.clear (s.locate (d.iterationDirectory i))).drop
      (s.locate (d.iterationDirectory i))) := by
  let l := s.locate (d.iterationDirectory i)
  have hbelow : isBelow l (s.locate d.root) = true := by
    change isBelow (s.locate (d.iterationDirectory i)) _ = true
    rw [locate_iterationDirectory]
    exact isBelow_append (List.cons_ne_nil _ _)
  have hne : l ≠ [] := by
    intro hnil
    rw [hnil, not_isBelow_root] at hbelow
    cases hbelow
  have hentry : ∀ m, entry? ((s.clear l).drop l) m = s.entry? m ∨
      entry? ((s.clear l).drop l) m = none ∧ isBelow m (s.locate d.root) = true := by
    intro m
    by_cases hm : m = l
    · rw [hm]
      exact .inr ⟨entry?_drop_self hne, hbelow⟩
    · rw [entry?_drop_of_ne hm, entry?_clear]
      split
      · rename_i hinside
        exact .inr ⟨rfl, isBelow_trans hinside hbelow⟩
      · exact .inl rfl
  have hfound : ∀ m e, entry? ((s.clear l).drop l) m = some e → s.entry? m = some e := by
    intro m e hm
    rcases hentry m with hsame | ⟨hnone, -⟩
    · exact hsame.symm.trans hm
    · exact nomatch hm.symm.trans hnone
  refine h.kept hd hnames hinner rfl (fun m hout hm => ?_) (fun m hm => .inl (hfound m _ hm))
    (fun m c hm => .inl (hfound m _ hm)) nofun
  rcases hentry m with hsame | ⟨-, hin⟩
  · exact hsame.trans hm
  · exact nomatch hout.symm.trans hin

/-- Directories on the way to that of an iteration are made, and those on the way to the root are
there already. -/
theorem Provided.grown (h : Provided d names inner o s) (hd : d.Fit)
    (hnames : ∀ name ∈ names, Filename name) (hinner : Filename inner)
    (hgrows : Grows (fun l => ∃ a b, (PathParts.ofText (d.iterationDirectory i)).names = a ++ b ∧
      l = follow (s.start (.ofText (d.iterationDirectory i))) a) s t)
    (hleads : t.partsLeadToDirectory (.ofText (d.iterationDirectory i)) = true) :
    Provided d names inner (some i) t := by
  obtain ⟨hstart, hparts⟩ := names_iterationDirectory s d i
  have hlocate := locate_of_workingDirectory hgrows.workingDirectory
  obtain ⟨l, hl⟩ := walk_of_leads hleads
  have hway := (walk_ok hl).2
  rw [hgrows.start, hstart, hparts] at hway
  have hroot : follow (s.start (.ofText d.root)) (PathParts.ofText d.root).names =
      s.locate d.root := rfl
  have hboth : ∀ n ∈ [iterationsName, iterationName i], Ordinary n := by
    intro n hn
    rcases List.mem_pair.mp hn with rfl | rfl
    · exact ordinary_iterationsName
    · exact ordinary_iterationName i
  refine h.kept hd hnames hinner hgrows.workingDirectory (fun m _ hm => hgrows.directory hm)
    (fun m hm => ?_) (fun m c hm => .inl (hgrows.file hm)) fun j hj => ?_
  · rcases hgrows.entry m with hsame | ⟨⟨a, b, hab, rfl⟩, hnone, -⟩
    · exact .inl (hsame.symm.trans hm)
    · right
      rcases way_iterationDirectory s hab with ⟨c, hc⟩ | haround | hplace
      · -- the directories up to the root are there already
        rw [hstart] at hnone
        exact nomatch ((walk_ok h.reached).2 a c hc).symm.trans hnone
      · exact .inl haround
      · exact .inr ⟨i, hplace.trans (locate_iterationDirectory s d i).symm⟩
  · cases hj
    rw [hlocate, hlocate]
    have hfirst := hway ((PathParts.ofText d.root).names ++ [iterationsName]) [iterationName i]
      (by simp)
    have hsecond := hway _ [] (List.append_nil _).symm
    rw [follow_append, hroot, follow_of_ordinary fun n hn => hboth n (by simp_all)] at hfirst
    rw [follow_append, hroot, follow_of_ordinary hboth] at hsecond
    rw [locate_iterationDirectory]
    exact ⟨hfirst, hsecond⟩

/-- The directory of an iteration is made where it is not there. -/
theorem Provided.created (h : Provided d names inner o s) (hd : d.Fit)
    (hnames : ∀ name ∈ names, Filename name) (hinner : Filename inner) (i : IterationIndex) :
    (s.createAll (d.iterationDirectory i)).1 = .ok () ∧
      Provided d names inner (some i) (s.createAll (d.iterationDirectory i)).2 := by
  have htext := hd.short_iterationDirectory i
  obtain ⟨hstart, hparts⟩ := names_iterationDirectory s d i
  have hdirectory := h.directories i
  rw [locate_iterationDirectory] at hdirectory
  have hwalk := (congrArg (s.walk · _) hstart).trans h.reached
  have hok : (s.createAll (d.iterationDirectory i)).1 = .ok () :=
    createAll_of_walk (checked_of_short htext (by decide)) htext.nonempty hparts
      hwalk ordinary_iterationsName (ordinary_iterationName i) (by decide)
      (Nat.le_trans (short_iterationName i).size (by decide)) h.around hdirectory
  exact ⟨hok, h.grown hd hnames hinner (createAll_grows s (d.iterationDirectory i))
    (createAll_leads hok htext.nonempty)⟩

/-- The way to the directories of iterations does not lead through one of them. -/
theorem Provided.outward_iterations (h : Provided d names inner o s) {a b : List String}
    (hab : (PathParts.ofText d.root).names ++ [iterationsName] = a ++ b) {name : String} :
    isBelow (follow (s.start (.ofText d.root)) a)
      (s.locate d.root ++ [iterationsName] ++ [name]) = false := by
  have hroot : follow (s.start (.ofText d.root)) (PathParts.ofText d.root).names =
      s.locate d.root := rfl
  refine Bool.eq_false_iff.mpr fun hbelow => ?_
  rcases List.append_eq_append_iff.mp hab with ⟨c, rfl, hc⟩ | ⟨c, hc, -⟩
  · have hordinary : ∀ n ∈ c, Ordinary n := fun n hn => by
      have hmem : n ∈ [iterationsName] := hc ▸ List.mem_append_left b hn
      exact List.mem_singleton.mp hmem ▸ ordinary_iterationsName
    rw [follow_append, hroot, follow_of_ordinary hordinary] at hbelow
    obtain ⟨rest, -, heq⟩ := isBelow_iff.mp hbelow
    have hlength := congrArg List.length heq
    have hc' := congrArg List.length hc
    simp only [List.length_append, List.length_singleton] at hlength hc'
    omega
  · have hinside :
        isBelow (s.locate d.root ++ [iterationsName] ++ [name]) (s.locate d.root) = true := by
      rw [List.append_assoc]
      exact isBelow_append (List.cons_ne_nil _ _)
    exact nomatch (isBelow_trans hbelow hinside).symm.trans (h.outward a c hc)

/-- What is at the place of the directory of an iteration can be removed. -/
theorem Provided.removeAll (h : Provided d names inner o s) (hd : d.Fit) (i : IterationIndex)
    (hexists : s.pathExists (d.iterationDirectory i) = true) :
    s.removeAll (d.iterationDirectory i) = (.ok (),
      (s.clear (s.locate (d.iterationDirectory i))).drop
        (s.locate (d.iterationDirectory i))) := by
  have hchecked := checked_of_short (hd.short_iterationDirectory i) (by decide)
  obtain ⟨hstart, hparts⟩ := names_iterationDirectory s d i
  have hsplit : ∀ l : List String, l ++ [iterationsName, iterationName i] =
      (l ++ [iterationsName]) ++ [iterationName i] := fun l => by simp
  have hplace := locate_iterationDirectory s d i
  have hfree := h.directories i
  rw [hsplit] at hparts hplace
  rw [hplace] at hfree ⊢
  have hsize : (iterationName i).utf8ByteSize ≤ 255 :=
    Nat.le_trans (short_iterationName i).size (by decide)
  have hreached := (congrArg (s.walk · _) hstart).trans h.reached
  have haround := around_of_pathExists hchecked hparts hreached ordinary_iterationsName
    (ordinary_iterationName i) (by decide) hsize h.around hexists
  have hwalk := walk_concat hreached ordinary_iterationsName (by decide) haround
  have hentry := directory_of_pathExists hchecked hparts hwalk (ordinary_iterationName i) hsize
    hfree hexists
  refine removeAll_of_walk hchecked hparts hwalk (ordinary_iterationName i) hsize hentry
    fun a b hab => ?_
  rw [hstart]
  exact h.outward_iterations hab

/-- Work on files succeeds, and leads from files of one kind to files of another. -/
def Succeeds (P : FileSystem → Prop) (work : FileWork Unit) (Q : FileSystem → Prop) : Prop :=
  ∀ j : FileJournal, P j.files → ∃ j', work.run.run j = (.ok (), j') ∧ Q j'.files

theorem succeeds_bind {P Q R : FileSystem → Prop} {work next : FileWork Unit}
    (h : Succeeds P work Q) (h' : Succeeds Q next R) :
    Succeeds P (work >>= fun _ => next) R := by
  intro j hj
  obtain ⟨k, hk, hQ⟩ := h j hj
  obtain ⟨l, hl, hR⟩ := h' k hQ
  refine ⟨l, ?_, hR⟩
  rw [StateT.run, run_bind_except, show work.run j = _ from hk]
  exact hl

theorem succeeds_attempt {path : String} {P Q : FileSystem → Prop}
    {operation : FileSystem → FileSystem.FileResult Unit × FileSystem}
    (h : ∀ s, P s → (operation s).1 = .ok () ∧ Q (operation s).2) :
    Succeeds P (FileWork.attempt path operation) Q := by
  intro j hj
  obtain ⟨hok, hQ⟩ := h j.files hj
  refine ⟨{ j with files := (operation j.files).2 }, ?_, hQ⟩
  rw [run_attempt, hok]
  rfl

/-- The directory of an iteration is made anew. -/
theorem Provided.createIteration (hd : d.Fit) (hnames : ∀ name ∈ names, Filename name)
    (hinner : Filename inner) (i : IterationIndex) :
    Succeeds (Provided d names inner o) (d.createIteration i)
      (Provided d names inner (some i)) := by
  let path := d.iterationDirectory i
  have hcreate : ∀ o, Succeeds (Provided d names inner o)
      (FileWork.attempt path (·.createAll path)) (Provided d names inner (some i)) :=
    fun o => succeeds_attempt fun s hs => hs.created hd hnames hinner i
  have hremove : Succeeds (fun s => Provided d names inner o s ∧ s.pathExists path = true)
      (FileWork.attempt path (·.removeAll path)) (Provided d names inner none) := by
    refine succeeds_attempt fun s hs => ?_
    rw [hs.1.removeAll hd i hs.2]
    exact ⟨rfl, hs.1.removed hd hnames hinner i⟩
  have hsay : ∀ P : FileSystem → Prop,
      Succeeds P (FileWork.say .warning "iteration directory exists; removing it") P :=
    fun P j hj => ⟨{ j with lines := j.lines ++ [_] }, rfl, hj⟩
  intro j hj
  have hrun : (d.createIteration i).run.run j =
      (if j.files.pathExists path then do
        FileWork.say .warning "iteration directory exists; removing it"
        FileWork.attempt path (·.removeAll path)
        FileWork.attempt path (·.createAll path)
      else FileWork.attempt path (·.createAll path) : FileWork Unit).run.run j := rfl
  rw [hrun]
  by_cases hexists : j.files.pathExists path = true
  · rw [if_pos hexists]
    exact succeeds_bind (hsay _) (succeeds_bind hremove (hcreate none)) j ⟨hj, hexists⟩
  · rw [if_neg hexists]
    exact hcreate o j hj

end Provided

end OutputDirectory

end CommuteSim
