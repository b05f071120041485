import CommuteSim.Files.Path

/-!
# The parts of paths that are put together

A path that is put together from a path and a name leads along the parts of the path and then to the
name, whatever slashes the path ends with. That holds for a single name; a text with a slash in it
has parts of its own, and leads away from the path if it begins with a slash.

Main statements: `ofText_joinPath`, and `ofText_append_name` for names behind the same text.
-/

namespace CommuteSim

/-! ## Slashes -/

theorem splitAtSlash_ne_nil (cs : List Char) : splitAtSlash cs ≠ [] := by
  cases cs with
  | nil => exact List.cons_ne_nil _ _
  | cons c rest =>
      unfold splitAtSlash
      split
      · exact List.cons_ne_nil _ _
      · split <;> exact List.cons_ne_nil _ _

/-- Two texts with a slash between them are cut at that slash. -/
theorem splitAtSlash_append (a b : List Char) :
    splitAtSlash (a ++ '/' :: b) = splitAtSlash a ++ splitAtSlash b := by
  induction a with
  | nil => rfl
  | cons c rest ih =>
      rw [List.cons_append, splitAtSlash, splitAtSlash, ih]
      split
      · rfl
      · cases h : splitAtSlash rest with
        | nil => exact absurd h (splitAtSlash_ne_nil rest)
        | cons part parts => rfl

theorem splitAtSlash_of_not_mem {cs : List Char} (h : '/' ∉ cs) : splitAtSlash cs = [cs] := by
  induction cs with
  | nil => rfl
  | cons c rest ih =>
      have hc : c ≠ '/' := fun heq => h (heq ▸ List.mem_cons_self)
      rw [splitAtSlash, if_neg hc, ih fun hm => h (List.mem_cons_of_mem c hm)]

theorem startsWith_slash (s : String) : s.startsWith "/" = true ↔ s.toList.head? = some '/' := by
  rw [String.startsWith_string_iff, List.prefix_iff_eq_take]
  cases h : s.toList with
  | nil => simp
  | cons c rest => simp [eq_comm]

theorem endsWith_slash (s : String) : s.endsWith "/" = true ↔ ∃ init, s.toList = init ++ ['/'] := by
  rw [String.endsWith_eq_endsWith_toSlice, String.Slice.endsWith_string_iff, String.copy_toSlice]
  exact ⟨fun ⟨init, h⟩ => ⟨init, h.symm⟩, fun ⟨init, h⟩ => ⟨init, h.symm⟩⟩

/-! ## Names -/

/-- A text that is a single name. -/
def IsName (name : String) : Prop := name ≠ "" ∧ '/' ∉ name.toList

namespace PathParts

theorem names_ofText (path : String) :
    (ofText path).names =
      ((splitAtSlash path.toList).filter (!·.isEmpty)).map String.ofList := rfl

/-- The names of two texts with a slash between them are those of both. -/
theorem names_of_slash {path first second : String}
    (h : path.toList = first.toList ++ '/' :: second.toList) :
    (ofText path).names = (ofText first).names ++ (ofText second).names := by
  rw [names_ofText, h, splitAtSlash_append, List.filter_append, List.map_append]
  rfl

theorem names_of_isName {name : String} (h : IsName name) : (ofText name).names = [name] := by
  have hne : name.toList ≠ [] := fun hnil => h.1 (String.toList_eq_nil_iff.mp hnil)
  rw [names_ofText, splitAtSlash_of_not_mem h.2]
  simp [hne]

theorem names_append_slash {path first : String} (h : path.toList = first.toList ++ ['/']) :
    (ofText path).names = (ofText first).names := by
  have hslash : path.toList = first.toList ++ '/' :: "".toList := h
  have hempty : (ofText "").names = [] := rfl
  rw [names_of_slash hslash, hempty, List.append_nil]

/-- A path without names is made of slashes. -/
theorem absolute_of_names_nil {path : String} (h : path ≠ "") (hnames : (ofText path).names = []) :
    (ofText path).absolute = true := by
  change path.startsWith "/" = true
  rw [startsWith_slash]
  cases hl : path.toList with
  | nil => exact absurd (String.toList_eq_nil_iff.mp hl) h
  | cons c rest =>
      by_cases hc : c = '/'
      · rw [hc]
        rfl
      · rw [names_ofText, hl, splitAtSlash, if_neg hc] at hnames
        split at hnames <;> simp at hnames

theorem not_startsWith_of_isName {name : String} (h : IsName name) :
    name.startsWith "/" = false := by
  refine Bool.eq_false_iff.mpr fun hstart => ?_
  exact h.2 (List.mem_of_head? ((startsWith_slash name).mp hstart))

theorem startsWith_slash_append {first second : String} (h : first ≠ "") :
    (first ++ second).startsWith "/" = first.startsWith "/" := by
  have hhead : (first ++ second).toList.head? = first.toList.head? := by
    rw [String.toList_append]
    cases hl : first.toList with
    | nil => exact absurd (String.toList_eq_nil_iff.mp hl) h
    | cons c rest => rfl
  rw [Bool.eq_iff_iff, startsWith_slash, startsWith_slash, hhead]

/-- A name that is put behind a path is its last one. -/
theorem ofText_joinPath (path : String) {name : String} (h : IsName name) :
    (ofText (joinPath path name)).names = (ofText path).names ++ [name] ∧
      (ofText (joinPath path name)).absolute = (ofText path).absolute := by
  rw [← names_of_isName h]
  unfold joinPath
  split
  · -- the name stands alone only behind the empty path
    rename_i halone
    rw [not_startsWith_of_isName h, Bool.false_or, String.isEmpty_iff] at halone
    subst halone
    exact ⟨rfl, not_startsWith_of_isName h⟩
  · rename_i halone
    have hpath : path ≠ "" := by
      rintro rfl
      exact halone (Bool.or_true _)
    split
    · rename_i hslash
      obtain ⟨init, hinit⟩ := (endsWith_slash path).mp hslash
      have hfirst : path.toList = (String.ofList init).toList ++ ['/'] := by
        rw [hinit, String.toList_ofList]
      refine ⟨?_, startsWith_slash_append hpath⟩
      rw [names_append_slash hfirst]
      refine names_of_slash ?_
      rw [String.toList_append, hfirst, List.append_assoc]
      rfl
    · refine ⟨names_of_slash ?_, ?_⟩
      · rw [String.toList_append, String.toList_append, List.append_assoc]
        rfl
      · change (path ++ "/" ++ name).startsWith "/" = path.startsWith "/"
        rw [String.append_assoc, startsWith_slash_append hpath]

end PathParts

end CommuteSim
