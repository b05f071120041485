import CommuteSim.Proofs.Yaml.Lexer

/-!
# The characters of a written tree

The printer writes characters that YAML allows and no others, whatever the texts of a tree hold.
-/

namespace CommuteSim.Yaml

/-- A text of characters that YAML allows. -/
def Allowed (cs : List Char) : Prop := ∀ x ∈ cs, isAllowed x

@[simp] theorem allowed_nil : Allowed [] := by simp [Allowed]

@[simp] theorem allowed_cons {c : Char} {cs : List Char} :
    Allowed (c :: cs) ↔ isAllowed c ∧ Allowed cs := List.forall_mem_cons

@[simp] theorem allowed_append {a b : List Char} : Allowed (a ++ b) ↔ Allowed a ∧ Allowed b :=
  List.forall_mem_append

theorem allowed_ite {p : Prop} [Decidable p] {a b : List Char} (ha : Allowed a) (hb : Allowed b) :
    Allowed (if p then a else b) := by
  split
  · exact ha
  · exact hb

theorem allowed_of_printable {cs : List Char} (h : cs.all isPrintable) : Allowed cs :=
  fun x hx => isAllowed_of_isPrintable (List.all_eq_true.mp h x hx)

/-- A text that is given. -/
theorem allowed_of_all {cs : List Char} (h : cs.all isAllowed) : Allowed cs := List.all_eq_true.mp h

@[simp] theorem allowed_spaces (n : Nat) : Allowed (spaces n) := by
  intro x hx
  rw [List.eq_of_mem_replicate hx]
  rfl

/-! ## Scalars -/

theorem allowed_indented {cs : List Char} (h : Allowed cs) (n : Nat) (b : Bool) :
    Allowed (indented n b cs) := by
  induction cs generalizing b with
  | nil => simp [indented]
  | cons c r ih =>
    obtain ⟨hc, hr⟩ := allowed_cons.mp h
    rw [indented]
    split
    · exact allowed_cons.mpr ⟨hc, ih hr true⟩
    · refine allowed_append.mpr ⟨?_, allowed_cons.mpr ⟨hc, ih hr false⟩⟩
      exact allowed_ite (allowed_spaces n) allowed_nil

theorem allowed_singleQuotedText {cs : List Char} (h : Allowed cs) (n : Nat) :
    Allowed (singleQuotedText n cs) := by
  have hquote : isAllowed '\'' := rfl
  have hdoubled : Allowed (doubled cs) := by
    intro x hx
    obtain ⟨y, hy, hxy⟩ := List.mem_flatMap.mp hx
    split at hxy
    · simp_all
    · simp_all [h y hy]
  rw [singleQuotedText_eq, singleBody]
  simp only [allowed_cons, allowed_append]
  exact ⟨hquote, ⟨allowed_indented hdoubled n false, allowed_ite (allowed_spaces n) allowed_nil⟩,
    hquote, allowed_nil⟩

theorem isAllowed_upper : ∀ d < 16, isAllowed (Char.toUpper (Nat.digitChar d)) := by
  decide

theorem allowed_upperDigits (n : Nat) : Allowed (upperDigits n) := by
  induction n using Nat.strongRecOn with
  | _ n ih =>
    by_cases hn : n < 16
    · simpa [upperDigits, Nat.toDigits_of_lt_base hn] using isAllowed_upper n hn
    · have hlast := isAllowed_upper (n % 16) (Nat.mod_lt n (by omega))
      have hfront : Allowed (upperDigits (n / 16)) := ih (n / 16) (by omega)
      rw [upperDigits, Nat.toDigits_of_base_le (by omega) (by omega), List.map_append,
        allowed_append]
      exact ⟨hfront, by simpa using hlast⟩

/-- The letters of escapes are allowed. -/
theorem isAllowed_escape {x y : Char} (h : escapeChar? y = some x) : isAllowed y := by
  unfold escapeChar? at h
  split at h <;> first | rfl | simp at h

theorem isAllowed_escapeMark {mark : Char} {width : Nat} (h : escapeDigits? mark = some width) :
    isAllowed mark := by
  unfold escapeDigits? at h
  split at h <;> first | rfl | simp at h

theorem allowed_doubleQuotedChar (c : Char) : Allowed (doubleQuotedChar c) := by
  cases h : isLiteral c with
  | true =>
    rw [doubleQuotedChar_literal h]
    simp only [isLiteral, Bool.and_eq_true] at h
    simp [isAllowed_of_isPrintable h.1.1.1]
  | false =>
    rcases doubleQuotedChar_escape h with ⟨y, heq, hy, -⟩ | ⟨mark, width, heq, hmark, -⟩
    · simpa [heq] using ⟨rfl, isAllowed_escape hy⟩
    · have hzeros : Allowed (List.replicate (width - (upperDigits c.toNat).length) '0') := by
        intro x hx
        rw [List.eq_of_mem_replicate hx]
        rfl
      simpa [heq, numericEscape, hzeros, allowed_upperDigits] using
        ⟨rfl, isAllowed_escapeMark hmark⟩

theorem allowed_literalHeader (cs : List Char) : Allowed (literalHeader cs) := by
  rw [literalHeader_eq]
  cases needsWidth cs <;> cases chompingOf (breaksAtEnd cs) cs.length <;>
    exact allowed_of_all rfl

theorem allowed_scalarLine (indent : Nat) (style : ScalarStyle) (s : String) :
    Allowed (scalarLine indent style s) := by
  have hbreak : Allowed ['\n'] := allowed_of_all rfl
  have hallows := settled_allows style s.toList
  rw [scalarLine]
  cases hsettled : style.settled s.toList with
  | plain =>
    simp only [hsettled, allowsPlain, Bool.and_eq_true] at hallows
    have hprintable := allowed_of_printable hallows.1.1.1.1.1
    exact allowed_append.mpr ⟨hprintable, hbreak⟩
  | singleQuoted =>
    simp only [hsettled, allowsSingleQuotes, Bool.and_eq_true] at hallows
    have hprintable := allowed_of_printable hallows.1.1
    exact allowed_append.mpr ⟨allowed_singleQuotedText hprintable indent, hbreak⟩
  | doubleQuoted =>
    have hescaped : Allowed (s.toList.flatMap doubleQuotedChar) := by
      intro x hx
      obtain ⟨c, -, hc⟩ := List.mem_flatMap.mp hx
      exact allowed_doubleQuotedChar c x hc
    exact allowed_append.mpr ⟨allowed_cons.mpr ⟨rfl, hescaped⟩, allowed_of_all rfl⟩
  | literal =>
    simp only [hsettled, allowsLiteral, Bool.and_eq_true] at hallows
    have hprintable := allowed_of_printable hallows.1.1.2
    refine allowed_append.mpr ⟨allowed_append.mpr ⟨allowed_literalHeader _, ?_⟩, ?_⟩
    · exact allowed_cons.mpr ⟨rfl, allowed_indented hprintable indent true⟩
    · exact allowed_ite allowed_nil hbreak
  | folded => simp [hsettled] at hallows

/-! ## Trees -/

theorem allowed_blank (slot : Node.Slot) : Allowed slot.blank := by
  cases slot <;> exact allowed_of_all rfl

/-- All that is written of a tree is allowed. By induction on the tree. -/
theorem allowed_tree :
    (∀ n slot indent, Allowed (Node.written slot indent n)) ∧
      (∀ ns fresh indent, Allowed (Node.itemLines fresh indent ns)) ∧
      ∀ es fresh indent, Allowed (Node.entryLines fresh indent es) := by
  apply Node.induction
  case scalar =>
    intro p style s slot indent
    rw [Node.written]
    exact allowed_append.mpr ⟨allowed_blank slot, allowed_scalarLine _ style s⟩
  case sequence =>
    intro p items closed hitems slot indent
    rw [Node.written.eq_def]
    refine allowed_ite (allowed_append.mpr ⟨allowed_blank slot, allowed_of_all rfl⟩) ?_
    cases slot with
    | top => exact hitems true indent
    | item => exact allowed_cons.mpr ⟨rfl, hitems false (indent + 2)⟩
    | field => exact allowed_cons.mpr ⟨rfl, hitems true indent⟩
  case mapping =>
    intro p entries closed hentries slot indent
    rw [Node.written.eq_def]
    refine allowed_ite (allowed_append.mpr ⟨allowed_blank slot, allowed_of_all rfl⟩) ?_
    cases slot with
    | top => exact hentries true indent
    | item => exact allowed_cons.mpr ⟨rfl, hentries false (indent + 2)⟩
    | field => exact allowed_cons.mpr ⟨rfl, hentries true (indent + 2)⟩
  case reference =>
    intro m a slot indent
    rw [Node.written]
    exact allowed_of_all rfl
  case cut =>
    intro slot indent
    rw [Node.written]
    exact allowed_of_all rfl
  case noItem =>
    intro fresh indent
    rw [Node.itemLines]
    exact allowed_nil
  case item =>
    intro n rest hn hrest fresh indent
    rw [Node.itemLines]
    refine allowed_append.mpr ⟨allowed_append.mpr ⟨?_, ?_⟩, hrest true indent⟩
    · exact allowed_ite (allowed_spaces indent) allowed_nil
    · exact allowed_cons.mpr ⟨rfl, hn .item indent⟩
  case noEntry =>
    intro fresh indent
    rw [Node.entryLines]
    exact allowed_nil
  case entry =>
    intro k v rest hk hv hrest fresh indent
    rw [Node.entryLines.eq_def]
    refine allowed_append.mpr ⟨allowed_append.mpr ⟨allowed_append.mpr ⟨?_, ?_⟩, ?_⟩,
      hrest true indent⟩
    · exact allowed_ite (allowed_spaces indent) allowed_nil
    · cases k with
      | scalar p style s =>
        exact fun x hx => allowed_scalarLine indent style s x (List.dropLast_subset _ hx)
      | _ => exact allowed_nil
    · exact allowed_cons.mpr ⟨rfl, hv .field indent⟩

end CommuteSim.Yaml
