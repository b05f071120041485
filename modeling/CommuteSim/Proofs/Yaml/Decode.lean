import CommuteSim.Proofs.Yaml.Reader
import CommuteSim.Yaml.Decode

/-!
# Values read back

Decoders that give back the value that a tree was made for, from every tree that is read where that
one was written. The scalars come first, then the structures whose fields are written by name.
-/

namespace CommuteSim.Yaml

variable {α : Type}

/-- A tree that a decoder turns into `a` when it is read back. -/
structure Restores (f : Decoder α) (n : Node) (a : α) : Prop where
  legible : n.Legible
  decodes : ∀ c n', Echoes n' n → f c n' = .ok a

theorem Echoes.resolve {n' n : Node} (h : Echoes n' n) (c : Context) : c.resolve n' = n' := by
  cases h <;> rfl

theorem decoding_ok {f : Context → Node → Decoded α} {c : Context} {n' n : Node} {a : α}
    (h : Echoes n' n) (hf : f c n' = .ok a) : decoding f c n' = .ok a := by
  have hvalue : decoding f c n' = (f c n').mapError (Failure.at_ c.path n'.mark) := by
    rw [decoding, h.resolve]
    cases h <;> rfl
  rw [hvalue, hf]
  rfl

/-! ## Scalars -/

theorem decodeText_ok (expected : String) {p : Properties} {style : ScalarStyle} {s : String}
    {c : Context} {n' : Node} (h : Echoes n' (.scalar p style s)) :
    decodeText expected c n' = .ok s := by
  refine decoding_ok h ?_
  cases h
  rfl

theorem legible_word {s : String} (hne : s.toList ≠ []) (hs : Lettered s.toList) :
    (Node.word s).Legible := by
  refine ⟨fun _ => hne, fun h => ?_⟩
  rw [settled_letters hs] at h
  cases h

theorem restores_plain {core expected s : String} {read : String → Option α} {a : α}
    (hne : s.toList ≠ []) (hs : Lettered s.toList) (hread : read s = some a) :
    Restores (plainScalar core expected read) (.word s) a where
  legible := legible_word hne hs
  decodes c n' h := by
    refine decoding_ok h ?_
    cases h
    simp [settled_letters hs, hread]

theorem restores_named {known : List α} {name : α → String} {a : α} (hne : (name a).toList ≠ [])
    (hs : Lettered (name a).toList) (hfind : known.find? (name · = name a) = some a) :
    Restores (decodeNamed known name) (.word (name a)) a where
  legible := legible_word hne hs
  decodes c n' h := by
    cases h
    simp [decodeNamed, Context.resolve, hfind]
    rfl

/-! ### Numbers -/

theorem digitChar_mem : ∀ d < 10, Nat.digitChar d ∈ nameLetters := by decide

theorem hexDigit?_digitChar : ∀ d < 10, Json.hexDigit? (Nat.digitChar d) = some d := by decide

theorem eq_zero_of_digitChar : ∀ d < 10, Nat.digitChar d = '0' → d = 0 := by decide

/-- The digits of a number are those of its tenth and the last one. -/
theorem toDigits_step {n : Nat} (h : 10 ≤ n) :
    Nat.toDigits 10 n = Nat.toDigits 10 (n / 10) ++ [Nat.digitChar (n % 10)] :=
  Nat.toDigits_of_base_le (by omega) h

theorem exists_digit {n : Nat} : ∀ x ∈ Nat.toDigits 10 n, ∃ d < 10, x = Nat.digitChar d := by
  induction n using Nat.strongRecOn with
  | _ n ih =>
    intro x hx
    by_cases hn : n < 10
    · rw [Nat.toDigits_of_lt_base hn, List.mem_singleton] at hx
      exact ⟨n, hn, hx⟩
    · rw [toDigits_step (by omega), List.mem_append, List.mem_singleton] at hx
      rcases hx with hx | hx
      · exact ih (n / 10) (by omega) x hx
      · exact ⟨n % 10, Nat.mod_lt n (by omega), hx⟩

/-- Only the number zero begins with a zero. -/
theorem head?_toDigits {n : Nat} (h : (Nat.toDigits 10 n).head? = some '0') : n = 0 := by
  induction n using Nat.strongRecOn with
  | _ n ih =>
    by_cases hn : n < 10
    · rw [Nat.toDigits_of_lt_base hn] at h
      exact eq_zero_of_digitChar n hn (Option.some.inj h)
    · rw [toDigits_step (by omega), List.head?_append_of_ne_nil _ Nat.toDigits_ne_nil] at h
      have := ih (n / 10) (by omega) h
      omega

theorem natOf?_toDigits (n : Nat) : Content.natOf? 10 (Nat.toDigits 10 n) = some n := by
  rw [Content.natOf?, if_neg (by simp)]
  induction n using Nat.strongRecOn with
  | _ n ih =>
    by_cases hn : n < 10
    · simp [Nat.toDigits_of_lt_base hn, hexDigit?_digitChar n hn, hn]
    · have hlast := hexDigit?_digitChar (n % 10) (Nat.mod_lt n (by omega))
      have hjoin : n / 10 * 10 + n % 10 = n := by omega
      rw [toDigits_step (by omega), List.foldl_append, ih (n / 10) (by omega)]
      simp [hlast, hjoin, Nat.mod_lt]

/-- Digits are no sign and no mark of a base. -/
theorem unsignedText?_digits {cs : List Char} (h : ∀ x ∈ cs, x.isDigit) :
    Content.unsignedText? cs = some cs := by
  unfold Content.unsignedText?
  split
  · exact absurd (h '+' List.mem_cons_self) (by decide)
  · rfl

theorem basedDigits?_digits {cs : List Char} (h : ∀ x ∈ cs, x.isDigit) :
    Content.basedDigits? cs = none := by
  unfold Content.basedDigits?
  split
  · exact absurd (h 'x' (by simp)) (by decide)
  · exact absurd (h 'o' (by simp)) (by decide)
  · exact absurd (h 'b' (by simp)) (by decide)
  · rfl

theorem natural?_toDigits (n : Nat) : Content.natural? (Nat.toDigits 10 n) = some n := by
  have hdigit : ∀ x ∈ Nat.toDigits 10 n, x.isDigit :=
    fun x hx => Nat.isDigit_of_mem_toDigits (by omega) (by omega) hx
  have hsign : (Nat.toDigits 10 n).head?.any Content.isSign = false := by
    cases h : Nat.toDigits 10 n with
    | nil => rfl
    | cons x r =>
      have hx := hdigit x (by simp [h])
      have hplus : x ≠ '+' := fun heq => absurd hx (by simp [heq])
      have hminus : x ≠ '-' := fun heq => absurd hx (by simp [heq])
      simp [Content.isSign, hplus, hminus]
  have hpadded : Content.isPadded (Nat.toDigits 10 n) = false := by
    simp only [Content.isPadded, hsign, Bool.false_eq_true, if_false, Bool.and_eq_false_iff,
      decide_eq_false_iff_not]
    by_cases hhead : (Nat.toDigits 10 n).head? = some '0'
    · left
      left
      rw [head?_toDigits hhead]
      decide
    · exact .inl (.inr hhead)
  simp [Content.natural?, unsignedText?_digits hdigit, basedDigits?_digits hdigit, hpadded,
    natOf?_toDigits]

theorem letters_toString (n : Nat) : Lettered (toString n).toList := by
  intro x hx
  obtain ⟨d, hd, rfl⟩ := exists_digit x (by simpa using hx)
  exact digitChar_mem d hd

theorem naturalBelow?_toString {limit n : Nat} (h : n < limit) :
    Content.naturalBelow? limit (toString n) = some n := by
  simp [Content.naturalBelow?, natural?_toDigits, h]

theorem toString_ne_nil (n : Nat) : (toString n).toList ≠ [] := by simp

theorem restores_uint64 (n : UInt64) : Restores decodeUInt64 (.word (toString n)) n := by
  refine restores_plain (toString_ne_nil n.toNat) (letters_toString n.toNat) ?_
  rw [show toString n = toString n.toNat from rfl, naturalBelow?_toString n.toNat_lt_size]
  simp

theorem restores_uint32 (n : UInt32) : Restores decodeUInt32 (.word (toString n)) n where
  legible := legible_word (toString_ne_nil n.toNat) (letters_toString n.toNat)
  decodes c n' h := by
    have hlt : n.toNat < UInt32.size := n.toNat_lt_size
    have hwide : plainScalar "int" "u32" (Content.naturalBelow? UInt64.size) c n' = .ok n.toNat :=
      (restores_plain (toString_ne_nil n.toNat) (letters_toString n.toNat)
        (naturalBelow?_toString (Nat.lt_trans hlt (by decide)))).decodes c n' h
    refine decoding_ok h ?_
    simp only [hwide, bind, Except.bind, hlt, if_true]
    simp

/-! ### Texts -/

/-- What is known of the style that a text is given: lines make a block, and a plain scalar is not
a word for the absent value. -/
theorem forText_cases (s : String) :
    ScalarStyle.forText s = .literal ∨
    (ScalarStyle.forText s = .singleQuoted ∧ '\n' ∉ s.toList) ∨
    (ScalarStyle.forText s = .plain ∧ '\n' ∉ s.toList ∧
      (s.isEmpty || Content.isNull s) = false) := by
  by_cases hline : '\n' ∈ s.toList
  · exact .inl (by simp [ScalarStyle.forText, hline])
  · right
    have hcontains : s.toList.contains '\n' = false := by simpa using hline
    by_cases hnull : s.isEmpty || Content.isNull s
    · left
      exact ⟨by simp [ScalarStyle.forText, hline, Content.ofPlain, hnull], hline⟩
    · have hstyle : ScalarStyle.forText s = .singleQuoted ∨ ScalarStyle.forText s = .plain := by
        simp only [ScalarStyle.forText, hcontains, Bool.false_eq_true, if_false]
        split
        · split
          · exact .inl rfl
          · exact .inr rfl
        · exact .inl rfl
      rcases hstyle with h | h
      · exact .inl ⟨h, hline⟩
      · exact .inr ⟨h, hline, by simpa using hnull⟩

/-- Only a scalar that is meant to be plain is written plain. -/
theorem settled_ne_plain {style : ScalarStyle} (h : style ≠ .plain) (cs : List Char) :
    style.settled cs ≠ .plain := by
  cases style <;> simp only [ScalarStyle.settled]
  case plain => exact absurd rfl h
  case doubleQuoted => decide
  all_goals (split <;> decide)

theorem legible_ofText (s : String) : (Node.ofText s).Legible := by
  change (ScalarStyle.forText s).Keeps s.toList
  rcases forText_cases s with h | ⟨h, hline⟩ | ⟨h, hline, hnull⟩
  · rw [h]
    refine ⟨fun hplain => absurd hplain (settled_ne_plain (by decide) _), fun hsingle => ?_⟩
    simp only [ScalarStyle.settled] at hsingle
    split at hsingle <;> cases hsingle
  · rw [h]
    exact ⟨fun hplain => absurd hplain (settled_ne_plain (by decide) _), fun _ => hline⟩
  · refine ⟨fun _ hnil => ?_, fun _ => hline⟩
    have hempty : s.isEmpty = true := by simpa using hnil
    simp [hempty] at hnull

/-- A scalar that is not plain is present, and so is a plain one that is neither empty nor a word
for the absent value. -/
theorem decodeOption_present {f : Decoder α} {c : Context} {m : Mark} {style : ScalarStyle}
    {s : String} {a : α} (h : f c (.scalar ⟨m, none, none⟩ style s) = .ok a)
    (hpresent : style = .plain → (s.isEmpty || Content.isNull s) = false) :
    decodeOption f c (.scalar ⟨m, none, none⟩ style s) = .ok (some a) := by
  cases style with
  | plain =>
    have hnull := hpresent rfl
    simp [decodeOption, Context.resolve, h, hnull, Except.map]
  | _ => simp [decodeOption, Context.resolve, h, Except.map]

theorem restores_text (expected s : String) : Restores (decodeText expected) (.ofText s) s where
  legible := legible_ofText s
  decodes _ _ h := decodeText_ok expected h

theorem restores_some {f : Decoder α} {s : String} {a : α} (h : Restores f (.ofText s) a) :
    Restores (decodeOption f) (.ofText s) (some a) where
  legible := h.legible
  decodes c n' hn := by
    have hvalue := h.decodes c n' hn
    cases hn
    refine decodeOption_present hvalue fun hplain => ?_
    rcases forText_cases s with h | ⟨h, -⟩ | ⟨-, -, hnull⟩
    · exact absurd hplain (settled_ne_plain (by simp [h]) _)
    · exact absurd hplain (settled_ne_plain (by simp [h]) _)
    · exact hnull

theorem restores_null (f : Decoder α) : Restores (decodeOption f) (.word "null") none where
  legible := legible_word (by decide) (by decide)
  decodes c n' h := by
    cases h
    rfl

/-! ## Structures -/

variable {σ : Type}

/-- A field with the node that is written for it and what reading the node changes. -/
structure Row (σ : Type) where
  field : Field σ
  node : Node
  put : σ → σ

/-- The field has a name and need not be given, and reading what was written for it makes the
change. -/
structure Row.Faithful (r : Row σ) : Prop where
  name : IsName r.field.name.toList
  optional : r.field.required = false
  legible : r.node.Legible
  set : ∀ c n' s, Echoes n' r.node → r.field.set c n' s = .ok (r.put s)

/-- A field that holds a value of its own, with the value. -/
def Row.of (name : String) (f : Decoder α) (put : α → σ → σ) (node : Node) (a : α) : Row σ where
  field := .of name f put
  node := node
  put := put a

theorem Row.faithful_of {name : String} {f : Decoder α} {put : α → σ → σ} {node : Node} {a : α}
    (h : Restores f node a) (hname : IsName name.toList) : (Row.of name f put node a).Faithful where
  name := hname
  optional := rfl
  legible := h.legible
  set c n' s hn := by simp [Row.of, Field.of, h.decodes c n' hn, Except.map]

/-- The names under which the fields are written. -/
def names (rows : List (Row σ)) : List String := rows.map (·.field.name)

theorem find?_field {rows : List (Row σ)} (h : (names rows).Nodup) {r : Row σ} (hr : r ∈ rows) :
    (rows.map (·.field)).find? (·.name = r.field.name) = some r.field := by
  induction rows with
  | nil => cases hr
  | cons r' rest ih =>
    obtain ⟨hnot, hrest⟩ := List.nodup_cons.mp h
    rcases List.mem_cons.mp hr with rfl | hr
    · simp
    · have hne : r'.field.name ≠ r.field.name :=
        fun heq => hnot (List.mem_map.mpr ⟨r, hr, heq.symm⟩)
      simpa [hne] using ih hrest hr

/-- Fields that are written one after the other are all taken. -/
theorem decodeEntries_rows {fields : List (Field σ)} {c : Context} {rows : List (Row σ)}
    (hnodup : (names rows).Nodup) (hfaithful : ∀ r ∈ rows, r.Faithful)
    (hfind : ∀ r ∈ rows, fields.find? (·.name = r.field.name) = some r.field)
    {entries : List (Node × Node)}
    (h : EchoesEntries entries (rows.map fun r => (.word r.field.name, r.node)))
    {seen : List String} (hseen : ∀ r ∈ rows, r.field.name ∉ seen) (s : σ) :
    ∃ seen', decodeEntries fields c seen entries s =
      .ok (seen', rows.foldl (fun s r => r.put s) s) := by
  induction rows generalizing entries seen s with
  | nil =>
    cases h
    exact ⟨seen, rfl⟩
  | cons r rest ih =>
    obtain ⟨hnot, hrest⟩ := List.nodup_cons.mp hnodup
    cases h with
    | @cons k' _ v' _ _ _ key value tail =>
      have hkey : decodeText "field identifier" c k' = .ok r.field.name :=
        decodeText_ok "field identifier" key
      have hset := (hfaithful r List.mem_cons_self).set (c.into (keyStep k')) v' s value
      have hfresh : seen.contains r.field.name = false := by
        simpa using hseen r List.mem_cons_self
      have hseen' : ∀ r' ∈ rest, r'.field.name ∉ r.field.name :: seen := by
        intro r' hr' hmem
        rcases List.mem_cons.mp hmem with heq | hmem
        · exact hnot (List.mem_map.mpr ⟨r', hr', heq⟩)
        · exact hseen r' (List.mem_cons_of_mem _ hr') hmem
      obtain ⟨seen', hmore⟩ := ih hrest (fun r' hr' => hfaithful r' (List.mem_cons_of_mem _ hr'))
        (fun r' hr' => hfind r' (List.mem_cons_of_mem _ hr')) tail hseen' (r.put s)
      refine ⟨seen', ?_⟩
      rw [decodeEntries, hkey]
      simp only [bind, Except.bind, hfind r List.mem_cons_self, hfresh, Bool.false_eq_true,
        if_false, hset, hmore, List.foldl_cons]

/-- The tree of a structure. -/
def rowsNode (rows : List (Row σ)) : Node :=
  .ofFields (rows.map fun r => (r.field.name, r.node))

theorem legible_rows {rows : List (Row σ)} (hfaithful : ∀ r ∈ rows, r.Faithful) :
    LegibleEntries (rows.map fun r => (.word r.field.name, r.node)) := by
  induction rows with
  | nil => trivial
  | cons r rest ih =>
    have hr := hfaithful r List.mem_cons_self
    exact ⟨⟨rfl, hr.name⟩, hr.legible, ih fun r' hr' => hfaithful r' (List.mem_cons_of_mem _ hr')⟩

/-- A structure whose fields are all written is read back. -/
theorem restores_structure {rows : List (Row σ)} (hne : rows ≠ []) (hnodup : (names rows).Nodup)
    (hfaithful : ∀ r ∈ rows, r.Faithful) {start s : σ}
    (hvalue : rows.foldl (fun s r => r.put s) start = s) (name : String) :
    Restores (decodeStructure name (rows.map (·.field)) start) (rowsNode rows) s where
  legible := by
    rw [rowsNode, Node.ofFields, List.map_map]
    exact ⟨by simpa using hne, legible_rows hfaithful⟩
  decodes c n' h := by
    refine decoding_ok h ?_
    have hmissing (seen : List String) : firstMissing (rows.map (·.field)) seen = none := by
      rw [firstMissing, List.find?_eq_none.mpr ?_]
      · rfl
      · intro f hf
        obtain ⟨r, hr, rfl⟩ := List.mem_map.mp hf
        simp [(hfaithful r hr).optional]
    rw [rowsNode, Node.ofFields, List.map_map] at h
    cases h with
    | mapping m p closed h =>
      obtain ⟨seen, hentries⟩ := decodeEntries_rows (c := c) (s := start) hnodup hfaithful
        (fun r hr => find?_field hnodup hr) h
        (fun _ _ => List.not_mem_nil)
      simp only [hentries, hvalue, bind, Except.bind, hmissing, if_true]

end CommuteSim.Yaml
