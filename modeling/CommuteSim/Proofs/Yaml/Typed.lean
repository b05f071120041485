import CommuteSim.Proofs.Yaml.Structure

/-!
# What scalars mean for values of a type

A number or a truth value is written plainly, or in a block that has the tag of its type. Any scalar
is a text. A text that may be absent is absent where nothing is written or a word for the absent
value. One of several names is written as the name, or as a tag on nothing.

Each decoder gives a value just where the node means that value.
-/

namespace CommuteSim.Yaml

/-! ## Types -/

/-- A scalar that is written plainly, or in a block with a core tag, and its text. -/
def Speaks (core : String) (t : Nat → Node) (n : Node) (text : String) : Prop :=
  ∃ p style, meant t n = .scalar p style text ∧
    (style = .plain ∨ style = .literal ∧ p.tag = some (coreTag core))

/-- A natural number below a limit, which is written without a minus sign. -/
def MeansNatural (limit : Nat) (t : Nat → Node) (n : Node) (k : Nat) : Prop :=
  ∃ text, Speaks "int" t n text ∧ Content.natural? text.toList = some k ∧ k < limit

def MeansBool (t : Nat → Node) (n : Node) (b : Bool) : Prop :=
  ∃ text, Speaks "bool" t n text ∧ Content.bool? text = some b

def MeansText (t : Nat → Node) (n : Node) (text : String) : Prop :=
  ∃ p style, meant t n = .scalar p style text

/-- Nothing, or a word for the absent value. -/
def IsNothing (text : String) : Prop := text = "" ∨ Content.isNull text = true

/-- A plain scalar that says that a value is absent. -/
def Omits (p : Properties) (style : ScalarStyle) (text : String) : Prop :=
  style = .plain ∧
    (p.tag = some (coreTag "null") ∧ Content.isNull text = true ∨ p.tag = none ∧ IsNothing text)

/-- A scalar that is a value that may be absent, and is not. -/
def Offers (p : Properties) (style : ScalarStyle) (text : String) : Prop :=
  style = .plain → p.tag ≠ some (coreTag "null") ∧ (p.tag = none → ¬ IsNothing text)

/-- A text that may be absent. A plain scalar with the tag of the absent value is no text. -/
def MeansOptionalText (t : Nat → Node) (n : Node) (o : Option String) : Prop :=
  ∃ p style text, meant t n = .scalar p style text ∧
    (Omits p style text ∧ o = none ∨ Offers p style text ∧ o = some text)

/-- One of several values with names. -/
def MeansNamed {α : Type} (name : α → String) (t : Nat → Node) (n : Node) (a : α) : Prop :=
  ∃ p style text, meant t n = .scalar p style text ∧
    ((∀ tag ∈ p.tag, tag.toList.head? ≠ some '!') ∧ text = name a ∨
      p.tag = some ("!" ++ name a) ∧ style = .plain ∧ IsNothing text)

/-! ## What is written -/

/-- The tag, the style and the text of a scalar. -/
abbrev ScalarText := Option String × ScalarStyle × String

/-- What is written in the scalar that a node means, if it means one. -/
def written? (t : Nat → Node) (n : Node) : Option ScalarText :=
  match meant t n with
  | .scalar p style text => some (p.tag, style, text)
  | _ => none

/-- The values of a type hang on what is written alone, and not on where that is. -/
def Legible {α : Type} (Means : (Nat → Node) → Node → α → Prop) : Prop :=
  ∀ t n t' n', written? t n = written? t' n' → ∀ v, Means t n v → Means t' n' v

section Legible

variable {t t' : Nat → Node} {n n' : Node} {p : Properties} {style : ScalarStyle} {text : String}

theorem written?_of_meant (h : meant t n = .scalar p style text) :
    written? t n = some (p.tag, style, text) := by
  rw [written?, h]

theorem written?_eq_some {tag : Option String} :
    written? t n = some (tag, style, text) ↔
      ∃ p, meant t n = .scalar p style text ∧ p.tag = tag := by
  constructor
  · intro h
    unfold written? at h
    split at h
    · rename_i p style' text' hmeant
      cases h
      exact ⟨p, hmeant, rfl⟩
    · cases h
  · rintro ⟨p, hmeant, rfl⟩
    exact written?_of_meant hmeant

/-- Where the same is written there is a scalar of the same tag. -/
theorem meant_of_written? (h : written? t n = written? t' n')
    (hmeant : meant t n = .scalar p style text) :
    ∃ p', meant t' n' = .scalar p' style text ∧ p'.tag = p.tag :=
  written?_eq_some.mp (h.symm.trans (written?_of_meant hmeant))

theorem Speaks.congr {core : String} (h : written? t n = written? t' n')
    (hspeaks : Speaks core t n text) : Speaks core t' n' text := by
  obtain ⟨p, style, hmeant, hstyle⟩ := hspeaks
  obtain ⟨p', hmeant', htag⟩ := meant_of_written? h hmeant
  exact ⟨p', style, hmeant', by rwa [htag]⟩

theorem legible_natural {α : Type} (limit : Nat) (f : α → Nat) :
    Legible fun t n (v : α) => MeansNatural limit t n (f v) := by
  rintro t n t' n' h v ⟨text, hspeaks, hvalue⟩
  exact ⟨text, hspeaks.congr h, hvalue⟩

theorem legible_bool : Legible MeansBool := by
  rintro t n t' n' h v ⟨text, hspeaks, hvalue⟩
  exact ⟨text, hspeaks.congr h, hvalue⟩

theorem legible_text : Legible MeansText := by
  rintro t n t' n' h text ⟨p, style, hmeant⟩
  obtain ⟨p', hmeant', -⟩ := meant_of_written? h hmeant
  exact ⟨p', style, hmeant'⟩

theorem legible_optionalText : Legible MeansOptionalText := by
  rintro t n t' n' h o ⟨p, style, text, hmeant, hvalue⟩
  obtain ⟨p', hmeant', htag⟩ := meant_of_written? h hmeant
  refine ⟨p', style, text, hmeant', ?_⟩
  unfold Omits Offers at hvalue ⊢
  rwa [htag]

theorem legible_named {α : Type} (name : α → String) : Legible (MeansNamed name) := by
  rintro t n t' n' h a ⟨p, style, text, hmeant, hvalue⟩
  obtain ⟨p', hmeant', htag⟩ := meant_of_written? h hmeant
  exact ⟨p', style, text, hmeant', by rwa [htag]⟩

/-- An integer that is negative or not below the limit is no value. -/
theorem not_meansNatural {limit : Nat} {tag : Option String} {z : Int}
    (hwritten : written? t n = some (tag, style, text)) (hz : Content.integer? text = some z)
    (hout : z < 0 ∨ (limit : Int) ≤ z) (k : Nat) : ¬ MeansNatural limit t n k := by
  rintro ⟨text', ⟨p, style', hmeant, -⟩, hnatural, hlt⟩
  cases (written?_of_meant hmeant).symm.trans hwritten
  unfold Content.integer? at hz
  rw [hnatural] at hz
  obtain rfl := Option.some.inj hz
  omega

/-- A text without a tag that is no name is no value. -/
theorem not_meansNamed {α : Type} {name : α → String}
    (hwritten : written? t n = some (none, style, text)) {a : α} (hname : name a ≠ text) :
    ¬ MeansNamed name t n a := by
  rintro ⟨p, style', text', hmeant, hvalue⟩
  have heq := (written?_of_meant hmeant).symm.trans hwritten
  rw [Option.some.injEq, Prod.mk.injEq, Prod.mk.injEq] at heq
  obtain ⟨htag, -, rfl⟩ := heq
  rcases hvalue with ⟨-, htext⟩ | ⟨hnamed, -⟩
  · exact hname htext.symm
  · cases htag.symm.trans hnamed

end Legible

/-! ## Decoders -/

section Decoders

variable {α : Type} {c : Context} {n : Node}

theorem plainScalar_ok_iff {core expected : String} {read : String → Option α} {a : α} :
    plainScalar core expected read c n = .ok a ↔
      ∃ text, Speaks core c.target n text ∧ read text = some a := by
  unfold plainScalar Speaks
  rw [decoding_ok_iff]
  cases meant c.target n with
  | scalar p style s =>
      rw [and_iff_right nofun]
      dsimp only
      by_cases hspeaks : style = .plain ∨ style = .literal ∧ p.tag = some (coreTag core)
      · rw [if_pos (by simpa using hspeaks)]
        constructor
        · intro h
          cases hread : read s with
          | none =>
              rw [hread] at h
              cases h
          | some b =>
              rw [hread] at h
              cases h
              exact ⟨s, ⟨p, style, rfl, hspeaks⟩, hread⟩
        · rintro ⟨text, ⟨p', style', heq, -⟩, hread⟩
          cases heq
          rw [hread]
      · rw [if_neg (by simpa using hspeaks)]
        refine ⟨nofun, ?_⟩
        rintro ⟨text, ⟨p', style', heq, hspeaks'⟩, -⟩
        cases heq
        exact absurd hspeaks' hspeaks
  | cut => exact ⟨fun h => absurd rfl h.1, fun ⟨_, ⟨_, _, h, _⟩, _⟩ => nomatch h⟩
  | _ => exact ⟨fun h => (nomatch h.2), fun ⟨_, ⟨_, _, h, _⟩, _⟩ => nomatch h⟩

theorem naturalBelow?_eq_some {limit k : Nat} {text : String} :
    Content.naturalBelow? limit text = some k ↔
      Content.natural? text.toList = some k ∧ k < limit := by
  rw [Content.naturalBelow?, Option.filter_eq_some_iff]
  simp

theorem decodeUInt64_ok_iff {v : UInt64} :
    decodeUInt64 c n = .ok v ↔ MeansNatural UInt64.size c.target n v.toNat := by
  unfold decodeUInt64 MeansNatural
  rw [plainScalar_ok_iff]
  refine exists_congr fun text => and_congr_right fun _ => ?_
  rw [Option.map_eq_some_iff]
  constructor
  · rintro ⟨k, hk, rfl⟩
    obtain ⟨hnatural, hlt⟩ := naturalBelow?_eq_some.mp hk
    rw [show k.toUInt64.toNat = k from UInt64.toNat_ofNat_of_lt' hlt]
    exact ⟨hnatural, hlt⟩
  · intro h
    exact ⟨v.toNat, naturalBelow?_eq_some.mpr h, by simp⟩

theorem speaks_meant {core text : String} {t : Nat → Node} (h : Direct t) :
    Speaks core t (meant t n) text ↔ Speaks core t n text := by
  unfold Speaks
  rw [meant_meant h]

/-- A number of 32 bits is read as one of 64 bits first. -/
theorem decodeUInt32_ok_iff (hc : Direct c.target) {v : UInt32} :
    decodeUInt32 c n = .ok v ↔ MeansNatural UInt32.size c.target n v.toNat := by
  have hwide : ∀ {k}, plainScalar "int" "u32" (Content.naturalBelow? UInt64.size) c
      (meant c.target n) = .ok k ↔ MeansNatural UInt64.size c.target n k := by
    intro k
    rw [plainScalar_ok_iff]
    refine exists_congr fun text => ?_
    rw [speaks_meant hc, naturalBelow?_eq_some]
  unfold decodeUInt32
  rw [decoding_ok_iff]
  constructor
  · rintro ⟨-, h⟩
    cases hvalue : plainScalar "int" "u32" (Content.naturalBelow? UInt64.size) c
        (meant c.target n) with
    | error e =>
        rw [hvalue] at h
        cases h
    | ok k =>
        rw [hvalue] at h
        dsimp only [bind, Except.bind] at h
        split at h
        · rename_i hlt
          cases h
          obtain ⟨text, hspeaks, hnatural, -⟩ := hwide.mp hvalue
          rw [show k.toUInt32.toNat = k from UInt32.toNat_ofNat_of_lt' hlt]
          exact ⟨text, hspeaks, hnatural, hlt⟩
        · cases h
  · rintro ⟨text, hspeaks, hnatural, hlt⟩
    have hvalue := hwide.mpr ⟨text, hspeaks, hnatural, Nat.lt_trans hlt (by decide)⟩
    obtain ⟨p, style, hscalar, -⟩ := hspeaks
    refine ⟨by rw [hscalar]; exact nofun, ?_⟩
    rw [hvalue]
    dsimp only [bind, Except.bind]
    rw [if_pos hlt]
    simp

theorem decodeBool_ok_iff {b : Bool} : decodeBool c n = .ok b ↔ MeansBool c.target n b :=
  plainScalar_ok_iff

theorem isNothing_iff (text : String) :
    (text.isEmpty || Content.isNull text) = true ↔ IsNothing text := by
  rw [Bool.or_eq_true, String.isEmpty_iff]
  rfl

theorem decodeText_scalar (expected : String) (p : Properties) (style : ScalarStyle)
    (text : String) : decodeText expected c (.scalar p style text) = .ok text :=
  (decodeText_ok_iff expected).mpr ⟨p, style, rfl⟩

theorem decodeOption_omits {p : Properties} {style : ScalarStyle} {text expected : String}
    (hn : meant c.target n = .scalar p style text) (h : Omits p style text) :
    decodeOption (decodeText expected) c n = .ok none := by
  unfold decodeOption
  rw [resolve_eq_meant, hn]
  obtain ⟨rfl, ⟨htag, hnull⟩ | ⟨htag, hnothing⟩⟩ := h
  · dsimp only
    rw [if_pos htag, if_pos hnull]
  · dsimp only
    rw [if_neg (by rw [htag]; exact nofun), htag, Option.isNone_none, Bool.true_and,
      if_pos ((isNothing_iff text).mpr hnothing)]

theorem decodeOption_offers {p : Properties} {style : ScalarStyle} {text expected : String}
    (hn : meant c.target n = .scalar p style text) (h : Offers p style text) :
    decodeOption (decodeText expected) c n = .ok (some text) := by
  unfold decodeOption
  rw [resolve_eq_meant, hn, decodeText_scalar]
  cases style with
  | plain =>
      obtain ⟨htag, hsomething⟩ := h rfl
      have hnot : ¬ (p.tag.isNone && (text.isEmpty || Content.isNull text)) = true := by
        rw [Bool.and_eq_true, Option.isNone_iff_eq_none, isNothing_iff]
        exact fun hboth => hsomething hboth.1 hboth.2
      dsimp only
      rw [if_neg htag, if_neg hnot]
      rfl
  | _ => rfl

/-- What is neither absent nor there has the tag of the absent value. -/
theorem decodeOption_neither {p : Properties} {style : ScalarStyle} {text expected : String}
    (hn : meant c.target n = .scalar p style text) (hnot : ¬ Omits p style text)
    (hnot' : ¬ Offers p style text) (o : Option String) :
    decodeOption (decodeText expected) c n ≠ .ok o := by
  unfold Offers at hnot'
  obtain ⟨rfl, hmixed⟩ := Classical.not_imp.mp hnot'
  have htag : p.tag = some (coreTag "null") := by
    by_contra hother
    refine hmixed ⟨hother, fun hnone hnothing => hnot ⟨rfl, .inr ⟨hnone, hnothing⟩⟩⟩
  unfold decodeOption
  rw [resolve_eq_meant, hn]
  dsimp only
  rw [if_pos htag, if_neg fun hnull => hnot ⟨rfl, .inl ⟨htag, hnull⟩⟩]
  exact nofun

theorem decodeOption_text_ok_iff (hc : Direct c.target) (expected : String) {o : Option String} :
    decodeOption (decodeText expected) c n = .ok o ↔ MeansOptionalText c.target n o := by
  constructor
  · intro h
    have hpresent : ∀ m, (decodeText expected c m).map some = .ok o → meant c.target m = m →
        ∃ p style text, m = .scalar p style text := by
      intro m hm hsame
      cases hdecode : decodeText expected c m with
      | error e =>
          rw [hdecode] at hm
          cases hm
      | ok text =>
          obtain ⟨p, style, hscalar⟩ := (decodeText_ok_iff expected).mp hdecode
          exact ⟨p, style, text, hsame.symm.trans hscalar⟩
    have hscalar : ∃ p style text, meant c.target n = .scalar p style text := by
      unfold decodeOption at h
      rw [resolve_eq_meant] at h
      have hsame := meant_meant hc n
      generalize meant c.target n = m at h hsame
      cases m with
      | scalar p style text => exact ⟨p, style, text, rfl⟩
      | _ => exact hpresent _ h hsame
    obtain ⟨p, style, text, hn⟩ := hscalar
    refine ⟨p, style, text, hn, ?_⟩
    by_cases homits : Omits p style text
    · rw [decodeOption_omits hn homits] at h
      exact .inl ⟨homits, (Except.ok.inj h).symm⟩
    · by_cases hoffers : Offers p style text
      · rw [decodeOption_offers hn hoffers] at h
        exact .inr ⟨hoffers, (Except.ok.inj h).symm⟩
      · exact absurd h (decodeOption_neither hn homits hoffers o)
  · rintro ⟨p, style, text, hn, ⟨homits, rfl⟩ | ⟨hoffers, rfl⟩⟩
    · exact decodeOption_omits hn homits
    · exact decodeOption_offers hn hoffers

/-- A tag that begins with an exclamation mark. -/
theorem exists_bang {tag : String} (h : tag.toList.head? = some '!') : ∃ v, tag = "!" ++ v := by
  obtain ⟨rest, hrest⟩ := List.head?_eq_some_iff.mp h
  refine ⟨String.ofList rest, String.toList_inj.mp ?_⟩
  rw [hrest, String.toList_append, String.toList_ofList (l := rest)]
  rfl

/-- A tag names what follows its exclamation mark, if it has one; that mark alone names itself. -/
theorem variant_cases {p : Properties} {o : Option String}
    (h : (p.tag.bind fun tag => match tag.toList with
      | ['!'] => some tag
      | '!' :: v => some (String.ofList v)
      | _ => none) = o) :
    ((∀ tag ∈ p.tag, tag.toList.head? ≠ some '!') ∧ o = none) ∨
      ∃ v, p.tag = some ("!" ++ v) ∧ o = some (if v = "" then "!" else v) := by
  cases htag : p.tag with
  | none =>
      rw [htag] at h
      exact .inl ⟨nofun, h.symm⟩
  | some tag =>
      rw [htag, Option.bind_some] at h
      by_cases hbang : tag.toList.head? = some '!'
      · obtain ⟨v, rfl⟩ := exists_bang hbang
        refine .inr ⟨v, rfl, ?_⟩
        have hlist : ("!" ++ v).toList = '!' :: v.toList := String.toList_append
        rw [hlist] at h
        split at h
        · rename_i heq
          obtain rfl := String.toList_eq_nil_iff.mp (List.cons.inj heq).2
          exact h.symm
        · rename_i hmore heq
          rw [← (List.cons.inj heq).2, String.ofList_toList] at h
          rw [if_neg, h]
          rintro rfl
          exact hmore (List.cons.inj heq).2.symm
        · rename_i hnot
          exact absurd rfl (hnot v.toList)
      · refine .inl ⟨fun tag' htag' => Option.some.inj htag' ▸ hbang, ?_⟩
        split at h
        · rename_i heq
          exact absurd (by rw [heq]; rfl) hbang
        · rename_i heq
          exact absurd (by rw [heq]; rfl) hbang
        · exact h.symm

theorem find?_named {known : List α} {name : α → String} (hknown : ∀ a, a ∈ known)
    (hname : Function.Injective name) (given : String) (a : α) :
    known.find? (name · = given) = some a ↔ given = name a := by
  constructor
  · intro h
    have hfound := List.find?_some h
    exact (of_decide_eq_true hfound).symm
  · rintro rfl
    cases h : known.find? (name · = name a) with
    | none => exact absurd (by simp) (List.find?_eq_none.mp h a (hknown a))
    | some b =>
        have hfound := List.find?_some h
        rw [hname (of_decide_eq_true hfound)]

theorem bang_append_injective {v w : String} (h : "!" ++ v = "!" ++ w) : v = w := by
  have hlist := congrArg String.toList h
  rw [String.toList_append, String.toList_append] at hlist
  exact String.toList_inj.mp (List.append_cancel_left hlist)

theorem head?_bang (v : String) : ("!" ++ v).toList.head? = some '!' := by
  rw [String.toList_append]
  rfl

section Named

variable {known : List α} {name : α → String} {p : Properties} {style : ScalarStyle}
  {text v : String} {a : α}

/-- A tag names a value, if there is nothing behind it. -/
theorem decodeNamed_tagged (hn : meant c.target n = .scalar p style text)
    (htag : p.tag = some ("!" ++ v)) :
    decodeNamed known name c n = .ok a ↔
      known.find? (name · = if v = "" then "!" else v) = some a ∧
        style = .plain ∧ IsNothing text := by
  unfold decodeNamed
  rw [resolve_eq_meant, hn]
  dsimp only
  split
  · rename_i variant hvariant
    rcases variant_cases hvariant with ⟨hlocal, -⟩ | ⟨w, hw, hvariant⟩
    · exact absurd (head?_bang v) (hlocal _ htag)
    -- the name in the tag is the variant that is looked up
    rw [bang_append_injective (Option.some.inj (htag.symm.trans hw)), ← Option.some.inj hvariant]
    cases known.find? (name · = variant) with
    | none => exact ⟨nofun, fun h => nomatch h.1⟩
    | some b =>
        dsimp only [bind, Except.bind]
        by_cases hnothing : style = .plain ∧ IsNothing text
        · rw [if_pos (by simpa [IsNothing] using hnothing), and_iff_left hnothing]
          exact ⟨fun h => congrArg some (Except.ok.inj h),
            fun h => congrArg Except.ok (Option.some.inj h)⟩
        · rw [if_neg (by simpa [IsNothing] using hnothing)]
          exact ⟨nofun, fun h => absurd h.2 hnothing⟩
  · rename_i hvariant
    rcases variant_cases hvariant with ⟨hlocal, -⟩ | ⟨w, -, hw⟩
    · exact absurd (head?_bang v) (hlocal _ htag)
    · cases hw

/-- Where no tag does, a text names a value. -/
theorem decodeNamed_untagged (hn : meant c.target n = .scalar p style text)
    (hlocal : ∀ tag ∈ p.tag, tag.toList.head? ≠ some '!') :
    decodeNamed known name c n = .ok a ↔ known.find? (name · = text) = some a := by
  unfold decodeNamed
  rw [resolve_eq_meant, hn]
  dsimp only
  split
  · rename_i variant hvariant
    rcases variant_cases hvariant with ⟨-, hnone⟩ | ⟨w, hw, -⟩
    · cases hnone
    · exact absurd (head?_bang w) (hlocal _ hw)
  · cases known.find? (name · = text) with
    | none => exact ⟨nofun, nofun⟩
    | some b =>
        exact ⟨fun h => congrArg some (Except.ok.inj h),
          fun h => congrArg Except.ok (Option.some.inj h)⟩

/-- What is no scalar names no value: if its tag does, there is something behind it. -/
theorem decodeNamed_scalar (h : decodeNamed known name c n = .ok a) :
    ∃ p style text, meant c.target n = .scalar p style text := by
  unfold decodeNamed at h
  rw [resolve_eq_meant] at h
  cases hn : meant c.target n with
  | scalar p style text => exact ⟨p, style, text, rfl⟩
  | reference m b =>
      rw [hn] at h
      cases h
  | cut =>
      rw [hn] at h
      cases h
  | sequence p items closed | mapping p items closed =>
      rw [hn] at h
      dsimp only at h
      split at h
      · rename_i variant _
        cases hfound : known.find? (name · = variant) with
        | none =>
            rw [hfound] at h
            cases h
        | some b =>
            rw [hfound] at h
            cases h
      · cases h

/-- A value is named by a scalar, or by its tag. -/
theorem decodeNamed_ok_iff (hknown : ∀ a, a ∈ known) (hname : Function.Injective name)
    (hplain : ∀ a, name a ≠ "" ∧ name a ≠ "!") :
    decodeNamed known name c n = .ok a ↔ MeansNamed name c.target n a := by
  have hfind := find?_named hknown hname
  constructor
  · intro h
    obtain ⟨p, style, text, hn⟩ := decodeNamed_scalar h
    refine ⟨p, style, text, hn, ?_⟩
    by_cases hlocal : ∀ tag ∈ p.tag, tag.toList.head? ≠ some '!'
    · exact .inl ⟨hlocal, (hfind _ _).mp ((decodeNamed_untagged hn hlocal).mp h)⟩
    · push Not at hlocal
      obtain ⟨tag, htag, hbang⟩ := hlocal
      obtain ⟨v, rfl⟩ := exists_bang hbang
      obtain ⟨hfound, hnothing⟩ := (decodeNamed_tagged hn htag).mp h
      have hv := (hfind _ _).mp hfound
      split at hv
      · exact absurd hv.symm (hplain a).2
      · exact .inr ⟨by rw [← hv]; exact htag, hnothing⟩
  · rintro ⟨p, style, text, hn, ⟨hlocal, rfl⟩ | ⟨htag, hnothing⟩⟩
    · exact (decodeNamed_untagged hn hlocal).mpr ((hfind _ _).mpr rfl)
    · refine (decodeNamed_tagged hn htag).mpr ⟨(hfind _ _).mpr ?_, hnothing⟩
      exact if_neg (hplain a).1

end Named

end Decoders

end CommuteSim.Yaml
