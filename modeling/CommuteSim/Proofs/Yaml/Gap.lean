import CommuteSim.Yaml.Node.Printer
import CommuteSim.Yaml.Token.Scalar
import Mathlib.Data.List.Chain
import Mathlib.Data.List.TakeWhile

/-!
# The white space that the printer writes

The printer writes the line feed and the two Unicode separators as they are, and indents with
spaces. `takeGap` reads such white space back: a run of spaces within a line, or a run of breaks
and the indentation after it.
-/

namespace CommuteSim.Yaml

/-! ## Characters -/

theorem isAllowed_of_isPrintable {c : Char} (h : isPrintable c) : isAllowed c := by
  simp only [isPrintable, isAllowed, Bool.or_eq_true, Bool.and_eq_true, decide_eq_true_eq,
    ne_eq] at h ⊢
  have := c.valid
  simp only [UInt32.isValidChar, Nat.isValidChar] at this
  change (c.toNat < _) ∨ (_ < c.toNat ∧ c.toNat < _) at this
  omega

/-- A character whose number is not that of a printable one. -/
theorem ne_of_isPrintable {c x : Char} (h : isPrintable c) (hx : isPrintable x = false) :
    c ≠ x := by
  rintro rfl
  simp [h] at hx

theorem isBlank_of_isPrintable {c : Char} (h : isPrintable c) : isBlank c = decide (c = ' ') := by
  have htab : c ≠ '\t' := ne_of_isPrintable h (by decide)
  simp [isBlank, htab]

/-- The breaks that need no escape. -/
theorem isBreak_iff_of_isPrintable {c : Char} (h : isPrintable c) :
    isBreak c ↔ c = '\n' ∨ c = '\u2028' ∨ c = '\u2029' := by
  have hreturn : c ≠ '\r' := ne_of_isPrintable h (by decide)
  have hnext : c ≠ '\x85' := ne_of_isPrintable h (by decide)
  simp [isBreak, hreturn, hnext, or_assoc]

theorem isBlank_of_isBreak {c : Char} (h : isPrintable c) (hb : isBreak c) :
    isBlank c = false := by
  rcases (isBreak_iff_of_isPrintable h).mp hb with rfl | rfl | rfl <;> decide

/-- A text that does not go on with white space. -/
def Solid (t : List Char) : Prop := ∀ x ∈ t.head?, isGap x = false

@[simp] theorem solid_cons {x : Char} {t : List Char} : Solid (x :: t) ↔ isGap x = false := by
  simp [Solid]

theorem isGap_eq_false {c : Char} : isGap c = false ↔ isBlank c = false ∧ isBreak c = false := by
  simp [isGap]

theorem Solid.not_break {t : List Char} (h : Solid t) : ∀ x ∈ t.head?, isBreak x = false :=
  fun x hx => (isGap_eq_false.mp (h x hx)).2

theorem Solid.not_blank {t : List Char} (h : Solid t) : ∀ x ∈ t.head?, isBlank x = false :=
  fun x hx => (isGap_eq_false.mp (h x hx)).1

theorem atGap_eq (t : List Char) : atGap t = t.head?.all isGap := by
  cases t <;> simp [atGap, isGap]

/-! ## Characters and their successors -/

/-- A test that no character and its successor pass. -/
theorem isChain_of_withNext {p : Char × Option Char → Bool} {cs : List Char}
    (h : (withNext cs).any p = false) : cs.IsChain fun a b => p (a, some b) = false := by
  induction cs with
  | nil => exact .nil
  | cons a r ih =>
    obtain ⟨ha, hr⟩ : p (a, r.head?) = false ∧ (withNext r).any p = false := by
      simpa [withNext] using h
    cases r with
    | nil => exact .singleton a
    | cons b r => exact .cons_cons ha (ih hr)

/-! ## Texts in parts -/

/-- A text as runs of characters without a property, with runs of characters with it between
them. -/
inductive Parted (p : Char → Bool) : List Char → Prop where
  | run {a : List Char} (outside : ∀ x ∈ a, p x = false) : Parted p a
  | join {a g w : List Char} (outside : ∀ x ∈ a, p x = false) (some_ : g ≠ [])
      (inside : ∀ x ∈ g, p x) (fresh : ∀ x ∈ w.head?, p x = false) (rest : Parted p w) :
      Parted p (a ++ (g ++ w))

theorem outside_takeWhile (p : Char → Bool) (w : List Char) :
    ∀ x ∈ w.takeWhile (!p ·), p x = false := by
  intro x hx
  simpa using List.mem_takeWhile_imp hx

theorem head?_dropWhile (p : Char → Bool) (w : List Char) :
    ∀ x ∈ (w.dropWhile p).head?, p x = false := by
  intro x hx
  have := List.head?_dropWhile_not p w
  rwa [Option.mem_def.mp hx] at this

theorem parted (p : Char → Bool) (w : List Char) : Parted p w := by
  induction hn : w.length using Nat.strongRecOn generalizing w with
  | _ n ih =>
    let a := w.takeWhile (!p ·)
    let v := w.dropWhile (!p ·)
    have hw : a ++ v = w := List.takeWhile_append_dropWhile
    cases hv : v with
    | nil =>
      rw [← hw, hv, List.append_nil]
      exact .run (outside_takeWhile p w)
    | cons x r =>
      have hx : p x := by
        have := head?_dropWhile (!p ·) w x (by rw [show w.dropWhile (!p ·) = x :: r from hv]; rfl)
        simpa using this
      have hsplit : v = (x :: r.takeWhile p) ++ r.dropWhile p := by
        rw [hv, List.cons_append, List.takeWhile_append_dropWhile]
      have hlength : (r.dropWhile p).length < n := by
        have := (List.dropWhile_sublist p (l := r)).length_le
        have := congrArg List.length hw
        simp only [hv, List.length_append, List.length_cons] at this
        omega
      rw [← hw, hsplit]
      refine .join (outside_takeWhile p w) (by simp) ?_ (head?_dropWhile p r) (ih _ hlength _ rfl)
      intro y hy
      rcases List.mem_cons.mp hy with rfl | hy
      · exact hx
      · exact List.mem_takeWhile_imp hy

/-! ## Spaces -/

theorem spaces_succ (n : Nat) : spaces (n + 1) = ' ' :: spaces n := List.replicate_succ

@[simp] theorem spaces_zero : spaces 0 = [] := rfl

@[simp] theorem length_spaces (n : Nat) : (spaces n).length = n := List.length_replicate

/-! ## Cursors -/

namespace Cursor

@[simp] theorem skip_rest (c : Cursor) (n : Nat) : (c.skip n).rest = c.rest.drop n := rfl

@[simp] theorem skip_column (c : Cursor) (n : Nat) : (c.skip n).column = c.column + n := rfl

@[simp] theorem skip_line (c : Cursor) (n : Nat) : (c.skip n).line = c.line := rfl

@[simp] theorem skip_index (c : Cursor) (n : Nat) : (c.skip n).index = c.index + n := rfl

@[simp] theorem skip_zero (c : Cursor) : c.skip 0 = c := by simp [skip]

@[simp] theorem skip_skip (c : Cursor) (m n : Nat) : (c.skip m).skip n = c.skip (m + n) := by
  simp [skip, Nat.add_assoc]

theorem head_of_cons {c : Cursor} {x : Char} {r : List Char} (h : c.rest = x :: r) :
    c.head = x := by
  simp [head, h]

/-- What is left after the characters of a class. -/
theorem skipWhile_of_append {c : Cursor} {p : Char → Bool} {a t : List Char}
    (h : c.rest = a ++ t) (ha : ∀ x ∈ a, p x) (ht : ∀ x ∈ t.head?, p x = false) :
    c.takeWhile p = (a, c.skip a.length) := by
  have : c.rest.takeWhile p = a := by
    rw [h, List.takeWhile_append_of_pos ha]
    cases t <;> simp_all
  simp [takeWhile, this]

/-- A break that needs no escape is read as itself. -/
theorem takeBreak_of_isBreak {c : Cursor} {b : Char} {r : List Char} (h : c.rest = b :: r)
    (hp : isPrintable b) (hb : isBreak b) :
    c.takeBreak = ([b], ⟨r, c.index + 1, c.line + 1, 0⟩) := by
  obtain ⟨rest, index, line, column⟩ := c
  cases h
  rcases (isBreak_iff_of_isPrintable hp).mp hb with rfl | rfl | rfl <;> rfl

end Cursor

/-! ## Gaps -/

/-- Spaces within a line. -/
theorem takeGap_spaces (p : Nat → Bool) {t : List Char} (ht : Solid t) (n : Nat) :
    ∀ {fuel : Nat} {g : Gap} {c : Cursor}, n < fuel → c.rest = spaces n ++ t →
      takeGap p fuel g c =
        .ok (if g.broken then g else { g with blanks := g.blanks ++ spaces n }, c.skip n) := by
  induction n with
  | zero =>
    intro fuel g c hfuel hrest
    obtain ⟨fuel, rfl⟩ : ∃ m, fuel = m + 1 := ⟨fuel - 1, by omega⟩
    cases t with
    | nil => simp [takeGap, hrest]
    | cons x t =>
      obtain ⟨hblank, hbreak⟩ := isGap_eq_false.mp (solid_cons.mp ht)
      simp [takeGap, hrest, hblank, hbreak]
  | succ n ih =>
    intro fuel g c hfuel hrest
    obtain ⟨fuel, rfl⟩ : ∃ m, fuel = m + 1 := ⟨fuel - 1, by omega⟩
    rw [spaces_succ, List.cons_append] at hrest
    have hnext : (c.skip 1).rest = spaces n ++ t := by simp [hrest]
    have hblank : isBlank ' ' = true := by decide
    cases hg : g.broken <;>
      simp [takeGap, hrest, hblank, hg, ih (Nat.lt_of_succ_lt_succ hfuel) hnext, spaces_succ,
        Nat.add_comm]

/-- A gap of spaces. -/
theorem takeGap_blanks (p : Nat → Bool) {t : List Char} (ht : Solid t) {n fuel : Nat} {c : Cursor}
    (hfuel : n < fuel) (hrest : c.rest = spaces n ++ t) :
    takeGap p fuel {} c = .ok ({ blanks := spaces n }, c.skip n) := by
  simp [takeGap_spaces p ht n hfuel hrest]

/-- The gap that a break and further ones make. -/
def brokenGap (b : Char) (bs : List Char) : Gap := { first := [b], more := bs, broken := true }

/-- Further breaks and the indentation after them. -/
theorem takeGap_breaks (p : Nat → Bool) {t : List Char} (ht : Solid t) {n : Nat} {b : Char}
    (bs : List Char) (hbs : ∀ x ∈ bs, isPrintable x ∧ isBreak x) :
    ∀ {fuel : Nat} {ms : List Char} {c : Cursor}, bs.length + n < fuel →
      c.rest = bs ++ (spaces n ++ t) → ∃ c', takeGap p fuel (brokenGap b ms) c =
        .ok (brokenGap b (ms ++ bs), c') ∧ c'.rest = t ∧
          c'.column = if bs = [] then c.column + n else n := by
  induction bs with
  | nil =>
    intro fuel ms c hfuel hrest
    refine ⟨c.skip n, ?_, by simp [hrest], by simp⟩
    simp [takeGap_spaces p ht n (by simpa using hfuel) hrest, brokenGap]
  | cons x bs ih =>
    intro fuel ms c hfuel hrest
    obtain ⟨fuel, rfl⟩ : ∃ m, fuel = m + 1 := ⟨fuel - 1, by omega⟩
    obtain ⟨⟨hp, hb⟩, hbs⟩ := List.forall_mem_cons.mp hbs
    rw [List.cons_append] at hrest
    have hblank := isBlank_of_isBreak hp hb
    obtain ⟨c', hc', hrest', hcolumn'⟩ :=
      @ih hbs fuel (ms ++ [x]) ⟨bs ++ (spaces n ++ t), c.index + 1, c.line + 1, 0⟩
        (by simp only [List.length_cons] at hfuel; omega) rfl
    refine ⟨c', ?_, hrest', by simpa using hcolumn'⟩
    rw [← List.append_cons] at hc'
    simpa [takeGap, hrest, hblank, hb, Cursor.takeBreak_of_isBreak hrest hp hb, brokenGap] using hc'

/-- A break, further ones and the indentation after them. -/
theorem takeGap_break (p : Nat → Bool) {t : List Char} (ht : Solid t) {n : Nat} {b : Char}
    {bs : List Char} (hbs : ∀ x ∈ b :: bs, isPrintable x ∧ isBreak x) {fuel : Nat} {c : Cursor}
    (hfuel : bs.length + n + 1 < fuel) (hrest : c.rest = b :: bs ++ (spaces n ++ t)) :
    ∃ c', takeGap p fuel {} c = .ok (brokenGap b bs, c') ∧ c'.rest = t ∧ c'.column = n := by
  obtain ⟨fuel, rfl⟩ : ∃ m, fuel = m + 1 := ⟨fuel - 1, by omega⟩
  obtain ⟨⟨hp, hb⟩, hbs⟩ := List.forall_mem_cons.mp hbs
  rw [List.cons_append] at hrest
  have hblank := isBlank_of_isBreak hp hb
  obtain ⟨c', hc', hrest', hcolumn'⟩ :=
    @takeGap_breaks p t ht n b bs hbs fuel []
      ⟨bs ++ (spaces n ++ t), c.index + 1, c.line + 1, 0⟩ (by omega) rfl
  refine ⟨c', ?_, hrest', by simpa using hcolumn'⟩
  simpa [takeGap, hrest, hblank, hb, Cursor.takeBreak_of_isBreak hrest hp hb, brokenGap] using hc'

end CommuteSim.Yaml
