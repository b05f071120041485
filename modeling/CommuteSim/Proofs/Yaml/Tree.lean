import CommuteSim.Proofs.Yaml.Lexer

/-!
# The tokens of a written tree

The tokens of a tree of named values, as the printer writes it, are the tokens of its nodes in
order. A node's tokens are taken from the state behind its colon, the tokens of the entries of a
mapping from the line of the first one; the induction goes over the tree.
-/

namespace CommuteSim.Yaml

/-! ## Several tokens -/

namespace Lexer

/-- Some tokens more, none of them the last one of the text. -/
inductive Steps : (n : Nat) → Lexer → Lexer → Prop where
  | refl (l : Lexer) : Steps 0 l l
  | step {n : Nat} {l l₁ l₂ : Lexer} (next : l.next = .ok l₁)
      (running : l₁.outline.kinds.getLast? ≠ some .streamEnd) (rest : Steps n l₁ l₂) :
      Steps (n + 1) l l₂

theorem Steps.trans {m n : Nat} {l l₁ l₂ : Lexer} (h : Steps m l l₁) (h' : Steps n l₁ l₂) :
    Steps (m + n) l l₂ := by
  induction h with
  | refl => simpa using h'
  | step next running _ ih =>
    rw [Nat.add_right_comm]
    exact .step next running (ih h')

theorem isEnd_eq (l : Lexer) :
    l.tokens.back?.any (·.kind = .streamEnd) =
      decide (l.outline.kinds.getLast? = some .streamEnd) := by
  have : l.outline.kinds.getLast? = l.tokens.back?.map (·.kind) := by
    simp [outline, Array.getLast?_toList]
  rw [this]
  cases l.tokens.back? <;> simp

theorem run_succ (fuel : Nat) (l : Lexer) :
    l.run (fuel + 1) =
      match l.next with
      | .error e => ⟨l.settled, some e⟩
      | .ok l =>
        if l.tokens.back?.any (·.kind = .streamEnd) then ⟨l.tokens.toList, none⟩
        else l.run fuel := by
  rfl

/-- The lexer goes on after some tokens. -/
theorem run_of_steps {n : Nat} {l l' : Lexer} (h : Steps n l l') (fuel : Nat) :
    l.run (n + fuel) = l'.run fuel := by
  induction h with
  | refl => simp
  | @step n l l₁ l₂ next running _ ih =>
    rw [show n + 1 + fuel = n + fuel + 1 by omega, run_succ, next]
    simpa only [isEnd_eq, running, decide_false, Bool.false_eq_true, if_false] using ih

theorem outline_keyAllowed (l : Lexer) (b : Bool) :
    ({ l with keyAllowed := b } : Lexer).outline = l.outline := rfl

/-- At the end of the text the open collections are closed. -/
theorem Reaches.next_end {l : Lexer} {o : Outline} (h : l.Reaches [] 0 o) :
    ∃ l', l.next = .ok l' ∧ l'.outline.kinds = (o.close (-1)).kinds ++ [.streamEnd] := by
  obtain ⟨l₀, hnext, hon⟩ := h.next_token
  have hcalm : (l₀.closeBlocks (-1)).Calm := ⟨by simp [hon.block], by simp [hon.idle]⟩
  have hgrounded : l₀.outline.Grounded := by
    rw [hon.outline, ← h.closed]
    exact h.grounded.close (by omega)
  have hclosed : (l₀.closeBlocks (-1)).outline = o.close (-1) := by
    rw [outline_closeBlocks hon.block hgrounded (by omega), hon.outline]
  rw [hnext, token_end hon.rest]
  simp only [endToken, hon.column, if_true, dropKey_of_calm hcalm, bind, Except.bind, pure,
    Except.pure]
  refine ⟨_, rfl, ?_⟩
  rw [outline_addTo, outline_keyAllowed, hclosed]
  rfl

end Lexer

/-! ## Trees of named values -/

/-- A key that is a name. -/
def Node.IsKey : Node → Prop
  | .scalar _ style s => style = .plain ∧ IsName s.toList
  | _ => False

mutual

/-- A tree of named values: mappings from names that have entries, and scalars in styles that keep
their texts. -/
def Node.Legible : Node → Prop
  | .scalar _ style s => style.Keeps s.toList
  | .mapping _ entries _ => entries ≠ [] ∧ LegibleEntries entries
  | _ => False

def LegibleEntries : List (Node × Node) → Prop
  | [] => True
  | (k, v) :: rest => k.IsKey ∧ v.Legible ∧ LegibleEntries rest

end

mutual

/-- The tokens of a tree of named values. -/
def Node.kinds : Node → List TokenKind
  | .scalar _ style s => [.scalar (style.settled s.toList) s]
  | .mapping _ entries _ => .blockMappingStart :: entryKinds entries ++ [.blockEnd]
  | _ => []

def entryKinds : List (Node × Node) → List TokenKind
  | [] => []
  | (k, v) :: rest => .key :: k.kinds ++ .value :: v.kinds ++ entryKinds rest

end

theorem fst_mem_of_withNext {cs : List Char} : ∀ q ∈ withNext cs, q.1 ∈ cs := by
  induction cs with
  | nil => simp [withNext]
  | cons c r ih =>
    rintro q hq
    rcases List.mem_cons.mp hq with rfl | hq
    · exact List.mem_cons_self
    · exact List.mem_cons_of_mem _ (ih q hq)

theorem allowsPlain_letters {cs : List Char} (h : Lettered cs) : allowsPlain cs := by
  have hgap : ∀ x ∈ cs, isGap x = false := fun x hx => isGap_letter x (h x hx)
  have hspace : ' ' ∉ cs := fun hmem => absurd (hgap _ hmem) (by decide)
  have hcolon : ':' ∉ cs := fun hmem => absurd (h _ hmem) (by decide)
  have hprintable : cs.all isPrintable = true :=
    List.all_eq_true.mpr fun x hx => isPrintable_letter x (h x hx)
  have hbreak : cs.any isBreak = false :=
    List.any_eq_false.mpr fun x hx => by simp [(isGap_eq_false.mp (hgap x hx)).2]
  have hstart : startsIndicator cs = false := by
    cases cs with
    | nil => rfl
    | cons x r => exact Lexer.startsIndicator_letter x (h x (by simp)) r
  have hholds : holdsIndicator cs = false := by
    simp only [holdsIndicator, Bool.or_eq_false_iff, List.any_eq_false]
    constructor
    · intro q hq hcond
      have hmem := List.mem_of_mem_drop (fst_mem_of_withNext q hq)
      simp only [Bool.and_eq_true, decide_eq_true_eq] at hcond
      exact hcolon (hcond.1 ▸ hmem)
    · intro q hq hcond
      simp [hgap _ (fst_mem_of_withNext q hq)] at hcond
  have hhead : cs.head? ≠ some ' ' := fun hx => hspace (List.mem_of_mem_head? hx)
  have hlast : cs.getLast? ≠ some ' ' := fun hx => hspace (List.mem_of_getLast? hx)
  simp [allowsPlain, hprintable, hbreak, hstart, hholds, hhead, hlast]

theorem settled_letters {cs : List Char} (h : Lettered cs) :
    ScalarStyle.plain.settled cs = .plain := by
  simp [ScalarStyle.settled, allowsPlain_letters h]

/-- The text of a key. -/
theorem Node.IsKey.exists_name {n : Node} (h : n.IsKey) : ∃ p s, n = .scalar p .plain s ∧
    IsName s.toList ∧ n.kinds = [.scalar .plain s] ∧
    ∀ indent, (scalarLine indent .plain s).dropLast = s.toList := by
  cases n with
  | scalar p style s =>
    obtain ⟨rfl, hname⟩ := h
    refine ⟨p, s, rfl, hname, by simp [Node.kinds, settled_letters hname.letters], fun indent => ?_⟩
    simp [scalarLine, settled_letters hname.letters]
  | _ => exact h.elim

/-! ## Lines -/

open Lexer

theorem spaces_append_inj {R R' : List Char} (h : StartsLine R) (h' : StartsLine R') {m n : Nat}
    (heq : spaces m ++ R = spaces n ++ R') : m = n ∧ R = R' := by
  induction m generalizing n with
  | zero =>
    cases n with
    | zero => exact ⟨rfl, heq⟩
    | succ n =>
      have hspace : (' ' : Char) ∈ R.head? := by
        rw [← List.nil_append R, ← spaces_zero, heq, spaces_succ]
        rfl
      exact absurd (h _ hspace) (by decide)
  | succ m ih =>
    cases n with
    | zero =>
      have hspace : (' ' : Char) ∈ R'.head? := by
        rw [← List.nil_append R', ← spaces_zero, ← heq, spaces_succ]
        rfl
      exact absurd (h' _ hspace) (by decide)
    | succ n =>
      simp only [spaces_succ, List.cons_append, List.cons.injEq, true_and] at heq
      obtain ⟨rfl, hR⟩ := ih heq
      exact ⟨rfl, hR⟩

theorem entryLines_cons {k : Nat} {p : Properties} {s : String} (hname : IsName s.toList)
    (v : Node) (rest : List (Node × Node)) :
    Node.entryLines true k ((.scalar p .plain s, v) :: rest) =
      spaces k ++
        (s.toList ++ ':' :: (Node.written .field k v ++ Node.entryLines true k rest)) := by
  simp [Node.entryLines, scalarLine, settled_letters hname.letters]

theorem startsLine_name {cs : List Char} (h : IsName cs) (t : List Char) :
    StartsLine (cs ++ t) := by
  obtain ⟨x, r, rfl⟩ := List.exists_cons_of_ne_nil h.ne_nil
  intro y hy
  obtain rfl : x = y := by simpa using hy
  exact h.letters x (by simp)

/-- The entries of a mapping and what follows them begin with a line. -/
theorem exists_line {k j : Nat} {R : List Char} (hR : StartsLine R) (hj : j ≤ k)
    {es : List (Node × Node)} (hes : LegibleEntries es) :
    ∃ c R₀, Node.entryLines true k es ++ (spaces j ++ R) = spaces c ++ R₀ ∧ StartsLine R₀ ∧
      c ≤ k := by
  cases es with
  | nil => exact ⟨j, R, rfl, hR, hj⟩
  | cons e rest =>
    obtain ⟨key, v⟩ := e
    obtain ⟨p, s, rfl, hname, -⟩ := hes.1.exists_name
    refine ⟨k, s.toList ++ ':' :: (Node.written .field k v ++ Node.entryLines true k rest) ++
      (spaces j ++ R), ?_, ?_, Nat.le_refl k⟩
    · rw [entryLines_cons hname, List.append_assoc]
    · rw [List.append_assoc]
      exact startsLine_name hname _

/-! ## Taking a tree -/

namespace Outline

variable {o : Outline} {j m : Int}

/-- A mapping that was opened is closed by what stands further left. -/
theorem close_opened {ks : List TokenKind} (hm : ∀ i ∈ o.columns.head?, i < m) (hne : o.Grounded)
    (hj : j < m) :
    ((o.opened m).add ks).close j = (o.add (.blockMappingStart :: ks ++ [.blockEnd])).close j := by
  obtain ⟨i, is, his⟩ := List.exists_cons_of_ne_nil hne.ne_nil
  have hopen : o.columns.head?.any (· < m) := by
    have := hm i (by simp [his])
    simp [his, this]
  simp [opened, hopen, add, close, hj]

theorem opened_of_open (hopen : m ∈ o.columns.head?) : o.opened m = o := by
  have : o.columns.head? = some m := hopen
  simp [opened, this]

theorem mem_head?_opened (h : o.Within m) (hg : o.Grounded) : m ∈ (o.opened m).columns.head? := by
  obtain ⟨i, is, his⟩ := List.exists_cons_of_ne_nil hg.ne_nil
  have hi := h i (by simp [his])
  by_cases hlt : i < m
  · simp [opened, his, hlt]
  · have : i = m := by omega
    simp [opened, his, this]

end Outline

/-- A mapping is open at a column. -/
def Outline.OpenAt (o : Outline) (k : Nat) : Prop := (k : Int) ∈ o.columns.head?

theorem Outline.OpenAt.add {o : Outline} {k : Nat} (h : o.OpenAt k) (ks : List TokenKind) :
    (o.add ks).OpenAt k := h

theorem Outline.Within.add {o : Outline} {k : Int} (h : o.Within k) (ks : List TokenKind) :
    (o.add ks).Within k := h

theorem Outline.OpenAt.head {o : Outline} {k : Nat} (h : o.OpenAt k) :
    ∀ i ∈ o.columns.head?, i = k :=
  fun _ hi => Option.mem_unique hi h

/-- A value is set off from its colon. -/
theorem atGap_written {k : Nat} {v : Node} (hv : v.Legible) (t : List Char) :
    atGap (Node.written .field k v ++ t) := by
  cases v with
  | scalar p style s => rfl
  | mapping p entries closed =>
    have hne : entries.isEmpty = false := by simpa using hv.1
    simp [Node.written, hne, atGap, isBreak]
  | _ => exact hv.elim

/-- The tokens of a value are taken, from the colon in front of it. -/
def TakesValue (v : Node) : Prop :=
  ∀ ⦃k : Nat⦄ ⦃l : Lexer⦄ ⦃o : Outline⦄ ⦃j : Nat⦄ ⦃R : List Char⦄, j ≤ k → StartsLine R →
    o.OpenAt k → l.Behind (Node.written .field k v ++ (spaces j ++ R)) k o →
    ∃ n l', n ≤ (Node.written .field k v).length ∧ Steps n l l' ∧
      l'.Reaches R j ((o.add v.kinds).close j)

/-- The tokens of the entries of a mapping are taken, from the line of the first one. -/
def TakesEntries (es : List (Node × Node)) : Prop :=
  ∀ ⦃k : Nat⦄ ⦃l : Lexer⦄ ⦃o : Outline⦄ ⦃c j : Nat⦄ ⦃R₀ R : List Char⦄, j ≤ k → StartsLine R →
    StartsLine R₀ → Node.entryLines true k es ++ (spaces j ++ R) = spaces c ++ R₀ →
    o.Within k → (es = [] → o.OpenAt k) → l.Reaches R₀ c (o.close c) →
    ∃ n l', n ≤ (Node.entryLines true k es).length ∧ Steps n l l' ∧
      l'.Reaches R j (((o.opened k).add (entryKinds es)).close j)

theorem takesValue_mapping {p : Properties} {entries : List (Node × Node)} {closed : Bool}
    (hv : (Node.mapping p entries closed).Legible) (htakes : TakesEntries entries) :
    TakesValue (.mapping p entries closed) := by
  intro k l o j R hj hR hopen h
  obtain ⟨hne, hentries⟩ := hv
  have hwritten : Node.written .field k (.mapping p entries closed) =
      '\n' :: Node.entryLines true (k + 2) entries := by
    simp [Node.written, hne]
  obtain ⟨c, R₀, heq, hR₀, -⟩ := exists_line hR (show j ≤ k + 2 by omega) hentries
  rw [hwritten, List.cons_append, heq] at h
  have hhead := hopen.head
  have hwithin : o.Within (k + 2 : Nat) := fun i hi => by
    rw [hhead i hi]
    omega
  have hreaches := reaches_line h.toCalm (by rw [h.outline]; exact h.grounded) hR₀.fresh h.rest
  rw [h.outline] at hreaches
  obtain ⟨n, l', hn, hsteps, hend⟩ := htakes (by omega) hR hR₀ heq hwithin
    (fun h => absurd h hne) hreaches
  refine ⟨n, l', by simp [hwritten]; omega, hsteps, ?_⟩
  rwa [Outline.close_opened (fun i hi => by rw [hhead i hi]; omega) h.grounded (by omega)] at hend

theorem takesEntries_cons {key v : Node} {rest : List (Node × Node)} (hkey : key.IsKey)
    (hrest : LegibleEntries rest) (hv : v.Legible) (htakes : TakesValue v)
    (htakesRest : TakesEntries rest) : TakesEntries ((key, v) :: rest) := by
  intro k l o c j R₀ R hj hR hR₀ heq hwithin hopen h
  obtain ⟨p, s, rfl, hname, hkinds, -⟩ := hkey.exists_name
  rw [entryLines_cons hname, List.append_assoc, List.append_assoc] at heq
  obtain ⟨rfl, rfl⟩ := spaces_append_inj (startsLine_name hname _) hR₀ heq
  rw [Outline.close_of_within hwithin, List.cons_append, List.append_assoc] at h
  -- The key and its colon, then the value, then the other entries.
  obtain ⟨l₁, l₂, hnext₁, hlast₁, hnext₂, hlast₂, hbehind⟩ :=
    h.next_key hname (atGap_written hv _)
  obtain ⟨c', R', heq', hR', hc'⟩ := exists_line hR hj hrest
  have hopened : (o.opened k).OpenAt k :=
    Outline.mem_head?_opened hwithin (h.closed ▸ h.grounded.close (by omega))
  have hwithin' : (o.opened k).Within k := Outline.within_opened hwithin
  rw [heq'] at hbehind
  obtain ⟨n₁, l₃, hn₁, hsteps₁, hreaches₁⟩ := htakes hc' hR' (hopened.add _) hbehind
  obtain ⟨n₂, l₄, hn₂, hsteps₂, hreaches₂⟩ := htakesRest hj hR hR' heq'
    ((hwithin'.add _).add _) (fun _ => (hopened.add _).add _) hreaches₁
  refine ⟨n₁ + n₂ + 1 + 1, l₄, ?_, .step hnext₁ (by simp [hlast₁])
    (.step hnext₂ (by simp [hlast₂]) (hsteps₁.trans hsteps₂)), ?_⟩
  · have := List.length_pos_iff.mpr hname.ne_nil
    rw [entryLines_cons hname]
    simp only [List.length_append, List.length_cons]
    omega
  · rw [Outline.opened_of_open ((hopened.add _).add _)] at hreaches₂
    simpa [entryKinds, hkinds] using hreaches₂

/-- The tokens of a tree of named values. By induction on the tree. -/
theorem takes_legible :
    (∀ v : Node, v.Legible → TakesValue v) ∧ ∀ es, LegibleEntries es → TakesEntries es := by
  have h : (∀ v : Node, v.Legible → TakesValue v) ∧ (∀ _ : List Node, True) ∧
      ∀ es, LegibleEntries es → TakesEntries es := by
    apply Node.induction
    case scalar =>
      intro p style s hv k l o j R hj hR hopen h
      simp only [Node.written, Node.Slot.blank, List.cons_append, List.nil_append] at h ⊢
      obtain ⟨l', hnext, hreaches, hlast⟩ := h.reaches hR (h.takes_scalar hv hj hR)
      exact ⟨1, l', by simp, .step hnext (by simp [hlast]) (.refl l'), hreaches⟩
    case mapping =>
      exact fun p entries closed hentries hv => takesValue_mapping hv (hentries hv.2)
    case sequence => exact fun _ _ _ _ hv => hv.elim
    case reference => exact fun _ _ hv => hv.elim
    case cut => exact fun hv => hv.elim
    case noItem => trivial
    case item => exact fun _ _ _ _ => trivial
    case noEntry =>
      intro _ k l o c j R₀ R hj hR hR₀ heq hwithin hopen h
      obtain ⟨rfl, rfl⟩ := spaces_append_inj hR hR₀ heq
      refine ⟨0, l, by simp, .refl l, ?_⟩
      rw [Outline.opened_of_open (hopen rfl)]
      simpa [entryKinds, Outline.add] using h
    case entry =>
      intro key v rest _ hv hrest h
      exact takesEntries_cons h.1 h.2.2 h.2.1 (hv h.2.1) (hrest h.2.2)
  exact ⟨h.1, h.2.2⟩

end CommuteSim.Yaml
