import CommuteSim.Timing.Ledger

/-!
# How a ledger is kept

As long as iterations are opened in the order of their indices, the table of the open one stands
behind the tables of all iterations before it, and only that table is written in. Each phase is an
operation that starts and ends before the next one starts, and the operation that covers the
iteration starts before all of them and ends behind them. So when the iteration is closed, there is
one table more, in which all operations have ended.

Main statement: `Covers.table`, from `Timed.writes` for the phases of an iteration.
-/

namespace CommuteSim

/-! ## Maps in order -/

namespace SortedMap

variable {κ α : Type} [DecidableEq κ] [LT κ] [DecidableLT κ] {m : SortedMap κ α} {k : κ}

omit [LT κ] [DecidableLT κ] in
theorem mem_of_get? {a : α} (h : get? m k = some a) : (k, a) ∈ m := by
  induction m with
  | nil => cases h
  | cons x rest ih =>
      unfold get? at h
      split at h
      · rename_i hk
        obtain rfl := Option.some.inj h
        rw [hk]
        exact List.mem_cons_self
      · exact List.mem_cons_of_mem _ (ih h)

variable [Std.Asymm (α := κ) (· < ·)]

omit [DecidableEq κ] [DecidableLT κ] in
theorem ne_of_key_lt {x y : κ} (h : x < y) : y ≠ x := by
  rintro rfl
  exact Std.Asymm.asymm _ _ h h

omit [DecidableLT κ] in
/-- Where keys increase, each pair is the one that is found. -/
theorem get?_of_mem {a : α} (hm : m.Pairwise fun x y => x.1 < y.1) (h : (k, a) ∈ m) :
    get? m k = some a := by
  induction m with
  | nil => cases h
  | cons x rest ih =>
      rw [List.pairwise_cons] at hm
      unfold get?
      rcases List.mem_cons.mp h with rfl | h
      · exact if_pos rfl
      · rw [if_neg (ne_of_key_lt (hm.1 _ h))]
        exact ih hm.2 h

/-- Pairs with smaller keys are passed by. -/
theorem insert_append (h : ∀ x ∈ m, x.1 < k) (n : SortedMap κ α) (a : α) :
    insert (m ++ n) k a = m ++ insert n k a := by
  induction m with
  | nil => rfl
  | cons x rest ih =>
      have hx := h x List.mem_cons_self
      rw [List.cons_append, insert, if_neg (ne_of_key_lt hx), if_neg (Std.Asymm.asymm _ _ hx),
        ih fun y hy => h y (List.mem_cons_of_mem x hy), List.cons_append]

omit [DecidableLT κ] in
theorem get?_append (h : ∀ x ∈ m, x.1 < k) (n : SortedMap κ α) : get? (m ++ n) k = get? n k := by
  induction m with
  | nil => rfl
  | cons x rest ih =>
      rw [List.cons_append, get?, if_neg (ne_of_key_lt (h x List.mem_cons_self))]
      exact ih fun y hy => h y (List.mem_cons_of_mem x hy)

end SortedMap

namespace TimingLedger

/-! ## The table of the open iteration -/

/-- An iteration is open, and its table stands behind those of the iterations before it. -/
structure Writes (front : SortedMap IterationIndex TimingTable) (i : IterationIndex)
    (t : TimingTable) (l : TimingLedger) : Prop where
  current : l.current = some i
  tables : l.tables = front ++ [(i, t)]
  before : ∀ x ∈ front, x.1 < i

section Writes

variable {front : SortedMap IterationIndex TimingTable} {i : IterationIndex} {t : TimingTable}
  {l : TimingLedger}

theorem Writes.table (h : Writes front i t l) : l.table i = t := by
  rw [TimingLedger.table, h.tables, SortedMap.get?_append h.before, SortedMap.get?, if_pos rfl]
  rfl

theorem Writes.record (h : Writes front i t l) (name : String) (x : OperationTiming) :
    Writes front i (t.insert name x) (l.record i name x) := by
  refine ⟨h.current, ?_, h.before⟩
  rw [TimingLedger.record, h.table, h.tables, SortedMap.insert_append h.before,
    SortedMap.insert, if_pos rfl]

theorem Writes.start (h : Writes front i t l) (name : String) (now : Instant) :
    Writes front i (t.insert name { start := now }) (l.startOperation name now) := by
  have hnames : ∀ names, Writes front i t { l with names := names } :=
    fun _ => ⟨h.current, h.tables, h.before⟩
  unfold startOperation
  split
  · rename_i hnone
    exact nomatch h.current.symm.trans hnone
  · rename_i j hj
    obtain rfl := Option.some.inj (h.current.symm.trans hj)
    exact (hnames _).record name _

theorem Writes.finish (h : Writes front i t l) {name : String} {x : OperationTiming}
    (hx : t.get? name = some x) (now : Instant) :
    Writes front i (t.insert name { x with finish := some now })
      (l.finishOperation name now) := by
  have htiming : l.timing? i name = some x := by rw [timing?, h.table, hx]
  unfold finishOperation
  split
  · rename_i hnone
    exact nomatch h.current.symm.trans hnone
  · rename_i j hj
    obtain rfl := Option.some.inj (h.current.symm.trans hj)
    simp only [htiming]
    exact h.record name _

end Writes

/-! ## The names of operations -/

section Names

variable {l : TimingLedger} {name n : String}

theorem mem_names_start (h : n ∈ (l.startOperation name now).names) : n ∈ l.names ∨ n = name := by
  unfold startOperation at h
  split at h
  · exact .inl h
  · change n ∈ (if l.names.contains name then l.names else l.names ++ [name]) at h
    split at h
    · exact .inl h
    · simpa using h

theorem names_finish (l : TimingLedger) (name : String) (now : Instant) :
    (l.finishOperation name now).names = l.names := by
  unfold finishOperation
  split
  · rfl
  · split <;> rfl

end Names

/-! ## Phases -/

/-- An operation from its start to its end. -/
def operate (l : TimingLedger) (name : String) (start finish : Instant) : TimingLedger :=
  (l.startOperation name start).finishOperation name finish

/-- Phases were timed, one after the other. -/
inductive Timed : List Phase → TimingLedger → TimingLedger → Prop where
  | nil (l : TimingLedger) : Timed [] l l
  | cons {p : Phase} {ps : List Phase} {l m : TimingLedger} (start finish : Instant)
      (h : Timed ps (l.operate p.operation start finish) m) : Timed (p :: ps) l m

theorem Timed.append {ps qs : List Phase} {l m n : TimingLedger} (h : Timed ps l m)
    (h' : Timed qs m n) : Timed (ps ++ qs) l n := by
  induction h with
  | nil l => exact h'
  | cons start finish _ ih => exact .cons start finish (ih h')

/-- An operation that started and ended is in the table with its end, all others are as before. -/
theorem Writes.operate {front : SortedMap IterationIndex TimingTable} {i : IterationIndex}
    {t : TimingTable} {l : TimingLedger} (h : Writes front i t l) (name : String)
    (start finish : Instant) :
    ∃ t', Writes front i t' (l.operate name start finish) ∧
      ∀ n, t'.get? n = if n = name then some ⟨start, some finish⟩ else t.get? n := by
  have hstarted : SortedMap.get? (t.insert name ⟨start, none⟩) name = some ⟨start, none⟩ := by
    rw [SortedMap.get?_insert, if_pos rfl]
  refine ⟨_, (h.start name start).finish hstarted finish, fun n => ?_⟩
  rw [SortedMap.get?_insert, SortedMap.get?_insert]
  split <;> rfl

/-- Once phases were timed, their operations are in the table with their ends, all others are as
before, and there are no other new names. By induction on the phases. -/
theorem Timed.writes {ps : List Phase} {l m : TimingLedger} (h : Timed ps l m)
    {front : SortedMap IterationIndex TimingTable} {i : IterationIndex} {t : TimingTable}
    (hl : Writes front i t l) :
    ∃ t', Writes front i t' m ∧
      (∀ n, (∃ p ∈ ps, p.operation = n) → ∃ x, t'.get? n = some x ∧ x.finish.isSome = true) ∧
      (∀ n, (∀ p ∈ ps, p.operation ≠ n) → t'.get? n = t.get? n) ∧
      ∀ n ∈ m.names, n ∈ l.names ∨ ∃ p ∈ ps, p.operation = n := by
  induction h generalizing t with
  | nil l =>
      refine ⟨t, hl, ?_, fun n _ => rfl, fun n hn => .inl hn⟩
      rintro n ⟨p, hp, -⟩
      exact nomatch hp
  | @cons p ps l m start finish _ ih =>
      obtain ⟨t₁, h₁, hoperate⟩ := hl.operate p.operation start finish
      obtain ⟨t₂, h₂, hfinished, hothers, hnames⟩ := ih h₁
      refine ⟨t₂, h₂, fun n hn => ?_, fun n hn => ?_, fun n hn => ?_⟩
      · by_cases hlater : ∃ q ∈ ps, q.operation = n
        · exact hfinished n hlater
        · obtain ⟨q, hq, rfl⟩ := hn
          have hfirst : q = p := by
            rcases List.mem_cons.mp hq with rfl | hq
            · rfl
            · exact absurd ⟨q, hq, rfl⟩ hlater
          refine ⟨⟨start, some finish⟩, ?_, rfl⟩
          rw [hothers _ fun q' hq' heq => hlater ⟨q', hq', heq⟩, hoperate, if_pos (by rw [hfirst])]
      · have hne : n ≠ p.operation := fun heq => hn p List.mem_cons_self heq.symm
        rw [hothers n fun q hq => hn q (List.mem_cons_of_mem p hq), hoperate, if_neg hne]
      · rcases hnames n hn with hn | ⟨q, hq, rfl⟩
        · rw [TimingLedger.operate, names_finish] at hn
          rcases mem_names_start hn with hn | rfl
          · exact .inl hn
          · exact .inr ⟨p, List.mem_cons_self, rfl⟩
        · exact .inr ⟨q, List.mem_cons_of_mem p hq, rfl⟩

/-! ## Iterations -/

/-- A ledger before and after an iteration in which these phases were timed. -/
def Covers (i : IterationIndex) (ps : List Phase) (l n : TimingLedger) : Prop :=
  ∃ start finish m, Timed ps (l.openIteration i start) m ∧ n = m.closeIteration finish

/-- The operations of a table: the one that covers the iteration and those of these phases. All of
them have ended. -/
structure Holds (ps : List Phase) (t : TimingTable) : Prop where
  finished : ∀ name x, t.get? name = some x → x.finish.isSome = true
  names : ∀ name, (t.get? name).isSome = true ↔
    name = iterationOperation ∨ ∃ p ∈ ps, p.operation = name

theorem operation_ne_iteration (p : Phase) : p.operation ≠ iterationOperation := by
  cases p <;> decide

/-- The table of an iteration that is opened. -/
def openedTable (start : Instant) : TimingTable := [(iterationOperation, { start := start })]

/-- An iteration that is larger than all before it is opened behind them. -/
theorem writes_openIteration {i : IterationIndex} {l : TimingLedger}
    (hl : ∀ x ∈ l.tables, x.1 < i) (start : Instant) :
    Writes l.tables i (openedTable start) (l.openIteration i start) := by
  have hnew : ({ l with current := some i } : TimingLedger).table i = [] := by
    cases hget : SortedMap.get? l.tables i with
    | none => rw [TimingLedger.table, hget, Option.getD_none]
    | some t =>
        have hlt := hl _ (SortedMap.mem_of_get? hget)
        exact absurd hlt (UInt32.lt_irrefl i)
  refine ⟨rfl, ?_, hl⟩
  change SortedMap.insert l.tables i (SortedMap.insert
    (({ l with current := some i } : TimingLedger).table i) iterationOperation _) = _
  have hbehind := SortedMap.insert_append hl []
  rw [List.append_nil] at hbehind
  rw [hbehind, hnew]
  rfl

/-- What a table holds whose phases have ended, once the iteration has ended too. -/
theorem holds_insert {ps : List Phase} {t : TimingTable} {start finish : Instant}
    (hfinished : ∀ name, (∃ p ∈ ps, p.operation = name) →
      ∃ x, t.get? name = some x ∧ x.finish.isSome = true)
    (hothers : ∀ name, (∀ p ∈ ps, p.operation ≠ name) →
      t.get? name = (openedTable start).get? name) :
    Holds ps (SortedMap.insert t iterationOperation { start := start, finish := some finish }) := by
  have hnone : ∀ name, name ≠ iterationOperation →
      (¬ ∃ p ∈ ps, p.operation = name) → t.get? name = none := by
    intro name hne hphase
    rw [hothers name fun p hp heq => hphase ⟨p, hp, heq⟩]
    simp [openedTable, SortedMap.get?, hne]
  constructor
  · intro name x hx
    rw [SortedMap.get?_insert] at hx
    split at hx
    · obtain rfl := Option.some.inj hx
      rfl
    · rename_i hne
      by_cases hphase : ∃ p ∈ ps, p.operation = name
      · obtain ⟨y, hy, hended⟩ := hfinished name hphase
        obtain rfl := Option.some.inj (hx.symm.trans hy)
        exact hended
      · cases (hnone name hne hphase).symm.trans hx
  · intro name
    rw [SortedMap.get?_insert]
    split
    · rename_i heq
      simp [heq]
    · rename_i hne
      by_cases hphase : ∃ p ∈ ps, p.operation = name
      · obtain ⟨y, hy, -⟩ := hfinished name hphase
        simp [hy, hphase]
      · simp [hnone name hne hphase, hne, hphase]

/-- An iteration that is larger than all before it adds its table behind theirs. -/
theorem Covers.table {i : IterationIndex} {ps : List Phase} {l n : TimingLedger}
    (h : Covers i ps l n) (hl : ∀ x ∈ l.tables, x.1 < i) :
    ∃ t, n.tables = l.tables ++ [(i, t)] ∧ n.current = none ∧ Holds ps t ∧
      ∀ name ∈ n.names, name ∈ l.names ∨ name = iterationOperation ∨
        ∃ p ∈ ps, p.operation = name := by
  obtain ⟨start, finish, m, htimed, rfl⟩ := h
  obtain ⟨t, ht, hfinished, hothers, hnames⟩ := htimed.writes (writes_openIteration hl start)
  -- no phase is called like the operation that covers the iteration
  have hcover : t.get? iterationOperation = some { start := start } := by
    rw [hothers _ fun p _ => operation_ne_iteration p]
    rfl
  have hclosed := ht.finish hcover finish
  refine ⟨_, hclosed.tables, rfl, holds_insert hfinished hothers, fun name hname => ?_⟩
  change name ∈ (m.finishOperation iterationOperation finish).names at hname
  rw [names_finish] at hname
  rcases hnames name hname with hname | hname
  · rcases mem_names_start hname with hname | hname
    · exact .inl hname
    · exact .inr (.inl hname)
  · exact .inr (.inr hname)

end TimingLedger

end CommuteSim
