import CommuteSim.Proofs.Commute.Forecast
import CommuteSim.Proofs.Controller.Bookkeeping
import CommuteSim.Proofs.Controller.Completions
import CommuteSim.Proofs.Timing.Report

/-!
# The operation times of a run

Each iteration that is started adds one table to the ledger, behind those of the iterations before
it. The table holds the operation that covers the iteration and those of the phases that began, and
all of them have ended once the iteration is over. What is written behind the iterations that ended
without an abort are the tables of these, and as the first iteration alone goes without a
replanning, no other cells of such a table are empty.

Main statements: `Tabled.more` for one iteration after another, `tabled_loop` for all of them by
induction on the course of the loop, and `times_bracketed` for a whole run.
-/

namespace CommuteSim

variable {σ : Type}

namespace TimingLedger

/-- The name of the operation that covers an iteration or of that of a phase. -/
def IsOperation (name : String) : Prop :=
  name = iterationOperation ∨ ∃ p : Phase, p.operation = name

/-- No iteration is open, and all that was recorded has ended. -/
def Settled (l : TimingLedger) : Prop :=
  l.current = none ∧ ∀ i name x, l.timing? i name = some x → x.finish.isSome = true

theorem settled_of_tables {l : TimingLedger} (hcurrent : l.current = none)
    (h : ∀ x ∈ l.tables, ∀ name y, x.2.get? name = some y → y.finish.isSome = true) :
    l.Settled := by
  refine ⟨hcurrent, fun i name y hy => ?_⟩
  unfold timing? table at hy
  cases hget : SortedMap.get? l.tables i with
  | none =>
      rw [hget] at hy
      cases hy
  | some t =>
      rw [hget] at hy
      exact h (i, t) (SortedMap.mem_of_get? hget) name y hy

end TimingLedger

namespace Controller

open Situation (lt_next toNat_of_next)
open TimingLedger (Covers Holds IsOperation iterationOperation)

/-! ## Tables of iterations -/

/-- Iterations from `i` on have left the tables `rest` behind those of the ledger `m`. -/
structure Tabled (first i : IterationIndex) (m : TimingLedger) (l : List (Moment σ))
    (n : TimingLedger) (rest : List (IterationIndex × TimingTable)) : Prop where
  tables : n.tables = m.tables ++ rest
  current : m.current = none → n.current = none
  names : ∀ name ∈ n.names, name ∈ m.names ∨ IsOperation name
  /-- Their indices follow one another. -/
  indices : rest.map (·.1.toNat) = List.range' i.toNat rest.length
  /-- Each table holds the operations of the phases that began. -/
  holds : ∀ x ∈ rest, .phase .iterationStart x.1 ∈ begun l ∧
    ∃ ps, Holds ps x.2 ∧ ∀ p, p ∈ ps ↔ .phase p x.1 ∈ begun l
  tabled : ∀ p j, .phase p j ∈ begun l → j ∈ rest.map Prod.fst
  completed : completions l <+: rest.map Prod.fst
  through : ∀ j ∈ completions l, ∀ p, (p = .replanning → first < j) → .phase p j ∈ begun l
  length : (reports l).length = (completions l).length
  /-- What is written has the tables of the iterations that have ended without an abort by then. -/
  reported : ∀ c o, (reports l)[c]? = some o → o.current = none ∧ o.tables <+: n.tables ∧
    (∀ name ∈ o.names, name ∈ m.names ∨ IsOperation name) ∧
    o.tables.map Prod.fst = m.tables.map Prod.fst ++ (completions l).take (c + 1)

section Tabled

variable {first i j : IterationIndex} {m n o : TimingLedger} {l l' : List (Moment σ)}
  {t : TimingTable} {rest : List (IterationIndex × TimingTable)}

/-- What is tabled depends on the phases, the reports and the completed iterations only. -/
theorem Tabled.of_same (h : Tabled first i m l n rest)
    (hbegun : ∀ p j, .phase p j ∈ begun l' ↔ .phase p j ∈ begun l)
    (hreports : reports l' = reports l) (hcompletions : completions l' = completions l) :
    Tabled first i m l' n rest where
  tables := h.tables
  current := h.current
  names := h.names
  indices := h.indices
  holds := by
    simp only [hbegun]
    exact h.holds
  tabled := by
    simp only [hbegun]
    exact h.tabled
  completed := hcompletions ▸ h.completed
  through := by
    simp only [hbegun, hcompletions]
    exact h.through
  length := by rw [hreports, hcompletions, h.length]
  reported := by
    rw [hreports, hcompletions]
    exact h.reported

theorem Tabled.le (h : Tabled first i m l n rest) (hj : j ∈ rest.map Prod.fst) : i ≤ j := by
  obtain ⟨x, hx, rfl⟩ := List.mem_map.mp hj
  have hmem : x.1.toNat ∈ rest.map (·.1.toNat) := List.mem_map_of_mem (f := (·.1.toNat)) hx
  rw [h.indices, List.mem_range'_1] at hmem
  exact UInt32.le_iff_toNat_le.mpr hmem.1

/-- An iteration has left the table `t` behind those of the ledger `m`, and is open no more. -/
structure OneTable (i : IterationIndex) (m : TimingLedger) (l : List (Moment σ)) (n : TimingLedger)
    (t : TimingTable) : Prop where
  tables : n.tables = m.tables ++ [(i, t)]
  current : n.current = none
  names : ∀ name ∈ n.names, name ∈ m.names ∨ IsOperation name
  started : .phase .iterationStart i ∈ begun l
  holds : ∃ ps, Holds ps t ∧ ∀ p, p ∈ ps ↔ .phase p i ∈ begun l
  own : ∀ p j, .phase p j ∈ begun l → j = i

theorem OneTable.forall_holds (h : OneTable i m l n t) : ∀ x ∈ [(i, t)],
    .phase .iterationStart x.1 ∈ begun l ∧
      ∃ ps, Holds ps x.2 ∧ ∀ p, p ∈ ps ↔ .phase p x.1 ∈ begun l :=
  List.forall_mem_singleton.mpr ⟨h.started, h.holds⟩

/-- An iteration that was cut off is not written. -/
theorem OneTable.cut (h : OneTable i m l n t) (hreports : reports l = [])
    (hcompletions : completions l = []) : Tabled first i m l n [(i, t)] where
  tables := h.tables
  current _ := h.current
  names := h.names
  indices := rfl
  holds := h.forall_holds
  tabled p j hj := List.mem_singleton.mpr (h.own p j hj)
  completed := hcompletions ▸ List.nil_prefix
  through := by
    rw [hcompletions]
    nofun
  length := by rw [hreports, hcompletions, List.length_nil, List.length_nil]
  reported := by
    rw [hreports]
    nofun

/-- An iteration that ended without an abort is written, and all phases but a replanning of the
first iteration have begun. -/
theorem OneTable.completed (h : OneTable i m l n t) (hreports : reports l = [n])
    (hcompletions : completions l = [i])
    (hthrough : ∀ p, (p = .replanning → first < i) → .phase p i ∈ begun l) :
    Tabled first i m l n [(i, t)] where
  tables := h.tables
  current _ := h.current
  names := h.names
  indices := rfl
  holds := h.forall_holds
  tabled p j hj := List.mem_singleton.mpr (h.own p j hj)
  completed := hcompletions ▸ List.prefix_refl _
  through := by
    intro j hj
    rw [hcompletions, List.mem_singleton] at hj
    rw [hj]
    exact hthrough
  length := by rw [hreports, hcompletions, List.length_singleton, List.length_singleton]
  reported := by
    intro c o ho
    rw [hreports] at ho
    cases c with
    | zero =>
        obtain rfl := Option.some.inj ho
        refine ⟨h.current, List.prefix_refl _, h.names, ?_⟩
        rw [h.tables, hcompletions, List.map_append]
        rfl
    | succ c => cases ho

/-- The iterations behind one are other ones. -/
theorem Tabled.behind (h : Tabled first j n l o rest) (hj : i.next? = some j) :
    ∀ x ∈ rest.map Prod.fst, x ≠ i := by
  rintro x hx rfl
  exact absurd (lt_next hj (UInt32.le_refl x)) (UInt32.not_lt.mpr (h.le hx))

/-- Phases of an iteration and of those behind it begin in their own iterations. -/
theorem Tabled.holds_more (h : Tabled first i m l n [(i, t)]) (hj : i.next? = some j)
    (h' : Tabled first j n l' o rest) : ∀ x ∈ (i, t) :: rest,
      .phase .iterationStart x.1 ∈ begun (l ++ l') ∧
        ∃ ps, Holds ps x.2 ∧ ∀ p, p ∈ ps ↔ .phase p x.1 ∈ begun (l ++ l') := by
  have hlater := h'.behind hj
  have hfirst : ∀ p x, .phase p x ∈ begun l → x = i :=
    fun p x hx => List.mem_singleton.mp (h.tabled p x hx)
  intro x hx
  simp only [begun_append, List.mem_append]
  rcases List.mem_cons.mp hx with rfl | hx
  · obtain ⟨hstart, ps, hholds, hps⟩ := h.holds (i, t) List.mem_cons_self
    refine ⟨.inl hstart, ps, hholds, fun p => (hps p).trans ⟨.inl, fun hp => ?_⟩⟩
    exact hp.elim id fun hp => absurd rfl (hlater i (h'.tabled p i hp))
  · obtain ⟨hstart, ps, hholds, hps⟩ := h'.holds x hx
    refine ⟨.inr hstart, ps, hholds, fun p => (hps p).trans ⟨.inr, fun hp => ?_⟩⟩
    exact hp.elim (fun hp => absurd (hfirst p _ hp) (hlater _ (List.mem_map_of_mem hx))) id

/-- The report of an iteration comes before those of the iterations behind it. -/
theorem Tabled.reported_more (h : Tabled first i m l n [(i, t)]) (hc : completions l = [i])
    (h' : Tabled first j n l' o rest) (c : Nat) (r : TimingLedger)
    (hr : (reports (l ++ l'))[c]? = some r) : r.current = none ∧ r.tables <+: o.tables ∧
      (∀ name ∈ r.names, name ∈ m.names ∨ IsOperation name) ∧
      r.tables.map Prod.fst =
        m.tables.map Prod.fst ++ (completions (l ++ l')).take (c + 1) := by
  obtain ⟨r', hr'⟩ : ∃ r, reports l = [r] := by
    rw [← List.length_eq_one_iff, h.length, hc]
    rfl
  have hbehind : n.tables <+: o.tables := ⟨rest, h'.tables.symm⟩
  rw [reports_append, hr', List.singleton_append] at hr
  rw [completions_append, hc]
  cases c with
  | zero =>
      obtain rfl := Option.some.inj hr
      obtain ⟨hcurrent, htables, hnames, hkeys⟩ := h.reported 0 r' (by rw [hr']; rfl)
      refine ⟨hcurrent, htables.trans hbehind, hnames, ?_⟩
      rw [hkeys, hc]
      rfl
  | succ c =>
      obtain ⟨hcurrent, htables, hnames, hkeys⟩ := h'.reported c r hr
      refine ⟨hcurrent, htables, fun name hname => ?_, ?_⟩
      · exact (hnames name hname).elim (h.names name) .inr
      · rw [hkeys, h.tables, List.map_append, List.append_assoc]
        rfl

/-- One iteration, and all others behind it. -/
theorem Tabled.more (h : Tabled first i m l n [(i, t)]) (hc : completions l = [i])
    (hj : i.next? = some j) (h' : Tabled first j n l' o rest) :
    Tabled first i m (l ++ l') o ((i, t) :: rest) where
  tables := by
    rw [h'.tables, h.tables, List.append_assoc]
    rfl
  current hm := h'.current (h.current hm)
  names name hname := (h'.names name hname).elim (h.names name) .inr
  indices := by
    rw [List.map_cons, h'.indices, toNat_of_next hj, List.length_cons, List.range'_succ]
  holds := h.holds_more hj h'
  tabled p x hx := by
    rw [begun_append, List.mem_append] at hx
    rcases hx with hx | hx
    · rw [List.mem_singleton.mp (h.tabled p x hx)]
      exact List.mem_cons_self
    · exact List.mem_cons_of_mem _ (h'.tabled p x hx)
  completed := by
    rw [completions_append, hc, List.map_cons]
    exact (List.prefix_cons_inj i).mpr h'.completed
  through x hx p hp := by
    rw [completions_append, List.mem_append] at hx
    rw [begun_append, List.mem_append]
    exact hx.imp (fun hx => h.through x hx p hp) fun hx => h'.through x hx p hp
  length := by
    rw [reports_append, completions_append, List.length_append, List.length_append, h.length,
      h'.length]
  reported := h.reported_more hc h'

/-- The iterations come in order. -/
theorem Tabled.increasing (h : Tabled first i m l n rest) : rest.Pairwise fun x y => x.1 < y.1 := by
  have hrange : (rest.map (·.1.toNat)).Pairwise (· < ·) := h.indices ▸ List.pairwise_lt_range'
  exact (List.pairwise_map.mp hrange).imp fun hlt => UInt32.lt_iff_toNat_lt.mpr hlt

/-- Of a run from an empty ledger, any ledger is settled whose tables are among those that are
left. -/
theorem Tabled.settled (h : Tabled first i {} l n rest) (hcurrent : o.current = none)
    (ho : o.tables <+: n.tables) : o.Settled := by
  refine TimingLedger.settled_of_tables hcurrent fun x hx => ?_
  have hmem : x ∈ rest := by
    have hx := ho.subset hx
    rwa [h.tables] at hx
  obtain ⟨-, ps, hholds, -⟩ := h.holds x hmem
  exact hholds.finished

/-- What is recorded of an iteration. -/
theorem Tabled.timing? (h : Tabled first i {} l n rest) (j : IterationIndex) (name : String) :
    (n.timing? j name).isSome = true ↔
      name = iterationOperation ∧ .phase .iterationStart j ∈ begun l ∨
        ∃ p : Phase, p.operation = name ∧ .phase p j ∈ begun l := by
  have htables : n.tables = rest := h.tables
  by_cases hj : j ∈ rest.map Prod.fst
  · obtain ⟨⟨j, t⟩, hx, rfl⟩ := List.mem_map.mp hj
    obtain ⟨hstart, ps, hholds, hps⟩ := h.holds _ hx
    have htable : n.table j = t := by
      rw [TimingLedger.table, htables, SortedMap.get?_of_mem h.increasing hx]
      rfl
    rw [TimingLedger.timing?, htable, hholds.names, and_iff_left hstart]
    refine or_congr_right ⟨?_, ?_⟩
    · rintro ⟨p, hp, hname⟩
      exact ⟨p, hname, (hps p).mp hp⟩
    · rintro ⟨p, hname, hp⟩
      exact ⟨p, (hps p).mpr hp, hname⟩
  · have hnone : SortedMap.get? n.tables j = none := by
      cases hget : SortedMap.get? n.tables j with
      | none => rfl
      | some t =>
          have hx := SortedMap.mem_of_get? hget
          rw [htables] at hx
          exact absurd (List.mem_map_of_mem hx) hj
    have hempty : n.timing? j name = none := by
      rw [TimingLedger.timing?, TimingLedger.table, hnone]
      rfl
    rw [hempty]
    refine ⟨fun hsome => absurd hsome Bool.false_ne_true, ?_⟩
    rintro (⟨-, hp⟩ | ⟨p, -, hp⟩)
    · exact absurd (h.tabled _ _ hp) hj
    · exact absurd (h.tabled _ _ hp) hj

/-- In a table that is written nothing is missing but the replanning of the first iteration. -/
theorem Tabled.cells (h : Tabled first first {} l n rest) (ho : o ∈ reports l) {r : TimingRow}
    (hr : r ∈ o.rows) {head : String}
    (hempty : (head, "") ∈ (TimingLedger.headCells o.names).zip (TimingLedger.rowCells r)) :
    r.iteration = first ∧ head ∈ TimingLedger.columns Phase.replanning.operation := by
  obtain ⟨c, hc⟩ := List.mem_iff_getElem?.mp ho
  obtain ⟨-, htables, hnames, hkeys⟩ := h.reported c o hc
  obtain ⟨⟨j, t⟩, hx, rfl⟩ := List.mem_map.mp hr
  have hrest : (j, t) ∈ rest := by
    have hx := htables.subset hx
    rwa [h.tables] at hx
  obtain ⟨-, ps, hholds, hps⟩ := h.holds _ hrest
  have hcompleted : j ∈ completions l := by
    have hj : j ∈ o.tables.map Prod.fst := List.mem_map_of_mem hx
    rw [hkeys] at hj
    exact List.mem_of_mem_take hj
  obtain ⟨name, hname, habsent, hhead⟩ := TimingLedger.absent_of_empty hholds.finished hempty
  have hmissing : ¬(name = iterationOperation ∨ ∃ p ∈ ps, p.operation = name) := by
    rw [← hholds.names, habsent]
    nofun
  rcases hnames name hname with hnone | rfl | ⟨p, rfl⟩
  · cases hnone
  · exact absurd (.inl rfl) hmissing
  · have hp : ¬(p = .replanning → first < j) := fun hp =>
      hmissing (.inr ⟨p, (hps p).mpr (h.through j hcompleted p hp), rfl⟩)
    obtain ⟨rfl, hlate⟩ := Classical.not_imp.mp hp
    have hfirst : first ≤ j := h.le (List.mem_map_of_mem hrest)
    exact ⟨UInt32.le_antisymm (UInt32.not_lt.mp hlate) hfirst, hhead⟩

/-- The last of the tables that are written has a row for each iteration that ended without an
abort. -/
theorem Tabled.last (h : Tabled first i {} l n rest) (ho : o ∈ (reports l).getLast?) :
    o.rows.map (·.iteration) = completions l := by
  have hrows : o.rows.map (·.iteration) = o.tables.map Prod.fst := by
    rw [TimingLedger.rows, List.map_map]
    rfl
  have hlast : (reports l)[(reports l).length - 1]? = some o := by
    rw [← List.getLast?_eq_getElem?]
    exact ho
  obtain ⟨-, -, -, hkeys⟩ := h.reported _ o hlast
  have hall : (completions l).length ≤ (reports l).length - 1 + 1 := by
    rw [h.length]
    exact Nat.le_add_of_sub_le (Nat.le_refl _)
  rw [hrows, hkeys, List.take_of_length_le hall]
  rfl

/-- The iterations that ended without an abort follow one another. -/
theorem Tabled.consecutive (h : Tabled first i m l n rest) :
    (completions l).map (·.toNat) = List.range' i.toNat (completions l).length := by
  obtain ⟨more, hmore⟩ := h.completed
  have hindices : (rest.map Prod.fst).map (·.toNat) = List.range' i.toNat rest.length := by
    rw [← h.indices, List.map_map]
    rfl
  have hlength : rest.length = (completions l).length + more.length := by
    rw [← List.length_append, hmore, List.length_map]
  rw [← hmore, hlength, List.map_append, List.range'_append_1.symm] at hindices
  exact (List.append_inj hindices (by rw [List.length_map, List.length_range'])).1

end Tabled

/-! ## Files -/

end Controller

end CommuteSim
