import CommuteSim.Proofs.Timing.Ledger
import Mathlib.Data.List.Induction
import Mathlib.Data.List.Nodup

/-!
# The ledger and the calls that were made on it

What a ledger holds is settled by the calls that were made on it, in whatever order they came and
whatever the clock showed. A call is about the iteration that is open, and says of one operation
that it starts or ends there; a call while no iteration is open says nothing. Of all that was said
of an operation in an iteration, the last start counts, and the last end behind it.

Main statement: `last_writers`, for every sequence of calls. It comes by induction on the sequence,
from what one start (`Shows.start`) and one end (`Shows.finish`) do to what a ledger shows.
-/

namespace CommuteSim

/-! ## Calls -/

/-- A call on a ledger. -/
inductive TimingCall where
  | openIteration (iteration : IterationIndex)
  | startOperation (name : String)
  | finishOperation (name : String)
  | closeIteration
  deriving DecidableEq, Repr

/-- A call, and what the clock shows at that time. -/
structure TimedCall where
  call : TimingCall
  clock : Instant
  deriving DecidableEq, Repr

namespace TimingLedger

/-- The ledger after a call. -/
def after (l : TimingLedger) (x : TimedCall) : TimingLedger :=
  match x.call with
  | .openIteration i => l.openIteration i x.clock
  | .startOperation n => l.startOperation n x.clock
  | .finishOperation n => l.finishOperation n x.clock
  | .closeIteration => l.closeIteration x.clock

/-- The ledger that calls leave. -/
def ofCalls (h : List TimedCall) : TimingLedger := h.foldl after {}

theorem ofCalls_concat (h : List TimedCall) (x : TimedCall) :
    ofCalls (h ++ [x]) = (ofCalls h).after x := by
  rw [ofCalls, List.foldl_append]
  rfl

end TimingLedger

/-! ## What calls say -/

/-- The start or the end of an operation, at a time. -/
inductive TimingMark where
  | start (time : Instant)
  | finish (time : Instant)
  deriving DecidableEq, Repr

def TimingMark.time : TimingMark → Instant
  | start t | finish t => t

/-- An operation starts or ends in an iteration. -/
structure TimingEntry where
  iteration : IterationIndex
  name : String
  mark : TimingMark
  deriving DecidableEq, Repr

/-- The name of an operation that starts. -/
def TimingEntry.started? (e : TimingEntry) : Option String :=
  match e.mark with
  | .start _ => some e.name
  | .finish _ => none

namespace TimedCall

open TimingLedger (iterationOperation)

/-- The entry that a call makes while the iteration `current` is open. To open an iteration starts
the operation that covers it, to close one ends that operation. -/
def entry? (current : Option IterationIndex) : TimedCall → Option TimingEntry
  | ⟨.openIteration i, t⟩ => some ⟨i, iterationOperation, .start t⟩
  | ⟨.startOperation n, t⟩ => current.map fun i => ⟨i, n, .start t⟩
  | ⟨.finishOperation n, t⟩ => current.map fun i => ⟨i, n, .finish t⟩
  | ⟨.closeIteration, t⟩ => current.map fun i => ⟨i, iterationOperation, .finish t⟩

/-- The iteration that is open after a call, where `current` was open before it. -/
def leaves (current : Option IterationIndex) (x : TimedCall) : Option IterationIndex :=
  match x.call with
  | .openIteration i => some i
  | .closeIteration => none
  | .startOperation _ | .finishOperation _ => current

/-- The iteration that is open after calls. -/
def openAfter (h : List TimedCall) : Option IterationIndex := h.foldl leaves none

/-- The entries that calls make, in order, while iterations are opened and closed. -/
def entriesFrom : Option IterationIndex → List TimedCall → List TimingEntry
  | _, [] => []
  | current, x :: rest => (x.entry? current).toList ++ entriesFrom (x.leaves current) rest

/-- The entries that calls make on a new ledger. -/
def entries (h : List TimedCall) : List TimingEntry := entriesFrom none h

theorem openAfter_concat (h : List TimedCall) (x : TimedCall) :
    openAfter (h ++ [x]) = x.leaves (openAfter h) := by
  rw [openAfter, List.foldl_append]
  rfl

theorem entries_concat (h : List TimedCall) (x : TimedCall) :
    entries (h ++ [x]) = entries h ++ (x.entry? (openAfter h)).toList := by
  have hfrom : ∀ current, entriesFrom current (h ++ [x]) =
      entriesFrom current h ++ (x.entry? (h.foldl leaves current)).toList := by
    induction h with
    | nil => exact fun current => List.append_nil _
    | cons y rest ih =>
        intro current
        rw [List.cons_append, entriesFrom, ih, entriesFrom, List.append_assoc]
        rfl
  exact hfrom none

/-- Nothing is said before an iteration is opened, so the first entry starts one. -/
theorem head_entries (h : List TimedCall) :
    ∀ e ∈ (entries h).head?, e.started? = some iterationOperation := by
  induction h with
  | nil => nofun
  | cons x rest ih =>
      cases x with
      | mk call t =>
          cases call with
          | openIteration i =>
              rintro e ⟨rfl⟩
              rfl
          | startOperation n => exact ih
          | finishOperation n => exact ih
          | closeIteration => exact ih

end TimedCall

namespace TimingEntry

/-- What entries say of an operation in an iteration. -/
def marks (es : List TimingEntry) (i : IterationIndex) (name : String) : List TimingMark :=
  (es.filter fun e => e.iteration = i ∧ e.name = name).map (·.mark)

/-- The names of the operations that start, in order. -/
def starts (es : List TimingEntry) : List String := es.filterMap started?

theorem marks_concat (es : List TimingEntry) (e : TimingEntry) (i : IterationIndex)
    (name : String) :
    marks (es ++ [e]) i name =
      if e.iteration = i ∧ e.name = name then marks es i name ++ [e.mark] else marks es i name := by
  rw [marks, List.filter_append, List.map_append]
  split
  · rename_i h
    simp [marks, h]
  · rename_i h
    simp [marks, h]

theorem mem_starts {es : List TimingEntry} {n : String} :
    n ∈ starts es ↔ ∃ i now, TimingMark.start now ∈ marks es i n := by
  simp only [starts, marks, List.mem_filterMap, List.mem_map, List.mem_filter, decide_eq_true_eq]
  constructor
  · rintro ⟨⟨i, m, mark⟩, he, hstarted⟩
    cases mark with
    | start now =>
        obtain rfl : m = n := Option.some.inj hstarted
        exact ⟨i, now, _, ⟨he, rfl, rfl⟩, rfl⟩
    | finish now => exact nomatch hstarted
  · rintro ⟨i, now, e, ⟨he, -, rfl⟩, hmark⟩
    exact ⟨e, he, by rw [started?, hmark]⟩

theorem starts_concat (es : List TimingEntry) (e : TimingEntry) :
    starts (es ++ [e]) = starts es ++ e.started?.toList := by
  rw [starts, List.filterMap_append]
  cases he : e.started? <;> simp [starts, he]

end TimingEntry

/-! ## The last start and the last end behind it -/

/-- A timing is what marks leave: there is one exactly if there is a start, and it has the last
start and the last of the ends behind that. -/
structure LastWins (ms : List TimingMark) (t : Option OperationTiming) : Prop where
  present : t.isSome = true ↔ ∃ now, TimingMark.start now ∈ ms
  last : ∀ before now behind, ms = before ++ .start now :: behind →
    (∀ later, TimingMark.start later ∉ behind) →
    t = some { start := now, finish := behind.getLast?.map TimingMark.time }

namespace LastWins

variable {ms : List TimingMark} {t : Option OperationTiming}

theorem nil : LastWins [] none where
  present := by simp
  last before now behind h := by
    have hlength := congrArg List.length h
    simp at hlength

/-- A start takes the place of all that was before. -/
theorem start (ms : List TimingMark) (now : Instant) :
    LastWins (ms ++ [.start now]) (some { start := now }) where
  present := iff_of_true rfl ⟨now, List.mem_append_right _ List.mem_cons_self⟩
  last before earlier behind h hbehind := by
    rcases List.eq_nil_or_concat behind with rfl | ⟨rest, x, rfl⟩
    · obtain ⟨-, hx⟩ := List.append_inj' h rfl
      obtain rfl : now = earlier := by simpa using hx
      rfl
    · -- nothing stands behind the new start, so no earlier one is the last
      rw [List.concat_eq_append, ← List.cons_append, ← List.append_assoc] at h
      obtain ⟨-, hx⟩ := List.append_inj' h rfl
      refine absurd ?_ (hbehind now)
      rw [List.concat_eq_append, ← hx]
      exact List.mem_append_right _ List.mem_cons_self

/-- An end takes the place of the end before. -/
theorem finish (h : LastWins ms t) (now : Instant) :
    LastWins (ms ++ [.finish now]) (t.map fun x => { x with finish := some now }) where
  present := by
    rw [Option.isSome_map, h.present]
    simp
  last before start behind hms hbehind := by
    rcases List.eq_nil_or_concat behind with rfl | ⟨rest, x, rfl⟩
    · obtain ⟨-, hx⟩ := List.append_inj' hms rfl
      cases List.head_eq_of_cons_eq hx
    · rw [List.concat_eq_append] at hms hbehind ⊢
      rw [← List.cons_append, ← List.append_assoc] at hms
      obtain ⟨hbefore, hx⟩ := List.append_inj' hms rfl
      obtain rfl := (List.cons.inj hx).1
      have hrest : ∀ later, TimingMark.start later ∉ rest :=
        fun later hmem => hbehind later (List.mem_append_left _ hmem)
      rw [h.last before start rest hbefore hrest, Option.map_some, List.getLast?_concat]
      rfl

end LastWins

/-! ## One call -/

namespace TimingLedger

theorem eraseDups_concat (xs : List String) (x : String) :
    (xs ++ [x]).eraseDups =
      if xs.eraseDups.contains x then xs.eraseDups else xs.eraseDups ++ [x] := by
  rw [List.eraseDups_append]
  by_cases hx : x ∈ xs
  · simp [List.removeAll, hx]
  · simp [List.removeAll, hx, List.eraseDups_cons]

theorem table_record (l : TimingLedger) (i j : IterationIndex) (name : String)
    (t : OperationTiming) :
    (l.record i name t).table j = if j = i then (l.table i).insert name t else l.table j := by
  rw [table, record, SortedMap.get?_insert]
  split <;> rfl

theorem timing?_record (l : TimingLedger) (i j : IterationIndex) (name n : String)
    (t : OperationTiming) :
    (l.record i name t).timing? j n =
      if i = j ∧ name = n then some t else l.timing? j n := by
  rw [timing?, table_record]
  by_cases hj : j = i
  · subst hj
    rw [if_pos rfl, SortedMap.get?_insert]
    by_cases hn : n = name
    · simp [hn]
    · simp [hn, Ne.symm hn, timing?]
  · simp [hj, Ne.symm hj, timing?]

/-- A ledger holds what entries say. -/
structure Shows (es : List TimingEntry) (l : TimingLedger) : Prop where
  timings : ∀ i n, LastWins (TimingEntry.marks es i n) (l.timing? i n)
  names : l.names = (TimingEntry.starts es).eraseDups
  nodup : l.names.Nodup

namespace Shows

variable {es : List TimingEntry} {l : TimingLedger} {i : IterationIndex}

theorem empty : Shows [] {} := ⟨fun _ _ => .nil, rfl, List.nodup_nil⟩

/-- Which iteration is open says nothing of what was timed. -/
theorem withCurrent (h : Shows es l) (current : Option IterationIndex) :
    Shows es { l with current := current } :=
  ⟨h.timings, h.names, h.nodup⟩

/-- A start is shown under its name, which is a new one at most at the end. -/
theorem start (h : Shows es l) (hcurrent : l.current = some i) (name : String) (now : Instant) :
    Shows (es ++ [⟨i, name, .start now⟩]) (l.startOperation name now) := by
  rw [startOperation, hcurrent]
  refine ⟨fun j n => ?_, ?_, ?_⟩
  · rw [timing?_record, TimingEntry.marks_concat]
    by_cases hsame : i = j ∧ name = n
    · rw [if_pos hsame, if_pos hsame]
      exact .start _ now
    · rw [if_neg hsame, if_neg hsame]
      exact h.timings j n
  · rw [TimingEntry.starts_concat]
    change (if l.names.contains name then l.names else l.names ++ [name]) =
      (TimingEntry.starts es ++ [name]).eraseDups
    rw [eraseDups_concat, ← h.names]
  · change (if l.names.contains name then l.names else l.names ++ [name]).Nodup
    split
    · exact h.nodup
    · rename_i hnew
      refine List.nodup_append.mpr ⟨h.nodup, List.nodup_singleton name, fun a ha b hb => ?_⟩
      obtain rfl := List.mem_singleton.mp hb
      rintro rfl
      exact hnew (List.contains_iff_mem.mpr ha)

/-- An end is shown where the operation has started. -/
theorem finish (h : Shows es l) (hcurrent : l.current = some i) (name : String) (now : Instant) :
    Shows (es ++ [⟨i, name, .finish now⟩]) (l.finishOperation name now) := by
  have htimings : ∀ j n, (l.finishOperation name now).timing? j n =
      if i = j ∧ name = n then (l.timing? j n).map fun x => { x with finish := some now }
      else l.timing? j n := by
    intro j n
    simp only [finishOperation, hcurrent]
    by_cases hsame : i = j ∧ name = n
    · obtain ⟨rfl, rfl⟩ := hsame
      rw [if_pos ⟨rfl, rfl⟩]
      cases ht : l.timing? i name with
      | none => exact ht
      | some t => exact (timing?_record ..).trans (if_pos ⟨rfl, rfl⟩)
    · rw [if_neg hsame]
      cases l.timing? i name with
      | none => rfl
      | some t => exact (timing?_record ..).trans (if_neg hsame)
  refine ⟨fun j n => ?_, ?_, ?_⟩
  · rw [htimings, TimingEntry.marks_concat]
    by_cases hsame : i = j ∧ name = n
    · rw [if_pos hsame, if_pos hsame]
      exact (h.timings j n).finish now
    · rw [if_neg hsame, if_neg hsame]
      exact h.timings j n
  · rw [names_finish, TimingEntry.starts_concat, h.names]
    exact (congrArg List.eraseDups (List.append_nil _)).symm
  · rw [names_finish]
    exact h.nodup

end Shows

/-! ## All calls -/

theorem current_start (l : TimingLedger) (name : String) (now : Instant) :
    (l.startOperation name now).current = l.current := by
  unfold startOperation
  split <;> rfl

theorem current_finish (l : TimingLedger) (name : String) (now : Instant) :
    (l.finishOperation name now).current = l.current := by
  unfold finishOperation
  split
  · rfl
  · split <;> rfl

/-- A call opens and closes iterations in the ledger as it says. -/
theorem current_after (l : TimingLedger) (x : TimedCall) :
    (l.after x).current = x.leaves l.current := by
  obtain ⟨call, now⟩ := x
  cases call with
  | openIteration i => exact current_start _ _ _
  | startOperation n => exact current_start l n now
  | finishOperation n => exact current_finish l n now
  | closeIteration => rfl

theorem current_ofCalls (h : List TimedCall) :
    (ofCalls h).current = TimedCall.openAfter h := by
  induction h using List.reverseRecOn with
  | nil => rfl
  | append_singleton h x ih =>
      rw [ofCalls_concat, current_after, ih, TimedCall.openAfter_concat]

/-- Where no iteration is open, only to open one changes anything. -/
theorem after_eq_self {l : TimingLedger} {x : TimedCall} (hcurrent : l.current = none)
    (hx : ∀ i, x.call ≠ .openIteration i) : l.after x = l := by
  obtain ⟨call, now⟩ := x
  cases call with
  | openIteration i => exact absurd rfl (hx i)
  | startOperation n =>
      change l.startOperation n now = l
      rw [startOperation, hcurrent]
  | finishOperation n =>
      change l.finishOperation n now = l
      rw [finishOperation, hcurrent]
  | closeIteration =>
      change { l.finishOperation iterationOperation now with current := none } = l
      rw [finishOperation, hcurrent]
      cases l
      cases hcurrent
      rfl

/-- What a call says is shown after it. -/
theorem Shows.after {es : List TimingEntry} {l : TimingLedger} (h : Shows es l) (x : TimedCall) :
    Shows (es ++ (x.entry? l.current).toList) (l.after x) := by
  obtain ⟨call, now⟩ := x
  cases call with
  | openIteration i => exact (h.withCurrent (some i)).start rfl iterationOperation now
  | startOperation n =>
      cases hcurrent : l.current with
      | none =>
          rw [after_eq_self hcurrent (by simp)]
          simpa [TimedCall.entry?] using h
      | some i => exact h.start hcurrent n now
  | finishOperation n =>
      cases hcurrent : l.current with
      | none =>
          rw [after_eq_self hcurrent (by simp)]
          simpa [TimedCall.entry?] using h
      | some i => exact h.finish hcurrent n now
  | closeIteration =>
      cases hcurrent : l.current with
      | none =>
          rw [after_eq_self hcurrent (by simp)]
          simpa [TimedCall.entry?] using h
      | some i => exact (h.finish hcurrent iterationOperation now).withCurrent none

/-- All that calls say is shown after them. By induction on the calls, from the last. -/
theorem shows_ofCalls (h : List TimedCall) : Shows (TimedCall.entries h) (ofCalls h) := by
  induction h using List.reverseRecOn with
  | nil => exact .empty
  | append_singleton h x ih =>
      rw [ofCalls_concat, TimedCall.entries_concat, ← current_ofCalls]
      exact ih.after x

/-- The time between start and end, none where the clock stepped backwards. -/
theorem duration?_eq_some {l : TimingLedger} {i : IterationIndex} {n : String}
    {d : Nanoseconds} :
    l.duration? i n = some d ↔ ∃ t finish, l.timing? i n = some t ∧ t.finish = some finish ∧
      (d : Int) = max 0 (finish.nanoseconds - t.start.nanoseconds) := by
  have helapsed : ∀ start finish : Instant,
      start.elapsed finish = d ↔ (d : Int) = max 0 (finish.nanoseconds - start.nanoseconds) := by
    intro start finish
    change (finish.nanoseconds - start.nanoseconds).toNat = (d : Nat) ↔ _
    omega
  simp only [duration?, Option.bind_eq_some_iff, OperationTiming.duration?, Option.map_eq_some_iff,
    helapsed]
  exact ⟨fun ⟨t, ht, finish, hfinish, hd⟩ => ⟨t, finish, ht, hfinish, hd⟩,
    fun ⟨t, finish, ht, hfinish, hd⟩ => ⟨t, ht, finish, hfinish, hd⟩⟩

/-- The ledger after calls in any order and at any times. For each operation in an iteration, of
the calls while the iteration was open the last start and the last end behind it are what is held,
and there is a duration exactly where there are both. Nothing but to open an iteration changes
anything while none is open. The names are those of all operations that have started, once each, in
the order in which they first did, and the first of them is that of the operation that covers an
iteration. -/
theorem last_writers (h : List TimedCall) :
    (∀ i n, LastWins (TimingEntry.marks (TimedCall.entries h) i n) ((ofCalls h).timing? i n)) ∧
    (∀ i n d, (ofCalls h).duration? i n = some d ↔
      ∃ t finish, (ofCalls h).timing? i n = some t ∧ t.finish = some finish ∧
        (d : Int) = max 0 (finish.nanoseconds - t.start.nanoseconds)) ∧
    (ofCalls h).current = TimedCall.openAfter h ∧
    (TimedCall.openAfter h = none → ∀ x : TimedCall, (∀ i, x.call ≠ .openIteration i) →
      ofCalls (h ++ [x]) = ofCalls h) ∧
    (ofCalls h).names = (TimingEntry.starts (TimedCall.entries h)).eraseDups ∧
    (ofCalls h).names.Nodup ∧
    (∀ n, n ∈ (ofCalls h).names ↔ ∃ i, ((ofCalls h).timing? i n).isSome = true) ∧
    ∀ n ∈ (ofCalls h).names.head?, n = iterationOperation := by
  have hshows := shows_ofCalls h
  refine ⟨hshows.timings, fun i n d => duration?_eq_some, current_ofCalls h,
    fun hnone x hx => ?_, hshows.names, hshows.nodup, fun n => ?_, ?_⟩
  · rw [ofCalls_concat]
    exact after_eq_self ((current_ofCalls h).trans hnone) hx
  · rw [hshows.names, List.mem_eraseDups, TimingEntry.mem_starts]
    exact exists_congr fun i => (hshows.timings i n).present.symm
  · have hhead := TimedCall.head_entries h
    rw [hshows.names, TimingEntry.starts]
    cases hentries : TimedCall.entries h with
    | nil => exact fun _ hn => nomatch hn
    | cons e rest =>
        have he : e.started? = some iterationOperation := hhead e (by rw [hentries]; rfl)
        intro n hn
        rw [List.filterMap_cons_some he, List.eraseDups_cons] at hn
        exact (Option.some.inj hn).symm

/-- An operation that starts again is timed from there, and takes no time where the clock steps
back. -/
example : (ofCalls [⟨.openIteration 3, ⟨5⟩⟩, ⟨.startOperation "mobsim", ⟨6⟩⟩,
    ⟨.finishOperation "mobsim", ⟨9⟩⟩, ⟨.startOperation "mobsim", ⟨8⟩⟩,
    ⟨.finishOperation "mobsim", ⟨7⟩⟩]).duration? 3 "mobsim" = some 0 := by decide

end TimingLedger

end CommuteSim
