/-!
# Finite maps in the order of their keys

A map is a list of pairs whose keys strictly increase. `insert` puts a pair at its place, and takes
the place of one with the same key.
-/

namespace CommuteSim

/-- Pairs in strictly increasing order of their keys. -/
abbrev SortedMap (κ α : Type) := List (κ × α)

namespace SortedMap

variable {κ α : Type} [DecidableEq κ] [LT κ] [DecidableLT κ]

/-- The value of a key. -/
def get? (m : SortedMap κ α) (k : κ) : Option α :=
  match m with
  | [] => none
  | (x, a) :: rest => if k = x then some a else get? rest k

/-- The map with a value for a key. -/
def insert (m : SortedMap κ α) (k : κ) (a : α) : SortedMap κ α :=
  match m with
  | [] => [(k, a)]
  | (x, b) :: rest =>
    if k = x then (k, a) :: rest
    else if k < x then (k, a) :: (x, b) :: rest
    else (x, b) :: insert rest k a

omit [LT κ] [DecidableLT κ] in
@[simp] theorem get?_nil (k : κ) : get? ([] : SortedMap κ α) k = none := rfl

/-- The key that was inserted has its value, every other one the value it had. -/
theorem get?_insert (m : SortedMap κ α) (k : κ) (a : α) (j : κ) :
    get? (insert m k a) j = if j = k then some a else get? m j := by
  induction m with
  | nil => simp [insert, get?]
  | cons p rest ih =>
    obtain ⟨x, b⟩ := p
    unfold insert
    split
    · next h => subst h; by_cases hj : j = k <;> simp [get?, hj]
    · next h =>
      split
      · by_cases hj : j = k <;> simp [get?, hj]
      · by_cases hj : j = x
        · subst hj
          have : ¬ j = k := fun e => h e.symm
          simp [get?, this]
        · simp [get?, hj, ih]

end SortedMap

end CommuteSim
