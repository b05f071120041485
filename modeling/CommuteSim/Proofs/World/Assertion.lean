import CommuteSim.Proofs.World.Wander

/-!
# Assertions about work

An assertion about work with a state says what its value and the state after it are like, if the
state before it is of a certain kind. Some assertions only say how the state goes on: whatever the
state before the work is, the one after it is related to it.

Main statements: `does_bind` and `does_bind_run` put assertions one behind the other, `upholds_bind`
and `upholds_bind_run` do so for a relation that is a preorder, and `comes_bind` and
`comes_bind_run` for work whose value is known.
-/

namespace CommuteSim

variable {τ ε α β : Type}

/-! ## What work does -/

/-- From every state of the kind `P` work comes to a value and a state as `Q` says. -/
def Does (P : τ → Prop) (work : StateM τ α) (Q : α → τ → Prop) : Prop :=
  ∀ t, P t → Q (work t).1 (work t).2

section Does

variable {P P' : τ → Prop} {Q Q' : α → τ → Prop} {R : β → τ → Prop}

theorem does_pure {a : α} (h : ∀ t, P t → Q a t) : Does P (pure a : StateM τ α) Q := h

theorem does_mono {work : StateM τ α} (h : Does P work Q) (hP : ∀ t, P' t → P t)
    (hQ : ∀ a t, Q a t → Q' a t) : Does P' work Q' :=
  fun t ht => hQ _ _ (h t (hP t ht))

theorem does_bind {work : StateM τ α} {next : α → StateM τ β} (h : Does P work Q)
    (h' : ∀ a, Does (Q a) (next a) R) : Does P (work >>= next) R :=
  fun t ht => h' _ _ (h t ht)

/-- Work that begins with a look at the state. -/
theorem does_get {next : τ → StateM τ β} (h : ∀ t, P t → Does (· = t) (next t) R) :
    Does P (get >>= next) R :=
  fun t ht => h t ht t rfl

/-- Work for which it does not matter that the state is the one that was looked at. -/
theorem does_look {next : τ → StateM τ β} (h : ∀ t, Does P (next t) R) :
    Does P (get >>= next) R :=
  fun t ht => h t t ht

theorem does_ite {p : Prop} [Decidable p] {work other : StateM τ α} (h : p → Does P work Q)
    (h' : ¬ p → Does P other Q) : Does P (if p then work else other) Q := by
  split
  · rename_i hp
    exact h hp
  · rename_i hp
    exact h' hp

/-! ### Work that can fail -/

variable {S : Except ε α → τ → Prop} {T : Except ε β → τ → Prop}

theorem does_bind_run {work : ExceptT ε (StateM τ) α} {next : α → ExceptT ε (StateM τ) β}
    (h : Does P work.run S) (hok : ∀ a, Does (S (.ok a)) (next a).run T)
    (herror : ∀ e t, S (.error e) t → T (.error e) t) : Does P (work >>= next).run T := by
  intro t ht
  have hwork := h t ht
  rw [run_bind_except]
  cases hresult : (work.run t).1 with
  | ok a =>
      rw [hresult] at hwork
      exact hok a _ hwork
  | error e =>
      rw [hresult] at hwork
      exact herror e _ hwork

/-- Work that does not fail, before work that can. -/
theorem does_bind_lift {work : StateM τ α} {next : α → ExceptT ε (StateM τ) β} (h : Does P work Q)
    (h' : ∀ a, Does (Q a) (next a).run T) :
    Does P ((ExceptT.lift work : ExceptT ε (StateM τ) α) >>= next).run T := by
  have hbind : Does P (work >>= fun a => (next a).run) T := does_bind h h'
  exact hbind

end Does

/-! ## How the state goes on -/

/-- Work leads from every state to one that is related to it. -/
def Upholds (R : τ → τ → Prop) (work : StateM τ α) : Prop := ∀ t, R t (work t).2

section Upholds

variable {R : τ → τ → Prop}

theorem upholds_pure [Std.Refl R] (a : α) : Upholds R (pure a : StateM τ α) :=
  fun t => Std.Refl.refl t

theorem upholds_bind [Trans R R R] {work : StateM τ α} {next : α → StateM τ β}
    (h : Upholds R work) (h' : ∀ a, Upholds R (next a)) : Upholds R (work >>= next) :=
  fun t => Trans.trans (h t) (h' _ _)

theorem upholds_get [Std.Refl R] : Upholds R (get : StateM τ τ) := fun t => Std.Refl.refl t

theorem upholds_ite {p : Prop} [Decidable p] {work other : StateM τ α} (h : Upholds R work)
    (h' : Upholds R other) : Upholds R (if p then work else other) := by
  split
  · exact h
  · exact h'

theorem upholds_bind_run [Trans R R R] {work : ExceptT ε (StateM τ) α}
    {next : α → ExceptT ε (StateM τ) β} (h : Upholds R work.run)
    (h' : ∀ a, Upholds R (next a).run) : Upholds R (work >>= next).run := by
  intro t
  rw [run_bind_except]
  cases (work.run t).1 with
  | ok a => exact Trans.trans (h t) (h' a _)
  | error e => exact h t

theorem upholds_lift {work : StateM τ α} (h : Upholds R work) :
    Upholds R (ExceptT.lift work : ExceptT ε (StateM τ) α).run := h

theorem upholds_mono {R' : τ → τ → Prop} {work : StateM τ α} (h : Upholds R work)
    (hR : ∀ t u, R t u → R' t u) : Upholds R' work :=
  fun t => hR _ _ (h t)

end Upholds

/-- Work that goes on as `R` says stays in a kind of states that `R` does not lead out of. -/
theorem does_of_upholds {R : τ → τ → Prop} {P : τ → Prop} {work : StateM τ α}
    (h : Upholds R work) (hP : ∀ t u, R t u → P t → P u) : Does P work fun _ => P :=
  fun t ht => hP _ _ (h t) ht

/-! ## Work that comes to one value -/

/-- From every state of the kind `P` work comes to the value `v` and to a state of the kind `Q`. -/
def Comes (P : τ → Prop) (work : StateM τ α) (v : α) (Q : τ → Prop) : Prop :=
  Does P work fun a t => a = v ∧ Q t

section Comes

variable {P Q R : τ → Prop} {v : α} {w : β}

theorem comes_pure (v : α) : Comes P (pure v : StateM τ α) v P := fun _ h => ⟨rfl, h⟩

theorem comes_bind {work : StateM τ α} {next : α → StateM τ β} (h : Comes P work v Q)
    (h' : Comes Q (next v) w R) : Comes P (work >>= next) w R := by
  refine does_bind h fun a => ?_
  rintro t ⟨rfl, ht⟩
  exact h' t ht

theorem comes_get {next : τ → StateM τ β} (h : ∀ t, P t → Comes P (next t) w R) :
    Comes P (get >>= next) w R :=
  fun t ht => h t ht t ht

/-! ### Work that can fail -/

theorem comes_bind_run {work : ExceptT ε (StateM τ) α} {next : α → ExceptT ε (StateM τ) β}
    {r : Except ε β} (h : Comes P work.run (.ok v) Q) (h' : Comes Q (next v).run r R) :
    Comes P (work >>= next).run r R := by
  intro t ht
  obtain ⟨hok, hQ⟩ := h t ht
  rw [run_bind_except, hok]
  exact h' _ hQ

theorem comes_bind_lift {work : StateM τ α} {next : α → ExceptT ε (StateM τ) β} {r : Except ε β}
    (h : Comes P work v Q) (h' : Comes Q (next v).run r R) :
    Comes P ((ExceptT.lift work : ExceptT ε (StateM τ) α) >>= next).run r R := by
  have hbind : Comes P (work >>= fun a => (next a).run) r R := comes_bind h h'
  exact hbind

theorem comes_get_run {next : τ → ExceptT ε (StateM τ) β} {r : Except ε β}
    (h : ∀ t, P t → Comes P (next t).run r R) : Comes P (getThe τ >>= next).run r R :=
  fun t ht => h t ht t ht

end Comes

end CommuteSim
