import CommuteSim.Commute.Population

/-!
# Routes that commuters choose

A commuter that chooses a route gets one that is there, and whoever chooses keeps its trip and its
score.

Main statements: `index_lt` for the draw of an index, `routes_assignRoutes` and `routes_replan` for
the choices of a population.
-/

namespace CommuteSim

/-! ## Indices -/

section Index

/-- A word leaves room below the bound: the index of its product is below it, and if a second word
is needed, the index after it is too. -/
theorem IndexDraw.first_lt {d : IndexDraw} {w : Nat} (hw : w < Nat.pow 2 d.width)
    (hbound : 0 < d.bound) :
    (d.first w).1 < d.bound ∧ ((d.first w).2.2 = true → (d.first w).1 + 1 < d.bound) := by
  have hproduct : w * d.bound = Nat.pow 2 d.width * (d.first w).1 + (d.first w).2.1 :=
    (Nat.div_add_mod _ _).symm
  have hmost : (w + 1) * d.bound ≤ Nat.pow 2 d.width * d.bound := Nat.mul_le_mul_right _ hw
  rw [Nat.add_mul, Nat.one_mul] at hmost
  have hlt : (d.first w).1 < d.bound := by
    refine Nat.lt_of_mul_lt_mul_left (a := Nat.pow 2 d.width) ?_
    omega
  refine ⟨hlt, fun hunsettled => Nat.lt_of_le_of_ne hlt fun hlast => ?_⟩
  -- at the last index the fraction leaves room for the bound
  have hlow : Nat.pow 2 d.width - d.bound < (d.first w).2.1 := by
    simpa [first] using hunsettled
  have hbelow : Nat.pow 2 d.width * d.bound =
      Nat.pow 2 d.width * (d.first w).1 + Nat.pow 2 d.width := by
    rw [← hlast, Nat.mul_add, Nat.mul_one]
  omega

theorem IndexDraw.settle_lt {d : IndexDraw} {index low second : Nat} (h : index + 1 < d.bound) :
    d.settle index low second < d.bound := by
  unfold settle
  split
  · exact h
  · exact Nat.lt_of_succ_lt h

theorem Generator.wordOf_lt (bound : Nat) (g : Generator) :
    (g.wordOf (IndexDraw.below bound).width).1 < Nat.pow 2 (IndexDraw.below bound).width := by
  have hword : ∀ g : Generator, (g.wordOf 32).1 < Nat.pow 2 32 := fun g => g.word.1.toNat_lt
  have hdouble : ∀ g : Generator, (g.wordOf 64).1 < Nat.pow 2 64 := fun g => g.doubleWord.1.toNat_lt
  unfold IndexDraw.below
  dsimp only
  split
  · exact hword g
  · exact hdouble g

/-- The index that is drawn is below its bound. -/
theorem Generator.index_lt {bound : Nat} (h : 0 < bound) (g : Generator) :
    (g.index bound).1 < bound := by
  let d := IndexDraw.below bound
  have hfirst := IndexDraw.first_lt (d := d) (wordOf_lt bound g) h
  have hindex : (g.index bound).1 = if (d.first (g.wordOf d.width).1).2.2 then
      d.settle (d.first (g.wordOf d.width).1).1 (d.first (g.wordOf d.width).1).2.1
        ((g.wordOf d.width).2.wordOf d.width).1
      else (d.first (g.wordOf d.width).1).1 := by
    rw [index, if_neg (Nat.pos_iff_ne_zero.mp h)]
    dsimp only [d]
    split <;> rfl
  rw [hindex]
  split
  · rename_i hunsettled
    exact IndexDraw.settle_lt (hfirst.2 hunsettled)
  · exact hfirst.1

end Index

/-! ## Choices -/

namespace Population

variable {β : Type} {choose : Nat → Generator → Nat × Generator} {routes : Nat} {p : Population}

/-- Who chooses a route changes nothing else. -/
theorem map_chooseRoutes (f : Commuter → β) (hf : ∀ c r, f { c with route := r } = f c)
    (choose : Nat → Generator → Nat × Generator) (p : Population) (g : Generator) :
    (p.chooseRoutes choose g).1.map f = p.map f := by
  induction p generalizing g with
  | nil => rfl
  | cons c rest ih =>
      have hrest := ih (choose c.route g).2
      rw [chooseRoutes, List.map_cons, List.map_cons, hrest]
      exact congrArg (· :: rest.map f) (hf c _)

theorem map_assignRoutes (f : Commuter → β) (hf : ∀ c r, f { c with route := r } = f c)
    (routes : Nat) (p : Population) (g : Generator) :
    (p.assignRoutes routes g).1.map f = p.map f := by
  unfold assignRoutes
  split
  · rfl
  · exact map_chooseRoutes f hf _ p g

theorem map_replan (f : Commuter → β) (hf : ∀ c r, f { c with route := r } = f c) (share : Float)
    (routes : Nat) (p : Population) (g : Generator) :
    (p.replan share routes g).1.map f = p.map f := by
  unfold replan
  split
  · rfl
  · exact map_chooseRoutes f hf _ p g

/-- All commuters are on routes that are there if their choices are. -/
theorem routes_chooseRoutes (h : ∀ c ∈ p, ∀ g, (choose c.route g).1 < routes) (g : Generator) :
    ∀ c ∈ (p.chooseRoutes choose g).1, c.route < routes := by
  induction p generalizing g with
  | nil => exact fun c hc => nomatch hc
  | cons c rest ih =>
      intro d hd
      rcases List.mem_cons.mp hd with rfl | hd
      · exact h c List.mem_cons_self g
      · exact ih (fun c' hc' => h c' (List.mem_cons_of_mem c hc')) _ d hd

theorem routes_assignRoutes (h : 0 < routes) (g : Generator) :
    ∀ c ∈ (p.assignRoutes routes g).1, c.route < routes := by
  rw [assignRoutes, if_neg (Nat.pos_iff_ne_zero.mp h)]
  exact routes_chooseRoutes (fun _ _ g => Generator.index_lt h g) g

theorem routes_replan {share : Float} (h : ∀ c ∈ p, c.route < routes) (g : Generator) :
    ∀ c ∈ (p.replan share routes g).1, c.route < routes := by
  unfold replan
  split
  · exact h
  · rename_i hroutes
    refine routes_chooseRoutes (fun c hc g => ?_) g
    have hdecide : ((reconsider share routes c.route) g).1 =
        if g.float.1 < share then (g.float.2.index routes).1 else c.route := by
      rw [reconsider]
      dsimp only
      split <;> rfl
    rw [hdecide]
    split
    · exact Generator.index_lt (Nat.pos_iff_ne_zero.mpr hroutes) _
    · exact h c hc

end Population

end CommuteSim
