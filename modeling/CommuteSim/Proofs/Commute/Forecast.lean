import CommuteSim.Proofs.Commute.Listeners

/-!
# The forecast of a run

A run of the simulation that nobody disturbs can be foreseen: what becomes of the population in an
iteration depends on the population, on the seed of the iteration and on the settings, and on
nothing else. The forecast is a sequential program over plain values. It knows no workers, no
listeners and no clock.

Main statements: `Sound.forecast` for what holds in every forecast, `forecast_completes` for one in
which no mobsim fails, and `forecast_fails` for one that comes to a mobsim that does.
-/

namespace CommuteSim

/-! ## Sights -/

/-- What there is to be seen of a run: its rounds, and what the listeners of the simulation find
when they are told of something. -/
inductive Sight where
  | round (event : Event)
  | shown (event : Event) (memory : CommuteMemory)

/-- What is seen of a moment. -/
def Moment.sight? {σ : Type} (part : Part σ CommuteMemory) : Moment σ → Option Sight
  | .round e => some (.round e)
  | .told .core _ e m _ => some (.shown e (part.get m))
  | _ => none

/-! ## Situations -/

/-- What the course of a run depends on. -/
structure Scenario where
  settings : PopulationSettings
  seed : UInt64
  first : IterationIndex

/-- The scenario of a population under a configuration. The number of workers is left out. -/
def Scenario.of (s : PopulationSettings) (c : Configuration) : Scenario where
  settings := { s with mobsimWorkers := 1 }
  seed := c.global.randomSeed
  first := c.controller.firstIteration

/-- The generator that the listeners and the mobsim of an iteration find. -/
def Scenario.generator (z : Scenario) (i : IterationIndex) : Generator :=
  Generator.reseeded (iterationSeed z.seed i)

/-- Where a run stands, as far as it can be foreseen. -/
structure Situation where
  memory : CommuteMemory
  /-- The generator, unless someone may have drawn from it. -/
  generator : Option Generator := none
  /-- The fault of the run, with its origin. -/
  trouble : Option (String × Fault) := none
  /-- Whether the teardown was claimed. -/
  claimed : Bool := false
  /-- What was seen so far. -/
  sights : List Sight := []
  /-- The iterations that were scored, each with the memory after its scoring. -/
  scored : List (IterationIndex × CommuteMemory) := []
  /-- The iteration that was begun last, and whose directory is there if iterations have any. -/
  begun : Option IterationIndex := none
  completed : Nat := 0
  last : Option IterationIndex := none

namespace Situation

/-- A round in which no listener of the simulation is told. -/
def rounds (e : Event) (y : Situation) : Situation := { y with sights := y.sights ++ [.round e] }

/-- A round in which a listener of the simulation is told. -/
def shows (e : Event) (y : Situation) : Situation :=
  { y with sights := y.sights ++ [.round e, .shown e y.memory] }

/-- All commuters are given routes. -/
def prepares (z : Scenario) (y : Situation) : Situation :=
  let p := y.memory.population.assignRoutes z.settings.routes.length (.ofSeed z.seed)
  { y with memory := { y.memory with population := p.1 }, generator := none }

/-- An iteration begins. -/
def begins (z : Scenario) (i : IterationIndex) (y : Situation) : Situation :=
  { y with begun := some i, generator := some (z.generator i) }.rounds (.iterationStart i)

/-- A share of the commuters chooses new routes. -/
def replans (z : Scenario) (i : IterationIndex) (y : Situation) : Situation :=
  let p := y.memory.population.replan z.settings.replanningShare z.settings.routes.length
    (z.generator i)
  { y.shows (.replanning i) with
    memory := { y.memory with population := p.1 }
    generator := none }

/-- The mobsim of an iteration. -/
def simulates (z : Scenario) (i : IterationIndex) (y : Situation) : Situation :=
  { y with
    memory := Mobsim.after z.settings i (z.generator i) y.memory
    trouble := Mobsim.trouble z.settings i y.memory.population
    generator := none }

/-- The mobsim of an iteration with the rounds before and after it. -/
def travels (z : Scenario) (i : IterationIndex) (y : Situation) : Situation :=
  (simulates z i (y.rounds (.beforeMobsim i))).rounds (.afterMobsim i)

/-- The scoring of an iteration. -/
def scores (z : Scenario) (i : IterationIndex) (y : Situation) : Situation :=
  let m := CommuteSim.scored z.settings.utilityPerHour i y.memory
  { y.shows (.scoring i) with memory := m, scored := y.scored ++ [(i, m)] }

/-- An iteration up to its mobsim. -/
def opens (z : Scenario) (i : IterationIndex) (y : Situation) : Situation :=
  if z.first < i then replans z i (begins z i y) else begins z i y

/-- An iteration. -/
def iterates (z : Scenario) (i : IterationIndex) (y : Situation) : Situation :=
  let y := travels z i (opens z i y)
  if y.trouble.isSome then y else (scores z i y).rounds (.iterationEnd i)

/-- It is asked whether an iteration is to run; who is asked may draw. -/
def asks (y : Situation) : Situation := { y with generator := none }

/-- An iteration ended without an abort. -/
def counts (y : Situation) : Situation := { y with completed := min (y.completed + 1) 0xFFFFFFFF }

/-- The iterations from an index on, as long as they are wanted. -/
def forecast (z : Scenario) (wanted : IterationIndex → Bool) :
    (room : Nat) → IterationIndex → Situation → Situation
  | 0, _, y => y
  | room + 1, i, y =>
    if wanted i then
      let y := iterates z i { y.asks with last := some i }
      if y.trouble.isSome then y
      else match i.next? with
        | some j => forecast z wanted room j y.counts
        | none => y.counts
    else y.asks

/-- Where a run stands before it begins. -/
def initially (z : Scenario) : Situation where
  memory := CommuterSimulation.memory z.settings
  generator := some (.ofSeed z.seed)

/-- A configuration is refused. -/
def refused (p : Inconsistency) (y : Situation) : Situation :=
  { y with trouble := some ("check_consistency", .setup "check_consistency" ⟨p.message, []⟩) }

/-- The first iteration is still to come. -/
def prepared (z : Scenario) : Situation := ((initially z).rounds .startup).prepares z

/-- The run up to its teardown, under a configuration that is refused or not. -/
def opening (z : Scenario) (answers : IterationIndex → Bool) : Option Inconsistency → Situation
  | some p => ((initially z).rounds .startup).refused p
  | none => forecast z answers (UInt32.size - z.first.toNat) z.first (prepared z)

/-- The teardown. -/
def finishes (y : Situation) : Situation :=
  { y with claimed := true }.shows (.shutdown y.trouble.isSome)

/-- The result of a run that ends in a situation. -/
def outcome (y : Situation) : Except RunFailure RunSummary :=
  match y.trouble with
  | some (origin, f) => .error (.fault origin f)
  | none => .ok ⟨.completed, y.completed, y.last⟩

/-! ## Populations -/

section Populations

variable {p q : Population} {n : Nat} {z : Scenario} {i : IterationIndex} {g : Generator}

theorem known_of_map (h : q.map (·.route) = p.map (·.route)) (hp : ∀ c ∈ p, c.route < n) :
    ∀ c ∈ q, c.route < n := by
  intro c hc
  have hmem : c.route ∈ p.map (·.route) := h ▸ List.mem_map_of_mem hc
  obtain ⟨d, hd, hroute⟩ := List.mem_map.mp hmem
  exact hroute ▸ hp d hd

theorem length_of_map {β : Type} {f : Commuter → β} (h : q.map f = p.map f) :
    q.length = p.length := by
  simpa using congrArg List.length h

theorem map_scored {β : Type} (f : Commuter → β) (hf : ∀ c x, f { c with score := x } = f c)
    (utilityPerHour : Float) (p : Population) : (p.scored utilityPerHour).map f = p.map f := by
  rw [Population.scored, List.map_map]
  exact List.map_congr_left fun c _ => hf c _

/-- Where all trips have been made, all are scored. -/
theorem scored_of_trips (utilityPerHour : Float) (h : ∀ c ∈ p, c.trip.isSome = true) :
    (∀ c ∈ p.scored utilityPerHour, c.score.isSome = true) ∧
      ((p.scored utilityPerHour).filterMap (·.score)).length = p.length := by
  constructor
  · intro c hc
    obtain ⟨d, hd, rfl⟩ := List.mem_map.mp hc
    simpa using h d hd
  · induction p with
    | nil => rfl
    | cons c rest ih =>
        obtain ⟨t, ht⟩ := Option.isSome_iff_exists.mp (h c List.mem_cons_self)
        have hrest := ih fun d hd => h d (List.mem_cons_of_mem c hd)
        have hscore : ({ c with score := c.trip.map (tripScore utilityPerHour) } : Commuter).score =
            some (tripScore utilityPerHour t) := by simp [ht]
        rw [Population.scored] at hrest ⊢
        rw [List.map_cons, List.filterMap_cons_some hscore, List.length_cons, List.length_cons,
          hrest]

theorem scored_ofScores (i : IterationIndex) (xs : List Float) :
    (ScoreStatistics.ofScores i xs).iteration = i ∧
      (ScoreStatistics.ofScores i xs).scored = xs.length := by
  unfold ScoreStatistics.ofScores
  cases xs <;> exact ⟨rfl, rfl⟩

theorem trips_simulated (h : ∀ c ∈ p, c.route < z.settings.routes.length) :
    ∀ c ∈ Mobsim.simulated z.settings i p g, c.trip.isSome = true := by
  intro c hc
  have hknown : ∀ d ∈ p, d.route < (Mobsim.minutes z.settings p).length := by
    rw [Mobsim.length_minutes]
    exact h
  obtain ⟨t, ht, -⟩ := Mobsim.trip_travelled (Mobsim.length_deviations p g) hknown c hc
  rw [ht]
  rfl

end Populations

/-! ## What holds in every forecast -/

/-- Whatever is wanted, these hold before an iteration. -/
structure Sound (z : Scenario) (i : IterationIndex) (y : Situation) : Prop where
  known : ∀ c ∈ y.memory.population, c.route < z.settings.routes.length
  calm : y.trouble = none
  earlier : ∀ x ∈ y.scored, x.1 < i
  distinct : (y.scored.map Prod.fst).Nodup

section Sound

variable {z : Scenario} {i j : IterationIndex} {y : Situation} {wanted : IterationIndex → Bool}

/-- The next index, unless this is the largest. -/
theorem toNat_next (i : IterationIndex) :
    (i.next? = none ∧ i.toNat = 0xFFFFFFFF) ∨ ∃ j, i.next? = some j ∧ j.toNat = i.toNat + 1 := by
  unfold IterationIndex.next?
  split
  · rename_i hmost
    exact .inl ⟨rfl, congrArg UInt32.toNat hmost⟩
  · rename_i hmost
    have hne : i.toNat ≠ 0xFFFFFFFF := fun heq => hmost (UInt32.toNat_inj.mp heq)
    have hi := i.toNat_lt
    refine .inr ⟨i + 1, rfl, ?_⟩
    rw [UInt32.toNat_add, UInt32.toNat_one]
    omega

theorem toNat_of_next {i j : IterationIndex} (h : i.next? = some j) : j.toNat = i.toNat + 1 := by
  rcases toNat_next i with ⟨hnone, -⟩ | ⟨j', hj', hnat⟩
  · exact nomatch hnone.symm.trans h
  · rwa [Option.some.inj (h.symm.trans hj')]

theorem lt_next {i j k : IterationIndex} (h : i.next? = some j) (hk : k ≤ i) : k < j := by
  have hnat := toNat_of_next h
  rw [UInt32.le_iff_toNat_le] at hk
  rw [UInt32.lt_iff_toNat_lt]
  omega

/-- The index behind one that is not the largest. -/
theorem exists_next {i j : IterationIndex} (h : i < j) :
    ∃ k, i.next? = some k ∧ k.toNat = i.toNat + 1 := by
  rcases toNat_next i with ⟨-, hmost⟩ | hnext
  · rw [UInt32.lt_iff_toNat_lt] at h
    have hj := j.toNat_lt
    omega
  · exact hnext

theorem next_le {i j k : IterationIndex} (h : i.next? = some k) (hlt : i < j) : k ≤ j := by
  have hnat := toNat_of_next h
  rw [UInt32.lt_iff_toNat_lt] at hlt
  rw [UInt32.le_iff_toNat_le]
  omega

/-- Up to its mobsim an iteration scores nothing, and at most changes routes. -/
structure Undecided (y x : Situation) : Prop where
  history : x.memory.history = y.memory.history
  scored : x.scored = y.scored
  completed : x.completed = y.completed
  last : x.last = y.last
  trouble : x.trouble = y.trouble
  claimed : x.claimed = y.claimed

theorem undecided_opens (z : Scenario) (i : IterationIndex) (y : Situation) :
    Undecided y (opens z i y) := by
  unfold opens
  split <;> exact ⟨rfl, rfl, rfl, rfl, rfl, rfl⟩

theorem begun_opens (z : Scenario) (i : IterationIndex) (y : Situation) :
    (opens z i y).begun = some i := by
  unfold opens
  split <;> rfl

/-- No iteration claims the teardown. -/
theorem claimed_iterates (z : Scenario) (i : IterationIndex) (y : Situation) :
    (iterates z i y).claimed = y.claimed := by
  have hopens := (undecided_opens z i y).claimed
  unfold iterates
  dsimp only
  split <;> exact hopens

theorem claimed_forecast (z : Scenario) (wanted : IterationIndex → Bool) (room : Nat)
    (i : IterationIndex) (y : Situation) : (forecast z wanted room i y).claimed = y.claimed := by
  induction room generalizing i y with
  | zero => rfl
  | succ room ih =>
      have hiterates := claimed_iterates z i { y.asks with last := some i }
      unfold forecast
      split
      · dsimp only
        split
        · exact hiterates
        · cases i.next? with
          | none => exact hiterates
          | some j => exact (ih j _).trans hiterates
      · rfl

theorem claimed_opening (z : Scenario) (answers : IterationIndex → Bool)
    (p : Option Inconsistency) : (opening z answers p).claimed = false := by
  cases p with
  | some p => rfl
  | none => exact claimed_forecast z answers _ _ _

theorem length_opens (z : Scenario) (i : IterationIndex) (y : Situation) :
    (opens z i y).memory.population.length = y.memory.population.length := by
  unfold opens
  split
  · exact length_of_map (Population.map_replan (·.score) (fun _ _ => rfl) _ _ _ _)
  · rfl

theorem known_opens (h : ∀ c ∈ y.memory.population, c.route < z.settings.routes.length) :
    ∀ c ∈ (opens z i y).memory.population, c.route < z.settings.routes.length := by
  unfold opens
  split
  · exact Population.routes_replan h _
  · exact h

theorem fails_opens : Mobsim.Fails z.settings i (opens z i y).memory.population ↔
    Mobsim.Fails z.settings i y.memory.population := by
  refine and_congr_left' ?_
  rw [← List.length_pos_iff, ← List.length_pos_iff, length_opens]

/-- A mobsim that fails changes nothing else. -/
theorem iterates_of_fails (h : Mobsim.Fails z.settings i y.memory.population) :
    iterates z i y = travels z i (opens z i y) ∧
      (iterates z i y).trouble =
        some ("mobsim-worker-0", .worker "mobsim-worker-0" (Mobsim.injected i)) ∧
      (iterates z i y).memory = (opens z i y).memory := by
  have hfails := fails_opens.mpr h
  have htrouble : (travels z i (opens z i y)).trouble =
      some ("mobsim-worker-0", .worker "mobsim-worker-0" (Mobsim.injected i)) := if_pos hfails
  have hiterates : iterates z i y = travels z i (opens z i y) := by
    unfold iterates
    dsimp only
    rw [htrouble]
    rfl
  rw [hiterates]
  exact ⟨rfl, htrouble, if_pos hfails⟩

/-- The memory of an iteration that is scored, before its scoring. -/
def moved (z : Scenario) (i : IterationIndex) (y : Situation) : CommuteMemory :=
  let m := (opens z i y).memory
  { m with population := Mobsim.simulated z.settings i m.population (z.generator i) }

/-- An iteration whose mobsim does not fail is scored. -/
theorem iterates_of_not_fails (h : ¬ Mobsim.Fails z.settings i y.memory.population) :
    iterates z i y = (scores z i (travels z i (opens z i y))).rounds (.iterationEnd i) ∧
      (iterates z i y).trouble = none ∧
      (iterates z i y).memory = CommuteSim.scored z.settings.utilityPerHour i (moved z i y) := by
  have hwell := mt fails_opens.mp h
  have htrouble : (travels z i (opens z i y)).trouble = none := if_neg hwell
  have hmoved : (travels z i (opens z i y)).memory = moved z i y := if_neg hwell
  have hiterates : iterates z i y =
      (scores z i (travels z i (opens z i y))).rounds (.iterationEnd i) := by
    unfold iterates
    dsimp only
    rw [htrouble]
    rfl
  rw [hiterates, ← hmoved]
  exact ⟨rfl, htrouble, rfl⟩

theorem length_moved (z : Scenario) (i : IterationIndex) (y : Situation) :
    (moved z i y).population.length = y.memory.population.length := by
  rw [moved, Mobsim.simulated, Mobsim.length_travelled _ _ (Mobsim.length_deviations _ _),
    length_opens]

theorem trips_moved (h : ∀ c ∈ y.memory.population, c.route < z.settings.routes.length) :
    ∀ c ∈ (moved z i y).population, c.trip.isSome = true :=
  trips_simulated (known_opens h)

theorem known_moved (h : ∀ c ∈ y.memory.population, c.route < z.settings.routes.length) :
    ∀ c ∈ (moved z i y).population, c.route < z.settings.routes.length := by
  refine known_of_map ?_ (known_opens (i := i) h)
  exact Mobsim.map_travelled (·.route) (fun _ _ => rfl) _ _ (Mobsim.length_deviations _ _)

/-- What is scored after an iteration is what was scored before, and perhaps the iteration. -/
theorem scored_iterates (z : Scenario) (i : IterationIndex) (y : Situation) :
    (iterates z i y).scored = y.scored ∨ ∃ m, (iterates z i y).scored = y.scored ++ [(i, m)] := by
  have hopens := (undecided_opens z i y).scored
  by_cases h : Mobsim.Fails z.settings i y.memory.population
  · left
    rw [(iterates_of_fails h).1]
    exact hopens
  · right
    rw [(iterates_of_not_fails h).1]
    exact ⟨_, congrArg (· ++ _) hopens⟩

theorem Sound.distinct_iterates (h : Sound z i y) :
    ((iterates z i y).scored.map Prod.fst).Nodup := by
  rcases scored_iterates z i y with hscored | ⟨m, hscored⟩
  · rw [hscored]
    exact h.distinct
  · rw [hscored, List.map_append]
    refine List.nodup_append.mpr ⟨h.distinct, List.pairwise_singleton _ _, ?_⟩
    intro j hj k hk
    obtain ⟨x, hx, rfl⟩ := List.mem_map.mp hj
    rw [List.mem_singleton.mp hk]
    exact UInt32.ne_of_lt (h.earlier x hx)

/-- After an iteration without trouble all is sound before the next one. -/
theorem Sound.next (h : Sound z i y) (hcalm : (iterates z i y).trouble = none)
    (hj : i.next? = some j) : Sound z j (iterates z i y).counts := by
  have hwell : ¬ Mobsim.Fails z.settings i y.memory.population := fun hfails =>
    nomatch (iterates_of_fails hfails).2.1.symm.trans hcalm
  refine ⟨?_, hcalm, fun x hx => lt_next hj ?_, h.distinct_iterates⟩
  · change ∀ c ∈ (iterates z i y).memory.population, _
    rw [(iterates_of_not_fails hwell).2.2]
    exact known_of_map (map_scored (·.route) (fun _ _ => rfl) _ _) (known_moved h.known)
  · change x ∈ (iterates z i y).scored at hx
    rcases scored_iterates z i y with hscored | ⟨m, hscored⟩
    · exact UInt32.le_of_lt (h.earlier x (hscored ▸ hx))
    · rw [hscored] at hx
      rcases List.mem_append.mp hx with hx | hx
      · exact UInt32.le_of_lt (h.earlier x hx)
      · rw [List.mem_singleton.mp hx]
        exact UInt32.le_refl i

/-- Before an iteration is begun, it is noted as the last one. -/
theorem Sound.starts (h : Sound z i y) : Sound z i { y.asks with last := some i } :=
  ⟨h.known, h.calm, h.earlier, h.distinct⟩

/-- In a forecast no iteration is scored twice. By induction on the indices that are left. -/
theorem Sound.distinct_forecast {room : Nat} (h : Sound z i y) :
    ((forecast z wanted room i y).scored.map Prod.fst).Nodup := by
  induction room generalizing i y with
  | zero => exact h.distinct
  | succ room ih =>
      have hdistinct := h.starts.distinct_iterates
      unfold forecast
      split
      · dsimp only
        split
        · exact hdistinct
        · rename_i hcalm
          cases hnext : i.next? with
          | none => exact hdistinct
          | some j => exact ih (h.starts.next (by simpa using hcalm) hnext)
      · exact h.distinct

end Sound

/-! ## How many iterations are scored -/

/-- The first `k` iterations were run and scored, each for `n` commuters. -/
structure Through (z : Scenario) (n k : Nat) (y : Situation) : Prop where
  size : y.memory.population.length = n
  history : y.memory.history.map (·.iteration.toNat) = List.range' z.first.toNat k
  whole : ∀ e ∈ y.memory.history, e.scored = n
  scored : 0 < k → ∀ c ∈ y.memory.population, c.score.isSome = true
  seen : ∀ j, .round (.scoring j) ∈ y.sights → j.toNat < z.first.toNat + k
  completed : y.completed = min k 0xFFFFFFFF

section Through

variable {z : Scenario} {i last : IterationIndex} {y : Situation} {n k room : Nat}

theorem Through.starts (h : Through z n k y) (i : IterationIndex) :
    Through z n k { y.asks with last := some i } :=
  ⟨h.size, h.history, h.whole, h.scored, h.seen, h.completed⟩

/-- What is seen of an iteration up to its mobsim is no scoring. -/
theorem scoring_of_mem_travels {j : IterationIndex}
    (h : Sight.round (.scoring j) ∈ (travels z i (opens z i y)).sights) :
    Sight.round (.scoring j) ∈ y.sights := by
  have hopens : Sight.round (.scoring j) ∈ (opens z i y).sights →
      .round (.scoring j) ∈ y.sights := by
    unfold opens
    split <;> simp [replans, begins, shows, rounds]
  refine hopens ?_
  simpa [travels, simulates, rounds] using h

/-- What is seen of an iteration is its own scoring alone. -/
theorem scoring_of_mem_iterates {j : IterationIndex}
    (hwell : ¬ Mobsim.Fails z.settings i y.memory.population)
    (h : Sight.round (.scoring j) ∈ (iterates z i y).sights) :
    Sight.round (.scoring j) ∈ y.sights ∨ j = i := by
  rw [(iterates_of_not_fails hwell).1] at h
  have hmem : Sight.round (.scoring j) ∈ (travels z i (opens z i y)).sights ∨ j = i := by
    simpa [scores, rounds, shows, or_assoc] using h
  exact hmem.imp_left scoring_of_mem_travels

theorem min_succ (k most : Nat) : min (min k most + 1) most = min (k + 1) most := by
  omega

/-- One more iteration. -/
theorem Through.iterates (h : Through z n k y) (hi : i.toNat = z.first.toNat + k)
    (hsound : Sound z i y) (hwell : ¬ Mobsim.Fails z.settings i y.memory.population) :
    Through z n (k + 1) (iterates z i y).counts := by
  obtain ⟨hiterates, -, hmemory⟩ := iterates_of_not_fails hwell
  have htrips := trips_moved (i := i) hsound.known
  have hlength := (length_moved z i y).trans h.size
  obtain ⟨hall, hcount⟩ := scored_of_trips z.settings.utilityPerHour htrips
  have hhistory : (moved z i y).history = y.memory.history := (undecided_opens z i y).history
  have hentry := scored_ofScores i
    (((moved z i y).population.scored z.settings.utilityPerHour).filterMap (·.score))
  rw [hcount, hlength] at hentry
  constructor
  · change (Situation.iterates z i y).memory.population.length = n
    rw [hmemory, CommuteSim.scored, Population.scored, List.length_map, hlength]
  · change (Situation.iterates z i y).memory.history.map _ = _
    rw [hmemory, CommuteSim.scored]
    dsimp only
    rw [List.map_append, hhistory, h.history, List.map_singleton, hentry.1, hi, List.range'_concat]
    simp
  · change ∀ e ∈ (Situation.iterates z i y).memory.history, e.scored = n
    rw [hmemory, CommuteSim.scored]
    dsimp only
    rw [hhistory]
    intro e he
    rcases List.mem_append.mp he with he | he
    · exact h.whole e he
    · rw [List.mem_singleton.mp he]
      exact hentry.2
  · intro _
    change ∀ c ∈ (Situation.iterates z i y).memory.population, c.score.isSome = true
    rw [hmemory]
    exact hall
  · intro j hj
    rcases scoring_of_mem_iterates hwell hj with hmem | rfl
    · have := h.seen j hmem
      omega
    · omega
  · have hcompleted := (undecided_opens z i y).completed
    have hsame : (Situation.iterates z i y).completed = y.completed := by
      rw [hiterates]
      exact hcompleted
    rw [counts, hsame, h.completed]
    exact min_succ k _

theorem Through.asks (h : Through z n k y) : Through z n k y.asks :=
  ⟨h.size, h.history, h.whole, h.scored, h.seen, h.completed⟩

/-- The iterations up to the last one are wanted by default. -/
def upTo (last i : IterationIndex) : Bool := i ≤ last

/-- Nothing happens from an index on that is not wanted. -/
theorem forecast_of_unwanted {wanted : IterationIndex → Bool} (h : wanted i = false) (room : Nat) :
    forecast z wanted room i y = y ∨ forecast z wanted room i y = y.asks := by
  cases room with
  | zero => exact .inl rfl
  | succ room =>
      right
      rw [forecast, h]
      rfl

theorem forecast_of_wanted {wanted : IterationIndex → Bool} (h : wanted i = true) (room : Nat) :
    forecast z wanted (room + 1) i y =
      let x := iterates z i { y.asks with last := some i }
      if x.trouble.isSome then x
      else i.next?.elim x.counts fun j => forecast z wanted room j x.counts := by
  rw [forecast, if_pos h]
  cases i.next? <;> rfl

/-- Where the mobsim of an iteration does not fail, the run goes on behind it. -/
theorem forecast_of_not_fails {wanted : IterationIndex → Bool} (h : wanted i = true)
    (hwell : ¬ Mobsim.Fails z.settings i y.memory.population) (room : Nat) :
    let x := iterates z i { y.asks with last := some i }
    x.trouble = none ∧ x.last = some i ∧ forecast z wanted (room + 1) i y =
      i.next?.elim x.counts fun j => forecast z wanted room j x.counts := by
  intro x
  obtain ⟨hiterates, hcalm, -⟩ :=
    iterates_of_not_fails (y := { y.asks with last := some i }) hwell
  refine ⟨hcalm, ?_, ?_⟩
  · rw [show x = _ from hiterates]
    exact (undecided_opens z i _).last
  · rw [forecast_of_wanted h]
    dsimp only
    rw [hcalm]
    rfl

/-- Where it fails, the iteration is the end of the run. -/
theorem forecast_of_fails {wanted : IterationIndex → Bool} (h : wanted i = true)
    (hfails : Mobsim.Fails z.settings i y.memory.population) (room : Nat) :
    forecast z wanted (room + 1) i y = iterates z i { y.asks with last := some i } := by
  obtain ⟨-, htrouble, -⟩ := iterates_of_fails (y := { y.asks with last := some i }) hfails
  rw [forecast_of_wanted h]
  dsimp only
  rw [htrouble]
  rfl

/-- Behind the last index that is wanted nothing happens. -/
theorem forecast_behind (room : Nat) :
    (i.next?.elim y fun j => forecast z (upTo i) room j y) = y ∨
      (i.next?.elim y fun j => forecast z (upTo i) room j y) = y.asks := by
  cases hnext : i.next? with
  | none => exact .inl rfl
  | some j =>
      have hnat := toNat_of_next hnext
      have hunwanted : upTo i j = false := by
        refine decide_eq_false fun h => ?_
        rw [UInt32.le_iff_toNat_le] at h
        omega
      exact forecast_of_unwanted hunwanted room

/-- Where no mobsim is made to fail for any commuter, all iterations are run and scored. By
induction on the indices that are left. -/
theorem forecast_completes (hroom : i.toNat + room = UInt32.size)
    (hi : i.toNat = z.first.toNat + k) (hle : i ≤ last) (hsound : Sound z i y)
    (hy : Through z n k y)
    (hwell : ∀ j, i ≤ j → j ≤ last → z.settings.failMobsimAt = some j → n = 0) :
    (forecast z (upTo last) room i y).trouble = none ∧
      (forecast z (upTo last) room i y).last = some last ∧
      Through z n (last.toNat + 1 - z.first.toNat) (forecast z (upTo last) room i y) := by
  induction room generalizing i k y with
  | zero =>
      have hlt := i.toNat_lt
      simp only [UInt32.size] at hroom
      omega
  | succ room ih =>
      have hwell' : ¬ Mobsim.Fails z.settings i y.memory.population := by
        rintro ⟨hsome, hfail⟩
        have hnone := hwell i (UInt32.le_refl i) hle hfail
        exact hsome (List.length_eq_zero_iff.mp (hy.size.trans hnone))
      obtain ⟨hcalm, hlast, hforecast⟩ :=
        forecast_of_not_fails (show upTo last i = true from decide_eq_true hle) hwell' room
      have hx := (hy.starts i).iterates hi hsound.starts hwell'
      rw [hforecast]
      by_cases heq : i = last
      · subst heq
        have hk : k + 1 = i.toNat + 1 - z.first.toNat := by omega
        rw [← hk]
        rcases forecast_behind room with hend | hend
        · rw [hend]
          exact ⟨hcalm, hlast, hx⟩
        · rw [hend]
          exact ⟨hcalm, hlast, hx.asks⟩
      · have hlt : i < last := UInt32.lt_of_le_of_ne hle heq
        obtain ⟨j, hnext, hj⟩ := exists_next hlt
        rw [hnext]
        have hij : i ≤ j := UInt32.le_of_lt (lt_next hnext (UInt32.le_refl i))
        exact ih (k := k + 1) (by omega) (by omega) (next_le hnext hlt)
          (hsound.starts.next hcalm hnext) hx fun j' hj' => hwell j' (UInt32.le_trans hij hj')

/-- What is seen of an iteration up to its mobsim. -/
theorem afterMobsim_mem_travels (z : Scenario) (i : IterationIndex) (y : Situation) :
    Sight.round (.afterMobsim i) ∈ (travels z i y).sights := by
  simp [travels, rounds]

/-- Where the mobsim of the next iteration is made to fail for some commuter, its failure is the
trouble of the run. -/
theorem forecast_fails_next (hi : i.toNat = z.first.toNat + k) (hle : i ≤ last)
    (hy : Through z n k y) (hfail : z.settings.failMobsimAt = some i) (hn : n ≠ 0) (room : Nat) :
    let x := forecast z (upTo last) (room + 1) i y
    x.trouble = some ("mobsim-worker-0", .worker "mobsim-worker-0" (Mobsim.injected i)) ∧
      x.memory.history = y.memory.history ∧
      .round (.afterMobsim i) ∈ x.sights ∧ .round (.scoring i) ∉ x.sights := by
  intro x
  have hfails : Mobsim.Fails z.settings i y.memory.population := by
    refine ⟨fun hnil => hn ?_, hfail⟩
    rw [← hy.size, hnil]
    rfl
  obtain ⟨hiterates, htrouble, hmemory⟩ :=
    iterates_of_fails (y := { y.asks with last := some i }) hfails
  have hx : x = iterates z i { y.asks with last := some i } :=
    forecast_of_fails (decide_eq_true hle) hfails room
  refine ⟨hx ▸ htrouble, ?_, ?_, fun h => ?_⟩
  · rw [hx, hmemory]
    exact (undecided_opens z i _).history
  · rw [hx, hiterates]
    exact afterMobsim_mem_travels z i _
  · rw [hx, hiterates] at h
    have := hy.seen i (scoring_of_mem_travels (y := { y.asks with last := some i }) h)
    omega

/-- Where a mobsim is made to fail for some commuter, the iterations before it are run and scored,
and the failure is the trouble of the run. By induction on the indices that are left. -/
theorem forecast_fails {f : IterationIndex} (hroom : i.toNat + room = UInt32.size)
    (hi : i.toNat = z.first.toNat + k) (hif : i ≤ f) (hle : f ≤ last) (hsound : Sound z i y)
    (hy : Through z n k y) (hfail : z.settings.failMobsimAt = some f) (hn : n ≠ 0) :
    let x := forecast z (upTo last) room i y
    x.trouble = some ("mobsim-worker-0", .worker "mobsim-worker-0" (Mobsim.injected f)) ∧
      x.memory.history.map (·.iteration.toNat) =
        List.range' z.first.toNat (f.toNat - z.first.toNat) ∧
      (∀ e ∈ x.memory.history, e.scored = n) ∧
      .round (.afterMobsim f) ∈ x.sights ∧ .round (.scoring f) ∉ x.sights := by
  intro x
  induction room generalizing i k y with
  | zero =>
      have hlt := i.toNat_lt
      simp only [UInt32.size] at hroom
      omega
  | succ room ih =>
      by_cases heq : i = f
      · subst heq
        obtain ⟨htrouble, hhistory, htravelled, hunscored⟩ :=
          forecast_fails_next hi hle hy hfail hn room
        have hk : i.toNat - z.first.toNat = k := by omega
        rw [show x.memory.history = _ from hhistory, hk]
        exact ⟨htrouble, hy.history, hy.whole, htravelled, hunscored⟩
      · have hwell : ¬ Mobsim.Fails z.settings i y.memory.population := by
          rintro ⟨-, hi⟩
          exact heq (Option.some.inj (hi.symm.trans hfail))
        have hwanted : upTo last i = true := decide_eq_true (UInt32.le_trans hif hle)
        obtain ⟨hcalm, -, hforecast⟩ := forecast_of_not_fails hwanted hwell room
        have hlt : i < f := UInt32.lt_of_le_of_ne hif heq
        obtain ⟨j, hnext, hj⟩ := exists_next hlt
        rw [hnext] at hforecast
        rw [show x = _ from hforecast]
        exact ih (k := k + 1) (by omega) (by omega) (next_le hnext hlt)
          (hsound.starts.next hcalm hnext) ((hy.starts i).iterates hi hsound.starts hwell)

end Through

end Situation

end CommuteSim
