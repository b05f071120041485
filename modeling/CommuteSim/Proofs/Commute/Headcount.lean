import CommuteSim.Proofs.Commute.Freshness
import Mathlib.Algebra.BigOperators.Group.List.Basic
import Mathlib.Algebra.Group.Nat.Defs
import Mathlib.Data.List.Nodup

/-!
# No commuter is lost

A population is complete if it has all the commuters of its settings, each on a route that is there.
Nothing that the simulation does to its population takes that away: the choices of routes are
bounded by the number of routes, and trips and scores leave routes alone.

In a complete population the loads of all routes add up to the number of commuters, without a count
that stays at its largest value, and no worker of a mobsim meets a route that it does not know.

Main statements: `accounted_of_complete` for complete populations; `keeps_round`, `keeps_prepare`
and `keeps_mobsim` for what the simulation does.
-/

namespace CommuteSim

variable {σ ε τ α : Type}

/-! ## Complete populations -/

namespace Population

variable {s : PopulationSettings} {p q : Population}

/-- A population has all the commuters of its settings, each on a route that is there. -/
structure Complete (s : PopulationSettings) (p : Population) : Prop where
  count : p.length = s.agentCount.toNat
  routes : ∀ c ∈ p, c.route < s.routes.length

/-- Whether a population is complete depends on its routes only. -/
theorem Complete.of_map (h : p.Complete s) (hpq : q.map (·.route) = p.map (·.route)) :
    q.Complete s where
  count := by
    have hlength := congrArg List.length hpq
    rw [List.length_map, List.length_map] at hlength
    exact hlength.trans h.count
  routes := by
    intro c hc
    have hmem : c.route ∈ q.map (·.route) := List.mem_map_of_mem hc
    rw [hpq] at hmem
    obtain ⟨d, hd, hroute⟩ := List.mem_map.mp hmem
    rw [← hroute]
    exact h.routes d hd

/-- Settings without a problem have a route. -/
theorem routes_pos (h : s.problem? = none) : 0 < s.routes.length := by
  unfold PopulationSettings.problem? at h
  split at h
  · cases h
  · rename_i hroutes
    exact List.length_pos_iff.mpr fun hnil => hroutes (List.isEmpty_iff.mpr hnil)

theorem complete_ofSize (h : s.problem? = none) :
    (Population.ofSize s.agentCount.toNat).Complete s where
  count := List.length_replicate
  routes := by
    intro c hc
    rw [(List.mem_replicate.mp hc).2]
    exact routes_pos h

theorem Complete.assignRoutes (hp : p.Complete s) (hs : s.problem? = none) (g : Generator) :
    (p.assignRoutes s.routes.length g).1.Complete s where
  count := by
    have hlength := congrArg List.length (p.map_assignRoutes (·.score) (fun _ _ => rfl)
      s.routes.length g)
    rw [List.length_map, List.length_map] at hlength
    exact hlength.trans hp.count
  routes := routes_assignRoutes (routes_pos hs) g

theorem Complete.replan (hp : p.Complete s) (share : Float) (g : Generator) :
    (p.replan share s.routes.length g).1.Complete s where
  count := by
    have hlength := congrArg List.length (p.map_replan (·.score) (fun _ _ => rfl) share
      s.routes.length g)
    rw [List.length_map, List.length_map] at hlength
    exact hlength.trans hp.count
  routes := routes_replan hp.routes g

theorem Complete.scored (hp : p.Complete s) (utilityPerHour : Float) :
    (p.scored utilityPerHour).Complete s :=
  hp.of_map (by simp [Population.scored, Function.comp_def])

theorem Complete.storeAll (hp : p.Complete s) (i : IterationIndex) (ts : List SimulatedTrip) :
    (Mobsim.storeAll i ts p).Complete s :=
  hp.of_map (Mobsim.map_storeAll (·.route) (fun _ _ => rfl) ts p)

/-! ### Loads -/

/-- The number of commuters on each of `routes` routes. -/
def counts (routes : Nat) (p : Population) : List Nat :=
  (List.range routes).map fun k => p.countP (·.route = k)

/-- Commuters on known routes are all counted, each once. By induction on the population. -/
theorem sum_counts {routes : Nat} (h : ∀ c ∈ p, c.route < routes) :
    (p.counts routes).sum = p.length := by
  induction p with
  | nil => simp [counts]
  | cons c rest ih =>
      have hrest := ih fun d hd => h d (List.mem_cons_of_mem c hd)
      have hone : ((List.range routes).map fun k => if c.route = k then 1 else 0).sum = 1 := by
        rw [List.sum_map_eq_nsmul_single c.route _ fun k hk _ => if_neg hk.symm,
          List.count_eq_one_of_mem List.nodup_range
            (List.mem_range.mpr (h c List.mem_cons_self)), if_pos rfl, one_nsmul]
      unfold counts at hrest ⊢
      simp only [List.countP_cons, decide_eq_true_eq]
      rw [List.sum_map_add, hrest, hone, List.length_cons]

theorem toNat_saturated {n : Nat} (h : n ≤ 0xFFFFFFFF) : (saturated n).toNat = n := by
  rw [saturated, Nat.min_eq_left h]
  exact UInt32.toNat_ofNat_of_lt' (Nat.lt_succ_of_le h)

/-- The loads of a population of that size are the true counts. -/
theorem map_toNat_loads {routes : Nat} (h : p.length ≤ 0xFFFFFFFF) :
    (p.loads routes).map UInt32.toNat = p.counts routes := by
  unfold loads counts
  rw [List.map_map]
  refine List.map_congr_left fun k _ => toNat_saturated ?_
  exact Nat.le_trans List.countP_le_length h

end Population

/-! ## Workers -/

namespace Mobsim

variable {minutes : List Float} {i : IterationIndex} {v x : Worker}

/-- A worker has gone on from one state to another, one move after the other. -/
inductive GoesOn (minutes : List Float) (i : IterationIndex) : Worker → Worker → Prop where
  | refl (v : Worker) : GoesOn minutes i v v
  | trip {v x y : Worker} {flag : Bool} {t : SimulatedTrip} (h : GoesOn minutes i v x)
      (ht : move minutes i flag x = .trip t y) : GoesOn minutes i v y
  | lost {v x y : Worker} {flag : Bool} (h : GoesOn minutes i v x)
      (hl : move minutes i flag x = .lost y) : GoesOn minutes i v y

/-- A worker that is ready is so after each of its moves. -/
theorem ready_goesOn {name : String} (hv : Ready minutes name v) (h : GoesOn minutes i v x) :
    Ready minutes name x := by
  induction h with
  | refl => exact hv
  | @trip x y flag t _ ht ih =>
      have hmove := moves_move minutes i flag x
      rw [ht] at hmove
      cases hmove with
      | trip _ _ htasks _ =>
          exact ⟨ih.found, fun t ht => ih.known t (htasks ▸ List.mem_cons_of_mem _ ht), ih.name⟩
  | @lost x y flag _ hl ih =>
      have hmove := moves_move minutes i flag x
      rw [hl] at hmove
      cases hmove with
      | lost _ _ htasks hnone => exact absurd hnone (ih.known _ (htasks ▸ List.mem_cons_self))

/-- A worker that is ready meets no unknown route, and fails only if it is made to. -/
theorem injected_of_ready {name : String} (hv : Ready minutes name v) (flag : Bool) :
    (∀ y, move minutes i flag v ≠ .lost y) ∧
      ∀ c, move minutes i flag v = .ended (.error (.failure c)) →
        v.sabotaged = true ∧ c = injected i := by
  have hmove := moves_move minutes i flag v
  constructor
  · intro y hy
    rw [hy] at hmove
    cases hmove with
    | lost _ _ htasks hnone => exact hv.known _ (htasks ▸ List.mem_cons_self) hnone
  · intro c hc
    rw [hc] at hmove
    cases hmove with
    | sabotaged hsick => exact ⟨hsick, rfl⟩
    | failed hlost => cases hv.found.symm.trans hlost

end Mobsim

/-! ## What a complete population accounts for -/

/-- The table of loads with a number of commuters for each route. -/
def tableOf (routes : List Route) (numbers : List Nat) : String :=
  String.join ("route\tcommuters\n" :: routes.zipWith (fun r n => s!"{r.name}\t{n}\n") numbers)

theorem loadsText_eq_table (routes : List Route) (loads : List UInt32) :
    loadsText routes loads = tableOf routes (loads.map UInt32.toNat) := by
  rw [loadsText, tableOf, List.zipWith_map_right]
  rfl

/-- Every commuter of a population is on a route, and what is said of the routes accounts for all of
them. -/
structure Accounted (s : PopulationSettings) (p : Population) : Prop extends p.Complete s where
  /-- No load stays at the largest word. -/
  loads : (p.loads s.routes.length).map UInt32.toNat = p.counts s.routes.length
  total : (p.counts s.routes.length).sum = s.agentCount.toNat
  /-- Whatever generator a mobsim finds, whatever its workers have done and whether or not a
  shutdown is requested, a worker meets no unknown route, and fails only if it is made to. -/
  workers : ∀ i g, ∀ v ∈ Mobsim.crew s i p g, ∀ x, Mobsim.GoesOn (Mobsim.minutes s p) i v x →
    ∀ flag, (∀ y, Mobsim.move (Mobsim.minutes s p) i flag x ≠ .lost y) ∧
      ∀ c, Mobsim.move (Mobsim.minutes s p) i flag x = .ended (.error (.failure c)) →
        x.sabotaged = true ∧ c = Mobsim.injected i
  /-- The loads that are written are the true counts. -/
  table : loadsText s.routes (p.loads s.routes.length) =
    tableOf s.routes (p.counts s.routes.length)

theorem accounted_of_complete {s : PopulationSettings} {p : Population} (h : p.Complete s) :
    Accounted s p := by
  have hloads : (p.loads s.routes.length).map UInt32.toNat = p.counts s.routes.length := by
    refine Population.map_toNat_loads ?_
    rw [h.count]
    exact Nat.le_of_lt_succ s.agentCount.toNat_lt
  refine ⟨h, hloads, (Population.sum_counts h.routes).trans h.count, ?_, ?_⟩
  · intro i g v hv x hx flag
    have hready := Mobsim.ready_goesOn (Mobsim.prepared_crew h.routes v hv) hx
    exact Mobsim.injected_of_ready hready flag
  · rw [loadsText_eq_table, hloads]

/-! ## Memories -/

/-- A state with all states that it was before. -/
structure Journal (τ : Type) where
  current : τ
  /-- The latest first. -/
  earlier : List τ := []

namespace Journal

/-- All states so far. -/
def states (j : Journal τ) : List τ := j.current :: j.earlier

/-- Goes into a new state. -/
def put (x : τ) (j : Journal τ) : Journal τ := ⟨x, j.states⟩

end Journal

/-- The current state of a journal as a part; whoever changes it leaves the earlier states
behind. -/
def Part.journaled (part : Part σ (Journal τ)) : Part σ τ where
  get m := (part.get m).current
  set x m := part.set ((part.get m).put x) m
  get_set := by
    intro x m
    rw [part.get_set]
    rfl

/-- A property that makes a population complete, and that stays where a complete one is stored. -/
structure Steady (s : PopulationSettings) (part : Part σ CommuteMemory) (J : σ → Prop) : Prop where
  complete : ∀ m, J m → (part.get m).population.Complete s
  stays : ∀ m x, J m → x.population.Complete s → J (part.set x m)

/-- That all states so far were complete is such a property. -/
theorem steady_journaled (s : PopulationSettings) (part : Part σ (Journal CommuteMemory)) :
    Steady s part.journaled fun m => ∀ x ∈ (part.get m).states, x.population.Complete s where
  complete := fun m h => h _ List.mem_cons_self
  stays := by
    intro m x h hx y hy
    have hput : part.get (part.journaled.set x m) = (part.get m).put x := part.get_set _ _
    rw [hput] at hy
    rcases List.mem_cons.mp hy with rfl | hy
    · exact hx
    · exact h y hy

/-- A program leaves a part of the memory alone. -/
def Program.Leaves (part : Part σ τ) (p : Program σ ε α) : Prop :=
  ∀ w, part.get (p.run w).2.memory = part.get w.memory

/-- A program does not lead out of a property of memories. -/
def Program.Keeps (J : σ → Prop) (p : Program σ ε α) : Prop :=
  ∀ w, J w.memory → J (p.run w).2.memory

theorem Program.Leaves.keeps {part : Part σ τ} {p : Program σ ε α} (h : p.Leaves part)
    (P : τ → Prop) : p.Keeps fun m => P (part.get m) := by
  intro w hw
  rw [h w]
  exact hw

namespace World

/-- The world has gone on. If its memory had a property, it has it still, and whoever was told of
something meanwhile found it. -/
structure Keeps (J : σ → Prop) (w u : World σ) : Prop where
  past : ∃ l, u.past = w.past ++ l ∧
    (J w.memory → ∀ tier k e m g, .told tier k e m g ∈ l → J m)
  memory : J w.memory → J u.memory

section Keeps

variable {J : σ → Prop} {w v u : World σ}

theorem Keeps.trans (h : Keeps J w v) (h' : Keeps J v u) : Keeps J w u where
  past := by
    obtain ⟨l, hl, htold⟩ := h.past
    obtain ⟨m, hm, htold'⟩ := h'.past
    refine ⟨l ++ m, by rw [hm, hl, List.append_assoc], fun hw tier k e x g hx => ?_⟩
    rcases List.mem_append.mp hx with hx | hx
    · exact htold hw tier k e x g hx
    · exact htold' (h.memory hw) tier k e x g hx
  memory := h'.memory ∘ h.memory

theorem Onward.keeps (h : Onward w u) (hmemory : J w.memory → J u.memory) : Keeps J w u where
  past := by
    obtain ⟨l, hl, haside⟩ := h.past
    exact ⟨l, hl, fun _ _ _ _ _ _ hx => nomatch haside _ hx⟩
  memory := hmemory

theorem Aside.keeps (h : Aside w u) : Keeps J w u :=
  h.toOnward.keeps fun hw => h.memory ▸ hw

theorem keeps_noted {m : Moment σ} (h : ∀ tier k e x g, .told tier k e x g = m → x = w.memory) :
    Keeps J w (w.noted m) where
  past := by
    refine ⟨[m], past_noted w m, fun hw tier k e x g hx => ?_⟩
    rw [h tier k e x g (List.mem_singleton.mp hx)]
    exact hw
  memory := id

theorem keeps_run {p : Program σ ε α} (h : p.Keeps J) (w : World σ) : Keeps J w (p.run w).2 :=
  (onward_run p w).keeps (h w)

/-- A round of listeners that all keep a property. -/
theorem keeps_notify {b : ListenerBus σ} {e : Event}
    (h : ∀ r ∈ b.order e.kind, (r.listener.notify e).Keeps J) (w : World σ) :
    Keeps J w (round b e w) := by
  have hround : Keeps J w (w.noted (.round e)) := keeps_noted nofun
  have htell : ∀ r ∈ b.order e.kind, ∀ v, Keeps J v (ListenerBus.tell e r v).2 := by
    intro r hr v
    have htold : Keeps J v (v.noted (ListenerBus.toldMoment e r v)) := by
      refine keeps_noted fun tier k e' x g hx => ?_
      cases hx
      rfl
    rw [ListenerBus.tell_world]
    exact htold.trans (keeps_run (h r hr) _)
  have htellAll := ListenerBus.does_tellAll (P := Keeps J w) (e := e)
    (fun r hr v hv => hv.trans (htell r hr v)) (w.noted (.round e)) hround
  exact htellAll

end Keeps

end World

/-! ## The simulation -/

section Simulation

open World (round busOf)

variable {s : PopulationSettings} {launch : Launch} {part : Part σ CommuteMemory} {J : σ → Prop}
  {i : IterationIndex} {k : Context} {users : List (Listener σ)}

/-- A population is changed into a complete one with draws. -/
theorem keeps_drawPopulation (hJ : Steady s part J)
    {f : Population → Generator → Population × Generator}
    (h : ∀ p g, p.Complete s → (f p g).1.Complete s) :
    (Program.drawPopulation (ε := ε) part f).Keeps J := by
  intro w hw
  have hstored := h (Mobsim.found part w) w.generator (hJ.complete _ hw)
  exact hJ.stays _ { part.get w.memory with
    population := (f (Mobsim.found part w) w.generator).1 } hw hstored

theorem keeps_prepare (hJ : Steady s part J) (hs : s.problem? = none) :
    (CommuterSimulation.prepare s part).Keeps J := by
  intro w hw
  rw [(CommuterSimulation.becomes_prepare s part w).2.memory]
  have hassigned := Population.Complete.assignRoutes (hJ.complete _ hw) hs w.generator
  exact hJ.stays _ { part.get w.memory with
    population := ((Mobsim.found part w).assignRoutes s.routes.length w.generator).1 } hw hassigned

theorem keeps_scoreIteration {c : Scoring σ} (hJ : Steady s c.part J) :
    (c.scoreIteration i).Keeps J := by
  intro w hw
  obtain ⟨files, hbecomes⟩ := c.becomes_scoreIteration i w
  rw [hbecomes.memory]
  exact hJ.stays _ (scored c.utilityPerHour i (c.part.get w.memory)) hw
    ((hJ.complete _ hw).scored c.utilityPerHour)

/-- The listeners of the simulation keep the population complete. -/
theorem keeps_told (hJ : Steady s part J) (e : Event) :
    ∀ r ∈ CommuterSimulation.told s part k e.kind, (r.listener.notify e).Keeps J := by
  intro r hr
  cases e with
  | replanning i =>
      cases List.mem_singleton.mp hr
      exact keeps_drawPopulation hJ fun p g hp => hp.replan s.replanningShare g
  | scoring i =>
      cases List.mem_singleton.mp hr
      exact keeps_scoreIteration (c := CommuterSimulation.scoring s part k) hJ
  | shutdown unexpected =>
      cases List.mem_singleton.mp hr
      intro w hw
      have hclose := ((CommuterSimulation.scoring s part k).close_still w).2.memory
      exact hclose.symm ▸ hw
  | _ => cases hr

/-- A round of the simulation and of listeners of users that keep the property. -/
theorem keeps_round (hJ : Steady s part J) (husers : ∀ l ∈ users, ∀ e, (l.notify e).Keeps J)
    (e : Event) (w : World σ) : World.Keeps J w (round (busOf s part k users) e w) := by
  refine World.keeps_notify (fun r hr => ?_) w
  have horder : (busOf s part k users).order e.kind =
      CommuterSimulation.told s part k e.kind ++ ListenerBus.order { user := users } e.kind :=
    CommuterSimulation.order_listeners users e.kind
  rw [horder] at hr
  rcases List.mem_append.mp hr with hr | hr
  · exact keeps_told hJ e r hr
  · exact husers r.listener (CommuterSimulation.user_of_mem_order hr).2 e

/-- The mobsim stores the trips of the population that it finds, or nothing. -/
theorem keeps_mobsim (hJ : Steady s part J) :
    (CommuterSimulation.mobsim s launch part i).Keeps J := by
  intro w hw
  have hworked : (Mobsim.worked s launch part i w).2.memory = w.memory :=
    (Mobsim.worked_worked s launch part i w).waits.memory
  rw [(Mobsim.still_mobsim s launch part i w).2.memory]
  cases hresult : (Mobsim.worked s launch part i w).1 with
  | error e =>
      rw [Mobsim.run_refused hresult]
      exact hworked ▸ hw
  | ok ts =>
      obtain ⟨statistics, hrun⟩ := Mobsim.run_world hresult
      let u := (World.flag (Mobsim.worked s launch part i w).2).2
      have hmemory : u.memory = w.memory := (World.waits_flag _).memory.trans hworked
      rw [hrun]
      dsimp only
      split
      · exact hmemory ▸ hw
      · have hcomplete : (Mobsim.found part u).Complete s := by
          rw [Mobsim.found, hmemory]
          exact hJ.complete _ hw
        exact hJ.stays u.memory { part.get u.memory with
          population := Mobsim.storeAll i (Mobsim.inOrder ts.toList) (Mobsim.found part u) }
          (hmemory ▸ hw) (hcomplete.storeAll i _)

end Simulation

end CommuteSim
