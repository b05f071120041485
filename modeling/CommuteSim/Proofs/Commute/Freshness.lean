import CommuteSim.Proofs.Commute.Listeners

/-!
# Fresh scores

A history is fresh if only trips of the iteration itself are scored, and the scores that they earn
stay until the next scoring. It stays fresh wherever nothing is scored, and that is so for all that
happens but the rounds about scorings: the other parts of the simulation keep the scores, and
listeners of users do not touch the population.

Main statements: `ScoredFresh.append` and `ScoredFresh.scoring` for histories, `untouched_round` and
`spared_replanning` for rounds in which nothing is scored, `arrives_mobsim` for the mobsim.
-/

namespace CommuteSim

variable {σ ε α : Type}

/-! ## Trips and scores -/

section Scores

variable {part : Part σ CommuteMemory} {utilityPerHour : Float} {i : IterationIndex}

/-- Every commuter has made its trip of an iteration. -/
def Travelled (part : Part σ CommuteMemory) (i : IterationIndex) (m : σ) : Prop :=
  ∀ c ∈ (part.get m).population, ∃ t, c.trip = some t ∧ t.iteration = i

/-- The scores of all commuters. -/
def scoresIn (part : Part σ CommuteMemory) (m : σ) : List (Option Float) :=
  (part.get m).population.map (·.score)

/-- The scores that the last trips of all commuters earn. -/
def earned (utilityPerHour : Float) (part : Part σ CommuteMemory) (m : σ) : List (Option Float) :=
  (part.get m).population.map fun c => c.trip.map (tripScore utilityPerHour)

/-- The scores after a moment. Only the simulation changes them, when it is told of a scoring: it
scores the trips that it finds. -/
def Moment.scoresAfter (utilityPerHour : Float) (part : Part σ CommuteMemory)
    (scores : List (Option Float)) : Moment σ → List (Option Float)
  | .told .core _ (.scoring _) m _ => earned utilityPerHour part m
  | _ => scores

/-- The scores at the end of a history that began with these. -/
def lastScores (utilityPerHour : Float) (part : Part σ CommuteMemory)
    (start : List (Option Float)) (l : List (Moment σ)) : List (Option Float) :=
  l.foldl (Moment.scoresAfter utilityPerHour part) start

theorem scoresIn_repopulated {p : Population} {m : σ}
    (h : p.map (·.score) = (part.get m).population.map (·.score)) :
    scoresIn part (Mobsim.repopulated part p m) = scoresIn part m := by
  rw [scoresIn, Mobsim.repopulated, part.get_set]
  exact h

theorem scoresIn_scored (m : σ) :
    scoresIn part (part.set (scored utilityPerHour i (part.get m)) m) =
      earned utilityPerHour part m := by
  rw [scoresIn, part.get_set, earned]
  simp [scored, Population.scored, Function.comp_def]

end Scores

/-! ## Histories -/

/-- In a history that began with these scores, only trips of the iteration itself are scored, and
the scores that they earn stay until the next scoring. -/
structure ScoredFresh (s : PopulationSettings) (part : Part σ CommuteMemory)
    (start : List (Option Float)) (l : List (Moment σ)) : Prop where
  /-- In a round about a scoring the simulation is told of it first. -/
  round : ∀ a i b, l = a ++ .round (.scoring i) :: b →
    ∃ m g c, b = .told .core 1 (.scoring i) m g :: c
  /-- It finds the trips that the mobsim of the same iteration has made for all commuters, which
  were all on known routes. -/
  told : ∀ a k i m g b, l = a ++ .told .core k (.scoring i) m g :: b →
    Travelled part i m ∧ ∃ p g', .mobsim i g' ∈ a ∧ (∀ c ∈ p, c.route < s.routes.length) ∧
      (part.get m).population = Mobsim.simulated s i p g'
  /-- Whoever is told of something finds the scores of the last scoring. -/
  found : ∀ a tier k e m g b, l = a ++ .told tier k e m g :: b →
    scoresIn part m = lastScores s.utilityPerHour part start a

/-- Whether a moment belongs to the scoring of an iteration. -/
def Moment.scores : Moment σ → Bool
  | .round (.scoring _) | .told .core _ (.scoring _) _ _ => true
  | _ => false

/-- A part of a history in which nothing is scored, and whoever is told of something finds these
scores. -/
structure Unscored (part : Part σ CommuteMemory) (scores : List (Option Float))
    (l : List (Moment σ)) : Prop where
  quiet : ∀ m ∈ l, m.scores = false
  found : ∀ tier k e m g, .told tier k e m g ∈ l → scoresIn part m = scores

section Histories

variable {s : PopulationSettings} {part : Part σ CommuteMemory}
  {utilityPerHour : Float} {start scores : List (Option Float)} {l m : List (Moment σ)}

theorem lastScores_append (utilityPerHour : Float) (part : Part σ CommuteMemory)
    (start : List (Option Float)) (l m : List (Moment σ)) :
    lastScores utilityPerHour part start (l ++ m) =
      lastScores utilityPerHour part (lastScores utilityPerHour part start l) m :=
  List.foldl_append

theorem scoresAfter_of_quiet {x : Moment σ} (h : x.scores = false) :
    x.scoresAfter utilityPerHour part scores = scores := by
  unfold Moment.scoresAfter
  split
  · cases h
  · rfl

/-- Where nothing is scored, the scores stay. -/
theorem lastScores_of_quiet (h : ∀ x ∈ l, x.scores = false) :
    lastScores utilityPerHour part scores l = scores := by
  induction l with
  | nil => rfl
  | cons x rest ih =>
      rw [lastScores, List.foldl_cons, scoresAfter_of_quiet (h x List.mem_cons_self)]
      exact ih fun y hy => h y (List.mem_cons_of_mem x hy)

theorem quiet_of_aside (h : ∀ x ∈ l, x.aside = true) : ∀ x ∈ l, x.scores = false := by
  intro x hx
  have haside := h x hx
  cases x with
  | round e => cases haside
  | told => cases haside
  | _ => rfl

theorem Unscored.of_aside (h : ∀ x ∈ l, x.aside = true) : Unscored part scores l where
  quiet := quiet_of_aside h
  found := fun _ _ _ _ _ hx => nomatch h _ hx

theorem Unscored.append (h : Unscored part scores l) (h' : Unscored part scores m) :
    Unscored part scores (l ++ m) where
  quiet := fun x hx => (List.mem_append.mp hx).elim (h.quiet x) (h'.quiet x)
  found := fun tier k e y g hx =>
    (List.mem_append.mp hx).elim (h.found tier k e y g) (h'.found tier k e y g)

theorem ScoredFresh.nil : ScoredFresh s part start [] :=
  ⟨fun _ _ _ h => by simp at h, fun _ _ _ _ _ _ h => by simp at h,
    fun _ _ _ _ _ _ _ h => by simp at h⟩

/-- A history stays fresh where nothing is scored. -/
theorem ScoredFresh.append (h : ScoredFresh s part start l)
    (h' : Unscored part (lastScores s.utilityPerHour part start l) m) :
    ScoredFresh s part start (l ++ m) where
  round := by
    intro a i b hab
    rcases split_append hab with ⟨c, hc⟩ | ⟨c, -, hc⟩
    · obtain ⟨x, g, d, rfl⟩ := h.round a i c hc
      rw [hc, List.append_assoc] at hab
      exact ⟨x, g, d ++ m, (List.cons.inj (List.append_cancel_left hab)).2.symm⟩
    · exact nomatch h'.quiet (.round (.scoring i)) (hc ▸ List.mem_append_right c List.mem_cons_self)
  told := by
    intro a k i x g b hab
    rcases split_append hab with ⟨c, hc⟩ | ⟨c, -, hc⟩
    · exact h.told a k i x g c hc
    · exact nomatch h'.quiet (.told .core k (.scoring i) x g)
        (hc ▸ List.mem_append_right c List.mem_cons_self)
  found := by
    intro a tier k e x g b hab
    rcases split_append hab with ⟨c, hc⟩ | ⟨c, rfl, hc⟩
    · exact h.found a tier k e x g c hc
    · have hquiet : ∀ y ∈ c, y.scores = false :=
        fun y hy => h'.quiet y (hc ▸ List.mem_append_left _ hy)
      rw [lastScores_append, lastScores_of_quiet hquiet]
      exact h'.found tier k e x g (hc ▸ List.mem_append_right c List.mem_cons_self)

/-- The places in a list of two. -/
theorem split_pair {α : Type} {x y z : α} {a b : List α} (h : [x, y] = a ++ z :: b) :
    (a = [] ∧ z = x ∧ b = [y]) ∨ (a = [x] ∧ z = y ∧ b = []) := by
  rcases a with _ | ⟨u, a⟩
  · obtain ⟨hx, hb⟩ := List.cons.inj h
    exact .inl ⟨rfl, hx.symm, hb.symm⟩
  · obtain ⟨rfl, hrest⟩ := List.cons.inj h
    rcases a with _ | ⟨v, a⟩
    · obtain ⟨hy, hb⟩ := List.cons.inj hrest
      exact .inr ⟨rfl, hy.symm, hb.symm⟩
    · simp at hrest

/-- A scoring that finds the trips of its iteration. -/
theorem ScoredFresh.scoring {i : IterationIndex} {x : σ} {g g' : Generator} {p : Population}
    (h : ScoredFresh s part start l)
    (hscores : scoresIn part x = lastScores s.utilityPerHour part start l)
    (htravelled : Travelled part i x) (hmobsim : .mobsim i g' ∈ l)
    (hknown : ∀ c ∈ p, c.route < s.routes.length)
    (hp : (part.get x).population = Mobsim.simulated s i p g') :
    ScoredFresh s part start
      (l ++ [.round (.scoring i), .told .core 1 (.scoring i) x g]) where
  round := by
    intro a j b hab
    rcases split_append hab with ⟨c, hc⟩ | ⟨c, -, hc⟩
    · obtain ⟨y, g'', d, rfl⟩ := h.round a j c hc
      rw [hc, List.append_assoc] at hab
      exact ⟨y, g'', _, (List.cons.inj (List.append_cancel_left hab)).2.symm⟩
    · obtain ⟨-, hj, rfl⟩ | ⟨-, hj, -⟩ := split_pair hc
      · cases hj
        exact ⟨x, g, [], rfl⟩
      · cases hj
  told := by
    intro a k j y g'' b hab
    rcases split_append hab with ⟨c, hc⟩ | ⟨c, rfl, hc⟩
    · exact h.told a k j y g'' c hc
    · obtain ⟨-, hj, -⟩ | ⟨-, hj, -⟩ := split_pair hc
      · cases hj
      · cases hj
        exact ⟨htravelled, p, g', List.mem_append_left _ hmobsim, hknown, hp⟩
  found := by
    intro a tier k e y g'' b hab
    rcases split_append hab with ⟨c, hc⟩ | ⟨c, rfl, hc⟩
    · exact h.found a tier k e y g'' c hc
    · obtain ⟨-, he, -⟩ | ⟨rfl, he, -⟩ := split_pair hc
      · cases he
      · cases he
        rw [lastScores_append]
        exact hscores

end Histories

/-! ## Worlds -/

/-- A program leaves the part of the memory alone that the simulation keeps. -/
def Program.Spares (part : Part σ CommuteMemory) (p : Program σ ε α) : Prop :=
  ∀ w, part.get (p.run w).2.memory = part.get w.memory

namespace World

/-- The world has gone on, and nothing was scored. -/
structure Spared (part : Part σ CommuteMemory) (w u : World σ) : Prop where
  later : w.coordinator.Later u.coordinator
  present : w.Present → u.Present
  past : ∃ l, u.past = w.past ++ l ∧ Unscored part (scoresIn part w.memory) l
  scores : scoresIn part u.memory = scoresIn part w.memory

/-- The world has gone on, and the population is as before. -/
structure Untouched (part : Part σ CommuteMemory) (w u : World σ) : Prop extends
    Spared part w u where
  same : part.get u.memory = part.get w.memory

section Relations

variable {part : Part σ CommuteMemory} {w v u : World σ}

theorem Spared.trans (h : Spared part w v) (h' : Spared part v u) : Spared part w u where
  later := h.later.trans h'.later
  present := h'.present ∘ h.present
  past := by
    obtain ⟨l, hl, hunscored⟩ := h.past
    obtain ⟨m, hm, hunscored'⟩ := h'.past
    rw [h.scores] at hunscored'
    exact ⟨l ++ m, by rw [hm, hl, List.append_assoc], hunscored.append hunscored'⟩
  scores := h'.scores.trans h.scores

theorem Untouched.trans (h : Untouched part w v) (h' : Untouched part v u) : Untouched part w u :=
  ⟨h.toSpared.trans h'.toSpared, h'.same.trans h.same⟩

/-- What happens beside the rounds scores nothing. -/
theorem Onward.spared (h : Onward w u) (hscores : scoresIn part u.memory = scoresIn part w.memory) :
    Spared part w u where
  later := h.later
  present := h.present
  past := by
    obtain ⟨l, hl, haside⟩ := h.past
    exact ⟨l, hl, .of_aside haside⟩
  scores := hscores

theorem Onward.untouched (h : Onward w u) (hsame : part.get u.memory = part.get w.memory) :
    Untouched part w u :=
  ⟨h.spared (by rw [scoresIn, hsame, scoresIn]), hsame⟩

theorem Aside.untouched (h : Aside w u) : Untouched part w u :=
  h.toOnward.untouched (by rw [h.memory])

/-- A moment that belongs to no scoring is noted. -/
theorem untouched_noted {m : Moment σ} (hquiet : m.scores = false)
    (hfound : ∀ tier k e x g, .told tier k e x g = m → x = w.memory) :
    Untouched part w (w.noted m) where
  later := .refl _
  present := id
  past := by
    refine ⟨[m], past_noted w m, fun x hx => List.mem_singleton.mp hx ▸ hquiet, ?_⟩
    intro tier k e x g hx
    rw [hfound tier k e x g (List.mem_singleton.mp hx)]
  scores := rfl
  same := rfl

end Relations

/-! ## Rounds -/

section Rounds

variable {part : Part σ CommuteMemory} {e : Event} {r : Registration σ} {w : World σ}
  {users : List (Listener σ)} {s : PopulationSettings} {k : Context}

/-- Who is told of something that is no scoring. -/
theorem untouched_toldMoment (h : (ListenerBus.toldMoment e r w).scores = false) :
    Untouched part w (w.noted (ListenerBus.toldMoment e r w)) := by
  refine untouched_noted h fun tier k e' x g hx => ?_
  cases hx
  rfl

theorem untouched_tell_user (htier : r.tier = .user) (h : (r.listener.notify e).Spares part) :
    Untouched part w (ListenerBus.tell e r w).2 := by
  have hquiet : (ListenerBus.toldMoment e r w).scores = false := by
    rw [ListenerBus.toldMoment, htier]
    rfl
  rw [ListenerBus.tell_world]
  exact (untouched_toldMoment hquiet).trans ((onward_run _ _).untouched (h _))

/-- The listeners of users are told. -/
theorem untouched_users (husers : ∀ l ∈ users, ∀ e, (l.notify e).Spares part) (w : World σ) :
    Untouched part w
      (ListenerBus.tellAll e (ListenerBus.order { user := users } e.kind) w).2 := by
  refine ListenerBus.does_tellAll (P := Untouched part w) (fun r hr v hv => ?_) w
    ((Aside.refl w).untouched)
  obtain ⟨htier, hmem⟩ := CommuterSimulation.user_of_mem_order hr
  exact hv.trans (untouched_tell_user htier (husers r.listener hmem e))

/-- The first of those who are told, and then the listeners of users. -/
theorem untouched_first (husers : ∀ l ∈ users, ∀ e, (l.notify e).Spares part) (w : World σ) :
    Untouched part (ListenerBus.tell e r w).2
      (ListenerBus.tellAll e (r :: ListenerBus.order { user := users } e.kind) w).2 := by
  cases htold : (ListenerBus.tell e r w).1 with
  | ok _ =>
      rw [ListenerBus.tellAll_of_ok htold]
      exact untouched_users husers _
  | error a =>
      rw [ListenerBus.tellAll_of_error htold]
      exact (Aside.refl _).untouched

/-- A round of a bus. -/
def round (b : ListenerBus σ) (e : Event) (w : World σ) : World σ :=
  (b.notify e (w.noted (.round e))).2

theorem later_round (b : ListenerBus σ) (e : Event) (w : World σ) :
    w.coordinator.Later (round b e w).coordinator ∧ (w.Present → (round b e w).Present) := by
  obtain ⟨l, hl⟩ := wanders_notify b e (w.noted (.round e))
  have hpath : Path (w.noted (.round e)) l (round b e w) := hl
  have hlater := later_path hpath
  exact ⟨hlater, fun hw => (chronicle_path hpath hw).2⟩

/-- The listeners of the simulation with those of users. -/
def busOf (s : PopulationSettings) (part : Part σ CommuteMemory) (k : Context)
    (users : List (Listener σ)) : ListenerBus σ where
  core := CommuterSimulation.listeners s part k
  user := users

theorem round_busOf (s : PopulationSettings) (part : Part σ CommuteMemory) (k : Context)
    (users : List (Listener σ)) (e : Event) (w : World σ) :
    round (busOf s part k users) e w =
      (ListenerBus.tellAll e (CommuterSimulation.told s part k e.kind ++
        ListenerBus.order { user := users } e.kind) (w.noted (.round e))).2 := by
  rw [← CommuterSimulation.order_listeners]
  rfl

/-- In a round about anything but routes and scores the population is left alone. -/
theorem untouched_round (husers : ∀ l ∈ users, ∀ e, (l.notify e).Spares part)
    (hreplanning : ∀ i, e ≠ .replanning i) (hscoring : ∀ i, e ≠ .scoring i) :
    Untouched part w (round (busOf s part k users) e w) := by
  have hround : Untouched part w (w.noted (.round e)) := by
    refine untouched_noted ?_ fun _ _ _ _ _ hx => nomatch hx
    cases e with
    | scoring i => exact absurd rfl (hscoring i)
    | _ => rfl
  rw [round_busOf]
  refine hround.trans ?_
  cases e with
  | replanning i => exact absurd rfl (hreplanning i)
  | scoring i => exact absurd rfl (hscoring i)
  | shutdown unexpected =>
      -- the scoring listener only closes its history
      let r : Registration σ := ⟨.core, 1, (CommuterSimulation.scoring s part k).listener⟩
      let v := w.noted (.round (.shutdown unexpected))
      have htold : Untouched part v (v.noted (ListenerBus.toldMoment (.shutdown unexpected) r v)) :=
        untouched_toldMoment rfl
      have hclose := (Scoring.close_still (CommuterSimulation.scoring s part k)
        (v.noted (ListenerBus.toldMoment (.shutdown unexpected) r v))).2
      have htell : Untouched part v (ListenerBus.tell (.shutdown unexpected) r v).2 := by
        rw [ListenerBus.tell_world]
        exact htold.trans hclose.aside.untouched
      exact htell.trans (untouched_first husers v)
  | _ => exact untouched_users husers _

/-- Replanning keeps the scores. -/
theorem spared_replanning {i : IterationIndex}
    (husers : ∀ l ∈ users, ∀ e, (l.notify e).Spares part) :
    Spared part w (round (busOf s part k users) (.replanning i) w) := by
  let r : Registration σ :=
    ⟨.core, 0, replanningListener part s.routes.length s.replanningShare⟩
  let v := w.noted (.round (.replanning i))
  have hround : Untouched part w v := untouched_noted rfl fun _ _ _ _ _ hx => nomatch hx
  have htold : Untouched part v (v.noted (ListenerBus.toldMoment (.replanning i) r v)) :=
    untouched_toldMoment rfl
  let u := v.noted (ListenerBus.toldMoment (.replanning i) r v)
  have hdrawn := Program.becomes_drawPopulation (ε := Cause) part
    (Population.replan s.replanningShare s.routes.length) u
  have hreplanned : Spared part u (ListenerBus.tell (.replanning i) r v).2 := by
    refine hdrawn.toOnward.spared (scoresIn_repopulated ?_)
    exact Population.map_replan (·.score) (fun _ _ => rfl) _ _ _ _
  rw [round_busOf]
  exact ((hround.trans htold).toSpared.trans hreplanned).trans (untouched_first husers v).toSpared

end Rounds

/-! ## What scorings find -/

/-- The history is fresh since the world `w₀`, and what it says about the scores is so. -/
def Fresh (s : PopulationSettings) (part : Part σ CommuteMemory) (w₀ w : World σ) : Prop :=
  ∃ l, w.past = w₀.past ++ l ∧ ScoredFresh s part (scoresIn part w₀.memory) l ∧
    scoresIn part w.memory =
      lastScores s.utilityPerHour part (scoresIn part w₀.memory) l

/-- The trips of an iteration have been made for all commuters since the world `w₀`. -/
def Arrived (s : PopulationSettings) (part : Part σ CommuteMemory) (i : IterationIndex)
    (w₀ w : World σ) : Prop :=
  ∃ l p g, w.past = w₀.past ++ l ∧ .mobsim i g ∈ l ∧ (∀ c ∈ p, c.route < s.routes.length) ∧
    (part.get w.memory).population = Mobsim.simulated s i p g

section Fresh

variable {s : PopulationSettings} {part : Part σ CommuteMemory} {i : IterationIndex}
  {w₀ w u : World σ} {users : List (Listener σ)} {k : Context}

theorem Fresh.refl (s : PopulationSettings) (part : Part σ CommuteMemory) (w : World σ) :
    Fresh s part w w :=
  ⟨[], (List.append_nil _).symm, .nil, rfl⟩

theorem Fresh.spared (h : Fresh s part w₀ w) (h' : Spared part w u) : Fresh s part w₀ u := by
  obtain ⟨l, hl, hfresh, hscores⟩ := h
  obtain ⟨m, hm, hunscored⟩ := h'.past
  rw [hscores] at hunscored
  refine ⟨l ++ m, by rw [hm, hl, List.append_assoc], hfresh.append hunscored, ?_⟩
  rw [h'.scores, hscores, lastScores_append, lastScores_of_quiet hunscored.quiet]

theorem Arrived.untouched (h : Arrived s part i w₀ w) (h' : Untouched part w u) :
    Arrived s part i w₀ u := by
  obtain ⟨l, p, g, hl, hmobsim, hknown, hp⟩ := h
  obtain ⟨m, hm, -⟩ := h'.past
  refine ⟨l ++ m, p, g, by rw [hm, hl, List.append_assoc], List.mem_append_left m hmobsim, hknown,
    ?_⟩
  rw [h'.same]
  exact hp

/-- Commuters on known routes whose trips are simulated have travelled. -/
theorem travelled_of_simulated {m : σ} {p : Population} {g : Generator}
    (hknown : ∀ c ∈ p, c.route < s.routes.length)
    (hp : (part.get m).population = Mobsim.simulated s i p g) : Travelled part i m := by
  rw [Travelled, hp]
  refine Mobsim.trip_travelled (Mobsim.length_deviations p g) fun c hc => ?_
  rw [Mobsim.length_minutes]
  exact hknown c hc

/-- The scoring of an iteration whose trips have been made. -/
theorem Fresh.scored {v : World σ} {files : FileSystem} (h : Fresh s part w₀ w)
    (h' : Arrived s part i w₀ w) (hv : v.past = w.past ++
      [.round (.scoring i), .told .core 1 (.scoring i) w.memory w.generator])
    (hu : v.Becomes (part.set (CommuteSim.scored s.utilityPerHour i (part.get w.memory)) w.memory)
      w.generator files u) : Fresh s part w₀ u := by
  obtain ⟨l, hl, hfresh, hscores⟩ := h
  obtain ⟨l', p, g', hl', hmobsim, hknown, hp⟩ := h'
  obtain rfl : l = l' := List.append_cancel_left (hl.symm.trans hl')
  let told : List (Moment σ) :=
    [.round (.scoring i), .told .core 1 (.scoring i) w.memory w.generator]
  obtain ⟨m, hm, haside⟩ := hu.past
  have hhistory := hfresh.scoring (g := w.generator) hscores (travelled_of_simulated hknown hp)
    hmobsim hknown hp
  have hlast : lastScores s.utilityPerHour part (scoresIn part w₀.memory) (l ++ told) =
      earned s.utilityPerHour part w.memory := by
    rw [lastScores_append]
    rfl
  refine ⟨l ++ told ++ m, ?_, hhistory.append (.of_aside haside), ?_⟩
  · rw [hm, hv, hl, List.append_assoc, List.append_assoc, List.append_assoc]
  · rw [hu.memory, scoresIn_scored, lastScores_append, hlast]
    exact (lastScores_of_quiet (quiet_of_aside haside)).symm

theorem Fresh.scoring_round (husers : ∀ l ∈ users, ∀ e, (l.notify e).Spares part)
    (h : Fresh s part w₀ w) (h' : Arrived s part i w₀ w) :
    Fresh s part w₀ (round (busOf s part k users) (.scoring i) w) := by
  let r : Registration σ := ⟨.core, 1, (CommuterSimulation.scoring s part k).listener⟩
  let v := w.noted (.round (.scoring i))
  let u := v.noted (ListenerBus.toldMoment (.scoring i) r v)
  have hu : u.past = w.past ++
      [.round (.scoring i), .told .core 1 (.scoring i) w.memory w.generator] := by
    rw [past_noted, past_noted, List.append_assoc]
    rfl
  obtain ⟨files, hscored⟩ := (CommuterSimulation.scoring s part k).becomes_scoreIteration i u
  have htell : Fresh s part w₀ (ListenerBus.tell (.scoring i) r v).2 := by
    rw [ListenerBus.tell_world]
    exact h.scored h' hu hscored
  rw [round_busOf]
  exact htell.spared (untouched_first husers v).toSpared

end Fresh

end World

/-! ## The mobsim -/

namespace Mobsim

open World (Spared Arrived)

variable {s : PopulationSettings} {launch : Launch} {part : Part σ CommuteMemory}
  {i : IterationIndex} {w w₀ : World σ}

/-- Who stores trips changes nothing else. -/
theorem map_storeAll {β : Type} (f : Commuter → β) (hf : ∀ c t, f { c with trip := t } = f c)
    (ts : List SimulatedTrip) (p : Population) : (storeAll i ts p).map f = p.map f := by
  have hmodify : ∀ (cs : List Commuter) (k : Nat) (t : Option Trip),
      (cs.modify k fun c => { c with trip := t }).map f = cs.map f := by
    intro cs k t
    induction cs generalizing k with
    | nil => cases k <;> rfl
    | cons c rest ih =>
        cases k with
        | zero => exact congrArg (· :: rest.map f) (hf c t)
        | succ k => exact congrArg (f c :: ·) (ih k)
  have hfold : ∀ cs : Array Commuter, ((ts.foldl (store i) cs).toList).map f = cs.toList.map f := by
    induction ts with
    | nil => exact fun cs => rfl
    | cons t rest ih =>
        intro cs
        rw [List.foldl_cons, ih, store, Array.toList_modify]
        exact hmodify _ _ _
  exact hfold p.toArray

/-- Whatever a mobsim stores, it keeps the scores. -/
theorem spared_run (s : PopulationSettings) (launch : Launch) (part : Part σ CommuteMemory)
    (i : IterationIndex) (w : World σ) : Spared part w ((run s launch part i).run w).2 := by
  refine (World.onward_run _ w).spared ?_
  have hwaits := (worked_worked s launch part i w).waits
  have hmemory : (worked s launch part i w).2.memory = w.memory := hwaits.memory
  cases hworked : (worked s launch part i w).1 with
  | error e => rw [run_refused hworked, hmemory]
  | ok ts =>
      obtain ⟨statistics, hrun⟩ := run_world hworked
      have hseen : (World.flag (worked s launch part i w).2).2.memory = w.memory :=
        ((World.waits_flag _).memory).trans hmemory
      rw [hrun]
      dsimp only
      split
      · rw [hseen]
      · have hstored : (stored part i ts (World.flag (worked s launch part i w).2).2).memory =
            repopulated part (storeAll i (inOrder ts.toList)
              (found part (World.flag (worked s launch part i w).2).2))
              (World.flag (worked s launch part i w).2).2.memory := rfl
        rw [hstored, found, hseen]
        exact scoresIn_repopulated (map_storeAll (·.score) (fun _ _ => rfl) _ _)

theorem spared_mobsim (s : PopulationSettings) (launch : Launch) (part : Part σ CommuteMemory)
    (i : IterationIndex) (w : World σ) :
    Spared part w ((CommuterSimulation.mobsim s launch part i).run w).2 :=
  (spared_run s launch part i w).trans (still_mobsim s launch part i w).2.aside.untouched.toSpared

/-- If a mobsim has not failed, and neither was a shutdown requested nor the teardown claimed by its
end, the trips of all commuters have been made. -/
theorem arrives_mobsim (hw : w.Present) {l : List (Moment σ)} (hl : w.past = w₀.past ++ l)
    (hmobsim : .mobsim i w.generator ∈ l)
    (hok : ((CommuterSimulation.mobsim s launch part i).run w).1 = .ok ())
    (hflag : ((CommuterSimulation.mobsim s launch part i).run w).2.coordinator.flag = false)
    (hopen :
      ((CommuterSimulation.mobsim s launch part i).run w).2.coordinator.teardown = false) :
    Arrived s part i w₀ ((CommuterSimulation.mobsim s launch part i).run w).2 := by
  obtain ⟨hresult, hstill⟩ := still_mobsim s launch part i w
  obtain ⟨statistics, hstatistics⟩ :
      ∃ statistics, ((run s launch part i).run w).1 = .ok statistics := by
    rw [hok] at hresult
    cases hrun : ((run s launch part i).run w).1 with
    | ok statistics => exact ⟨statistics, rfl⟩
    | error e =>
        rw [hrun] at hresult
        cases hresult
  -- what is down and unclaimed at the end was so before the last line was logged
  have hflag' : ((run s launch part i).run w).2.coordinator.flag = false :=
    Bool.eq_false_iff.mpr fun h => Bool.false_ne_true (hflag.symm.trans (hstill.later.flag h))
  have hopen' : ((run s launch part i).run w).2.coordinator.teardown = false :=
    Bool.eq_false_iff.mpr fun h => Bool.false_ne_true (hopen.symm.trans (hstill.later.teardown h))
  obtain ⟨hknown, hmemory⟩ := travels_run hw hstatistics hflag' hopen'
  obtain ⟨m, hm, -⟩ := (spared_run s launch part i w).past
  have harrived : Arrived s part i w₀ ((run s launch part i).run w).2 := by
    refine ⟨l ++ m, found part w, w.generator, ?_, List.mem_append_left m hmobsim, hknown, ?_⟩
    · rw [hm, hl, List.append_assoc]
    · rw [hmemory, repopulated, part.get_set]
  exact harrived.untouched hstill.aside.untouched

end Mobsim

end CommuteSim
