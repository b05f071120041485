import CommuteSim.Controller.Run
import CommuteSim.Proofs.Commute.Forecast
import CommuteSim.Proofs.Commute.Freshness

/-!
# Worlds and situations

A world matches a situation if it is as the situation says: its coordinator, the part of its memory
that the simulation keeps, its files, and what was seen in it. Where nobody disturbs the run, each
part of the simulation leads from a world that matches one situation to a world that matches the
next one, however many workers there are and however they take turns.

Main statements: `matches_rounds`, `matches_replanning`, `matches_scoring` and `matches_shutdown`
for rounds, `matches_prepare` and `matches_mobsim` for the simulation itself.
-/

namespace CommuteSim

open World (Becomes Still busOf)

variable {σ ε α : Type}

/-! ## Who does not disturb a run -/

/-- A program ends well, and changes nothing that the simulation works with. -/
def Program.Observes (part : Part σ CommuteMemory) (p : Program σ Cause Unit) : Prop :=
  ∀ w : World σ, w.Alone → (p.run w).1 = .ok () ∧
    ∃ m, part.get m = part.get w.memory ∧ w.Becomes m w.generator w.files (p.run w).2

/-- A program changes nothing that the simulation works with but the generator. -/
def Program.Discreet (part : Part σ CommuteMemory) (p : Program σ ε α) : Prop :=
  ∀ w : World σ, w.Alone →
    ∃ m g, part.get m = part.get w.memory ∧ w.Becomes m g w.files (p.run w).2

/-- The files that a run writes after every iteration. -/
def Controller.timesFiles (c : Configuration) : List String :=
  reportFile :: if c.controller.createGraphs then [chartFile] else []

/-- What files are like once these iterations were scored, and this one was begun last. -/
abbrev FileCourse : Type :=
  List (IterationIndex × CommuteMemory) → Option IterationIndex → FileSystem → Prop

/-- All that a run writes can be written, and the files stay as they should be. -/
structure Accommodates (s : PopulationSettings) (k : Context) (wanted : IterationIndex → Prop)
    (F : FileCourse) : Prop where
  dumps : ∀ files text, F [] none files → ∃ files',
    files.writeText (k.output.file Controller.configurationFile) text = .ok files' ∧
      F [] none files'
  begins : ∀ l o i files, wanted i → (∀ x ∈ l, x.1 ≠ i) → F l o files →
    if k.configuration.controller.iterationDirectories then
      ∃ j : FileJournal, (k.output.createIteration i).run.run { files := files } = (.ok (), j) ∧
        F l (some i) j.files
    else F l (some i) files
  scores : ∀ l i m files, wanted i → (∀ x ∈ l, x.1 ≠ i) → F l (some i) files → ∃ files' files'',
    files.writeText (k.output.file scoresFile) (scoresText m.history) = .ok files' ∧
      (if k.configuration.controller.iterationDirectories then
        files'.writeText (k.output.iterationFile i loadsFile)
          (loadsText s.routes (m.population.loads s.routes.length)) = .ok files''
      else files' = files'') ∧ F (l ++ [(i, m)]) (some i) files''
  times : ∀ name ∈ Controller.timesFiles k.configuration, ∀ l o files files' text,
    F l o files → files.writeText (k.output.file name) text = .ok files' → F l o files'

/-! ## Matching -/

/-- A world is as a situation says. What was seen in it was seen since the world `w₀`. -/
structure World.Matches (part : Part σ CommuteMemory) (w₀ : World σ) (F : FileCourse)
    (x : Situation) (w : World σ) : Prop where
  present : w.Present
  alone : w.Alone
  flag : w.coordinator.flag = x.trouble.isSome
  teardown : w.coordinator.teardown = x.claimed
  fault : w.coordinator.fault.map (fun r => (r.origin, r.fault)) = x.trouble
  memory : part.get w.memory = x.memory
  generator : ∀ g ∈ x.generator, w.generator = g
  files : F x.scored x.begun w.files
  /-- The history since `w₀` is what was seen. Whoever is told that an iteration ends finds what the
  iteration left. -/
  past : ∃ l, w.past = w₀.past ++ l ∧ l.filterMap (Moment.sight? part) = x.sights ∧
    ∀ n i m g, .told .user n (.iterationEnd i) m g ∈ l → (i, part.get m) ∈ x.scored

namespace World

variable {part : Part σ CommuteMemory} {w₀ w u : World σ} {F : FileCourse} {x y : Situation}

theorem Matches.bears (h : Matches part w₀ F x w) (hx : x.claimed = false) :
    w.coordinator.Bears x.trouble :=
  ⟨h.flag, h.teardown.trans hx, h.fault⟩

/-- Asides are no sights. -/
theorem sights_of_aside {l : List (Moment σ)} (h : ∀ m ∈ l, m.aside = true) :
    l.filterMap (Moment.sight? part) = [] := by
  refine List.filterMap_eq_nil_iff.mpr fun m hm => ?_
  have haside := h m hm
  cases m with
  | round e => cases haside
  | told => cases haside
  | _ => rfl

/-- What happens aside adds nothing to what was seen. -/
theorem Matches.past_append (h : Matches part w₀ F x w) {l' : List (Moment σ)}
    (hpast : u.past = w.past ++ l') (haside : ∀ m ∈ l', m.aside = true) :
    ∃ l, u.past = w₀.past ++ l ∧ l.filterMap (Moment.sight? part) = x.sights ∧
      ∀ n i m g, .told .user n (.iterationEnd i) m g ∈ l → (i, part.get m) ∈ x.scored := by
  obtain ⟨l, hl, hseen, hends⟩ := h.past
  refine ⟨l ++ l', by rw [hpast, hl, List.append_assoc], ?_, fun n i m g hm => ?_⟩
  · rw [List.filterMap_append, sights_of_aside haside, List.append_nil, hseen]
  · rcases List.mem_append.mp hm with hm | hm
    · exact hends n i m g hm
    · exact absurd (haside _ hm) Bool.false_ne_true

/-- A world that matches a situation becomes another one, beside the rounds. -/
theorem Matches.becomes {m : σ} {g : Generator} {f : FileSystem} (h : Matches part w₀ F x w)
    (h' : w.Becomes m g f u) (hmemory : part.get m = y.memory)
    (hgenerator : ∀ g' ∈ y.generator, g = g') (hfiles : F y.scored y.begun f)
    (hscored : ∀ s ∈ x.scored, s ∈ y.scored) (hsights : y.sights = x.sights)
    (htrouble : y.trouble = x.trouble) (hclaimed : y.claimed = x.claimed) :
    Matches part w₀ F y u where
  present := h'.present h.present
  alone := h'.alone h.alone
  flag := by rw [(h'.resembles h.alone).flag, h.flag, htrouble]
  teardown := by rw [(h'.resembles h.alone).teardown, h.teardown, hclaimed]
  fault := by rw [(h'.resembles h.alone).fault, h.fault, htrouble]
  memory := by rw [h'.memory, hmemory]
  generator := by
    rw [h'.generator]
    exact hgenerator
  files := by
    rw [h'.files]
    exact hfiles
  past := by
    obtain ⟨l', hl', haside⟩ := h'.past
    obtain ⟨l, hl, hseen, hends⟩ := h.past_append hl' haside
    exact ⟨l, hl, hseen.trans hsights.symm, fun n i m g hm => hscored _ (hends n i m g hm)⟩

theorem Matches.still (h : Matches part w₀ F x w) (h' : Still w u) : Matches part w₀ F x u :=
  h.becomes h' h.memory h.generator h.files (fun _ hs => hs) rfl rfl rfl

/-- Something happens that may be seen. -/
theorem Matches.noted {m : Moment σ} (h : Matches part w₀ F x w)
    (hends : ∀ n i m' g, .told .user n (.iterationEnd i) m' g = m → (i, part.get m') ∈ x.scored) :
    Matches part w₀ F { x with sights := x.sights ++ (m.sight? part).toList } (w.noted m) where
  present := h.present
  alone := h.alone
  flag := h.flag
  teardown := h.teardown
  fault := h.fault
  memory := h.memory
  generator := h.generator
  files := h.files
  past := by
    obtain ⟨l, hl, hseen, hends'⟩ := h.past
    refine ⟨l ++ [m], by rw [past_noted, hl, List.append_assoc], ?_, fun n i m' g hm => ?_⟩
    · rw [List.filterMap_append, hseen]
      cases hm : m.sight? part <;> simp [hm]
    · rcases List.mem_append.mp hm with hm | hm
      · exact hends' n i m' g hm
      · exact hends n i m' g (List.mem_singleton.mp hm)

theorem Matches.noted_round (h : Matches part w₀ F x w) (e : Event) :
    Matches part w₀ F (x.rounds e) (w.noted (.round e)) :=
  h.noted (m := .round e) fun _ _ _ _ hm => nomatch hm

/-! ## Listeners of users -/

section Users

variable {e : Event} {r : Registration σ} {rs : List (Registration σ)} {users : List (Listener σ)}

/-- A listener of a user is told. -/
theorem matches_tell_user (htier : r.tier = .user) (hr : (r.listener.notify e).Observes part)
    (hend : ∀ i, e = .iterationEnd i → (i, x.memory) ∈ x.scored) (h : Matches part w₀ F x w) :
    (ListenerBus.tell e r w).1 = .ok () ∧ Matches part w₀ F x (ListenerBus.tell e r w).2 := by
  have htold : Matches part w₀ F x (w.noted (ListenerBus.toldMoment e r w)) := by
    have hnoted := h.noted (m := ListenerBus.toldMoment e r w) fun n i m g hm => ?_
    · have hunseen : (ListenerBus.toldMoment e r w).sight? part = none := by
        rw [ListenerBus.toldMoment, htier]
        rfl
      rw [hunseen, Option.toList_none, List.append_nil] at hnoted
      exact hnoted
    · obtain ⟨-, -, hevent, hmemory, -⟩ := Moment.told.inj hm
      rw [hmemory, h.memory]
      exact hend i hevent.symm
  obtain ⟨hok, m, hm, hbecomes⟩ := hr (w.noted (ListenerBus.toldMoment e r w)) htold.alone
  constructor
  · change (((r.listener.notify e).run (w.noted (ListenerBus.toldMoment e r w))).1).mapError _ =
      .ok ()
    rw [hok]
    rfl
  · rw [ListenerBus.tell_world]
    exact htold.becomes hbecomes (hm.trans htold.memory) htold.generator htold.files
      (fun _ hs => hs) rfl rfl rfl

/-- Listeners of users are told one after the other. By induction on those that are told. -/
theorem matches_tellAll_users
    (hrs : ∀ r ∈ rs, r.tier = .user ∧ (r.listener.notify e).Observes part)
    (hend : ∀ i, e = .iterationEnd i → (i, x.memory) ∈ x.scored) (h : Matches part w₀ F x w) :
    (ListenerBus.tellAll e rs w).1 = .ok () ∧
      Matches part w₀ F x (ListenerBus.tellAll e rs w).2 := by
  induction rs generalizing w with
  | nil => exact ⟨rfl, h⟩
  | cons r rest ih =>
      obtain ⟨htier, hr⟩ := hrs r List.mem_cons_self
      obtain ⟨hok, htold⟩ := matches_tell_user htier hr hend h
      rw [ListenerBus.tellAll_of_ok hok]
      exact ih (fun r' hr' => hrs r' (List.mem_cons_of_mem r hr')) htold

theorem matches_users (husers : ∀ l ∈ users, ∀ e, (l.notify e).Observes part)
    (hend : ∀ i, e = .iterationEnd i → (i, x.memory) ∈ x.scored) (h : Matches part w₀ F x w) :
    (ListenerBus.tellAll e (ListenerBus.order { user := users } e.kind) w).1 = .ok () ∧
      Matches part w₀ F x
        (ListenerBus.tellAll e (ListenerBus.order { user := users } e.kind) w).2 := by
  refine matches_tellAll_users (fun r hr => ?_) hend h
  obtain ⟨htier, hmem⟩ := CommuterSimulation.user_of_mem_order hr
  exact ⟨htier, husers r.listener hmem e⟩

end Users

/-! ## Rounds -/

section Rounds

variable {s : PopulationSettings} {k : Context} {users : List (Listener σ)} {e : Event}
  {wanted : IterationIndex → Prop} {i : IterationIndex} {z : Scenario}

/-- What comes of a round: how it ends, and the world after it. -/
def telling (b : ListenerBus σ) (e : Event) : StateM (World σ) (Outcome ListenerFailure Unit) :=
  fun w => ListenerBus.tellAll e (b.order e.kind) (w.noted (.round e))

/-- Of a round that is noted the bus returns how many were told. -/
theorem notify_noted (b : ListenerBus σ) (e : Event) (w : World σ) :
    b.notify e (w.noted (.round e)) =
      ((telling b e w).1.map fun () => (b.order e.kind).length, (telling b e w).2) := rfl

theorem telling_busOf (s : PopulationSettings) (part : Part σ CommuteMemory) (k : Context)
    (users : List (Listener σ)) (e : Event) (w : World σ) :
    telling (busOf s part k users) e w =
      ListenerBus.tellAll e (CommuterSimulation.told s part k e.kind ++
        ListenerBus.order { user := users } e.kind) (w.noted (.round e)) := by
  rw [← CommuterSimulation.order_listeners]
  rfl

/-- A round in which no listener of the simulation is told. -/
theorem matches_rounds (husers : ∀ l ∈ users, ∀ e, (l.notify e).Observes part)
    (hnobody : CommuterSimulation.told s part k e.kind = [])
    (hend : ∀ i, e = .iterationEnd i → (i, x.memory) ∈ x.scored) (h : Matches part w₀ F x w) :
    (telling (busOf s part k users) e w).1 = .ok () ∧
      Matches part w₀ F (x.rounds e) (telling (busOf s part k users) e w).2 := by
  rw [telling_busOf, hnobody, List.nil_append]
  exact matches_users husers hend (h.noted_round e)

/-- A listener of the simulation is told first, and then those of users. -/
theorem matches_shows {r : Registration σ} (husers : ∀ l ∈ users, ∀ e, (l.notify e).Observes part)
    (htold : CommuterSimulation.told s part k e.kind = [r]) (htier : r.tier = .core)
    (hend : ∀ i, e ≠ .iterationEnd i) (h : Matches part w₀ F x w)
    (hr : ∀ v, Matches part w₀ F (x.shows e) v → v.generator = w.generator →
      ((r.listener.notify e).run v).1 = .ok () ∧
        Matches part w₀ F y ((r.listener.notify e).run v).2) :
    (telling (busOf s part k users) e w).1 = .ok () ∧
      Matches part w₀ F y (telling (busOf s part k users) e w).2 := by
  let v := (w.noted (.round e)).noted (ListenerBus.toldMoment e r (w.noted (.round e)))
  have hv : Matches part w₀ F (x.shows e) v := by
    have hround := h.noted_round e
    have hnoted := hround.noted (m := ListenerBus.toldMoment e r (w.noted (.round e)))
      fun n i m g hm => absurd (Moment.told.inj hm).2.2.1.symm (hend i)
    have hseen : (ListenerBus.toldMoment e r (w.noted (.round e))).sight? part =
        some (.shown e x.memory) := by
      rw [ListenerBus.toldMoment, htier, ← h.memory]
      rfl
    rw [hseen] at hnoted
    simpa [Situation.shows, Situation.rounds] using hnoted
  obtain ⟨hok, hmatches⟩ := hr v hv rfl
  have htell : (ListenerBus.tell e r (w.noted (.round e))).1 = .ok () := by
    change (((r.listener.notify e).run v).1).mapError _ = .ok ()
    rw [hok]
    rfl
  rw [telling_busOf, htold, List.singleton_append, ListenerBus.tellAll_of_ok htell]
  refine matches_users husers (fun i he => absurd he (hend i)) ?_
  rw [ListenerBus.tell_world]
  exact hmatches

/-- A share of the commuters chooses new routes. -/
theorem matches_replanning (husers : ∀ l ∈ users, ∀ e, (l.notify e).Observes part)
    (hz : z = Scenario.of s k.configuration) (hg : x.generator = some (z.generator i))
    (h : Matches part w₀ F x w) :
    (telling (busOf s part k users) (.replanning i) w).1 = .ok () ∧
      Matches part w₀ F (x.replans z i) (telling (busOf s part k users) (.replanning i) w).2 := by
  refine matches_shows husers rfl rfl nofun h fun v hv _ => ⟨rfl, ?_⟩
  have hgenerator : v.generator = z.generator i := hv.generator _ hg
  have hmemory : part.get v.memory = x.memory := hv.memory
  refine hv.becomes (Program.becomes_drawPopulation (ε := Cause) part _ v) ?_ nofun hv.files
    (fun _ hs => hs) rfl rfl rfl
  rw [Mobsim.repopulated, part.get_set, Mobsim.found, hmemory, hgenerator, hz]
  rfl

/-- An iteration is scored. -/
theorem matches_scoring (husers : ∀ l ∈ users, ∀ e, (l.notify e).Observes part)
    (hz : z = Scenario.of s k.configuration) (hF : Accommodates s k wanted F) (hi : wanted i)
    (hnew : ∀ a ∈ x.scored, a.1 ≠ i) (hbegun : x.begun = some i) (h : Matches part w₀ F x w) :
    (telling (busOf s part k users) (.scoring i) w).1 = .ok () ∧
      Matches part w₀ F (x.scores z i) (telling (busOf s part k users) (.scoring i) w).2 := by
  refine matches_shows husers rfl rfl nofun h fun v hv _ => ?_
  let m := scored s.utilityPerHour i x.memory
  have hfiles : F x.scored (some i) v.files := hbegun ▸ hv.files
  obtain ⟨files, files', hscores, hloads, hend⟩ := hF.scores x.scored i m v.files hi hnew hfiles
  have hm : m = scored s.utilityPerHour i (part.get v.memory) := by
    rw [hv.memory]
    rfl
  obtain ⟨hok, hbecomes⟩ :=
    Scoring.scoreIteration_of_written (s := CommuterSimulation.scoring s part k) hm hscores hloads
  refine ⟨hok, hv.becomes hbecomes ?_ hv.generator ?_ (fun _ hs => List.mem_append_left _ hs)
    rfl rfl rfl⟩
  · rw [hz]
    exact part.get_set m v.memory
  · rw [hz]
    exact hbegun ▸ hend

/-- The end of a run is announced. -/
theorem matches_shutdown (husers : ∀ l ∈ users, ∀ e, (l.notify e).Observes part)
    (unexpected : Bool) (h : Matches part w₀ F x w) :
    (telling (busOf s part k users) (.shutdown unexpected) w).1 = .ok () ∧
      Matches part w₀ F (x.shows (.shutdown unexpected))
        (telling (busOf s part k users) (.shutdown unexpected) w).2 := by
  refine matches_shows husers rfl rfl nofun h fun v hv _ => ?_
  obtain ⟨hok, hstill⟩ := (CommuterSimulation.scoring s part k).close_still v
  exact ⟨hok, hv.still hstill⟩

end Rounds

/-! ## The simulation itself -/

section Simulation

variable {s : PopulationSettings} {c : Configuration} {z : Scenario} {i : IterationIndex}

/-- All commuters are given routes. -/
theorem matches_prepare (hz : z = Scenario.of s c) (hg : x.generator = some (.ofSeed z.seed))
    (h : Matches part w₀ F x w) :
    ((CommuterSimulation.prepare s part).run w).1 = .ok () ∧
      Matches part w₀ F (x.prepares z) ((CommuterSimulation.prepare s part).run w).2 := by
  obtain ⟨hok, hbecomes⟩ := CommuterSimulation.becomes_prepare s part w
  refine ⟨hok, h.becomes hbecomes ?_ nofun h.files (fun _ hs => hs) rfl rfl rfl⟩
  rw [Mobsim.repopulated, part.get_set, Mobsim.found, h.memory, h.generator _ hg, hz]
  rfl

/-- The mobsim comes to what is foreseen, whatever the number of workers and their schedule are. -/
theorem matches_mobsim (schedule : Schedule) (hz : z = Scenario.of s c)
    (hg : x.generator = some (z.generator i)) (hcalm : x.trouble = none) (hopen : x.claimed = false)
    (hknown : ∀ c ∈ x.memory.population, c.route < z.settings.routes.length)
    (h : Matches part w₀ F x w) :
    ((CommuterSimulation.mobsim s (.all schedule) part i).run w).1 = .ok () ∧
      Matches part w₀ F (x.simulates z i)
        ((CommuterSimulation.mobsim s (.all schedule) part i).run w).2 := by
  subst hz
  have hfound : Mobsim.found part w = x.memory.population := by rw [Mobsim.found, h.memory]
  have hgenerator := h.generator _ hg
  obtain ⟨statistics, hok, hbears, hwaits⟩ := Mobsim.run_alone (s := s) schedule i h.present h.alone
    (hcalm ▸ h.bears hopen) (hfound ▸ hknown)
  obtain ⟨hresult, hstill⟩ := Mobsim.still_mobsim s (.all schedule) part i w
  rw [hok] at hresult
  refine ⟨hresult, Matches.still ?_ hstill⟩
  rw [hfound, hgenerator] at hwaits
  rw [hfound] at hbears
  refine
    { present := hwaits.present h.present
      alone := hwaits.alone h.alone
      flag := hbears.flag
      teardown := hbears.teardown.trans hopen.symm
      fault := hbears.fault
      memory := ?_
      generator := fun g hg => absurd hg (Option.not_mem_none g)
      files := ?_
      past := ?_ }
  · rw [hwaits.memory]
    dsimp only
    change _ = Mobsim.after s i _ x.memory
    unfold Mobsim.after
    split
    · exact h.memory
    · rw [Mobsim.repopulated, part.get_set, h.memory]
  · rw [hwaits.files]
    exact h.files
  · obtain ⟨l, hl, haside⟩ := hwaits.past
    exact h.past_append hl haside

end Simulation

end World

end CommuteSim
