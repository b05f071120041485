import CommuteSim.Proofs.Commute.Delivery
import CommuteSim.Proofs.Controller.Outcome
import Mathlib.Data.List.Nodup

/-!
# Results do not depend on parallelism

Two runs of the simulation that nobody disturbs may differ in the number of workers, in how the
workers take turns, in the listeners of users and in all that the simulation does not work with. If
the iterations that are wanted are the same, both go as the same forecast says, which knows of no
workers: so all that is seen of the population, the files with the results and the outcomes are the
same, also where a worker is made to fail.

Main statement: `results_agree`.
-/

namespace CommuteSim

variable {σ τ : Type}

namespace Situation

section Tallied

variable {z : Scenario} {i : IterationIndex} {x y : Situation} {wanted : IterationIndex → Bool}

/-- What was seen to be scored was scored. -/
def Tallied (y : Situation) : Prop :=
  ∀ i, .round (.scoring i) ∈ y.sights → ∃ m, (i, m) ∈ y.scored

theorem Tallied.iterates (h : Tallied y) : Tallied (iterates z i y) := by
  have htravels : (travels z i (opens z i y)).scored = y.scored := (undecided_opens z i y).scored
  intro j hj
  by_cases hfails : Mobsim.Fails z.settings i y.memory.population
  · rw [(iterates_of_fails hfails).1] at hj ⊢
    rw [htravels]
    exact h j (scoring_of_mem_travels hj)
  · rw [(iterates_of_not_fails hfails).1] at hj ⊢
    have hseen : Sight.round (.scoring j) ∈ (travels z i (opens z i y)).sights ∨ j = i := by
      simpa [scores, rounds, shows, or_assoc] using hj
    rcases hseen with hbefore | rfl
    · obtain ⟨m, hm⟩ := h j (scoring_of_mem_travels hbefore)
      exact ⟨m, List.mem_append_left _ (htravels ▸ hm)⟩
    · exact ⟨_, List.mem_append_right _ List.mem_cons_self⟩

/-- In a forecast no iteration is seen to be scored that is not. By induction on the indices that
are left. -/
theorem Tallied.forecast {room : Nat} (h : Tallied y) : Tallied (forecast z wanted room i y) := by
  induction room generalizing i y with
  | zero => exact h
  | succ room ih =>
      have hiterates : Tallied (Situation.iterates z i { y.asks with last := some i }) :=
        Tallied.iterates (y := { y.asks with last := some i }) h
      unfold Situation.forecast
      split
      · dsimp only
        split
        · exact hiterates
        · cases i.next? with
          | none => exact hiterates
          | some j => exact ih hiterates
      · exact h

theorem tallied_opening (z : Scenario) (answers : IterationIndex → Bool)
    (p : Option Inconsistency) : Tallied (opening z answers p) := by
  have hstart : ∀ i, Sight.round (.scoring i) ∉ [Sight.round .startup] := by
    intro i hi
    simp at hi
  cases p with
  | some p => exact fun i hi => absurd hi (hstart i)
  | none => exact Tallied.forecast fun i hi => absurd hi (hstart i)

/-- Nothing is scored under a configuration that is refused. -/
theorem consistent_of_scored {z : Scenario} {answers : IterationIndex → Bool}
    {p : Option Inconsistency} {a : IterationIndex × CommuteMemory}
    (h : a ∈ (opening z answers p).scored) : p = none := by
  cases p with
  | some p => cases h
  | none => rfl

theorem distinct_opening {s : PopulationSettings} {k : Configuration} (hvalid : s.problem? = none)
    (answers : IterationIndex → Bool) (p : Option Inconsistency) :
    ((opening (.of s k) answers p).scored.map Prod.fst).Nodup := by
  cases p with
  | some p => exact List.nodup_nil
  | none => exact (Scene.sound_prepared hvalid).distinct_forecast

end Tallied

end Situation

/-- A consistent configuration has no slash in the name of the run. -/
theorem Configuration.undivided {k : Configuration} (h : k.inconsistency? = none) :
    ∀ id ∈ k.controller.runId, '/' ∉ id.toList := by
  intro id hid hslash
  have hseparator : hasSeparator id = true :=
    List.any_eq_true.mpr ⟨'/', hslash, by decide⟩
  have hrefused : k.controller.runId.filter hasSeparator = some id :=
    Option.filter_eq_some_iff.mpr ⟨hid, hseparator⟩
  unfold inconsistency? at h
  dsimp only at h
  rw [hrefused] at h
  split at h
  · cases h
  · split at h <;> cases h

namespace Controller

section Runs

variable {s : PopulationSettings} {schedule : IterationIndex → Schedule}
  {part : Part σ CommuteMemory} {p : Plan σ} {t : Session σ} {F : FileCourse}
  {answers : IterationIndex → Bool}

theorem Undisturbed.context (h : Undisturbed s schedule part p t) :
    t.controller.context = ⟨p.configuration,
      ⟨p.configuration.controller.outputDirectory, p.configuration.controller.runId⟩⟩ := by
  obtain ⟨m, ls, -, hc⟩ := h.built.fields
  rw [hc]
  rfl

/-- The results of all that was scored are delivered. -/
theorem Undisturbed.delivered (h : Undisturbed s schedule part p t)
    (hconsistent : p.configuration.inconsistency? = none) (hanswers : Answers answers t)
    (hF : Accommodates s t.controller.context (Wanted t) F) (hfiles : F [] none t.world.files) :
    Delivered s t.controller.context
      (Situation.opening (.of s p.configuration) answers p.configuration.inconsistency?).scored
      (run t).2.world.files := by
  have hid : ∀ id ∈ t.controller.context.output.runId, '/' ∉ id.toList := by
    rw [h.context]
    exact Configuration.undivided hconsistent
  exact (h.foreseen hanswers (hF.delivers hid) ⟨hfiles, nofun, nofun⟩).2.files.2

end Runs

section Two

variable {s : PopulationSettings} {workers : UInt32}
  {schedule schedule' : IterationIndex → Schedule} {part : Part σ CommuteMemory}
  {part' : Part τ CommuteMemory} {p : Plan σ} {q : Plan τ}
  {t : Session σ} {u : Session τ} {F G : FileCourse} {answers : IterationIndex → Bool}

/-- Two runs that nobody disturbs, under configurations and populations that agree but for the
number of workers, and with the same answers to the question whether an iteration is to run:
whatever the schedules are, the runs give the same result and show the same rounds with the same
routes, travel times and scores of all commuters, and so does every listener of a user at the end of
an iteration. Once an iteration was scored, both tables of scores are there and hold the same, and
so do the loads of routes in that iteration if iterations have directories. -/
theorem results_agree (ht : Undisturbed s schedule part p t)
    (hu : Undisturbed { s with mobsimWorkers := workers } schedule' part' q u)
    (hconfiguration : q.configuration = p.configuration)
    (hanswers : Answers answers t) (hanswers' : Answers answers u)
    (hF : Accommodates s t.controller.context (Wanted t) F) (hfiles : F [] none t.world.files)
    (hG : Accommodates { s with mobsimWorkers := workers } u.controller.context (Wanted u) G)
    (hfiles' : G [] none u.world.files) :
    let output := t.controller.context.output
    let f := (run t).2.world.files
    let g := (run u).2.world.files
    (run t).1 = (run u).1 ∧
    (runHistory t).filterMap (Moment.sight? part) =
      (runHistory u).filterMap (Moment.sight? part') ∧
    part.get (run t).2.world.memory = part'.get (run u).2.world.memory ∧
    (∀ i n m a n' m' a', .told .user n (.iterationEnd i) m a ∈ runHistory t →
      .told .user n' (.iterationEnd i) m' a' ∈ runHistory u → part.get m = part'.get m') ∧
    ∀ i, .round (.scoring i) ∈ runHistory t →
      (∃ c, f.entry? (f.locate (output.file scoresFile)) = some (.file c) ∧
        g.entry? (g.locate (output.file scoresFile)) = some (.file c)) ∧
      (p.configuration.controller.iterationDirectories = true →
        ∃ c, f.entry? (f.locate (output.iterationFile i loadsFile)) = some (.file c) ∧
          g.entry? (g.locate (output.iterationFile i loadsFile)) = some (.file c)) := by
  intro output f g
  let x := Situation.opening (.of s p.configuration) answers p.configuration.inconsistency?
  obtain ⟨hresult, hmatches⟩ := ht.foreseen hanswers hF hfiles
  have hsecond := hu.foreseen hanswers' hG hfiles'
  rw [hconfiguration] at hsecond
  obtain ⟨hresult', hmatches'⟩ : (run u).1 = x.outcome ∧
      World.Matches part' u.world G x.finishes (run u).2.world := hsecond
  have hcontext : u.controller.context = t.controller.context := by
    rw [ht.context, hu.context, hconfiguration]
  refine ⟨hresult.trans hresult'.symm, hmatches.sights.trans hmatches'.sights.symm,
    hmatches.memory.trans hmatches'.memory.symm, ?_, fun i hi => ?_⟩
  · intro i n m a n' m' a' hm hm'
    have hleft := hmatches.told_end hm
    have hright := hmatches'.told_end hm'
    have hpair :=
      List.inj_on_of_nodup_map (Situation.distinct_opening ht.valid _ _) hleft hright rfl
    exact congrArg Prod.snd hpair
  · obtain hseen | hshutdown := Situation.mem_finishes.mp ((hmatches.round_mem _).mp hi)
    · obtain ⟨m, hm⟩ := Situation.tallied_opening _ _ _ i hseen
      have hconsistent := Situation.consistent_of_scored hm
      have hdelivered := ht.delivered hconsistent hanswers hF hfiles
      have hdelivered' := hu.delivered (hconfiguration ▸ hconsistent) hanswers' hG hfiles'
      have hscenario : Scenario.of { s with mobsimWorkers := workers } p.configuration =
          Scenario.of s p.configuration := rfl
      rw [hconfiguration, hscenario, hcontext] at hdelivered'
      have hdirectories : t.controller.context.configuration.controller.iterationDirectories =
          p.configuration.controller.iterationDirectories := by
        rw [ht.context]
      rw [← hdirectories]
      exact ⟨hdelivered.scores_agree hdelivered' (List.ne_nil_of_mem hm),
        fun hset => hdelivered.loads_agree hdelivered' rfl hset hm⟩
    · cases hshutdown

end Two

/-- One worker does the same for six commuters as four that move in another order, also where the
first worker is made to fail. -/
theorem results_agree_of_six :
    let s : PopulationSettings := { agentCount := 6, mobsimWorkers := 1, failMobsimAt := some 3 }
    let four : PopulationSettings := { s with mobsimWorkers := 4 }
    (run (commutingSession s fun _ => id)).1 =
        (run (commutingSession four fun i n => n + i.toNat)).1 ∧
      (runHistory (commutingSession s fun _ => id)).filterMap (Moment.sight? .whole) =
        (runHistory (commutingSession four fun i n => n + i.toNat)).filterMap
          (Moment.sight? .whole) := by
  intro s four
  obtain ⟨hF, hfiles⟩ := accommodates_commuting s fun _ => id
  obtain ⟨hG, hfiles'⟩ := accommodates_commuting four fun i n => n + i.toNat
  have hs := undisturbed_commuting (s := s) (fun _ => id) (by decide +kernel) (by decide +kernel)
  have hfour := undisturbed_commuting (s := four) (fun i n => n + i.toNat) (by decide +kernel)
    (by decide +kernel)
  obtain ⟨hresult, hsights, -⟩ := results_agree hs hfour rfl (hs.answers_by_default rfl)
    (hfour.answers_by_default rfl) hF hfiles hG hfiles'
  exact ⟨hresult, hsights⟩

end Controller

end CommuteSim
