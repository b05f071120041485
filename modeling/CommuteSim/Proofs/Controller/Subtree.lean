import CommuteSim.Proofs.Controller.Release
import CommuteSim.Proofs.Output.Directory

/-!
# Where a run writes

The collaborators of a run may leave the files alone. Then all that changes is what the controller
writes: the directories of the iterations, which lie below the root of the output, and the files of
the run. These lie in the root if the name of the run holds no slash. The configuration is written
before it is checked, so a name with a slash leads out of the root though the check refuses it.

Main statements: `strides_run` for the small steps of a run; `output_subtree` for the entries that
they change; `output_of_build` for the root, which is there once a controller is built.
-/

namespace CommuteSim

variable {σ : Type}

/-! ## The steps of a run -/

namespace World

/-- A small step of the world in a run with confined collaborators. -/
inductive Stride (k : Context) (P : Deed σ → Prop) : World σ → World σ → Prop where
  | stir {w u : World σ} (h : Stir k P w u) : Stride k P w u
  /-- Those who wait for the end of the teardown are released. -/
  | release (w : World σ) : Stride k P w (w.setCoordinator w.coordinator.terminate)
  /-- The controller changes the handler of panics. -/
  | handler (w : World σ) (x : PanicHandler) :
      Stride k P w (w.setProcess (w.process.restore x))

/-- Small steps one after the other. -/
abbrev Strides (k : Context) (P : Deed σ → Prop) : World σ → World σ → Prop :=
  Relation.ReflTransGen (Stride k P)

theorem strides_of_stirred {k : Context} {P : Deed σ → Prop} {w u : World σ}
    (h : Stirred k P w u) : Strides k P w u :=
  h.lift id fun _ _ => .stir

end World

namespace Controller

section Strides

variable {s : Session σ} {P : Deed σ → Prop}

theorem strides_bound (s : Session σ) (P : Deed σ → Prop) :
    World.Strides s.controller.context P s.world (bound s).world :=
  World.strides_of_stirred (stirs_bindThread s.world)

theorem strides_ready (s : Session σ) (P : Deed σ → Prop) :
    World.Strides s.controller.context P s.world (ready s).world := by
  have hbound := strides_bound s P
  unfold ready
  split
  · rw [watch_world]
    have hyield := hbound.tail (.stir (.yield (bound s).world))
    have hwatch := hyield.tail (.handler _ (.watching (World.yield (bound s).world).2.self))
    exact hwatch.tail (.stir (.note _ (Moment.apart_said _)))
  · exact hbound

theorem controller_ready (s : Session σ) : (ready s).controller = s.controller := by
  unfold ready
  split <;> rfl

theorem strides_released (hc : s.controller.Confined P) :
    World.Strides s.controller.context P s.world (released s).world := by
  have hready := strides_ready s P
  have hconcluded := stirs_upToRelease (k := s.controller.context) (P := P) (ready s)
    (by rw [controller_ready]) (by rwa [controller_ready])
  rw [released_world]
  have hway := hready.trans (World.strides_of_stirred hconcluded.world)
  exact (hway.tail (.stir (.yield _))).tail (.release _)

/-- A run goes in small steps. -/
theorem strides_run (s : Session σ) (hc : s.controller.Confined P) :
    World.Strides s.controller.context P s.world (run s).2.world := by
  by_cases h : s.controller.stage = .idle
  · have hreleased := strides_released hc
    cases hw : s.watches with
    | true =>
        rw [run_of_watches h hw, unwatch_world]
        exact (hreleased.tail (.stir (.yield _))).tail (.handler _ _)
    | false =>
        rw [run_of_not_watches h hw]
        exact hreleased
  · rw [run_of_not_idle h]

end Strides

end Controller

/-! ## Collaborators that leave the files alone -/

/-- A deed that writes no file. -/
def Deed.LeavesFiles (d : Deed σ) : Prop := ∀ files, d ≠ .setFiles files

namespace World

theorem files_undergo (as : List ThreadAct) (w : World σ) :
    (as.foldl undergo w).files = w.files := by
  induction as generalizing w with
  | nil => rfl
  | cons a rest ih => exact ih (w.undergo a)

theorem files_yield (w : World σ) : (yield w).2.files = w.files := files_undergo _ w

theorem files_panic (w : World σ) (x : Panic) : (panic x w).2.files = w.files := by
  by_cases h : w.process.handler = .watching w.self
  · rw [panic_of_watching h]
    exact files_yield w
  · rw [panic_of_not_watching h]
    exact files_yield w

theorem files_interrupt (w : World σ) : (interrupt w).2.files = w.files := by
  have hsaid := files_yield
    (w.noted (.said .controller ⟨.error, "received unexpected shutdown request"⟩))
  have htail : ∀ (c : Coordinator) (v : World σ), ((if c.bound then
      say .warning "shutdown requested from the controller thread; not waiting for teardown"
      else pure () : StateM (World σ) Unit) v).2.files = v.files := by
    intro c v
    split <;> rfl
  exact (htail _ _).trans hsaid

theorem files_perform {d : Deed σ} (h : d.LeavesFiles) (w : World σ) :
    (perform d w).2.files = w.files := by
  cases d with
  | setFiles files => exact absurd rfl (h files)
  | coordinator => exact files_yield w
  | report origin f => exact files_yield w
  | interrupt => exact files_interrupt w
  | claimTeardown => exact files_yield w
  | terminate => exact files_yield w
  | elsewhere a => exact files_yield w
  | _ => rfl

theorem files_lines (lines : List LogLine) (w : World σ) :
    ((lines.forM fun line => note (.said .controller line) : StateM (World σ) PUnit) w).2.files =
      w.files := by
  induction lines generalizing w with
  | nil => rfl
  | cons line rest ih => exact ih (w.noted _)

theorem files_onFiles {α : Type} (work : FileWork α) (w : World σ) :
    (onFiles work w).2.files = (work.run.run { files := w.files }).2.files :=
  files_lines _ _

/-! ## What a run changes -/

/-- The locations of the files of a run. -/
def OfRun (k : Context) (s : FileSystem) (l : Location) : Prop :=
  ∃ name ∈ Controller.runFiles, l = s.locate (k.output.file name)

open FileSystem

theorem keeps_of_eq {root : String} {E : Location → Prop} {s t : FileSystem} (h : t = s) :
    Keeps root E s t :=
  h ▸ .refl root E s

theorem keeps_writeText {k : Context} {name text : String} (h : name ∈ Controller.runFiles)
    (w : World σ) :
    Keeps k.output.root (OfRun k w.files) w.files
      (writeText (k.output.file name) text w).2.files := by
  simp only [writeText, bind, StateT.bind, get, getThe, MonadStateOf.get, StateT.get, pure]
  cases hresult : w.files.writeText (k.output.file name) text with
  | ok files => exact write_keeps hresult ⟨name, h, rfl⟩
  | error _ => exact .refl _ _ _

/-- A small step of a run keeps all that lies neither below the root of the output nor where a file
of the run lies. -/
theorem keeps_stride {k : Context} {w u : World σ} (h : Stride k Deed.LeavesFiles w u)
    (hw : Rooted k.output.root w.files) :
    Keeps k.output.root (OfRun k w.files) w.files u.files := by
  cases h with
  | release => exact .refl _ _ _
  | handler x => exact .refl _ _ _
  | stir h =>
      cases h with
      | deed h => exact keeps_of_eq (files_perform h w)
      | panic x => exact keeps_of_eq (files_panic w x)
      | yield => exact keeps_of_eq (files_yield w)
      | write text h => exact keeps_writeText h w
      | directory i =>
          rw [files_onFiles]
          exact OutputDirectory.confines_createIteration k.output i { files := w.files } hw
      | _ => exact .refl _ _ _

/-- So do all small steps that have been gone. -/
theorem keeps_strides {k : Context} {w u : World σ} (h : Strides k Deed.LeavesFiles w u)
    (hw : Rooted k.output.root w.files) :
    Keeps k.output.root (OfRun k w.files) w.files u.files := by
  induction h with
  | refl => exact .refl _ _ _
  | @tail v u _ hstride ih =>
      have hstep := keeps_stride hstride (ih.rooted hw)
      have hsame : OfRun k v.files = OfRun k w.files := by
        funext l
        simp only [OfRun, ih.locate]
      rw [hsame] at hstep
      exact ih.trans hstep

end World

namespace Controller

open FileSystem

/-- The names of the files of a run hold no slash, and are neither a dot nor two. -/
theorem isName_runFiles {name : String} (h : name ∈ runFiles) : IsName name ∧ 2 < name.length := by
  simp only [runFiles, List.mem_cons, List.not_mem_nil, or_false] at h
  rcases h with rfl | rfl | rfl <;> exact ⟨⟨by decide, by decide⟩, by decide⟩

/-- A controller that is built writes where its configuration says, and the root of its output is
there. -/
theorem output_of_build {p : Plan σ} {w : World σ} {c : Controller σ} (h : (build p w).1 = .ok c) :
    c.context.output =
        ⟨p.configuration.controller.outputDirectory, p.configuration.controller.runId⟩ ∧
      OutputDirectory.Made c.context.output.root (build p w).2.files := by
  unfold build at h ⊢
  cases hs : p.simulation with
  | none =>
      rw [hs] at h
      cases h
  | some m =>
      rw [hs] at h
      have hends := OutputDirectory.ends_prepare p.configuration.controller { files := w.files }
        trivial
      have hfiles := World.files_onFiles (OutputDirectory.prepare p.configuration.controller) w
      rw [← hfiles] at hends
      have hresult : (World.onFiles (OutputDirectory.prepare p.configuration.controller) w).1 =
          ((OutputDirectory.prepare p.configuration.controller).run.run
            { files := w.files }).1 := rfl
      rw [← hresult] at hends
      dsimp only [bind, StateT.bind] at h ⊢
      cases hmade : World.onFiles (OutputDirectory.prepare p.configuration.controller) w with
      | mk made v =>
          rw [hmade] at h hends
          cases made with
          | error e => cases h
          | ok d =>
              obtain ⟨hd, hroot⟩ := hends d rfl
              cases h
              exact ⟨hd, hroot⟩

/-- In a run whose collaborators leave the files alone, an entry that is not at any moment what it
was at the beginning lies below the root of the output or is a file of the run; and where the name
of the run holds no slash, the files of the run lie below the root too. Whether the configuration
passes its check plays no part; the root is there since the controller was built, as
`output_of_build` tells. -/
theorem output_subtree (s : Session σ) (hc : s.controller.Confined Deed.LeavesFiles)
    (hroot : s.world.files.partsLeadToDirectory (.ofText s.controller.context.output.root) = true) :
    World.Strides s.controller.context Deed.LeavesFiles s.world (run s).2.world ∧
      ∀ w, World.Strides s.controller.context Deed.LeavesFiles s.world w →
        ∀ l, w.files.entry? l ≠ s.world.files.entry? l →
          (isBelow l (s.world.files.locate s.controller.context.output.root) = true ∨
            World.OfRun s.controller.context s.world.files l) ∧
          ((∀ id ∈ s.controller.context.output.runId, '/' ∉ id.toList) →
            isBelow l (s.world.files.locate s.controller.context.output.root) = true) := by
  refine ⟨strides_run s hc, fun w hw l hl => ?_⟩
  have hkeeps := World.keeps_strides hw (rooted_of_leads hroot)
  have hplace := Classical.byContradiction fun hnot => hl (hkeeps.changes.entry l hnot)
  refine ⟨hplace, fun hid => ?_⟩
  rcases hplace with hbelow | ⟨name, hname, rfl⟩
  · exact hbelow
  · obtain ⟨hisName, hlong⟩ := isName_runFiles hname
    rw [OutputDirectory.locate_file _ hid hisName hlong]
    exact isBelow_append (List.cons_ne_nil _ _)

/-! ### A run with a name -/

/-- A session in a root of its own, whose run has a name. -/
def titled (title : String) : Session Unit where
  controller :=
    { context :=
        { configuration := { controller :=
            { lastIteration := 0, outputDirectory := "out", runId := some title,
              createGraphs := false, capturePanics := false } }
          output := { root := "out", runId := some title } }
      simulation := { mobsim := fun _ _ => return }
      seeding := { base := 4711 } }
  world := { memory := (), files := { entries := [(["out"], .directory)] } }

theorem confined_titled (title : String) (P : Deed Unit → Prop) :
    (titled title).controller.Confined P where
  simulation :=
    ⟨fun _ _ h => absurd h List.not_mem_nil, fun _ => trivial, fun _ => trivial,
      fun _ _ => trivial, fun _ _ => trivial⟩
  criterion := nofun
  bus := fun t _ h => by cases t <;> exact absurd h List.not_mem_nil

theorem output_subtree_titled :
    (titled "base").controller.Confined Deed.LeavesFiles ∧
      (titled "base").world.files.partsLeadToDirectory
        (.ofText (titled "base").controller.context.output.root) = true ∧
      ∀ l, (run (titled "base")).2.world.files.entry? l ≠ (titled "base").world.files.entry? l →
        isBelow l ((titled "base").world.files.locate "out") = true := by
  have hconfined := confined_titled "base" Deed.LeavesFiles
  have hroot : (titled "base").world.files.partsLeadToDirectory
      (.ofText (titled "base").controller.context.output.root) = true := by decide +kernel
  obtain ⟨hrun, hbelow⟩ := output_subtree (titled "base") hconfined hroot
  refine ⟨hconfined, hroot, fun l hl => (hbelow _ hrun l hl).2 ?_⟩
  decide

/-- A name with a slash leads out of the root: the configuration is written under it, and only then
is the name refused. -/
theorem dump_outside_output :
    (run (titled "../escaped")).1.toOption = none ∧
      (titled "../escaped").world.files.entry? ["escaped.output_config.yaml"] = none ∧
      ((run (titled "../escaped")).2.world.files.entry? ["escaped.output_config.yaml"]).isSome ∧
      isBelow ["escaped.output_config.yaml"]
        ((titled "../escaped").world.files.locate "out") = false := by
  decide +kernel

end Controller

end CommuteSim
