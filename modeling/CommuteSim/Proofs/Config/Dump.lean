import CommuteSim.Config.Yaml
import CommuteSim.Proofs.Yaml.Decode

/-!
# The dump of a configuration

A configuration that is written as a document is read back as it was, whatever texts it holds.
-/

namespace CommuteSim

open Yaml

/-! ## Settings -/

theorem restores_bool (b : Bool) : Restores decodeBool (boolNode b) b := by
  cases b <;> exact restores_plain (by decide) (by decide) (by decide)

theorem restores_policy (p : OverwritePolicy) :
    Restores OverwritePolicy.decode (.word p.name) p := by
  cases p <;> exact restores_named (by decide) (by decide) (by decide)

/-- An absent text is not confused with the texts of the words for it. -/
theorem restores_option (id : Option String) :
    Restores (decodeOption (decodeText "a string")) (optionNode .ofText id) id := by
  cases id with
  | none => exact restores_null _
  | some s => exact restores_some (restores_text "a string" s)

/-! ## Sections -/

def GlobalSettings.rows (s : GlobalSettings) : List (Row GlobalSettings) :=
  [.of "random_seed" decodeUInt64 (fun v s => { s with randomSeed := v })
    (.word (toString s.randomSeed)) s.randomSeed]

def ControllerSettings.rows (s : ControllerSettings) : List (Row ControllerSettings) :=
  [.of "first_iteration" decodeUInt32 (fun v s => { s with firstIteration := v })
      (.word (toString s.firstIteration)) s.firstIteration,
    .of "last_iteration" decodeUInt32 (fun v s => { s with lastIteration := v })
      (.word (toString s.lastIteration)) s.lastIteration,
    .of "output_directory" (decodeText "path string") (fun v s => { s with outputDirectory := v })
      (.ofText s.outputDirectory) s.outputDirectory,
    .of "run_id" (decodeOption (decodeText "a string")) (fun v s => { s with runId := v })
      (optionNode .ofText s.runId) s.runId,
    .of "create_graphs" decodeBool (fun v s => { s with createGraphs := v })
      (boolNode s.createGraphs) s.createGraphs,
    .of "overwrite_files" OverwritePolicy.decode (fun v s => { s with overwritePolicy := v })
      (.word s.overwritePolicy.name) s.overwritePolicy,
    .of "write_iteration_directories" decodeBool (fun v s => { s with iterationDirectories := v })
      (boolNode s.iterationDirectories) s.iterationDirectories,
    .of "capture_panics" decodeBool (fun v s => { s with capturePanics := v })
      (boolNode s.capturePanics) s.capturePanics]

def LoggingSettings.rows (s : LoggingSettings) : List (Row LoggingSettings) :=
  [.of "level" (decodeText "a string") (fun v s => { s with level := v }) (.ofText s.level) s.level]

theorem GlobalSettings.restores (s : GlobalSettings) : Restores decode (rowsNode s.rows) s := by
  have hnames : names s.rows = ["random_seed"] := rfl
  have hfaithful : ∀ r ∈ s.rows, r.Faithful := by
    rw [rows, List.forall_mem_singleton]
    exact Row.faithful_of (restores_uint64 _) (by decide)
  exact restores_structure (by simp [rows]) (by rw [hnames]; decide) hfaithful
    (by simp [rows, Row.of]) "GlobalConfig"

theorem ControllerSettings.restores (s : ControllerSettings) :
    Restores decode (rowsNode s.rows) s := by
  have hnames : names s.rows = ["first_iteration", "last_iteration", "output_directory", "run_id",
    "create_graphs", "overwrite_files", "write_iteration_directories", "capture_panics"] := rfl
  have hfaithful : ∀ r ∈ s.rows, r.Faithful := by
    simp only [rows, List.forall_mem_cons]
    exact ⟨Row.faithful_of (restores_uint32 _) (by decide),
      Row.faithful_of (restores_uint32 _) (by decide),
      Row.faithful_of (restores_text _ _) (by decide),
      Row.faithful_of (restores_option _) (by decide),
      Row.faithful_of (restores_bool _) (by decide),
      Row.faithful_of (restores_policy _) (by decide),
      Row.faithful_of (restores_bool _) (by decide),
      Row.faithful_of (restores_bool _) (by decide), List.forall_mem_nil _⟩
  exact restores_structure (by simp [rows]) (by rw [hnames]; decide) hfaithful
    (by simp [rows, Row.of]) "ControllerConfig"

theorem LoggingSettings.restores (s : LoggingSettings) : Restores decode (rowsNode s.rows) s := by
  have hnames : names s.rows = ["level"] := rfl
  have hfaithful : ∀ r ∈ s.rows, r.Faithful := by
    rw [rows, List.forall_mem_singleton]
    exact Row.faithful_of (restores_text _ _) (by decide)
  exact restores_structure (by simp [rows]) (by rw [hnames]; decide) hfaithful
    (by simp [rows, Row.of]) "LoggingConfig"

/-! ## The whole -/

def Configuration.rows (c : Configuration) : List (Row Configuration) :=
  [.of "global" GlobalSettings.decode (fun v s => { s with global := v })
      (rowsNode c.global.rows) c.global,
    .of "controller" ControllerSettings.decode (fun v s => { s with controller := v })
      (rowsNode c.controller.rows) c.controller,
    .of "logging" LoggingSettings.decode (fun v s => { s with logging := v })
      (rowsNode c.logging.rows) c.logging]

theorem Configuration.restores (c : Configuration) : Restores decode (rowsNode c.rows) c := by
  have hnames : names c.rows = ["global", "controller", "logging"] := rfl
  have hfaithful : ∀ r ∈ c.rows, r.Faithful := by
    simp only [rows, List.forall_mem_cons]
    exact ⟨Row.faithful_of c.global.restores (by decide),
      Row.faithful_of c.controller.restores (by decide),
      Row.faithful_of c.logging.restores (by decide), List.forall_mem_nil _⟩
  exact restores_structure (by simp [rows]) (by rw [hnames]; decide) hfaithful
    (by simp [rows, Row.of]) "SimulationConfig"

theorem Configuration.ofText_text (c : Configuration) : ofText c.text = .ok c := by
  have htext : c.text = (rowsNode c.rows).text := rfl
  obtain ⟨n', hdocument, hechoes⟩ := Document.ofText_text c.restores.legible
  change Document.ofText (rowsNode c.rows).text = _ at hdocument
  rw [ofText, htext, hdocument, Document.decode]
  simp only [c.restores.decodes _ n' hechoes, bind, Except.bind, Bool.not_true, Bool.false_eq_true,
    if_false]
  rfl

/-- A configuration with another name of the run. -/
def Configuration.renamed (c : Configuration) (id : Option String) : Configuration :=
  { c with controller := { c.controller with runId := id } }

/-- A configuration is read back from its dump, so the dump also tells the names that a run can
have from each other and from none. -/
theorem Configuration.text_faithful (c : Configuration) :
    ofText c.text = .ok c ∧
    ∀ id id', (c.renamed id).text = (c.renamed id').text → id = id' := by
  refine ⟨c.ofText_text, fun id id' h => ?_⟩
  have hread := (c.renamed id).ofText_text
  rw [h, ofText_text] at hread
  exact (congrArg (fun c => c.controller.runId) (Except.ok.inj hread)).symm

end CommuteSim
