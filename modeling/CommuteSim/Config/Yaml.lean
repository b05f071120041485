import CommuteSim.Config.Basic
import CommuteSim.Yaml.Decode
import CommuteSim.Yaml.Node.Printer

/-!
# Configurations as YAML

A document gives settings in three sections. What it leaves out has a value of its own: a section
that is left out is the default one, and a setting that a section leaves out has the value that
`omitted` names for it, whatever the default section says. Sections and settings that are not known
are skipped. `Configuration.toNode` writes every setting.
-/

namespace CommuteSim

open Yaml

/-! ## What is left out -/

def GlobalSettings.omitted : GlobalSettings where
  randomSeed := defaultRandomSeed

def ControllerSettings.omitted : ControllerSettings where
  firstIteration := 0
  lastIteration := defaultLastIteration
  outputDirectory := defaultOutputDirectory
  runId := none
  createGraphs := true
  overwritePolicy := .failIfDirectoryExists
  iterationDirectories := true
  capturePanics := true

def LoggingSettings.omitted : LoggingSettings where
  level := defaultLogLevel

/-- Sections that are left out are the default ones. -/
def Configuration.omitted : Configuration where
  global := ({} : GlobalSettings)
  controller := ({} : ControllerSettings)
  logging := ({} : LoggingSettings)

/-! ## Reading -/

def GlobalSettings.decode : Decoder GlobalSettings :=
  decodeStructure "GlobalConfig"
    [.of "random_seed" decodeUInt64 fun v s => { s with randomSeed := v }] omitted

def OverwritePolicy.decode : Decoder OverwritePolicy := decodeNamed all name

def ControllerSettings.decode : Decoder ControllerSettings :=
  decodeStructure "ControllerConfig"
    [.of "first_iteration" decodeUInt32 fun v s => { s with firstIteration := v },
      .of "last_iteration" decodeUInt32 fun v s => { s with lastIteration := v },
      .of "output_directory" (decodeText "path string") fun v s => { s with outputDirectory := v },
      .of "run_id" (decodeOption (decodeText "a string")) fun v s => { s with runId := v },
      .of "create_graphs" decodeBool fun v s => { s with createGraphs := v },
      .of "overwrite_files" OverwritePolicy.decode fun v s => { s with overwritePolicy := v },
      .of "write_iteration_directories" decodeBool fun v s => { s with iterationDirectories := v },
      .of "capture_panics" decodeBool fun v s => { s with capturePanics := v }]
    omitted

def LoggingSettings.decode : Decoder LoggingSettings :=
  decodeStructure "LoggingConfig"
    [.of "level" (decodeText "a string") fun v s => { s with level := v }] omitted

/-- Reads a configuration from a node. -/
def Configuration.decode : Decoder Configuration :=
  decodeStructure "SimulationConfig"
    [.of "global" GlobalSettings.decode fun v s => { s with global := v },
      .of "controller" ControllerSettings.decode fun v s => { s with controller := v },
      .of "logging" LoggingSettings.decode fun v s => { s with logging := v }] omitted

/-- Reads a configuration from the text of a document. -/
def Configuration.ofText (text : String) : Decoded Configuration :=
  (Document.ofText text).decode omitted decode

/-! ## Writing -/

def boolNode (b : Bool) : Node := .word (if b then "true" else "false")

def optionNode {α : Type} (f : α → Node) : Option α → Node
  | some a => f a
  | none => .word "null"

/-- The tree of a configuration. -/
def Configuration.toNode (c : Configuration) : Node :=
  let s := c.controller
  .ofFields
    [("global", .ofFields [("random_seed", .word (toString c.global.randomSeed))]),
      ("controller", .ofFields
        [("first_iteration", .word (toString s.firstIteration)),
          ("last_iteration", .word (toString s.lastIteration)),
          ("output_directory", .ofText s.outputDirectory),
          ("run_id", optionNode .ofText s.runId),
          ("create_graphs", boolNode s.createGraphs),
          ("overwrite_files", .word s.overwritePolicy.name),
          ("write_iteration_directories", boolNode s.iterationDirectories),
          ("capture_panics", boolNode s.capturePanics)]),
      ("logging", .ofFields [("level", .ofText c.logging.level)])]

/-- The text of a configuration with every setting in it. -/
def Configuration.text (c : Configuration) : String := c.toNode.text

/-! ## Failures -/

/-- The message of a document that is no configuration. -/
def configurationFailureMessage (f : Failure) : String :=
  let problem := f.message?.getD "the text is not YAML"
  s!"failed to process config YAML: {problem}"

end CommuteSim
