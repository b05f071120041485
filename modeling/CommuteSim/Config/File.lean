import CommuteSim.Config.Yaml
import CommuteSim.Files.System

/-!
# Configurations in files
-/

namespace CommuteSim

/-- Why a configuration could not be had from a file. -/
inductive ConfigurationFailure where
  | unreadable (reason : OsError)
  | unusable (failure : Yaml.Failure)

/-- The message of a file that cannot be read. -/
def unreadableMessage (reason : OsError) : String := s!"failed to read config file: {reason.text}"

/-- Reads a configuration from a file; the environment overrides what the file says. -/
def Configuration.ofFile (files : FileSystem) (lookup : String → Option String) (path : String) :
    Except ConfigurationFailure Configuration :=
  match files.readText path with
  | .error reason => .error (.unreadable reason)
  | .ok text =>
    match Configuration.ofText text with
    | .error failure => .error (.unusable failure)
    | .ok c => .ok (c.overridden lookup)

end CommuteSim
