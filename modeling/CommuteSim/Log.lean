/-!
# Lines of the log
-/

namespace CommuteSim

/-- How much a line of the log matters. -/
inductive LogLevel where
  | info
  | warning
  | error
  deriving DecidableEq, Repr

def LogLevel.name : LogLevel → String
  | info => "INFO"
  | warning => "WARN"
  | error => "ERROR"

/-- A line of the log. -/
structure LogLine where
  level : LogLevel
  message : String
  deriving DecidableEq, Repr

/-- A line as it is printed. -/
def LogLine.text (l : LogLine) : String := s!"{l.level.name} {l.message}"

end CommuteSim
