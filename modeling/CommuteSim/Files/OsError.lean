/-!
# Failures of file operations
-/

namespace CommuteSim

/-- Why the system refused a file operation. -/
inductive OsError where
  | notFound
  | busy
  | alreadyExists
  | notDirectory
  | isDirectory
  | invalid
  | nameTooLong
  | notEmpty
  /-- The path holds a character that no path can hold. -/
  | nulInPath
  /-- A text was wanted from bytes that are none. -/
  | notText
  deriving DecidableEq, Repr

/-- The text of a failure. -/
def OsError.text : OsError → String
  | notFound => "No such file or directory (os error 2)"
  | busy => "Device or resource busy (os error 16)"
  | alreadyExists => "File exists (os error 17)"
  | notDirectory => "Not a directory (os error 20)"
  | isDirectory => "Is a directory (os error 21)"
  | invalid => "Invalid argument (os error 22)"
  | nameTooLong => "File name too long (os error 36)"
  | notEmpty => "Directory not empty (os error 39)"
  | nulInPath => "file name contained an unexpected NUL byte"
  | notText => "stream did not contain valid UTF-8"

end CommuteSim
