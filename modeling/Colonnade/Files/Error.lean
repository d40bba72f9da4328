/-!
# What a file system can refuse
-/

namespace Colonnade.Files

/-- Why a file or a directory was not read. -/
inductive FileError where
  | missing
  /-- Something on the way is no directory. -/
  | notDirectory
  | isDirectory
  /-- The bytes of the file are no text. -/
  | notText
  | other (detail : String)
deriving DecidableEq, Repr

/-- The text of a failure, with the number that the system gives it. -/
def FileError.message : FileError → String
  | .missing => "No such file or directory (os error 2)"
  | .notDirectory => "Not a directory (os error 20)"
  | .isDirectory => "Is a directory (os error 21)"
  | .notText => "stream did not contain valid UTF-8"
  | .other detail => detail

end Colonnade.Files
