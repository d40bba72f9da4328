import Colonnade.Text.Space

/-!
# Paths

A path is a text with slashes between its parts. Paths are joined as they are written: nothing is
removed from them.
-/

namespace Colonnade.Files

/-- Whether a path starts at the root. -/
def isAbsolute (path : String) : Bool := path.toList.head? = some '/'

/-- A path seen from another one. An absolute path stands for itself. -/
def join (base path : String) : String :=
  if isAbsolute path || base.isEmpty then path
  else if base.toList.getLast? = some '/' then base ++ path
  else base ++ "/" ++ path

/-- The parts of a path. What follows a slash must be a directory's, so a slash at the end counts as
a part that stands for the directory itself. -/
def parts (path : String) : List String :=
  let all := Text.piecesOf '/' path
  let named := all.filter (· ≠ "")
  if all.getLast? = some "" then named ++ ["."] else named

end Colonnade.Files
