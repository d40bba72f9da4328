import Colonnade.Files.Error

/-!
# Reading files

What the library asks of a file system. The effects are those of the monad it runs in.
-/

namespace Colonnade.Files

/-- A name in a directory. Names that are no text are not listed. -/
structure DirectoryEntry where
  name : String
  /-- Whether a regular file has the name. -/
  isFile : Bool
deriving DecidableEq, Repr

/-- Access to files. -/
structure Access (m : Type → Type) where
  /-- Whether something has a path. -/
  reaches : (path : String) → m Bool
  /-- The text of a file. -/
  read : (path : String) → ExceptT FileError m String
  /-- What a directory holds, in any order. -/
  list : (path : String) → ExceptT FileError m (List DirectoryEntry)

end Colonnade.Files
