import Colonnade.Files.Access
import Colonnade.Files.Path

/-!
# A file system in memory

Directories and files under their full paths. Relative paths start at a working directory.
-/

namespace Colonnade.Files

/-- What has a path. -/
inductive Inode where
  | directory
  | file (bytes : ByteArray)

/-- A file system. Every directory on the way to a file is an inode of its own. -/
structure Tree where
  /-- The parts of the working directory. -/
  workingDirectory : List String := []
  inodes : List (List String × Inode) := []

namespace Tree

/-- The inode of a path in parts. The root is a directory. -/
def inode? (t : Tree) (path : List String) : Option Inode :=
  if path.isEmpty then some .directory else t.inodes.lookup path

/-- The tree with an inode at a path. -/
def set (t : Tree) (path : List String) (i : Inode) : Tree :=
  { t with inodes := (path, i) :: t.inodes.filter fun e => e.1 ≠ path }

/-- The tree with a directory at a path and on the way to it. -/
def makeDirectory (t : Tree) (path : List String) : Tree :=
  (List.range path.length).foldl (fun t n =>
    let p := path.take (n + 1)
    if (t.inode? p).isSome then t else t.set p .directory) t

/-- The tree with a file at a path and directories on the way to it. -/
def put (t : Tree) (path : List String) (bytes : ByteArray) : Tree :=
  (t.makeDirectory path.dropLast).set path (.file bytes)

/-- The tree without what is at a path. -/
def remove (t : Tree) (path : List String) : Tree :=
  { t with inodes := t.inodes.filter fun e => e.1 ≠ path }

/-- Walks from a directory along the parts of a path. -/
def walk (t : Tree) (here : List String) : List String → Except FileError (List String × Inode)
  | [] =>
    match t.inode? here with
    | some i => .ok (here, i)
    | none => .error .missing
  | part :: rest =>
    match t.inode? here with
    | none => .error .missing
    | some (.file _) => .error .notDirectory
    | some .directory =>
      if part = "." then t.walk here rest
      else if part = ".." then t.walk here.dropLast rest
      else t.walk (here ++ [part]) rest

/-- What has a path. -/
def resolve (t : Tree) (path : String) : Except FileError (List String × Inode) :=
  if path.isEmpty then .error .missing
  else t.walk (if isAbsolute path then [] else t.workingDirectory) (parts path)

/-- The text of a file. -/
def read (t : Tree) (path : String) : Except FileError String := do
  match ← t.resolve path with
  | (_, .directory) => throw .isDirectory
  | (_, .file bytes) =>
    match String.fromUTF8? bytes with
    | some text => return text
    | none => throw .notText

/-- The name of an inode in a directory. -/
def nameIn? (directory : List String) : List String → Option String
  | [] => none
  | [name] => if directory.isEmpty then some name else none
  | part :: rest =>
    match directory with
    | [] => none
    | d :: ds => if d = part then nameIn? ds rest else none

/-- What a directory holds. -/
def list (t : Tree) (path : String) : Except FileError (List DirectoryEntry) := do
  match ← t.resolve path with
  | (_, .file _) => throw .notDirectory
  | (here, .directory) =>
    return t.inodes.filterMap fun (path, i) =>
      (nameIn? here path).map fun name =>
        ⟨name, match i with
          | .file _ => true
          | .directory => false⟩

/-- Access to a tree that is part of a state. -/
def access {m : Type → Type} [Monad m] (tree : m Tree) : Access m where
  reaches path := return ((← tree).resolve path).isOk
  read path := ExceptT.mk do return (← tree).read path
  list path := ExceptT.mk do return (← tree).list path

end Tree

end Colonnade.Files
