import Colonnade.Files.Access
import Colonnade.Files.Path
import Colonnade.Migration.Basic
import Colonnade.Sql.Script
import Colonnade.Template.Rendering
import Colonnade.Text.Cut

/-!
# Migrations from files

A file `<version>.up.sql` holds the way up of a version and `<version>.down.sql` the way down. Both
are templates; they are rendered when they are needed and their statements are run in order.
-/

namespace Colonnade.Migration

/-- The ending of files with a way up. -/
def upEnding : String := ".up.sql"

/-- The ending of files with a way down. -/
def downEnding : String := ".down.sql"

/-- A migration in files. -/
structure SqlFile where
  version : String
  directory : String
  /-- The name of the file with the way up. -/
  up : String
  /-- The name of the file with the way down. -/
  down : Option String
deriving DecidableEq, Repr

/-- The files with an ending, by what stands before it. -/
def filesEnding (ending : String) (names : List String) : NameMap String :=
  .ofList (names.filterMap fun name =>
    (Text.dropEnd? ending name).map fun version => (version, name))

/-- The migrations among the files of a directory, in ascending order of their versions. A way down
without a way up counts for nothing. -/
def migrationsAmong (directory : String) (names : List String) : List SqlFile :=
  let downs := filesEnding downEnding names
  (filesEnding upEnding names).entries.map fun (version, up) =>
    ⟨version, directory, up, downs.get? version⟩

variable {m : Type → Type} [Monad m]

/-- The migrations of a directory. -/
def discover (files : Files.Access m) (directory : String) :
    ExceptT MigrationError m (List SqlFile) :=
  ExceptT.mk do
    match ← (files.list directory).run with
    | .error e => return .error (.file directory e)
    | .ok entries =>
      return .ok (migrationsAmong directory ((entries.filter (·.isFile)).map (·.name)))

namespace SqlFile

/-- The text of a file. -/
def text (files : Files.Access m) (path : String) : ExceptT MigrationError m String :=
  ExceptT.mk do
    match ← (files.read path).run with
    | .ok text => return .ok text
    | .error e => return .error (.file path e)

/-- A rendered file of a migration. -/
def renderFile (f : SqlFile) (files : Files.Access m) (vars : NameMap Yaml.Value)
    (environment : m (NameMap String)) (name : String) : ExceptT MigrationError m String := do
  let template ← text files (Files.join f.directory name)
  match Template.renderText vars (← environment) name template with
  | .ok sql => return sql
  | .error e => throw (.template e)

/-- The rendered way up. -/
def renderUp (f : SqlFile) (files : Files.Access m) (vars : NameMap Yaml.Value)
    (environment : m (NameMap String)) : ExceptT MigrationError m String :=
  f.renderFile files vars environment f.up

/-- The rendered way down. -/
def renderDown (f : SqlFile) (files : Files.Access m) (vars : NameMap Yaml.Value)
    (environment : m (NameMap String)) : ExceptT MigrationError m String :=
  match f.down with
  | some name => f.renderFile files vars environment name
  | none => throw (.irreversible f.version)

/-- Runs the statements of a script in order. -/
def runScript (c : Context m) (script : String) : ExceptT MigrationError m Bool := do
  (Sql.Script.split script).forM c.runSql
  return true

/-- The body of a migration in files. -/
def body (f : SqlFile) (files : Files.Access m) (vars : NameMap Yaml.Value) (c : Context m) :
    Body m where
  up := do runScript c (← f.renderUp files vars c.environment)
  down := do runScript c (← f.renderDown files vars c.environment)

end SqlFile

end Colonnade.Migration
