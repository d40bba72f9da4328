import Colonnade.Command.Arguments
import Colonnade.Http.Client
import Colonnade.Migration.Run
import Colonnade.Migration.SqlFile
import Colonnade.Project.Loading

/-!
# Running commands

A command loads the project, finds its migrations, and applies them, rolls them back or shows one.
Everything outside is a parameter: files, environment, network, clock and terminal.
-/

namespace Colonnade.Command

open Migration Project

/-- What commands work with. -/
structure Host (m : Type → Type) where
  files : Files.Access m
  environment : NameMap String
  network : Http.Network m
  stamp : Stamp m
  /-- Writes to the standard output. -/
  out : String → m Unit
  /-- Writes to the standard error. -/
  err : String → m Unit

/-- Why a command failed. -/
inductive CommandError where
  /-- A version to migrate to is given for the way up. -/
  | misplacedVersion
  | project (e : ConfigError)
  | migrations (directory : String) (e : MigrationError)
  | connection (e : ConfigError)
  | unknownMigration (version : String) (available : List String)
  | rendering (version : String) (e : MigrationError)
  | up (e : MigrationError)
  | down (e : MigrationError)

/-- A failure with what is behind it in one line. -/
def errorLine (context : String) (chain : List String) : String :=
  "Error: " ++ ": ".intercalate (context :: chain) ++ "\n"

/-- The text of a failure. -/
def CommandError.text : CommandError → String
  | .misplacedVersion => errorLine "option `--version` can be used after `down` argument only" []
  | .project e => errorLine "Failed to load project config" e.chain
  | .migrations directory e => errorLine ("Failed to load migrations from " ++ directory) e.chain
  | .connection e => errorLine "Failed to get connection configuration" e.chain
  | .unknownMigration version available =>
    "Migration " ++ version ++ " not found\n" ++
      (if available.isEmpty then ""
       else "Available migrations: " ++ ", ".intercalate available ++ "\n")
  | .rendering version e => errorLine ("Failed to render migration " ++ version) e.chain
  | .up e => errorLine "Migration failed" e.chain
  | .down e => errorLine "Rollback failed" e.chain

variable {m : Type → Type} [Monad m]

/-- A step with its failure as a failure of the command. -/
def failing {ε α : Type} (error : ε → CommandError) (step : ExceptT ε m α) :
    ExceptT CommandError m α :=
  ExceptT.mk do
    match ← step.run with
    | .ok a => return .ok a
    | .error e => return .error (error e)

/-- A project that has been loaded. -/
structure Loaded where
  root : String
  config : Config
  target : Option String

/-- The directory of the migrations of a project. -/
def Loaded.migrationDirectory (p : Loaded) : String := Files.join p.root p.config.migrationPath

/-- The variables of a project. -/
def Loaded.vars (p : Loaded) : NameMap Yaml.Value := p.config.variablesOf p.target

/-- Shows a line if there are to be more lines than usual. -/
def Options.tell (o : Options) (host : Host m) (line : String) : ExceptT CommandError m Unit := do
  if o.verbose then host.err ("[verbose] " ++ line ++ "\n")

/-- Loads the project. -/
def loadProject (host : Host m) (o : Options) : ExceptT CommandError m Loaded := do
  let config ← failing .project (match o.config with
    | some path => load host.files path
    | none => loadFrom host.files o.projectDirectory)
  let target := resolveTarget host.environment o.target
  o.tell host ("Loaded project '" ++ config.name ++ "' from " ++ o.projectDirectory
    ++ " (target: " ++ target.getD "default" ++ ")")
  return ⟨o.projectDirectory, config, target⟩

/-- Finds the migrations of a project. -/
def findMigrations (host : Host m) (o : Options) (p : Loaded) :
    ExceptT CommandError m (List SqlFile) := do
  let directory := p.migrationDirectory
  let found ← failing (.migrations directory) (discover host.files directory)
  o.tell host ("Found " ++ toString found.length ++ " migrations in " ++ directory)
  return found

/-- The client of the store of a project. -/
def connect (host : Host m) (o : Options) (p : Loaded) : ExceptT CommandError m (Client m) := do
  let c ← failing .connection (ExceptT.mk (pure (p.config.connect host.environment p.target)))
  o.tell host ("Connecting to " ++ c.url ++ " (database: " ++ c.database ++ ", user: " ++ c.user
    ++ ")")
  return Http.client c host.network

/-- Applies the migrations of a project or rolls them back. -/
def migrate (host : Host m) (o : Options) (direction : Option Direction)
    (version : Option String) : ExceptT CommandError m Unit := do
  let direction := direction.getD .up
  if direction = .up ∧ version.isSome then throw .misplacedVersion
  let p ← loadProject host o
  let found ← findMigrations host o p
  let client ← connect host o p
  let say (line : String) := host.out (line ++ "\n")
  let context : Context m := ⟨client, say, pure host.environment⟩
  found.forM fun f => o.tell host ("Registered migration " ++ f.version)
  let migrations : NameMap (Body m) :=
    .ofList (found.map fun f => (f.version, f.body host.files p.vars context))
  let ledger := Ledger.ofClient client host.stamp
  match direction with
  | .up => failing .up (runUp ledger say migrations)
  | .down => failing .down (runDown ledger say migrations version)

/-- Shows one way of a migration. -/
def render (host : Host m) (o : Options) (version : String) (down : Bool) :
    ExceptT CommandError m Unit := do
  let p ← loadProject host o
  let found ← findMigrations host o p
  match found.find? fun f => f.version = version with
  | none => throw (.unknownMigration version (found.map (·.version)))
  | some f =>
    let environment := pure host.environment
    let sql ← failing (.rendering version)
      (if down then f.renderDown host.files p.vars environment
       else f.renderUp host.files p.vars environment)
    host.out (Text.trimEnd sql ++ "\n")

/-- Does a task. -/
def perform (host : Host m) (o : Options) : Task → ExceptT CommandError m Unit
  | .migrate direction version => migrate host o direction version
  | .render version down => render host o version down

/-! ## The program -/

/-- The name and the version of the program. -/
def versionLine : String := "cf 0.1.0\n"

/-- How the program is used. -/
def usage : String :=
  "Usage: cf [OPTIONS] <COMMAND>\n\nCommands:\n"
    ++ "  migrate [up|down] [--version <VERSION>]\n  render <VERSION> [--down]\n\nOptions:\n"
    ++ "  -v, --verbose\n  -p, --project-dir <PROJECT_DIR>\n  -c, --config <CONFIG>\n"
    ++ "  -t, --target <TARGET>\n  -h, --help\n  -V, --version\n"

/-- Runs the program with its arguments; the exit code. -/
def run (host : Host m) (args : List String) : m Nat := do
  match readArguments args with
  | .error .version => host.out versionLine; return 0
  | .error .help => host.out usage; return 0
  | .error .misuse => host.err usage; return 2
  | .ok (task, options) =>
    match ← (perform host options task).run with
    | .ok () => return 0
    | .error e => host.err e.text; return 1

end Colonnade.Command
