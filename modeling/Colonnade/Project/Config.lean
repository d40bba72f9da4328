import Colonnade.NameMap
import Colonnade.Project.Error
import Colonnade.Text.Cut
import Colonnade.Text.Space
import Colonnade.Yaml.Value

/-!
# Projects

A project has a name, a directory of migrations, a connection to its store and variables for its
templates. A target replaces the connection and overwrites variables.
-/

namespace Colonnade.Project

/-- How a store is reached. -/
structure Connection where
  url : String := "http://localhost:8123"
  database : String := "default"
  user : String := "default"
  password : String := ""
deriving DecidableEq, Repr

/-- What a target changes. -/
structure Target where
  connection : Option Connection := none
  vars : NameMap Yaml.Value := .empty

/-- A project. -/
structure Config where
  name : String
  migrationPath : String := "migrations"
  connection : Connection := {}
  vars : NameMap Yaml.Value := .empty
  targets : NameMap Target := .empty

/-- The environment variable that replaces the password. -/
def passwordVariable : String := "CF_PASSWORD"

/-- The environment variable that selects a target if none is given. -/
def targetVariable : String := "CF_TARGET"

/-- The target that is meant: the one given, or else the one of the environment. -/
def resolveTarget (environment : NameMap String) (given : Option String) : Option String :=
  given <|> environment.get? targetVariable

namespace Config

/-- The connections that a configuration may use, the main one first. -/
def connections (c : Config) : List Connection :=
  c.connection :: c.targets.values.filterMap (·.connection)

/-- Whether the address of a store has a known scheme. -/
def isStoreUrl (url : String) : Bool :=
  Text.startsWith "http://" url || Text.startsWith "https://" url

/-- The first thing that is wrong with a configuration. -/
def fault? (c : Config) : Option Fault :=
  if (Text.trim c.name).isEmpty then some .emptyName
  else if (Text.trim c.migrationPath).isEmpty then some .emptyMigrationPath
  else (c.connections.find? fun x => !isStoreUrl x.url).map fun x => .badUrl x.url

/-- The connection of a target, or the main one. -/
def connectionOf (c : Config) (target : Option String) : Except ConfigError Connection :=
  match target with
  | none => .ok c.connection
  | some name =>
    match c.targets.get? name with
    | some t => .ok (t.connection.getD c.connection)
    | none => .error (.invalid (.unknownTarget name c.targets.names))

/-- The connection of a target with the password of the environment, if it has one. -/
def connect (c : Config) (environment : NameMap String) (target : Option String) :
    Except ConfigError Connection := do
  let connection ← c.connectionOf target
  return { connection with
    password := (environment.get? passwordVariable).getD connection.password }

/-- The variables under a target. A target that does not exist changes none. -/
def variablesOf (c : Config) (target : Option String) : NameMap Yaml.Value :=
  match target.bind c.targets.get? with
  | some t => c.vars.overwriteWith t.vars
  | none => c.vars

end Config

end Colonnade.Project
