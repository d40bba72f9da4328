import Colonnade.Statement.Error
import Colonnade.Sql.Quoted
import Colonnade.Text.Space
import Colonnade.Value

/-!
# Storage engines

The text after `ENGINE =` in a definition and, where the family allows one, the `SETTINGS` clause.
A raw configuration is accepted if the part before its first parenthesis names a type of the family,
in any case of letters; it is kept with that name in its canonical spelling.
-/

namespace Colonnade

/-- Whether a MySQL engine backs one table or a whole database. -/
inductive MySqlMode where
  | table
  | database
deriving DecidableEq, Repr, Inhabited

/-- The connection of a MySQL engine. -/
structure MySqlParams where
  mode : MySqlMode := .table
  host : Option String := none
  port : Option String := none
  database : Option String := none
  table : Option String := none
  user : Option String := none
  password : Option String := none
deriving DecidableEq, Repr, Inhabited

/-- A family of engines. -/
inductive EngineFamily where
  | kafka
  | mergeTree
  | mySql (params : MySqlParams)
deriving DecidableEq, Repr

/-- A family with the connection settings and the raw configuration given to it. -/
structure Engine where
  family : EngineFamily
  settings : List (String × Value) := []
  conf : Option String := none
deriving DecidableEq

namespace Engine

/-- A stream engine, configured by its settings. -/
def kafka : Engine := { family := .kafka }

/-- A merging engine. -/
def mergeTree : Engine := { family := .mergeTree }

/-- An external table or database. -/
def mySql (mode : MySqlMode) : Engine := { family := .mySql { mode } }

/-- The merging types besides the plain one. -/
def mergeTreeSubtypes : List String := [
  "ReplicatedMergeTree",
  "ReplicatedSummingMergeTree",
  "ReplicatedReplacingMergeTree",
  "ReplicatedAggregatingMergeTree",
  "ReplicatedCollapsingMergeTree",
  "ReplicatedVersionedCollapsingMergeTree",
  "ReplicatedGraphiteMergeTree",
  "ReplacingMergeTree",
  "SummingMergeTree",
  "AggregatingMergeTree",
  "CollapsingMergeTree",
  "VersionedCollapsingMergeTree",
  "GraphiteMergeTree"]

end Engine

namespace EngineFamily

/-- The canonical type of a family. -/
def typeName : EngineFamily → String
  | .kafka => "Kafka"
  | .mergeTree => "MergeTree"
  | .mySql _ => "MySQL"

/-- The types a family accepts besides its canonical one. -/
def subtypes : EngineFamily → List String
  | .mergeTree => Engine.mergeTreeSubtypes
  | .kafka | .mySql _ => []

/-- Every type a family accepts. -/
def typeNames (f : EngineFamily) : List String := f.typeName :: f.subtypes

/-- Whether a `SETTINGS` clause may follow. -/
def allowsSettings : EngineFamily → Bool
  | .kafka | .mergeTree => true
  | .mySql _ => false

/-- Whether two texts differ at most in the case of ASCII letters. -/
def sameLetters (a b : List Char) : Bool := a.map Char.toLower = b.map Char.toLower

/-- The canonical form of a raw configuration: a type of the family in its own spelling, then the
text from the first parenthesis on. -/
def canonicalConf? (f : EngineFamily) (raw : List Char) : Option (List Char) :=
  let trimmed := Text.trimChars raw
  let head := trimmed.takeWhile (· != '(')
  match trimmed.dropWhile (· != '(') with
  | [] => none
  | rest => (f.typeNames.find? fun name => sameLetters name.toList head).map (·.toList ++ rest)

end EngineFamily

namespace MySqlParams

/-- Whether everything that the mode needs is given. -/
def isComplete (p : MySqlParams) : Bool :=
  p.host.isSome && p.port.isSome && p.database.isSome && p.user.isSome && p.password.isSome
    && (p.mode == .database || p.table.isSome)

/-- The fields that the mode needs. -/
def neededFields : MySqlMode → String
  | .table => "host, port, database, user, password, table"
  | .database => "host, port, database, user, password"

/-- The arguments in their order; the table only where one table is backed. -/
def arguments (p : MySqlParams) : List String :=
  let table := match p.mode with
    | .table => [p.table.getD ""]
    | .database => []
  [p.host.getD "" ++ ":" ++ p.port.getD "", p.database.getD ""] ++ table
    ++ [p.user.getD "", p.password.getD ""]

/-- The text of a connection. -/
def text (p : MySqlParams) : Except StatementError String :=
  if p.isComplete then
    .ok ("MySQL(" ++ ", ".intercalate (p.arguments.map Sql.Quoted.quote) ++ ")")
  else
    .error (.configuration ("Check parameters for DSN: " ++ neededFields p.mode ++ "."))

end MySqlParams

namespace Engine

/-- Attaches a raw configuration. -/
def withConf (e : Engine) (raw : String) : Except StatementError Engine :=
  match e.family.canonicalConf? raw.toList with
  | some conf => .ok { e with conf := some (.ofList conf) }
  | none =>
    .error (.configuration ("Invalid engine type for " ++ e.family.typeName
      ++ ". Check string: " ++ raw))

/-- Replaces the connection settings; their order is kept. -/
def withSettings (e : Engine) (settings : List (String × Value)) :
    Except StatementError Engine :=
  if e.family.allowsSettings then .ok { e with settings }
  else
    .error (.configuration ("Can not use connection settings for " ++ e.family.typeName
      ++ " engine"))

/-- Changes the connection of a MySQL engine; other families have none. -/
def modifyParams? (e : Engine) (change : MySqlParams → MySqlParams) : Option Engine :=
  match e.family with
  | .mySql p => some { e with family := .mySql (change p) }
  | .kafka | .mergeTree => none

/-- The settings as they are written. -/
def settingsText (e : Engine) : String :=
  ", ".intercalate (e.settings.map fun (key, value) =>
    key ++ " = " ++ Sql.Quoted.quote value.plain)

/-- The text after `ENGINE =`. A stream engine has nothing but its name. -/
def dsn (e : Engine) : Except StatementError String :=
  match e.family, e.conf with
  | .kafka, _ => .ok "Kafka()"
  | .mergeTree, conf => .ok (conf.getD "MergeTree()")
  | .mySql _, some conf => .ok conf
  | .mySql p, none => p.text

/-- A change of an engine as data. -/
inductive Step where
  | conf (raw : String)
  | settings (settings : List (String × Value))
  | params (change : MySqlParams → MySqlParams)

/-- Makes a change. A refused change leaves the engine as it was; `none` says that the engine has no
connection to change. -/
def step (e : Engine) : Step → Option (Except StatementError Unit) × Engine
  | .conf raw =>
    match e.withConf raw with
    | .ok e' => (some (.ok ()), e')
    | .error err => (some (.error err), e)
  | .settings settings =>
    match e.withSettings settings with
    | .ok e' => (some (.ok ()), e')
    | .error err => (some (.error err), e)
  | .params change =>
    match e.modifyParams? change with
    | some e' => (some (.ok ()), e')
    | none => (none, e)

/-- Makes changes up to the first that is refused. -/
def withSteps (e : Engine) : List Step → Except (Option StatementError) Engine
  | [] => .ok e
  | s :: rest =>
    match e.step s with
    | (some (.ok ()), e') => e'.withSteps rest
    | (some (.error err), _) => .error (some err)
    | (none, _) => .error none

end Engine

end Colonnade
