import Colonnade.Migration.Basic
import Colonnade.Sql.Quoted

/-!
# The ledger

The table of applied versions: one row for each, with an identifier and the time of its application.
Every question reads the table anew.
-/

namespace Colonnade.Migration

/-- What is known of applied versions. -/
structure Ledger (m : Type → Type) where
  /-- Makes sure that there is a ledger. -/
  ensureReady : ExceptT MigrationError m Unit
  isApplied : (version : String) → ExceptT MigrationError m Bool
  /-- Records a version as applied now. -/
  record : (version : String) → ExceptT MigrationError m Unit
  remove : (version : String) → ExceptT MigrationError m Unit
  /-- The version applied last; of versions applied at the same time the greatest. -/
  lastVersion : ExceptT MigrationError m (Option String)

/-- What a row of the ledger takes from outside. -/
structure Stamp (m : Type → Type) where
  /-- An identifier that was never given before. -/
  identifier : m String
  /-- The time in seconds. -/
  now : m Int64

/-- The name of the ledger. -/
def ledgerTable : String := "migrations"

/-! ## Statements about the ledger -/

/-- The statement that creates the ledger. -/
def creation : Statement :=
  .ofSteps [
    .createTable ledgerTable { ifNotExists := true }, .addColumn "uuid" .uuid .none,
    .addColumn "timestamp" (.signed 64) .none, .addColumn "version" .string .none,
    .engine .mergeTree, .order "timestamp"]

/-- The statement that finds a version. -/
def lookup (version : String) : Statement :=
  .ofSteps [
    .selectAll, .source ledgerTable, .predicate "version=:version", .limit 1,
    .bindings (.ofList [("version", .string version)])]

/-- The statement that records a version. -/
def recording (identifier : String) (now : Int64) (version : String) : Statement :=
  .ofSteps [.insert ledgerTable
    [("uuid", .string identifier), ("timestamp", .int now), ("version", .string version)]]

/-- The statement that removes a version. -/
def removal (version : String) : Statement :=
  .ofSteps [.delete ledgerTable, .predicate ("version=" ++ Sql.Quoted.quote version)]

/-- The statement that finds the version applied last. -/
def latest : Statement :=
  .ofSteps [
    .select [("version", "version")], .source ledgerTable,
    .order "timestamp DESC, version DESC", .limit 1]

namespace Ledger

variable {m : Type → Type} [Monad m]

/-- A failure of a step that makes the ledger ready. -/
def readying {ε α : Type} (fault : ε → LedgerFault) (call : ExceptT ε m α) :
    ExceptT MigrationError m α :=
  ExceptT.mk do
    match ← call.run with
    | .ok a => return .ok a
    | .error e => return .error (.ledger (fault e))

/-- The rows that a statement selects. -/
def rows (client : Client m) (s : Statement) : ExceptT MigrationError m SelectResult := do
  return (← MigrationError.ofStatement (s.execute client)).result?.getD .empty

/-- Makes sure that a store has a ledger. It is created if it is not among the tables, and must be
known after that. -/
def makeReady (client : Client m) : ExceptT MigrationError m Unit := do
  let tables ← readying .store client.showTables
  if tables.contains ledgerTable then return ()
  let _ ← readying .statement (creation.execute client)
  if (← readying .store (client.showCreate ledgerTable)).isEmpty then throw (.ledger .missing)

/-- The ledger in a store. -/
def ofClient (client : Client m) (stamp : Stamp m) : Ledger m where
  ensureReady := makeReady client
  isApplied version := return !(← rows client (lookup version)).isEmpty
  record version := do
    let identifier ← stamp.identifier
    let now ← stamp.now
    let _ ← MigrationError.ofStatement ((recording identifier now version).execute client)
  remove version := do
    let _ ← MigrationError.ofStatement ((removal version).execute client)
  lastVersion := return ((← rows client latest).first? "version").bind Value.asString?

end Ledger

end Colonnade.Migration
