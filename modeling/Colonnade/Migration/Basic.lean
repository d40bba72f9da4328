import Colonnade.Migration.Parameters
import Colonnade.Statement.Execution

/-!
# Migrations

A migration changes a store and can take the change back. Both ways tell whether they are done; a
way that fails, or tells that it is not done, leaves the ledger as it is.
-/

namespace Colonnade.Migration

/-- What a migration works with. -/
structure Context (m : Type → Type) where
  client : Client m
  /-- Shows a line. -/
  say : (line : String) → m Unit
  /-- The environment at the time of asking. -/
  environment : m (NameMap String)

variable {m : Type → Type} [Monad m]

namespace Context

/-- Runs a statement given as text. -/
def runSql (c : Context m) (sql : String) : ExceptT MigrationError m Unit :=
  MigrationError.ofStore (c.client.write sql)

/-- Renders a statement and runs it. -/
def execute (c : Context m) (s : Statement) : ExceptT MigrationError m Execution :=
  MigrationError.ofStatement (s.execute c.client)

/-- Whether the store knows how an object was created. -/
def tableExists (c : Context m) (name : String) : ExceptT MigrationError m Bool := do
  return !(← MigrationError.ofStore (c.client.showCreate name)).isEmpty

/-- The values of declared parameters. -/
def parameters (c : Context m) (declared : List Parameter) :
    ExceptT MigrationError m Parameters := do
  match Parameters.resolve declared (← c.environment) with
  | .ok p => return p
  | .error fault => throw (.parameters fault)

end Context

/-- The two ways of a migration. Each tells whether it is done. -/
structure Body (m : Type → Type) where
  up : ExceptT MigrationError m Bool
  down : ExceptT MigrationError m Bool

end Colonnade.Migration
