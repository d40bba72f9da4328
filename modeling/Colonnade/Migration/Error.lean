import Colonnade.Files.Error
import Colonnade.Statement.Error
import Colonnade.Template.Error

/-!
# What can go wrong with a migration
-/

namespace Colonnade.Migration

/-- What is wrong with the parameters of a migration. -/
inductive ParameterFault where
  /-- A parameter without a default is set to the empty text. -/
  | empty (name : String)
  /-- A parameter without a default is not set. -/
  | undefined (name : String)
  /-- A parameter is asked for that the migration does not declare. -/
  | undeclared (name : String)
  /-- The migration itself does not accept its parameters. -/
  | rejected (reason : String)
deriving DecidableEq, Repr

/-- The text of a fault. -/
def ParameterFault.message : ParameterFault → String
  | .empty name => "Required parameter `" ++ name ++ "` cannot be empty!"
  | .undefined name => "Required parameter `" ++ name ++ "` is undefined in the environment!"
  | .undeclared name => "Parameter `" ++ name ++ "` is not declared by this migration"
  | .rejected reason => reason

/-- Why there is no ledger to work with. -/
inductive LedgerFault where
  | store (e : StoreError)
  | statement (e : StatementError)
  /-- The store knows no ledger after it has been created. -/
  | missing
deriving DecidableEq, Repr

/-- The text of a fault. -/
def LedgerFault.message : LedgerFault → String
  | .store e => e.message
  | .statement e => e.message
  | .missing => "table is missing after creation"

/-- Why migrating stopped. -/
inductive MigrationError where
  | ledger (fault : LedgerFault)
  /-- A migration failed for a reason. -/
  | execution (version reason : String)
  /-- The version to roll back to is not registered or not applied. -/
  | rollbackTarget (version : String)
  | parameters (fault : ParameterFault)
  | template (e : Template.RenderError)
  | file (path : String) (e : Files.FileError)
  /-- A migration has no way down. -/
  | irreversible (version : String)
  | statement (e : StatementError)
  | store (e : StoreError)
deriving DecidableEq, Repr

namespace MigrationError

/-- The text of a failure. -/
def message : MigrationError → String
  | .ledger fault => "[M001] Can not create `migrations` table: " ++ fault.message
  | .execution version reason => "[M002] Migration " ++ version ++ " failed: " ++ reason
  | .rollbackTarget version => "[M003] Cannot rollback to version: " ++ version
  | .parameters fault => "[M004] " ++ fault.message
  | .template e => "[M005] " ++ e.message
  | .file path e => "[M006] IO error at " ++ path ++ ": " ++ e.message
  | .irreversible version =>
    "[M007] Migration " ++ version ++ " cannot be rolled back: no down script"
  | .statement e => "[M008] " ++ e.message
  | .store e => "[M009] " ++ e.message

/-- The texts of a failure and of what is behind it, the outermost first. -/
def chain : MigrationError → List String
  | .template e => [message (.template e), e.message]
  | .file path e => [message (.file path e), e.message]
  | .statement (.store e) =>
    [message (.statement (.store e)), (StatementError.store e).message, e.message]
  | .statement e => [message (.statement e), e.message]
  | .store e => [message (.store e), e.message]
  | e => [e.message]

/-- A failure under the version that it happened in, unless it names one. -/
def within (version : String) : MigrationError → MigrationError
  | .execution v reason => .execution v reason
  | e => .execution version e.message

/-- A call to the store with its failure as a failure to migrate. -/
def ofStore {m : Type → Type} [Monad m] {α : Type} (call : ExceptT StoreError m α) :
    ExceptT MigrationError m α :=
  ExceptT.mk do
    match ← call.run with
    | .ok a => return .ok a
    | .error e => return .error (.store e)

/-- A statement with its failure as a failure to migrate. -/
def ofStatement {m : Type → Type} [Monad m] {α : Type} (call : ExceptT StatementError m α) :
    ExceptT MigrationError m α :=
  ExceptT.mk do
    match ← call.run with
    | .ok a => return .ok a
    | .error e => return .error (.statement e)

end MigrationError

end Colonnade.Migration
