import Colonnade.Statement.Rendering
import Colonnade.Store.Client

/-!
# Executing a statement

Definitions and deletions are written, an insert goes through the batch call of the client, a select
is run with its bindings. A statement that does not render reaches no client.
-/

namespace Colonnade

/-- What executing a statement gave. -/
inductive Execution where
  | written
  | inserted
  | selected (result : SelectResult)

/-- The rows of a select; nothing for other statements. -/
def Execution.result? : Execution → Option SelectResult
  | .selected result => some result
  | .written | .inserted => none

/-- A call to the store with its failure as a failure of a statement. -/
def StatementError.ofStore {m : Type → Type} [Monad m] {α : Type}
    (call : ExceptT StoreError m α) : ExceptT StatementError m α :=
  ExceptT.mk do
    match ← call.run with
    | .ok a => return .ok a
    | .error e => return .error (.store e)

namespace Statement

/-- Renders a statement and runs it. -/
def execute {m : Type → Type} [Monad m] (client : Client m) (s : Statement) :
    ExceptT StatementError m Execution :=
  match s.render with
  | .error e => throw e
  | .ok sql =>
    match s.kind with
    | .insert => do
      StatementError.ofStore (client.insert s.target [s.row.map (·.2)] (s.row.map (·.1)))
      return .inserted
    | .select => return .selected (← StatementError.ofStore (client.select sql s.bindings))
    | _ => do
      StatementError.ofStore (client.write sql)
      return .written

end Statement

end Colonnade
