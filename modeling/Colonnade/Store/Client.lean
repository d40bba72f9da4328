import Colonnade.Store.Error
import Colonnade.Store.Result

/-!
# Clients of a store

Everything that is asked of a store goes through a client. The effects of a client are those of the
monad it runs in: a state for a store in memory, input and output for one behind a network.
-/

namespace Colonnade

/-- A client of a store. -/
structure Client (m : Type → Type) where
  /-- Executes a statement that returns no rows. -/
  write : (sql : String) → ExceptT StoreError m Unit
  /-- Executes a query with its placeholders bound. -/
  select : (sql : String) → (params : Params) → ExceptT StoreError m SelectResult
  /-- Appends rows to a table; each row lists its cells in the order of the columns. -/
  insert : (table : String) → (rows : List (List Value)) → (columns : List String) →
    ExceptT StoreError m Unit
  /-- The statement that created an object, or the empty text if there is none. -/
  showCreate : (name : String) → ExceptT StoreError m String
  /-- The names of all objects, ascending. -/
  showTables : ExceptT StoreError m (List String)
  /-- What sort of client this is. -/
  kind : String

namespace Client

/-- A call as data. -/
inductive Call where
  | write (sql : String)
  | select (sql : String) (params : Params)
  | insert (table : String) (rows : List (List Value)) (columns : List String)
  | showCreate (name : String)
  | showTables
  | kind

/-- What a successful call answers. -/
inductive Answer where
  | done
  | result (r : SelectResult)
  | text (s : String)
  | names (l : List String)

/-- Makes a call. -/
def call {m : Type → Type} [Monad m] (client : Client m) : Call → ExceptT StoreError m Answer
  | .write sql => do client.write sql; return .done
  | .select sql params => return .result (← client.select sql params)
  | .insert table rows columns => do client.insert table rows columns; return .done
  | .showCreate name => return .text (← client.showCreate name)
  | .showTables => return .names (← client.showTables)
  | .kind => return .text client.kind

end Client

end Colonnade
