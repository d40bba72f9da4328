/-!
# What a store can refuse
-/

namespace Colonnade

/-- Why a call to a store failed. -/
inductive StoreError where
  /-- The store was not reached. -/
  | connection (detail : String)
  /-- The store refused the statement. -/
  | execution (detail : String)
  | tableNotFound (name : String)
  /-- The answer of the store could not be read. -/
  | response (detail : String)
  /-- The statement has none of the shapes a client understands. -/
  | unsupported (client sql : String)
deriving DecidableEq, Repr

/-- The text of a failure. -/
def StoreError.message : StoreError → String
  | .connection detail => "[D001] Store connection failed: " ++ detail
  | .execution detail => "[D002] SQL execution failed: " ++ detail
  | .tableNotFound name => "[D003] Table, view or dictionary not found: " ++ name
  | .response detail => "[D004] Unexpected store response: " ++ detail
  | .unsupported client sql => "[D005] Statement not supported by " ++ client ++ " client: " ++ sql

end Colonnade
