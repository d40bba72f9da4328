import Colonnade.Store.Error

/-!
# What can go wrong with a statement
-/

namespace Colonnade

/-- Why a statement was not rendered or not executed. -/
inductive StatementError where
  | configuration (detail : String)
  | emptyKeyChain
  | store (e : StoreError)
deriving DecidableEq, Repr

/-- The text of a failure. -/
def StatementError.message : StatementError → String
  | .configuration detail => "[S001] Configuration error: " ++ detail
  | .emptyKeyChain => "[S002] Key chain must be a non-empty list of keys"
  | .store e => "[S003] Statement execution failed: " ++ e.message

end Colonnade
