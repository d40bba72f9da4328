import Colonnade.Store.Error

/-!
# What can go wrong with a report
-/

namespace Colonnade.Report

/-- Why a report was not answered. -/
inductive ReportError where
  | unknownReport (name : String)
  /-- The request does not decode, or asks for a page beyond all numbers. -/
  | invalidRequest (detail : String)
  /-- A report refused the filters it was given. -/
  | filter (detail : String)
  | store (e : StoreError)
deriving DecidableEq, Repr

/-- The text of a failure. -/
def ReportError.message : ReportError → String
  | .unknownReport name => "[R001] Report type `" ++ name ++ "` is not found."
  | .invalidRequest detail => "[R002] Invalid report request: " ++ detail
  | .filter detail => "[R003] " ++ detail
  | .store e => "[R004] " ++ e.message

end Colonnade.Report
