/-!
# What can go wrong with a template
-/

namespace Colonnade.Template

/-- Why a template was not rendered. -/
inductive Cause where
  /-- An environment variable without a default is not set. -/
  | environment (name : String)
  /-- A project variable without a default is not defined. -/
  | variable (name : String)
  /-- The text is no template. -/
  | malformed (detail : String)
  /-- Something undefined is printed, iterated, asked for a part, or tested. -/
  | undefined
  /-- A filter, a test or a function is not known. -/
  | unknown (what name : String)
  /-- An operation does not apply to its operands. -/
  | operation (detail : String)
deriving DecidableEq, Repr

/-- The text of a cause. -/
def Cause.message : Cause → String
  | .environment name =>
    "invalid operation: Environment variable '" ++ name ++ "' is not set and no default provided"
  | .variable name =>
    "undefined value: Variable '" ++ name ++ "' is not defined and no default provided"
  | .malformed detail => "syntax error: " ++ detail
  | .undefined => "undefined value"
  | .unknown what name => "unknown " ++ what ++ ": " ++ what ++ " " ++ name ++ " is unknown"
  | .operation detail => "invalid operation: " ++ detail

/-- A cause and the line of the template where it arose. -/
structure Failure where
  line : Nat
  cause : Cause
deriving DecidableEq, Repr

/-- The failure of a template of a name. -/
structure RenderError where
  template : String
  failure : Failure
deriving DecidableEq, Repr

/-- The text of a failure. -/
def RenderError.message (e : RenderError) : String :=
  "[J001] Jinja render error in " ++ e.template ++ ": " ++ e.failure.cause.message
    ++ " (in " ++ e.template ++ ":" ++ toString e.failure.line ++ ")"

end Colonnade.Template
