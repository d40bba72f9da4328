import Colonnade.Statement.Error
import Colonnade.Sql.Quoted

/-!
# Expressions of a select list

Text templates. Sources are put in as they are; keys and list items are quoted.
-/

namespace Colonnade.Expression

/-- The precision of decimals read from JSON. -/
def decimalPrecision : UInt8 := 18

/-- A function applied to a source and a quoted key. -/
def extract (function source key : String) : String :=
  function ++ "(" ++ source ++ ", " ++ Sql.Quoted.quote key ++ ")"

/-- The string at a key. -/
def extractString : String → String → String := extract "JSONExtractString"

/-- The truth value at a key. -/
def extractBool : String → String → String := extract "JSONExtractBool"

/-- The float at a key. -/
def extractFloat : String → String → String := extract "JSONExtractFloat"

/-- The unsigned integer at a key. -/
def extractUInt : String → String → String := extract "JSONExtractUInt"

/-- The integer at a key. -/
def extractInt : String → String → String := extract "JSONExtractInt"

/-- The JSON text at a key. -/
def extractRaw : String → String → String := extract "JSONExtractRaw"

/-- The JSON text at the end of a path of keys. -/
def rawByPath (source : String) : List String → Except StatementError String
  | [] => .error .emptyKeyChain
  | path => .ok (path.foldl extractRaw source)

/-- The string at the end of a path of keys. -/
def stringByPath (source : String) (path : List String) : Except StatementError String :=
  match path.getLast? with
  | none => .error .emptyKeyChain
  | some last => .ok (extractString (path.dropLast.foldl extractRaw source) last)

/-- A time from seconds. -/
def fromUnixTime (source : String) : String := "FROM_UNIXTIME(" ++ source ++ ")"

/-- The ending of conversions that give `NULL` instead of failing. -/
def orNullEnding (orNull : Bool) : String := if orNull then "OrNull" else ""

/-- Conversion to a decimal. -/
def toDecimal128 (source : String) (precision : UInt8) (orNull : Bool) : String :=
  "toDecimal128" ++ orNullEnding orNull ++ "(" ++ source ++ "," ++ toString precision.toNat ++ ")"

/-- Conversion to an unsigned integer. -/
def toUInt64 (source : String) (orNull : Bool) : String :=
  "toUInt64" ++ orNullEnding orNull ++ "(" ++ source ++ ")"

/-- Conversion to a UUID. -/
def toUuid (source : String) (orNull : Bool) : String :=
  "toUUID" ++ orNullEnding orNull ++ "(" ++ source ++ ")"

/-- A choice. -/
def ternary (condition yes no : String) : String := condition ++ " ? " ++ yes ++ " : " ++ no

/-- A test for `NULL`. -/
def isNull (expression : String) : String := "(" ++ expression ++ ") IS NULL"

/-- A membership test. The quotes between items belong to the separator, so the list without items
is one empty literal. -/
def isIn (expression : String) (items : List String) : String :=
  expression ++ " IN ('" ++ "','".intercalate (items.map Sql.Quoted.escape) ++ "')"

/-- A conversion of the JSON text at a path, and of the string there where that gives `NULL`. -/
def safely (convert : String → String) (source : String) (path : List String) :
    Except StatementError String := do
  let raw := convert (← rawByPath source path)
  let string := convert (← stringByPath source path)
  return ternary (isNull raw) string raw

/-- The unsigned integer at a path, written as a number or as a string. -/
def uint64Safe : String → List String → Except StatementError String :=
  safely fun s => toUInt64 s true

/-- The decimal at a path, written as a number or as a string. -/
def decimal128Safe : String → List String → Except StatementError String :=
  safely fun s => toDecimal128 s decimalPrecision true

end Colonnade.Expression
