import Colonnade.Json.Data

/-!
# Filter fields

What a user asks of one column. A field that is left out is empty, and an empty field asks nothing.
-/

namespace Colonnade.Report

/-- The filter of one column. -/
structure FilterField where
  id : String := ""
  value : String := ""
  values : List String := []
  greatOrEqual : String := ""
  great : String := ""
  lessOrEqual : String := ""
  less : String := ""
  equal : String := ""
  notEqual : String := ""
deriving DecidableEq, Repr, Inhabited

namespace FilterField

/-- Whether the field asks anything; the identifier alone does not. -/
def isActive (f : FilterField) : Bool :=
  f.value ≠ "" || f.values ≠ [] || f.greatOrEqual ≠ "" || f.great ≠ "" || f.lessOrEqual ≠ ""
    || f.less ≠ "" || f.equal ≠ "" || f.notEqual ≠ ""

/-- Whether there is a field and it asks something. -/
def isGiven : Option FilterField → Bool
  | some f => f.isActive
  | none => false

/-- The names of the fields in a request, in their order. -/
def fieldNames : List String :=
  ["id", "value", "values", "greatOrEqual", "great", "lessOrEqual", "less", "equal", "notEqual"]

/-- A text field of a request, empty if left out. -/
def readText : Option Json.Tree → Option String := Json.orDefault "" Json.Tree.string?

/-- Reads a field of a request. -/
def ofJson? (t : Json.Tree) : Option FilterField := do
  match (← t.fields? fieldNames).values with
  | [id, value, values, greatOrEqual, great, lessOrEqual, less, equal, notEqual] =>
    return {
      id := ← readText id
      value := ← readText value
      values := ← Json.orDefault [] Json.Tree.strings? values
      greatOrEqual := ← readText greatOrEqual
      great := ← readText great
      lessOrEqual := ← readText lessOrEqual
      less := ← readText less
      equal := ← readText equal
      notEqual := ← readText notEqual }
  | _ => none

/-- The field as it stands in a request. -/
def toJson (f : FilterField) : Json.Data :=
  .object [
    ("id", .string f.id),
    ("value", .string f.value),
    ("values", .array (f.values.map .string)),
    ("greatOrEqual", .string f.greatOrEqual),
    ("great", .string f.great),
    ("lessOrEqual", .string f.lessOrEqual),
    ("less", .string f.less),
    ("equal", .string f.equal),
    ("notEqual", .string f.notEqual)]

end FilterField

end Colonnade.Report
