import Colonnade.Http.Request
import Colonnade.Json.Data
import Colonnade.Store.Error
import Colonnade.Store.Result
import Colonnade.Text.Space
import Colonnade.Text.Utf8

/-!
# Answers of a store

A status other than success comes with the text of an error. The rows of a query come as one object:
what the columns are, the rows, how many there are, and how many there would be without a limit.
-/

namespace Colonnade.Http

/-- The text of an answer. -/
def Response.text (r : Response) : String := Text.Utf8.decode r.body

/-- Whether an answer is one of success. -/
def Response.isSuccess (r : Response) : Bool := 200 ≤ r.status && r.status < 300

/-- The error of a store from its text. -/
def errorOf (body sql : String) : StoreError :=
  let message := Text.trim body
  if Text.startsWith "Code: 60." message
      || Text.occursIn "(UNKNOWN_TABLE)".toList message.toList then
    .tableNotFound message
  else .execution (message ++ ": " ++ sql)

/-! ## Rows -/

/-- A column. Its name is all that must be given. -/
def columnName? (t : Json.Tree) : Option String := do
  match (← t.fields? ["name"]).values with
  | [name] => (← name).string?
  | _ => none

/-- The names of columns. -/
def columnNames? : Json.Tree → Option (List String)
  | .array items => items.mapM columnName?
  | _ => none

/-- The depth that is left for the cells of a row: the answer, the list of rows and the row itself
are around them. -/
def cellDepth : Nat := Json.maxDepth - 3

/-- A row. -/
def row? : Json.Tree → Option Row
  | .object members => do
    let cells ← Json.decodeMembers? cellDepth members
    return .ofList (cells.map fun (name, d) => (name, d.toValue))
  | _ => none

/-- Rows. -/
def rows? : Json.Tree → Option (List Row)
  | .array items => items.mapM row?
  | _ => none

/-- A number of rows, which may be null. -/
def count? : Json.Tree → Option (Option Nat)
  | .null => some none
  | t => t.uint64?.map some

/-- The result of a query. The total is the number of rows without a limit, or else the number that
is given, or else that of the rows. An answer written as a list needs all its parts. -/
def resultOf? (text : String) : Option SelectResult := do
  let fields ← (← Json.parse? text).fields? ["meta", "data", "rows", "rows_before_limit_at_least"]
  if fields.positional && fields.values.any (·.isNone) then none
  match fields.values with
  | [columns, data, count, unlimited] =>
    let _ ← Json.orDefault [] columnNames? columns
    let rows ← rows? (← data)
    let count ← Json.orDefault none count? count
    let unlimited ← Json.orDefault none count? unlimited
    return ⟨rows, ((unlimited <|> count).getD rows.length)⟩
  | _ => none

end Colonnade.Http
