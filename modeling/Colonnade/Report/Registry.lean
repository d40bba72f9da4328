import Colonnade.Report.Columns
import Colonnade.Report.Query
import Colonnade.Store.Client

/-!
# Reports

A report has a name, columns, and a way to build its query for a request. A registry finds reports
by name, and running one selects its rows and shows the requested columns.
-/

namespace Colonnade.Report

/-- A report. -/
structure Definition where
  name : String
  columns : Columns
  /-- The query for a request, or the reason why there is none. -/
  prepare : Request → Except ReportError Query

/-- Reports by name. -/
abbrev Registry := NameMap Definition

namespace Registry

/-- Adds a report; one registered before under its name is replaced. -/
def register (r : Registry) (d : Definition) : Registry := r.insert d.name d

/-- The report of a name. -/
def find (r : Registry) (name : String) : Except ReportError Definition :=
  match r.get? name with
  | some d => .ok d
  | none => .error (.unknownReport name)

end Registry

/-- A row of the answer: the texts of its shown cells by column. -/
structure ResponseItem where
  id : String
  attributes : NameMap String

/-- The answer of a report. -/
structure Response where
  data : List ResponseItem
  /-- How many rows there are over all pages. -/
  total : Nat

/-- The row as it is written. -/
def ResponseItem.toJson (item : ResponseItem) : Json.Data :=
  .object [
    ("id", .string item.id),
    ("type", .string "row"),
    ("attributes", .object (item.attributes.entries.map fun (name, text) => (name, .string text)))]

/-- The answer as it is written. -/
def Response.toJson (r : Response) : Json.Data :=
  .object [
    ("data", .array (r.data.map ResponseItem.toJson)),
    ("total", .number (.uint (.ofNat r.total)))]

namespace Definition

/-- The shown cells of a row. -/
def shownCells (d : Definition) (r : Request) (row : Row) : NameMap String :=
  .ofList ((row.entries.filter fun (column, _) => d.columns.isShown column r).map
    fun (column, value) => (column, value.plain))

/-- The rows of the answer, counted from a number on. -/
def items (d : Definition) (r : Request) (index : Nat) : List Row → List ResponseItem
  | [] => []
  | row :: rows => ⟨toString index, d.shownCells r row⟩ :: items d r (index + 1) rows

/-- The answer that shows a result. -/
def respond (d : Definition) (r : Request) (result : SelectResult) : Response :=
  ⟨d.items r 0 result.rows, result.total⟩

/-- Runs a report. -/
def run {m : Type → Type} [Monad m] (client : Client m) (d : Definition) (r : Request) :
    ExceptT ReportError m Response :=
  match d.prepare r with
  | .error e => throw e
  | .ok query => ExceptT.mk do
    match ← (client.select query.text query.parameters).run with
    | .ok result => return .ok (d.respond r result)
    | .error e => return .error (.store e)

end Definition

end Colonnade.Report
