import Colonnade.Report.Error
import Colonnade.Report.Filter

/-!
# Report requests

What a user asks of a report: columns to show, an order, one page, and filters by name.
-/

namespace Colonnade.Report

/-- The page that is asked for. -/
structure Pagination where
  page : Int64 := 1
  perPage : Int64 := 20
deriving DecidableEq, Repr, Inhabited

/-- A request. -/
structure Request where
  showColumns : List String := []
  /-- Columns to sort by; a dash in front asks for descending order. -/
  sort : List String := []
  pagination : Pagination := {}
  filters : NameMap FilterField := .empty
deriving Inhabited

/-- Reads a page; a number that is left out has its default. -/
def Pagination.ofJson? (t : Json.Tree) : Option Pagination := do
  match (← t.fields? ["page", "perPage"]).values with
  | [page, perPage] =>
    return {
      page := ← Json.orDefault 1 Json.Tree.int64? page
      perPage := ← Json.orDefault 20 Json.Tree.int64? perPage }
  | _ => none

namespace Request

/-- Reads one filter of a request. -/
def readFilter? : Option String × Json.Tree → Option (String × FilterField)
  | (name, t) => do return (← name, ← FilterField.ofJson? t)

/-- Reads filters by name; the last of a name counts. -/
def readFilters? : Json.Tree → Option (NameMap FilterField)
  | .object members => (members.mapM readFilter?).map NameMap.ofList
  | _ => none

/-- A filter without an identifier has its name as one. -/
def nameFilter (name : String) (f : FilterField) : FilterField :=
  if f.id = "" then { f with id := name } else f

/-- The filters with every identifier filled in. -/
def nameFilters (filters : NameMap FilterField) : NameMap FilterField :=
  .ofList (filters.entries.map fun (name, f) => (name, nameFilter name f))

/-- Reads a request. -/
def ofJson? (t : Json.Tree) : Option Request := do
  match (← t.fields? ["showColumns", "sort", "pagination", "filters"]).values with
  | [showColumns, sort, pagination, filters] =>
    return {
      showColumns := ← Json.orDefault [] Json.Tree.strings? showColumns
      sort := ← Json.orDefault [] Json.Tree.strings? sort
      pagination := ← Json.orDefault {} Pagination.ofJson? pagination
      filters := nameFilters (← Json.orDefault .empty readFilters? filters) }
  | _ => none

/-- Reads the text of a request. -/
def ofText (body : String) : Except ReportError Request :=
  match (Json.parse? body).bind ofJson? with
  | some request => .ok request
  | none => .error (.invalidRequest "the body is not a request")

/-- A request as it is written. -/
def toJson (r : Request) : Json.Data :=
  .object [
    ("showColumns", .array (r.showColumns.map .string)),
    ("sort", .array (r.sort.map .string)),
    ("pagination", .object [
      ("page", .number (.int r.pagination.page)),
      ("perPage", .number (.int r.pagination.perPage))]),
    ("filters", .object (r.filters.entries.map fun (name, f) => (name, f.toJson)))]

/-- Puts a filter in under its identifier. -/
def withFilter (r : Request) (f : FilterField) : Request :=
  { r with filters := r.filters.insert f.id f }

/-- The filter of a name. -/
def filter? (r : Request) (name : String) : Option FilterField := r.filters.get? name

end Request

end Colonnade.Report
