import Colonnade.Report.Request

/-!
# Columns of a report

Which columns a request shows and sorts by, and which page it gets.
-/

namespace Colonnade.Report

/-- The columns of a report. -/
structure Columns where
  /-- Always shown. -/
  required : List String := []
  /-- Shown if the request names none. -/
  default : List String := []
  all : List String := []
  /-- Columns a request may sort by. -/
  sort : List String := []
  groupBy : List String := []
deriving DecidableEq, Repr, Inhabited

/-- The size of a page that asks for none. -/
def defaultPageSize : UInt64 := 100

/-- The greatest size of a page. -/
def maxPageSize : UInt64 := 1000

/-- The rows of a page: how many, after how many. -/
structure Page where
  limit : Nat
  offset : Nat
deriving DecidableEq, Repr

namespace Columns

/-- Whether a column is shown. -/
def isShown (c : Columns) (column : String) (r : Request) : Bool :=
  r.showColumns.contains column || c.required.contains column
    || (r.showColumns.isEmpty && c.default.contains column)

/-- The column of a sort entry and whether it is descending: one dash in front says so. -/
def sortKey (entry : String) : String × Bool :=
  match entry.toList with
  | '-' :: cs => (.ofList cs, true)
  | _ => (entry, false)

/-- Whether the request sorts by a column. Dashes in front of the column do not count. -/
def isSorted (c : Columns) (column : String) (r : Request) : Bool :=
  let column := String.ofList (column.toList.dropWhile (· == '-'))
  c.sort.contains column && r.sort.any fun entry => (sortKey entry).1 == column

/-- The text of a sort key. -/
def sortText (key : String × Bool) : String := key.1 ++ if key.2 then " DESC" else " ASC"

/-- The sort keys of a request that the report allows, in the order of the request. -/
def sortList (c : Columns) (r : Request) : List String :=
  ((r.sort.map sortKey).filter fun key => c.sort.contains key.1).map sortText

/-! ## Pages -/

/-- The unsigned number that a signed one is, unless it is negative. -/
def unsigned? (n : Int64) : Option UInt64 := if n < 0 then none else some n.toUInt64

/-- The product of two numbers, unless it takes more than 64 bits. -/
def product? (a b : UInt64) : Option UInt64 :=
  if a.toNat * b.toNat < UInt64.size then some (a * b) else none

/-- The size of a page. -/
def pageSize (perPage : Int64) : UInt64 :=
  match unsigned? perPage with
  | some n => if n = 0 then defaultPageSize else min n maxPageSize
  | none => defaultPageSize

/-- How many rows stand before a page, if they can be counted with 64 bits. Pages are counted from
one, and smaller numbers mean the first. -/
def rowsBefore? (limit : UInt64) (page : Int64) : Option UInt64 :=
  match unsigned? page with
  | some n => if 1 < n then product? limit (n - 1) else some 0
  | none => some 0

/-- The page of a request. -/
def page (p : Pagination) : Except ReportError Page :=
  let limit := pageSize p.perPage
  match rowsBefore? limit p.page with
  | some offset => .ok ⟨limit.toNat, offset.toNat⟩
  | none => .error (.invalidRequest ("page " ++ toString p.page.toInt ++ " is out of range"))

end Columns

end Colonnade.Report
