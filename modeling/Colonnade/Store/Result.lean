import Colonnade.Value

/-!
# Results of a select
-/

namespace Colonnade

/-- The rows of one page, and how many rows matched before the page was cut. -/
structure SelectResult where
  rows : List Row
  total : Nat
deriving DecidableEq

namespace SelectResult

/-- The result without rows. -/
def empty : SelectResult := ⟨[], 0⟩

/-- The result whose page is everything that matched. -/
def ofRows (rows : List Row) : SelectResult := ⟨rows, rows.length⟩

/-- Whether the page has no row. -/
def isEmpty (r : SelectResult) : Bool := r.rows.isEmpty

/-- The cell of a column in the first row. -/
def first? (r : SelectResult) (column : String) : Option Value :=
  r.rows.head?.bind fun row => row.get? column

end SelectResult

end Colonnade
