import Colonnade.Value
import Colonnade.Sql.Quoted

/-!
# Literals of values

The text that stands for a value inside a statement. A list is written as its elements with commas
between them and no brackets, so that it can stand in an `IN` list; `bracketed` keeps the brackets.
-/

namespace Colonnade.Sql

/-- The literal of a value that is no list. What is not a finite number is `NULL`. -/
def scalarLiteral : Value → String
  | .null => "NULL"
  | .bool b => Value.bitText b
  | .int n => toString n.toInt
  | .uint n => toString n.toNat
  | .float x => if x.isFinite then Decimal.Layout.positional.render x else "NULL"
  | .string s => Quoted.quote s
  | .array _ => ""

mutual
/-- The literal of a value. -/
def literal : Value → String
  | .array items => ",".intercalate (literals items)
  | .null => scalarLiteral .null
  | .bool b => scalarLiteral (.bool b)
  | .int n => scalarLiteral (.int n)
  | .uint n => scalarLiteral (.uint n)
  | .float x => scalarLiteral (.float x)
  | .string s => scalarLiteral (.string s)

/-- The literals of values. -/
def literals : List Value → List String
  | [] => []
  | v :: vs => literal v :: literals vs
end

mutual
/-- The literal of a cell of an insert: a list keeps its brackets. -/
def bracketed : Value → String
  | .array items => "[" ++ ", ".intercalate (bracketedAll items) ++ "]"
  | .null => scalarLiteral .null
  | .bool b => scalarLiteral (.bool b)
  | .int n => scalarLiteral (.int n)
  | .uint n => scalarLiteral (.uint n)
  | .float x => scalarLiteral (.float x)
  | .string s => scalarLiteral (.string s)

/-- The literals of the cells of an insert. -/
def bracketedAll : List Value → List String
  | [] => []
  | v :: vs => bracketed v :: bracketedAll vs
end

theorem literals_eq_map (vs : List Value) : literals vs = vs.map literal := by
  induction vs with
  | nil => rfl
  | cons v vs ih => simp [literals, ih]

theorem bracketedAll_eq_map (vs : List Value) : bracketedAll vs = vs.map bracketed := by
  induction vs with
  | nil => rfl
  | cons v vs ih => simp [bracketedAll, ih]

end Colonnade.Sql
