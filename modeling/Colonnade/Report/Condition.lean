import Colonnade.Report.Filter

/-!
# Conditions of a filter

A filter field is compiled to comparisons of one column with placeholders, and to the values that
the placeholders stand for. The placeholders of one compilation share a seed.
-/

namespace Colonnade.Report

/-- Expressions that must all hold, and the values of the placeholders in them. -/
structure Condition where
  expressions : List String
  placeholders : Params
deriving DecidableEq

namespace Condition

/-- The condition that asks nothing. -/
def empty : Condition := ⟨[], .empty⟩

instance : Inhabited Condition := ⟨empty⟩

/-- Whether nothing is asked. -/
def isEmpty (c : Condition) : Bool := c.expressions.isEmpty

/-- Adds an expression. -/
def addExpression (c : Condition) (expression : String) : Condition :=
  { c with expressions := c.expressions ++ [expression] }

/-- Gives a placeholder its value. -/
def addPlaceholder (c : Condition) (name : String) (value : Value) : Condition :=
  { c with placeholders := c.placeholders.insert name value }

end Condition

/-- Predicates of which all must hold. -/
def conjunction (predicates : List String) : String :=
  "(" ++ ") AND (".intercalate predicates ++ ")"

/-- The text of a condition. -/
def Condition.text (c : Condition) : String := conjunction c.expressions

/-! ## Placeholders -/

/-- A character of a placeholder name; anything but an ASCII letter or digit becomes `_`. -/
def seedChar (c : Char) : Char := if c.isAlphanum then c else '_'

/-- The letters of a seed. A placeholder cannot be empty or start with a digit. -/
def seedStem (id : List Char) : List Char :=
  match id.map seedChar with
  | [] => "filter".toList
  | c :: cs => if c.isDigit then 'f' :: c :: cs else c :: cs

/-- The common beginning of the placeholders of one compilation. -/
def seedOf (id : String) (counter : Nat) : String :=
  .ofList (seedStem id.toList) ++ "_" ++ toString counter

/-! ## Comparisons -/

/-- What a placeholder is compared for. -/
inductive Role where
  | value
  | values
  | min
  | max
  | eq
deriving DecidableEq, Repr

/-- The ending of the placeholder of a role. -/
def Role.ending : Role → String
  | .value => "_value"
  | .values => "_values"
  | .min => "_min"
  | .max => "_max"
  | .eq => "_eq"

/-- One comparison of a column. -/
structure Comparison where
  operator : String
  role : Role
  operand : Value

namespace Comparison

/-- The placeholder of a comparison. -/
def placeholder (seed : String) (c : Comparison) : String := seed ++ c.role.ending

/-- The text of a comparison; a list stands in parentheses. -/
def expression (column seed : String) (c : Comparison) : String :=
  match c.role with
  | .values => column ++ " " ++ c.operator ++ " (:" ++ c.placeholder seed ++ ")"
  | _ => column ++ " " ++ c.operator ++ " :" ++ c.placeholder seed

end Comparison

/-- The comparison of the first of two operators whose bound is given. -/
def firstGiven (role : Role) (operator bound operator' bound' : String) : List Comparison :=
  if bound ≠ "" then [⟨operator, role, .string bound⟩]
  else if bound' ≠ "" then [⟨operator', role, .string bound'⟩]
  else []

/-- A text that is looked for anywhere inside another. -/
def containsPattern (text : String) : String := "%" ++ text ++ "%"

/-- The comparisons of a field. A strict bound goes before a lax one, equality before inequality. -/
def FilterField.comparisons (f : FilterField) (like : Bool) : List Comparison :=
  (if f.value = "" then []
    else if like then [⟨"LIKE", .value, .string (containsPattern f.value)⟩]
    else [⟨"=", .value, .string f.value⟩])
  ++ (if f.values = [] then [] else [⟨"IN", .values, .array (f.values.map .string)⟩])
  ++ firstGiven .min ">" f.great ">=" f.greatOrEqual
  ++ firstGiven .max "<" f.less "<=" f.lessOrEqual
  ++ firstGiven .eq "=" f.equal "!=" f.notEqual

/-- The condition of a field on a column. -/
def compile (column : String) (f : FilterField) (like : Bool) (seed : String) : Condition :=
  let cs := f.comparisons like
  ⟨cs.map (·.expression column seed), .ofList (cs.map fun c => (c.placeholder seed, c.operand))⟩

end Colonnade.Report
