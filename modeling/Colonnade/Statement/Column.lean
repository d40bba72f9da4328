import Colonnade.Sql.Quoted

/-!
# Columns

Column types with their modifiers, and the text of a column in a definition.
-/

namespace Colonnade

/-- The modifiers of columns and statements. -/
structure Flags where
  nullable : Bool := false
  ifNotExists : Bool := false
  ifExists : Bool := false
  defaultZero : Bool := false
  hierarchical : Bool := false
deriving DecidableEq, Repr, Inhabited

namespace Flags

/-- No modifier. -/
def none : Flags := {}

/-- The modifiers as a number, one bit each. -/
def bits (f : Flags) : Nat :=
  f.nullable.toNat + 2 * f.ifNotExists.toNat + 4 * f.ifExists.toNat + 8 * f.defaultZero.toNat
    + 16 * f.hierarchical.toNat

end Flags

/-- The type of a column. -/
inductive ColumnType where
  | dateTime (size : UInt8)
  | uuid
  | string
  | decimal (precision scale : UInt8)
  | enumeration (size : UInt8) (values : List (String × Int64))
  | unsigned (size : UInt8)
  | signed (size : UInt8)
deriving DecidableEq, Repr

namespace ColumnType

/-- One label of an enumeration with its number. -/
def labelText (label : String) (n : Int64) : String :=
  Sql.Quoted.quote label ++ " = " ++ toString n.toInt

/-- The text of a type without modifiers. -/
def text : ColumnType → String
  | .dateTime size => "DateTime" ++ toString size.toNat
  | .uuid => "UUID"
  | .string => "String"
  | .decimal precision scale =>
    "Decimal(" ++ toString precision.toNat ++ ", " ++ toString scale.toNat ++ ")"
  | .enumeration size values =>
    "Enum" ++ toString size.toNat ++ "("
      ++ ",".intercalate (values.map fun (label, n) => labelText label n) ++ ")"
  | .unsigned size => "UInt" ++ toString size.toNat
  | .signed size => "Int" ++ toString size.toNat

end ColumnType

/-- A column. -/
structure Column where
  name : String
  type : ColumnType
  flags : Flags
deriving DecidableEq, Repr

namespace Column

/-- The type with its modifiers: a default is inside `Nullable`, the hierarchy mark at the end. -/
def typeText (c : Column) : String :=
  let text := c.type.text
  let text := if c.flags.defaultZero then text ++ " default 0" else text
  let text := if c.flags.nullable then "Nullable(" ++ text ++ ")" else text
  if c.flags.hierarchical then text ++ " HIERARCHICAL" else text

/-- The column as it stands in a definition. -/
def definition (c : Column) : String := c.name ++ " " ++ c.typeText

end Column

end Colonnade
