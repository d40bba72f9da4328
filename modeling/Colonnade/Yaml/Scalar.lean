import Colonnade.Decimal.Power
import Colonnade.Decimal.Reading
import Colonnade.Yaml.Value

/-!
# What a plain scalar means

A plain scalar is null, a truth value, a number, or a text. Leading zeros make a text. Integers have
64 bits; one that has more, but no more than 128, is refused, and beyond that it is a float.
-/

namespace Colonnade.Yaml

/-- Whether a scalar spells null. -/
def isNullWord (s : String) : Bool := ["null", "Null", "NULL", "~"].contains s

/-- The truth value that a scalar spells. -/
def boolWord? (s : String) : Option Bool :=
  if ["true", "True", "TRUE"].contains s then some true
  else if ["false", "False", "FALSE"].contains s then some false
  else none

/-- The value of a digit up to fifteen. -/
def digit? (base : Nat) (c : Char) : Option Nat :=
  let value :=
    if c.isDigit then c.toNat - 48
    else if 'a' ≤ c.toLower ∧ c.toLower ≤ 'f' then c.toLower.toNat - 87
    else 16
  if value < base then some value else none

/-- The number of digits in a base. -/
def ofDigits? (base : Nat) : List Char → Option Nat
  | [] => none
  | cs => cs.foldlM (fun n c => (digit? base c).map (base * n + ·)) 0

/-- The sign of a scalar and what follows it. -/
def splitSign : List Char → Option Bool × List Char
  | '-' :: cs => (some true, cs)
  | '+' :: cs => (some false, cs)
  | cs => (none, cs)

/-- Whether a scalar has only digits and more than a leading zero. -/
def hasLeadingZero (cs : List Char) : Bool :=
  match (splitSign cs).2 with
  | '0' :: d :: ds => (d :: ds).all Char.isDigit
  | _ => false

/-- The magnitude of an integer without its sign. -/
def magnitude? : List Char → Option Nat
  | '0' :: 'x' :: cs => ofDigits? 16 cs
  | '0' :: 'o' :: cs => ofDigits? 8 cs
  | '0' :: 'b' :: cs => ofDigits? 2 cs
  | cs => if hasLeadingZero cs then none else ofDigits? 10 cs

/-- The integer that a scalar spells. -/
def integer? (cs : List Char) : Option Int :=
  match splitSign cs with
  | (some true, cs) => (magnitude? cs).map fun n => -(n : Int)
  | (_, cs) => (magnitude? cs).map fun n => n

/-- Whether an integer has no more than 64 bits. -/
def isSmall (n : Int) : Bool := Decimal.minInt64 ≤ n && n ≤ Decimal.maxUInt64

/-- Whether an integer has no more than 128 bits. -/
def isMiddling (n : Int) : Bool := -(Decimal.twoTo 127 : Int) ≤ n && n < Decimal.twoTo 128

/-- The float that a scalar spells. -/
def float? (s : String) : Option Float :=
  if [".inf", ".Inf", ".INF", "+.inf", "+.Inf", "+.INF"].contains s then some (1.0 / 0.0)
  else if ["-.inf", "-.Inf", "-.INF"].contains s then some (-(1.0 / 0.0))
  else if [".nan", ".NaN", ".NAN"].contains s then some (0.0 / 0.0)
  else
    match (Decimal.readFloat? s.toList).filter Float.isFinite with
    | some x => some x
    | none => none

/-- The value of a plain scalar. -/
def plainValue? (s : String) : Option Value :=
  if s = "" ∨ isNullWord s then some .null
  else
    match boolWord? s with
    | some b => some (.bool b)
    | none =>
      match integer? s.toList with
      | some n =>
        if isSmall n then some (.int n)
        else if isMiddling n then none
        else some (((float? s).map Value.float).getD (.string s))
      | none =>
        if hasLeadingZero s.toList then some (.string s)
        else some (((float? s).map Value.float).getD (.string s))

end Colonnade.Yaml
