import Colonnade.Decimal.Shortest

/-!
# How a number is laid out

A layout says which numbers are written positionally, what an exponent looks like and how the
special values are spelled. `Layout.render` writes the shortest decimal of a number in a layout.
-/

namespace Colonnade.Decimal

/-- The decisions that turn selected digits into text. -/
structure Layout where
  /-- The exponents of the leading digit that are written positionally; `none` for all. -/
  plain : Option (Int × Int)
  /-- Whether a whole number keeps `.0`. -/
  pointZero : Bool
  /-- Whether a positive exponent has a sign. -/
  exponentPlus : Bool
  /-- Which of two equally near decimals is taken. -/
  tie : Tie
  /-- The text of not-a-number. -/
  notANumber : String
  /-- The text of positive infinity. -/
  infinity : String
deriving DecidableEq, Repr

/-- Positional always, a whole number without a point: the text of a number in a statement. -/
def Layout.positional : Layout where
  plain := none
  pointZero := false
  exponentPlus := false
  tie := .awayFromZero
  notANumber := "NaN"
  infinity := "inf"

/-- Positional from `1e-5` up to below `1e16`, otherwise with a signed exponent: the text of a
finite number in JSON. -/
def Layout.json : Layout where
  plain := some (-5, 16)
  pointZero := true
  exponentPlus := true
  tie := .toEven
  notANumber := "NaN"
  infinity := "inf"

/-- Positional always, a whole number with `.0`: the text of a number in rendered templates. -/
def Layout.template : Layout := { Layout.positional with pointZero := true }

/-- Positional from `1e-4` up to below `1e16`, otherwise with an unsigned exponent: the text of a
number inside a printed list or map. -/
def Layout.nested : Layout :=
  { Layout.positional with plain := some (-4, 16), pointZero := true }

/-- The digits of a natural number. -/
def digitsOf (n : Nat) : List Char := Nat.toDigits 10 n

/-- Digits with the point after the first `point` of them, zeros filling in on either side. -/
def positionalText (digits : List Char) (point : Int) (pointZero : Bool) : List Char :=
  if point ≤ 0 then '0' :: '.' :: (List.replicate (-point).toNat '0' ++ digits)
  else if digits.length ≤ point.toNat then
    digits ++ List.replicate (point.toNat - digits.length) '0'
      ++ (if pointZero then ['.', '0'] else [])
  else digits.take point.toNat ++ '.' :: digits.drop point.toNat

/-- One digit before the point, the others after it, and the exponent of the first. -/
def exponentText (digits : List Char) (exponent : Int) (exponentPlus : Bool) : List Char :=
  let mantissa :=
    match digits with
    | first :: second :: rest => first :: '.' :: second :: rest
    | _ => digits
  let sign := if exponent < 0 then ['-'] else if exponentPlus then ['+'] else []
  mantissa ++ 'e' :: (sign ++ digitsOf exponent.natAbs)

/-- The text of a magnitude. -/
def Layout.magnitude (layout : Layout) (x : Binary) : List Char :=
  let d := x.shortest layout.tie
  let digits := digitsOf d.digits
  let point := d.exponent + digits.length
  if d.digits = 0 then positionalText digits 1 layout.pointZero
  else
    match layout.plain with
    | none => positionalText digits point layout.pointZero
    | some (first, past) =>
      if first ≤ point - 1 ∧ point - 1 < past then positionalText digits point layout.pointZero
      else exponentText digits (point - 1) layout.exponentPlus

/-- The text of a number. The sign of zero is written. -/
def Layout.chars (layout : Layout) (x : Float) : List Char :=
  if x.isNaN then layout.notANumber.toList
  else
    let sign := if isNegative x then ['-'] else []
    if x.isInf then sign ++ layout.infinity.toList
    else sign ++ layout.magnitude (Binary.ofFloat x)

/-- The text of a number. The sign of zero is written. -/
def Layout.render (layout : Layout) (x : Float) : String := .ofList (layout.chars x)

end Colonnade.Decimal
