import Colonnade.Decimal.Power

/-!
# The shortest decimal of a binary64 number

A finite number stands for the interval of reals that round to it. Of the decimals inside that
interval the one with the fewest digits is selected, and of two with equally few the nearer one.
All arithmetic is on naturals: a decimal and an end of the interval are compared by
cross-multiplication.
-/

namespace Colonnade.Decimal

/-- The finite value `significand * 2 ^ exponent`. -/
structure Binary where
  significand : Nat
  exponent : Int
  /-- The gap to the number below is half the gap to the number above. -/
  narrowBelow : Bool
deriving DecidableEq, Repr

/-- The magnitude of a finite number. Infinities and not-a-number have none. -/
def Binary.ofFloat (x : Float) : Binary :=
  let bits := x.toBits.toNat
  let field : Nat := bits / twoTo 52 % twoTo 11
  let fraction : Nat := bits % twoTo 52
  if field = 0 then ⟨fraction, -1074, false⟩
  else ⟨twoTo 52 + fraction, (field : Int) - 1075, fraction == 0 && 1 < field⟩

/-- Whether the sign bit is set. -/
def isNegative (x : Float) : Bool := x.toBits.toNat / twoTo 63 == 1

/-- The value `digits * 10 ^ exponent`. -/
structure Scaled where
  digits : Nat
  exponent : Int
deriving DecidableEq, Repr

/-- Which of two equally near decimals is taken. -/
inductive Tie where
  | toEven
  | awayFromZero
deriving DecidableEq, Repr

/-- The order of `a * 10 ^ i` and `n * 2 ^ j`. -/
def compareScaled (a : Nat) (i : Int) (n : Nat) (j : Int) : Ordering :=
  compare (a * tenTo i.toNat * twoTo (-j).toNat) (n * twoTo j.toNat * tenTo (-i).toNat)

/-- Whether a decimal lies among the reals that round to the number: from halfway to the number
below up to halfway to the number above, ends included when the significand is even. -/
def Binary.readsBack (x : Binary) (d : Scaled) : Bool :=
  let low := if x.narrowBelow then 4 * x.significand - 1 else 4 * x.significand - 2
  let high := 4 * x.significand + 2
  let closed := x.significand % 2 == 0
  let atLow := compareScaled d.digits d.exponent low (x.exponent - 2)
  let atHigh := compareScaled d.digits d.exponent high (x.exponent - 2)
  (atLow == .gt || (closed && atLow == .eq)) && (atHigh == .lt || (closed && atHigh == .eq))

/-- The least `k` with `x < 10 ^ k`, for a number that is not zero: estimated from the binary
logarithm and then corrected by a step. -/
def Binary.scale (x : Binary) : Int :=
  let estimate := ((x.significand.log2 : Int) + x.exponent) * 30103 / 100000
  let below (k : Int) : Bool := compareScaled 1 k x.significand x.exponent == .gt
  if below estimate then estimate
  else if below (estimate + 1) then estimate + 1
  else estimate + 2

/-- The largest multiple of `10 ^ k` that is not above the number, as its factor. -/
def Binary.floorAt (x : Binary) (k : Int) : Nat :=
  x.significand * twoTo x.exponent.toNat * tenTo (-k).toNat /
    (tenTo k.toNat * twoTo (-x.exponent).toNat)

/-- The nearest decimal on the grid `10 ^ k` that reads back, if one does. -/
def Binary.onGrid? (x : Binary) (tie : Tie) (k : Int) : Option Scaled :=
  let floor := x.floorAt k
  let below : Scaled := ⟨floor, k⟩
  let above : Scaled := ⟨floor + 1, k⟩
  match x.readsBack below, x.readsBack above with
  | true, false => some below
  | false, true => some above
  | false, false => none
  | true, true =>
    match compareScaled (2 * floor + 1) k (2 * x.significand) x.exponent with
    | .gt => some below
    | .lt => some above
    | .eq =>
      match tie with
      | .awayFromZero => some above
      | .toEven => if floor % 2 = 0 then some below else some above

/-- The decimal without zeros at the end of its digits; `fuel` bounds how many are taken off. -/
def Scaled.strip (fuel : Nat) (d : Scaled) : Scaled :=
  match fuel with
  | 0 => d
  | fuel + 1 =>
    if d.digits ≠ 0 ∧ d.digits % 10 = 0 then Scaled.strip fuel ⟨d.digits / 10, d.exponent + 1⟩
    else d

/-- The shortest decimal that reads back to a number: the first of the grids for one, two, …,
seventeen digits on which one does. -/
def Binary.shortest (x : Binary) (tie : Tie) : Scaled :=
  if x.significand = 0 then ⟨0, 0⟩
  else
    let scale := x.scale
    match (List.range 17).findSome? fun n : Nat => x.onGrid? tie (scale - 1 - n) with
    | some d => d.strip 20
    | none => ⟨x.floorAt (scale - 17), scale - 17⟩

end Colonnade.Decimal
