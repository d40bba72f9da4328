import Colonnade.Decimal.Shortest
import Colonnade.Template.Error
import Colonnade.Template.Expr

/-!
# Operations on values

Sums, products and powers of integers stay integers of 128 bits; with a float everything is a float.
Texts and lists can be put together and repeated.
-/

namespace Colonnade.Template

/-- An operation that does not apply. -/
def impossible {α : Type} (op : String) : Except Cause α :=
  .error (.operation ("tried to use " ++ op ++ " operator on unsupported types"))

/-- An operation that has no result in range. -/
def failed {α : Type} (op : String) : Except Cause α :=
  .error (.operation ("unable to calculate " ++ op))

/-- An integer within 128 bits. -/
def inRange (op : String) (n : Int) : Except Cause Value :=
  if -(Decimal.twoTo 127 : Int) ≤ n ∧ n < Decimal.twoTo 127 then .ok (.int n) else failed op

/-! ## Floats -/

/-- A whole number of the least float, scaled by a power of two. -/
def scaled (n : Nat) (exponent : Int) : Float := (Float.ofNat n).scaleB exponent

/-- The remainder of a division of floats toward zero; it has the sign of the dividend. -/
def floatRemainder (a b : Float) : Float :=
  if !a.isFinite || b.isNaN || b == 0 then 0.0 / 0.0
  else if !b.isFinite then a
  else
    let m := Decimal.Binary.ofFloat a
    let n := Decimal.Binary.ofFloat b
    let low := min m.exponent n.exponent
    let rest := (m.significand * Decimal.twoTo (m.exponent - low).toNat)
      % (n.significand * Decimal.twoTo (n.exponent - low).toNat)
    let r := scaled rest low
    if Decimal.isNegative a then -r else r

/-- A float without its fraction. -/
def truncated (x : Float) : Float := if x < 0 then x.ceil else x.floor

/-- The whole quotient of floats whose remainder is not negative. -/
def floatQuotient (a b : Float) : Float :=
  let q := truncated (a / b)
  if floatRemainder a b < 0 then (if 0 < b then q - 1 else q + 1) else q

/-! ## Arithmetic -/

/-- An operation on two numbers, by integers or by floats. -/
def arithmetic (op : String) (a b : Value) (ints : Int → Int → Except Cause Value)
    (floats : Float → Float → Float) : Except Cause Value :=
  match a.number?, b.number? with
  | some (.int m), some (.int n) => ints m n
  | some m, some n => .ok (.float (floats m.toFloat n.toFloat))
  | _, _ => impossible op

/-- A sum; texts and lists are put one after the other. -/
def add (a b : Value) : Except Cause Value :=
  match a, b with
  | .string s _, .string t _ => .ok (Value.text (s ++ t))
  | .list l, .list m => .ok (.list (l ++ m))
  | _, _ => arithmetic "+" a b (fun m n => inRange "+" (m + n)) (· + ·)

/-- A text or a list repeated. -/
def repeated? (a b : Value) : Option Value := do
  let n ← b.int?
  if n < 0 then none
  else
    match a with
    | .string s _ => some (Value.text (.ofList (List.replicate n.toNat s.toList).flatten))
    | .list l => some (.list (List.replicate n.toNat l).flatten)
    | _ => none

/-- A product; a text or a list times an integer is repeated. -/
def multiply (a b : Value) : Except Cause Value :=
  match (repeated? a b).or (repeated? b a) with
  | some v => .ok v
  | none => arithmetic "*" a b (fun m n => inRange "*" (m * n)) (· * ·)

/-- A quotient, always a float. -/
def divide (a b : Value) : Except Cause Value :=
  match a.number?, b.number? with
  | some m, some n => .ok (.float (m.toFloat / n.toFloat))
  | _, _ => impossible "/"

/-- The whole quotient that leaves a remainder that is not negative. -/
def divideWhole (a b : Value) : Except Cause Value :=
  arithmetic "//" a b (fun m n => if n = 0 then failed "//" else inRange "//" (m.ediv n))
    floatQuotient

/-- The remainder; of integers it is not negative. -/
def remainder (a b : Value) : Except Cause Value :=
  arithmetic "%" a b (fun m n => if n = 0 then failed "%" else .ok (.int (m.emod n)))
    floatRemainder

/-- A power of integers within 128 bits. The powers of one and of minus one repeat, so a small
exponent of the same parity does for a great one. -/
def integerPower (m n : Int) : Except Cause Value :=
  let exponent := if m.natAbs ≤ 1 then min n.toNat (2 + n.toNat % 2) else n.toNat
  if n < 0 ∨ Decimal.twoTo 32 ≤ n ∨ 128 < exponent then failed "**"
  else inRange "**" (Int.pow m exponent)

/-- A power. -/
def power (a b : Value) : Except Cause Value :=
  arithmetic "**" a b integerPower fun x y => x ^ y

/-- The negation of a number. -/
def negate : Value → Except Cause Value
  | .int n => inRange "-" (-n)
  | .float x => .ok (.float (-x))
  | _ => impossible "-"

/-- Whether a container holds a value: a text a part of it, a map a key, a list an item. -/
def holds (value container : Value) : Except Cause Bool :=
  match container with
  | .undefined _ => .error .undefined
  | .string s _ => .ok (Text.occursIn value.display.toList s.toList)
  | .list items => .ok (items.any fun v => v.same value)
  | .map entries => .ok (Value.entry? entries value).isSome
  | _ => .error (.operation "cannot perform a containment check on this value")

/-- The truth of a value; what is undefined has none. -/
def truth (v : Value) : Except Cause Bool :=
  if v.isUndefined then .error .undefined else .ok v.isTrue

/-- The value of an operator whose operands are both evaluated first. -/
def Operator.apply (op : Operator) (a b : Value) : Except Cause Value :=
  match op with
  | .equal => .ok (.bool (a.same b))
  | .unequal => .ok (.bool !(a.same b))
  | .less => .ok (.bool (a.order b == .lt))
  | .lessOrEqual => .ok (.bool (a.order b != .gt))
  | .greater => .ok (.bool (a.order b == .gt))
  | .greaterOrEqual => .ok (.bool (a.order b != .lt))
  | .within => (holds a b).map .bool
  | .add => Template.add a b
  | .subtract => arithmetic "-" a b (fun m n => inRange "-" (m - n)) (· - ·)
  | .join => .ok (Value.text (a.display ++ b.display))
  | .multiply => Template.multiply a b
  | .divide => Template.divide a b
  | .divideWhole => Template.divideWhole a b
  | .remainder => Template.remainder a b
  | .power => Template.power a b
  | .or => .ok (if a.isTrue then a else b)
  | .and => .ok (if a.isTrue then b else a)

/-! ## Slices -/

/-- A bound of a slice within a length. -/
def bound (length : Nat) (default : Nat) (v : Value) : Except Cause Nat :=
  match v with
  | .none => .ok default
  | v =>
    match v.int? with
    | none => .error (.operation "a bound of a slice is no integer")
    | some n => .ok (if n < 0 then (n + length).toNat else min n.toNat length)

/-- Every item that comes after a number of others. -/
def everyNth {α : Type} (step skip : Nat) : List α → List α
  | [] => []
  | a :: as =>
    match skip with
    | 0 => a :: everyNth step (step - 1) as
    | skip + 1 => everyNth step skip as

/-- The items between two bounds. -/
def sliceOf {α : Type} (items : List α) (start stop step : Value) : Except Cause (List α) := do
  let first ← bound items.length 0 start
  let last ← bound items.length items.length stop
  let step ← match step with
    | .none => pure (1 : Int)
    | v =>
      match v.int? with
      | none => throw (.operation "the step of a slice is no integer")
      | some n => pure n
  if step ≤ 0 then throw (.operation "cannot slice by step size of 0")
  return everyNth step.toNat 0 ((items.take last).drop first)

/-- A part of a text or a list. -/
def slice (v start stop step : Value) : Except Cause Value :=
  match v with
  | .string s _ => do return Value.text (.ofList (← sliceOf s.toList start stop step))
  | .list items => do return .list (← sliceOf items start stop step)
  | .none => .ok (.list [])
  | .undefined _ => .error .undefined
  | _ => .error (.operation "this value cannot be sliced")

end Colonnade.Template
