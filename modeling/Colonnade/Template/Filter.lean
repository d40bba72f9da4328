import Colonnade.Sql.Quoted
import Colonnade.Template.Operation
import Colonnade.Text.Case
import Colonnade.Text.Cut

/-!
# Filters, tests and functions

What a name after a bar, after `is`, or before parentheses does with its operands.
-/

namespace Colonnade.Template

/-- Operands that do not fit. -/
def misfit {α : Type} : Except Cause α := .error (.operation "wrong arguments")

/-! ## Filters -/

/-- The texts of items laid end to end, with a separator wherever there is a text before it. -/
def joinItems (separator : String) (items : List Value) : String :=
  items.foldl (fun s v => (if s = "" then s else s ++ separator) ++ v.display) ""

/-- A character as HTML text has it. -/
def htmlChar (c : Char) : List Char :=
  if c = '<' then "&lt;".toList
  else if c = '>' then "&gt;".toList
  else if c = '&' then "&amp;".toList
  else if c = '"' then "&quot;".toList
  else if c = '\'' then "&#x27;".toList
  else if c = '/' then "&#x2f;".toList
  else [c]

/-- A text as HTML text has it. -/
def htmlText (s : String) : String := .ofList (s.toList.flatMap htmlChar)

/-- A value as HTML text has it, unless it is safe already. -/
def htmlOf : Value → String
  | .string s true => s
  | .string s false => htmlText s
  | .list l => htmlText (Value.list l).display
  | .map l => htmlText (Value.map l).display
  | v => v.display

/-- A text in which another piece takes the place of a piece. The empty piece stands at either end and
between characters. -/
def replaceAll (piece other : String) (s : String) : String :=
  if piece = "" then other ++ .join (s.toList.map fun c => String.singleton c ++ other)
  else other.intercalate (s.splitOn piece)

/-- The text that a filter asks for; what is undefined has none. -/
def textOf (v : Value) : Except Cause String :=
  if v.isUndefined then .error .undefined else .ok v.display

/-- The text that a filter makes of a text. -/
def onText (v : Value) (f : String → String) : Except Cause Value :=
  (textOf v).map fun s => Value.text (f s)

/-- The value of a filter. -/
def applyFilter (name : String) (v : Value) (args : List Value) : Except Cause Value :=
  match name, args with
  | "sql_string", [] => .ok (Value.text (Sql.Quoted.quote v.display))
  | "upper", [] => onText v Text.upper
  | "lower", [] => onText v Text.lower
  | "trim", [] => onText v Text.trim
  | "replace", [piece, other] => do
    let piece ← textOf piece
    let other ← textOf other
    onText v (replaceAll piece other)
  | "join", args =>
    match v, args with
    | .none, _ | .undefined _, _ => .ok (Value.text "")
    | v, args =>
      match v.items?, args with
      | some items, [] | some items, [.none] => .ok (Value.text (joinItems "" items))
      | some items, [s] => .ok (Value.text (joinItems s.display items))
      | _, _ => misfit
  | "length", [] | "count", [] =>
    match v.length? with
    | some n => .ok (.int n)
    | none => .error (.operation "cannot calculate length of value")
  | "default", args | "d", args =>
    match args with
    | [] => .ok (if v.isUndefined then Value.text "" else v)
    | [other] => .ok (if v.isUndefined then other else v)
    | [other, strict] => .ok (if v.isUndefined || (strict.isTrue && !v.isTrue) then other else v)
    | _ => misfit
  | "first", [] =>
    match v.items? with
    | some items => .ok (items.head?.getD (.undefined false))
    | none => misfit
  | "last", [] =>
    match v.items? with
    | some items => .ok (items.getLast?.getD (.undefined false))
    | none => misfit
  | "list", [] =>
    match v.items? with
    | some items => if v.isUndefined then .error .undefined else .ok (.list items)
    | none => misfit
  | "reverse", [] =>
    match v with
    | .string s _ => .ok (Value.text (.ofList s.toList.reverse))
    | .list items => .ok (.list items.reverse)
    | _ => misfit
  | "safe", [] => (textOf v).map fun s => .string s true
  | "escape", [] | "e", [] => .ok (.string (htmlOf v) true)
  | name, _ =>
    if ["sql_string", "upper", "lower", "trim", "replace", "length", "count", "first", "last",
        "list", "reverse", "safe", "escape", "e"].contains name then misfit
    else .error (.unknown "filter" name)

/-! ## Tests -/

/-- Whether a value passes a test. -/
def applyTest (name : String) (v : Value) (args : List Value) : Except Cause Bool :=
  match name, args with
  | "defined", [] => .ok !v.isUndefined
  | "undefined", [] => .ok v.isUndefined
  | "none", [] => .ok (v matches .none)
  | "boolean", [] => .ok (v matches .bool _)
  | "true", [] => .ok (v matches .bool true)
  | "false", [] => .ok (v matches .bool false)
  | "number", [] => .ok (v matches .int _ | .float _)
  | "integer", [] | "int", [] => .ok (v matches .int _)
  | "float", [] => .ok (v matches .float _)
  | "string", [] => .ok (v matches .string _ _)
  | "sequence", [] => .ok (v matches .list _)
  | "mapping", [] => .ok (v matches .map _)
  | "iterable", [] => .ok (v matches .list _ | .map _ | .string _ _)
  | "odd", [] => .ok (v.int?.any fun n => n % 2 ≠ 0)
  | "even", [] => .ok (v.int?.any fun n => n % 2 = 0)
  | "divisibleby", [d] =>
    match v.int?, d.int? with
    | some m, some n => .ok (n ≠ 0 ∧ m % n = 0)
    | _, _ => .ok false
  | "eq", [w] | "equalto", [w] => .ok (v.same w)
  | "ne", [w] => .ok !(v.same w)
  | "lt", [w] | "lessthan", [w] => .ok (v.order w == .lt)
  | "le", [w] => .ok (v.order w != .gt)
  | "gt", [w] | "greaterthan", [w] => .ok (v.order w == .gt)
  | "ge", [w] => .ok (v.order w != .lt)
  | "in", [w] => holds v w
  | "startingwith", [w] => .ok (Text.startsWith w.display v.display)
  | "endingwith", [w] => .ok (Text.dropEnd? w.display v.display).isSome
  | name, _ => .error (.unknown "test" name)

/-! ## Functions -/

/-- The integers from one on, as many as come before another. -/
def rangeFrom (start stop step : Int) : Nat → List Value
  | 0 => []
  | n + 1 =>
    if (0 < step ∧ stop ≤ start) ∨ (step < 0 ∧ start ≤ stop) then []
    else .int start :: rangeFrom (start + step) stop step n

/-- The greatest number of items of a range. -/
def maxRange : Nat := 100000

/-- A range of integers. -/
def range (start stop step : Value) : Except Cause Value :=
  match start.int?, stop.int?, step.int? with
  | some a, some b, some s =>
    let items := rangeFrom a b s (maxRange + 1)
    if s = 0 ∨ maxRange < items.length then .error (.operation "range has too many elements")
    else .ok (.list items)
  | _, _, _ => misfit

/-- The default given to a look-up; `none` counts as no default. -/
def givenDefault? : List Value → Option Value
  | [.none] | [.undefined _] | [] => none
  | v :: _ => some v

end Colonnade.Template
