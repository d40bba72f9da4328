import Colonnade.Json.Tree
import Colonnade.Value

/-!
# What a JSON document means

Numbers of 64 bits, strings, lists and objects sorted by name. Decoding refuses a number beyond the
range of finite numbers, a string that is no text, and lists and objects nested too deep.
-/

namespace Colonnade.Json

/-- A number: a signed or unsigned integer where it is one that fits, otherwise binary64. -/
inductive Number where
  | int (n : Int64)
  | uint (n : UInt64)
  | float (x : Float)
deriving DecidableEq, Repr

/-- A decoded document. The members of an object are in ascending order of their names. -/
inductive Data where
  | null
  | bool (b : Bool)
  | number (n : Number)
  | string (s : String)
  | array (items : List Data)
  | object (members : List (String × Data))
deriving Inhabited, Repr

/-! ## Numbers -/

/-- Digits taken into a significand as long as it stays within 64 bits, and those left over. -/
def takeDigits (significand : Nat) : List Char → Nat × List Char
  | [] => (significand, [])
  | c :: cs =>
    let next := 10 * significand + (c.toNat - 48)
    if next ≤ Decimal.maxUInt64 then takeDigits next cs else (significand, c :: cs)

/-- A power of ten, rounded to nearest. -/
def powerOfTen (n : Nat) : Float := Float.ofScientific 1 false n

/-- A number scaled by a power of ten: one rounded multiplication or division, after divisions by
`10 ^ 308` for very small exponents. A result that is not finite is refused. -/
def scaleByTen? (fuel : Nat) (x : Float) (exponent : Int) : Option Float :=
  if exponent.natAbs ≤ 308 then
    if 0 ≤ exponent then
      let y := x * powerOfTen exponent.natAbs
      if y.isInf then none else some y
    else some (x / powerOfTen exponent.natAbs)
  else if x == 0 then some x
  else if 0 ≤ exponent then none
  else
    match fuel with
    | 0 => some 0
    | fuel + 1 => scaleByTen? fuel (x / powerOfTen 308) (exponent + 308)

/-- The greatest exponent that is carried out. -/
def maxExponent : Nat := 2147483647

/-- The value of an exponent, clamped to 32 bits. -/
def clampExponent (e : Int) : Int := max (-2147483648) (min e maxExponent)

/-- The float of a significand, an exponent and the exponent part as written. -/
def floatOf? (negative : Bool) (significand : Nat) (exponent : Int)
    (written : Option (Bool × List Char)) : Option Float :=
  let magnitude : Option Float :=
    match written with
    | none => scaleByTen? 4 (Float.ofNat significand) exponent
    | some (down, digits) =>
      let e := (Decimal.digitsFrom 0 digits).getD 0
      if maxExponent < e then
        if significand ≠ 0 ∧ ¬ down then none else some 0
      else
        scaleByTen? 4 (Float.ofNat significand)
          (clampExponent (exponent + if down then -(e : Int) else e))
  magnitude.map fun x => if negative then -x else x

/-- The number a text stands for. The digits beyond 64 bits of significand only count as places.
Minus zero is a float. -/
def NumberText.value? (t : NumberText) : Option Number :=
  let (significand, wholeRest) := takeDigits 0 t.whole
  let exponent : Int := wholeRest.length
  match t.fraction, t.exponent, wholeRest with
  | none, none, [] =>
    if t.negative then
      if 1 ≤ significand ∧ significand ≤ Decimal.twoTo 63 then
        some (.int (.ofInt (-(significand : Int))))
      else some (.float (-(Float.ofNat significand)))
    else
      match Decimal.int64? significand with
      | some n => some (.int n)
      | none => some (.uint (.ofNat significand))
  | none, written, _ => (floatOf? t.negative significand exponent written).map .float
  | some fraction, written, _ =>
    let (significand, rest) := takeDigits significand fraction
    let exponent := exponent - (fraction.length - rest.length : Nat)
    (floatOf? t.negative significand exponent written).map .float

/-! ## Decoding -/

/-- How many lists and objects may stand inside one another. -/
def maxDepth : Nat := 127

mutual
/-- The data of a document; `depth` lists and objects may be opened. -/
def Tree.decode? (depth : Nat) : Tree → Option Data
  | .null => some .null
  | .bool b => some (.bool b)
  | .number text => text.value?.map .number
  | .string content => content.map .string
  | .array items =>
    match depth with
    | 0 => none
    | depth + 1 => (decodeItems? depth items).map .array
  | .object members =>
    match depth with
    | 0 => none
    | depth + 1 =>
      (decodeMembers? depth members).map fun l => .object (NameMap.ofList l).entries

/-- The data of the items of a list. -/
def decodeItems? (depth : Nat) : List Tree → Option (List Data)
  | [] => some []
  | t :: ts => do
    let d ← t.decode? depth
    let ds ← decodeItems? depth ts
    return d :: ds

/-- The data of the members of an object. -/
def decodeMembers? (depth : Nat) : List (Option String × Tree) → Option (List (String × Data))
  | [] => some []
  | (name, t) :: ts => do
    let name ← name
    let d ← t.decode? depth
    let ds ← decodeMembers? depth ts
    return (name, d) :: ds
end

/-! ## Writing -/

/-- A hexadecimal digit. -/
def hexChar (n : Nat) : Char := if n < 10 then Char.ofNat (48 + n) else Char.ofNat (87 + n)

/-- A character of a string as it is written: quotes, backslashes and control characters are
escaped. -/
def escapeChar (c : Char) : List Char :=
  match c.toNat with
  | 34 => ['\\', '"']
  | 92 => ['\\', '\\']
  | 8 => ['\\', 'b']
  | 9 => ['\\', 't']
  | 10 => ['\\', 'n']
  | 12 => ['\\', 'f']
  | 13 => ['\\', 'r']
  | n => if n < 32 then ['\\', 'u', '0', '0', hexChar (n / 16), hexChar (n % 16)] else [c]

/-- A string as it is written. -/
def quote (s : String) : String := "\"" ++ .ofList (s.toList.flatMap escapeChar) ++ "\""

/-- A number as it is written; what is not finite is `null`. -/
def Number.text : Number → String
  | .int n => toString n.toInt
  | .uint n => toString n.toNat
  | .float x => if x.isFinite then Decimal.Layout.json.render x else "null"

mutual
/-- The compact text of a document. -/
def Data.text : Data → String
  | .null => "null"
  | .bool b => if b then "true" else "false"
  | .number n => n.text
  | .string s => quote s
  | .array items => "[" ++ ",".intercalate (itemTexts items) ++ "]"
  | .object members => "\x7b" ++ ",".intercalate (memberTexts members) ++ "\x7d"

/-- The compact texts of items. -/
def itemTexts : List Data → List String
  | [] => []
  | d :: ds => d.text :: itemTexts ds

/-- The compact texts of members. -/
def memberTexts : List (String × Data) → List String
  | [] => []
  | (name, d) :: ds => (quote name ++ ":" ++ d.text) :: memberTexts ds
end

/-! ## Cell values -/

/-- The cell value of a number. -/
def Number.toValue : Number → Value
  | .int n => .int n
  | .uint n => .uint n
  | .float x => .float x

mutual
/-- A decoded cell. An object is kept as its text. -/
def Data.toValue : Data → Value
  | .null => .null
  | .bool b => .bool b
  | .number n => n.toValue
  | .string s => .string s
  | .array items => .array (toValues items)
  | .object members => .string (Data.text (.object members))

/-- Decoded cells. -/
def toValues : List Data → List Value
  | [] => []
  | d :: ds => d.toValue :: toValues ds
end

mutual
/-- The value that a document spells out; objects spell none. -/
def Data.toPlainValue? : Data → Option Value
  | .null => some .null
  | .bool b => some (.bool b)
  | .number n => some n.toValue
  | .string s => some (.string s)
  | .array items => (toPlainValues? items).map .array
  | .object _ => none

/-- The values that documents spell out. -/
def toPlainValues? : List Data → Option (List Value)
  | [] => some []
  | d :: ds => do
    let v ← d.toPlainValue?
    let vs ← toPlainValues? ds
    return v :: vs
end

/-- The cell value of a JSON text. -/
def readValue? (text : String) : Option Value :=
  ((parse? text).bind (Tree.decode? maxDepth)).map Data.toValue

/-- The value that a JSON text spells out. -/
def readPlainValue? (text : String) : Option Value :=
  ((parse? text).bind (Tree.decode? maxDepth)).bind Data.toPlainValue?

mutual
/-- The document of a value. -/
def ofValue : Value → Data
  | .null => .null
  | .bool b => .bool b
  | .int n => .number (.int n)
  | .uint n => .number (.uint n)
  | .float x => .number (.float x)
  | .string s => .string s
  | .array items => .array (ofValues items)

/-- The documents of values. -/
def ofValues : List Value → List Data
  | [] => []
  | v :: vs => ofValue v :: ofValues vs
end

/-! ## Records -/

/-- The members of a record by name, or by position for a record written as a list. -/
structure Fields where
  /-- The value of each field in the order of the names, where it is given. -/
  values : List (Option Tree)
  /-- Whether the record was written as a list. -/
  positional : Bool

/-- The values given for one name. -/
def given (name : String) (members : List (String × Tree)) : List Tree :=
  members.filterMap fun (n, t) => if n = name then some t else none

/-- The fields of a record. A name is given at most once; unknown names are passed over; a list may
be shorter than the names but not longer. -/
def Tree.fields? (names : List String) : Tree → Option Fields
  | .object members => do
    let members ← members.mapM fun (name, t) => name.map fun name => (name, t)
    let values ← names.mapM fun name =>
      match given name members with
      | [] => some none
      | [t] => some (some t)
      | _ => none
    return ⟨values, false⟩
  | .array items =>
    if items.length ≤ names.length then
      some ⟨items.map some ++ List.replicate (names.length - items.length) none, true⟩
    else none
  | _ => none

/-- A string. -/
def Tree.string? : Tree → Option String
  | .string s => s
  | _ => none

/-- A list of strings. -/
def Tree.strings? : Tree → Option (List String)
  | .array items => items.mapM Tree.string?
  | _ => none

/-- A signed 64-bit integer. -/
def Tree.int64? : Tree → Option Int64
  | .number text =>
    match text.value? with
    | some (.int n) => some n
    | _ => none
  | _ => none

/-- An unsigned 64-bit integer. -/
def Tree.uint64? : Tree → Option Nat
  | .number text =>
    match text.value? with
    | some (.int n) => if 0 ≤ n.toInt then some n.toInt.toNat else none
    | some (.uint n) => some n.toNat
    | _ => none
  | _ => none

/-- What is written for a field that may be left out. -/
def orDefault {α : Type} (default : α) (read? : Tree → Option α) : Option Tree → Option α
  | none => some default
  | some t => read? t

end Colonnade.Json
