import Colonnade.NameMap
import Colonnade.Decimal.Notation
import Colonnade.Decimal.Reading

/-!
# Cell values

The one representation of bound parameters, engine settings, inserted cells and fetched cells.
-/

namespace Colonnade

/-- A scalar, or a list of values. -/
inductive Value where
  | null
  | bool (b : Bool)
  | int (n : Int64)
  /-- An unsigned integer; those that fit are usually written as `int`. -/
  | uint (n : UInt64)
  | float (x : Float)
  | string (s : String)
  | array (items : List Value)
deriving Inhabited, Repr

/-- Named parameters of a statement, without the colon. -/
abbrev Params := NameMap Value

/-- A fetched row. -/
abbrev Row := NameMap Value

namespace Value

/-! ## Equality -/

mutual
/-- Equality of values is decided by their shape. -/
def decideEq : (a b : Value) → Decidable (a = b)
  | .null, .null => isTrue rfl
  | .bool a, .bool b =>
    if h : a = b then isTrue (h ▸ rfl) else isFalse fun e => h (by injection e)
  | .int a, .int b =>
    if h : a = b then isTrue (h ▸ rfl) else isFalse fun e => h (by injection e)
  | .uint a, .uint b =>
    if h : a = b then isTrue (h ▸ rfl) else isFalse fun e => h (by injection e)
  | .float a, .float b =>
    if h : a = b then isTrue (h ▸ rfl) else isFalse fun e => h (by injection e)
  | .string a, .string b =>
    if h : a = b then isTrue (h ▸ rfl) else isFalse fun e => h (by injection e)
  | .array a, .array b =>
    match decideEqAll a b with
    | isTrue h => isTrue (h ▸ rfl)
    | isFalse h => isFalse fun e => h (by injection e)
  | .null, .bool _ | .null, .int _ | .null, .uint _ | .null, .float _ | .null, .string _
  | .null, .array _ | .bool _, .null | .bool _, .int _ | .bool _, .uint _ | .bool _, .float _
  | .bool _, .string _ | .bool _, .array _ | .int _, .null | .int _, .bool _ | .int _, .uint _
  | .int _, .float _ | .int _, .string _ | .int _, .array _ | .uint _, .null | .uint _, .bool _
  | .uint _, .int _ | .uint _, .float _ | .uint _, .string _ | .uint _, .array _
  | .float _, .null | .float _, .bool _ | .float _, .int _ | .float _, .uint _
  | .float _, .string _ | .float _, .array _ | .string _, .null | .string _, .bool _
  | .string _, .int _ | .string _, .uint _ | .string _, .float _ | .string _, .array _
  | .array _, .null | .array _, .bool _ | .array _, .int _ | .array _, .uint _
  | .array _, .float _ | .array _, .string _ => isFalse nofun

/-- Equality of lists of values. -/
def decideEqAll : (a b : List Value) → Decidable (a = b)
  | [], [] => isTrue rfl
  | [], _ :: _ => isFalse nofun
  | _ :: _, [] => isFalse nofun
  | a :: as, b :: bs =>
    match decideEq a b, decideEqAll as bs with
    | isTrue h, isTrue hs => isTrue (h ▸ hs ▸ rfl)
    | isFalse h, _ => isFalse fun e => h (by injection e)
    | _, isFalse hs => isFalse fun e => hs (by injection e)
end

instance : DecidableEq Value := decideEq

/-! ## Conversions -/

/-- The value of an unsigned integer: signed whenever it fits. -/
def ofUInt64 (n : UInt64) : Value :=
  match Decimal.int64? n.toNat with
  | some i => .int i
  | none => .uint n

/-- The value of something that may be missing. -/
def ofOption (v : Option Value) : Value := v.getD .null

/-- Whether a value is `null`. -/
def isNull : Value → Bool
  | .null => true
  | _ => false

/-- The string of a string value. -/
def asString? : Value → Option String
  | .string s => some s
  | _ => none

/-- A value as a signed integer. Strings are read too, white space around the digits allowed, since
a store may quote its 64-bit integers. -/
def asInt64? : Value → Option Int64
  | .int n => some n
  | .uint n => Decimal.int64? n.toNat
  | .bool b => some (if b then 1 else 0)
  | .string s => Decimal.readInt64? (Text.trimChars s.toList)
  | .null | .float _ | .array _ => none

/-! ## Plain text -/

/-- The text of a bit. -/
def bitText (b : Bool) : String := if b then "1" else "0"

mutual
/-- The unquoted text of a value. -/
def plain : Value → String
  | .null => ""
  | .bool b => bitText b
  | .int n => toString n.toInt
  | .uint n => toString n.toNat
  | .float x => Decimal.Layout.positional.render x
  | .string s => s
  | .array items => ",".intercalate (plainAll items)

/-- The unquoted texts of values. -/
def plainAll : List Value → List String
  | [] => []
  | v :: vs => plain v :: plainAll vs
end

end Value

end Colonnade
