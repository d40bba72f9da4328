import Colonnade.Text.Space

/-!
# Reading numbers

Integers of a fixed width and binary64 numbers in decimal text. A text outside the grammar or
outside the range of the width is refused, never clamped.
-/

namespace Colonnade.Decimal

/-- The value of a run of ASCII digits read after `value`; `none` at any other character. -/
def digitsFrom (value : Nat) : List Char → Option Nat
  | [] => some value
  | c :: cs => if c.isDigit then digitsFrom (10 * value + (c.toNat - 48)) cs else none

/-- The value of a non-empty run of ASCII digits. -/
def natural? : List Char → Option Nat
  | [] => none
  | cs => digitsFrom 0 cs

/-- A sign and the rest; without a sign the number is positive. -/
def signed : List Char → Bool × List Char
  | '-' :: cs => (true, cs)
  | '+' :: cs => (false, cs)
  | cs => (false, cs)

/-- An integer with at most one sign, of any size. -/
def integer? (cs : List Char) : Option Int :=
  let (negative, digits) := signed cs
  (natural? digits).map fun n => if negative then -(n : Int) else n

/-- The least signed 64-bit integer. -/
def minInt64 : Int := -9223372036854775808

/-- The greatest signed 64-bit integer. -/
def maxInt64 : Int := 9223372036854775807

/-- The greatest unsigned 64-bit integer. -/
def maxUInt64 : Nat := 18446744073709551615

/-- The signed 64-bit integer of a value, if it is one. -/
def int64? (n : Int) : Option Int64 :=
  if minInt64 ≤ n ∧ n ≤ maxInt64 then some (.ofInt n) else none

/-- The unsigned 64-bit integer of a value, if it is one. -/
def uint64? (n : Nat) : Option UInt64 := if n ≤ maxUInt64 then some (.ofNat n) else none

/-- A signed 64-bit integer in decimal. -/
def readInt64? (cs : List Char) : Option Int64 := (integer? cs).bind int64?

/-- An unsigned 64-bit integer in decimal; one leading plus sign is allowed. -/
def readUInt64? (cs : List Char) : Option UInt64 :=
  (natural? (match cs with | '+' :: cs => cs | cs => cs)).bind uint64?

/-! ## Reading what is written -/

theorem digitsFrom_of_isDigit {cs : List Char} (h : ∀ c ∈ cs, c.isDigit = true) (value : Nat) :
    digitsFrom value cs = some (Nat.ofDigitChars 10 cs value) := by
  induction cs generalizing value with
  | nil => rfl
  | cons c cs ih =>
    obtain ⟨hc, hcs⟩ := List.forall_mem_cons.1 h
    rw [digitsFrom, if_pos hc, ih hcs, Nat.ofDigitChars_cons]
    rfl

theorem isDigit_of_mem_toDigits {n : Nat} {c : Char} (h : c ∈ Nat.toDigits 10 n) :
    c.isDigit = true :=
  Nat.isDigit_of_mem_toDigits (by decide) (by decide) h

/-- The digits of a number are read back. -/
theorem natural?_toDigits (n : Nat) : natural? (Nat.toDigits 10 n) = some n := by
  have hread := digitsFrom_of_isDigit (fun _ h => isDigit_of_mem_toDigits (n := n) h) 0
  rw [Nat.ofDigitChars_toDigits (by decide) (by decide)] at hread
  rw [← hread]
  cases h : Nat.toDigits 10 n with
  | nil => exact absurd h Nat.toDigits_ne_nil
  | cons c cs => rfl

/-- The sign of an integer as it is written. -/
def signText (n : Int) : List Char := if n < 0 then ['-'] else []

theorem toList_toString_nat (n : Nat) : (toString n).toList = Nat.toDigits 10 n := by
  rw [Nat.toString_eq_ofList_toDigits, String.toList_ofList]

/-- Numbers are told by their digits. -/
theorem toString_nat_inj {m n : Nat} : toString m = toString n ↔ m = n := by
  refine ⟨fun h => ?_, congrArg toString⟩
  have hdigits : Nat.toDigits 10 m = Nat.toDigits 10 n := by
    rw [← toList_toString_nat, ← toList_toString_nat, h]
  have hread := natural?_toDigits m
  rw [hdigits, natural?_toDigits] at hread
  exact (Option.some.inj hread).symm

/-- An integer is written as its sign and its digits. -/
theorem toList_toString_int (n : Int) :
    (toString n).toList = signText n ++ Nat.toDigits 10 n.natAbs := by
  cases n with
  | ofNat m =>
    have hsign : ¬ (Int.ofNat m < 0) := Int.not_lt.2 (Int.natCast_nonneg m)
    rw [signText, if_neg hsign]
    exact toList_toString_nat m
  | negSucc m =>
    have hsign : Int.negSucc m < 0 := Int.negSucc_lt_zero m
    have htext : toString (Int.negSucc m) = "-" ++ toString (m + 1) := rfl
    rw [signText, if_pos hsign, htext, String.toList_append, toList_toString_nat]
    rfl

theorem toString_int_ne_nil (n : Int) : (toString n).toList ≠ [] := by
  rw [toList_toString_int]
  exact List.append_ne_nil_of_right_ne_nil _ Nat.toDigits_ne_nil

theorem toString_int_ne_empty (n : Int) : toString n ≠ "" :=
  mt String.toList_eq_nil_iff.2 (toString_int_ne_nil n)

theorem mem_toString_int {n : Int} {c : Char} (h : c ∈ (toString n).toList) :
    c = '-' ∨ c.isDigit = true := by
  rw [toList_toString_int, signText] at h
  rcases List.mem_append.1 h with h | h
  · split at h
    · exact .inl (List.mem_singleton.1 h)
    · exact absurd h List.not_mem_nil
  · exact .inr (isDigit_of_mem_toDigits h)

/-- Digits have no sign. -/
theorem signed_toDigits (n : Nat) :
    signed (Nat.toDigits 10 n) = (false, Nat.toDigits 10 n) := by
  have hdigits : ∀ c ∈ Nat.toDigits 10 n, c.isDigit = true := fun _ h => isDigit_of_mem_toDigits h
  cases h : Nat.toDigits 10 n with
  | nil => rfl
  | cons c cs =>
    rw [h] at hdigits
    have hc := hdigits c List.mem_cons_self
    rw [signed]
    · intro ds hds
      cases hds
      cases hc
    · intro ds hds
      cases hds
      cases hc

/-- The text of an integer is read back. -/
theorem integer?_toString (n : Int) : integer? (toString n).toList = some n := by
  rw [toList_toString_int, signText]
  split
  · next hneg =>
    have hvalue : -(n.natAbs : Int) = n := by omega
    simp only [integer?, signed, List.cons_append, List.nil_append, natural?_toDigits, if_true]
    exact congrArg some hvalue
  · next hpos =>
    have hvalue : (n.natAbs : Int) = n := by omega
    simp only [integer?, signed_toDigits, List.nil_append, natural?_toDigits, Bool.false_eq_true,
      if_false]
    exact congrArg some hvalue

/-- The text of a signed 64-bit integer is read back. -/
theorem readInt64?_toString (n : Int64) : readInt64? (toString n.toInt).toList = some n := by
  have hrange : minInt64 ≤ n.toInt ∧ n.toInt ≤ maxInt64 :=
    ⟨n.le_toInt, Int.le_of_lt_add_one n.toInt_lt⟩
  rw [readInt64?, integer?_toString, Option.bind_some, int64?, if_pos hrange, Int64.ofInt_toInt]

/-! ## Floating point -/

/-- The digits of a decimal, the point left out, and how many of them stood after it. -/
structure Mantissa where
  digits : Nat
  places : Nat
  /-- How many digits were read. -/
  count : Nat

/-- Digits with at most one point among them, and what follows. -/
def Mantissa.readFrom (m : Mantissa) (pointSeen : Bool) : List Char → Mantissa × List Char
  | [] => (m, [])
  | c :: cs =>
    if c.isDigit then
      Mantissa.readFrom
        ⟨10 * m.digits + (c.toNat - 48), if pointSeen then m.places + 1 else 0, m.count + 1⟩
        pointSeen cs
    else if c = '.' ∧ ¬ pointSeen then Mantissa.readFrom m true cs
    else (m, c :: cs)

/-- The number `digits * 10 ^ exponent`, rounded to nearest. Exponents far outside the range of
finite numbers are not carried out. -/
def floatOfDecimal (negative : Bool) (digits : Nat) (exponent : Int) : Float :=
  let size := (Nat.log2 digits : Int) * 30103 / 100000 + exponent
  let magnitude : Float :=
    if digits = 0 then 0
    else if 320 < size then Float.ofBits 0x7FF0000000000000
    else if size < -340 then 0
    else if exponent < 0 then Float.ofScientific digits true exponent.natAbs
    else Float.ofScientific digits false exponent.natAbs
  if negative then -magnitude else magnitude

/-- An exponent part, or nothing. -/
def exponentPart? : List Char → Option Int
  | [] => some 0
  | c :: cs =>
    if c = 'e' ∨ c = 'E' then integer? cs else none

/-- A binary64 number: decimal digits with at most one point, an optional exponent and an optional
sign; or infinity or not-a-number in any case of letters. -/
def readFloat? (cs : List Char) : Option Float :=
  let (negative, body) := signed cs
  let word := body.map Char.toLower
  if word = "inf".toList ∨ word = "infinity".toList then
    some (if negative then Float.ofBits 0xFFF0000000000000 else Float.ofBits 0x7FF0000000000000)
  else if word = "nan".toList then some (Float.ofBits 0x7FF8000000000000)
  else
    let (m, rest) := Mantissa.readFrom ⟨0, 0, 0⟩ false body
    if m.count = 0 then none
    else (exponentPart? rest).map fun e => floatOfDecimal negative m.digits (e - m.places)

end Colonnade.Decimal
