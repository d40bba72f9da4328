/-!
# Bytes as text

UTF-8 is read byte by byte. Bytes that are no part of a character stand for the replacement
character, one for each longest beginning of a character that does not go on.
-/

namespace Colonnade.Text.Utf8

/-- What stands for bytes that are no text. -/
def replacement : Char := Char.ofNat 0xfffd

/-- A character whose bytes have not all been read. -/
structure Pending where
  /-- The bits that have been read. -/
  bits : Nat
  /-- How many bytes are missing. -/
  missing : Nat
  /-- The bounds of the next byte. -/
  least : Nat
  greatest : Nat
deriving DecidableEq, Repr

/-- What a byte says that starts a character: the character, or what is still missing. -/
inductive Opening where
  | char (c : Char)
  | pending (p : Pending)
  | wrong

/-- What a byte says that starts a character. -/
def opening (b : Nat) : Opening :=
  if b < 0x80 then .char (Char.ofNat b)
  else if b < 0xc2 then .wrong
  else if b < 0xe0 then .pending ⟨b - 0xc0, 1, 0x80, 0xbf⟩
  else if b < 0xf0 then
    .pending ⟨b - 0xe0, 2, if b = 0xe0 then 0xa0 else 0x80, if b = 0xed then 0x9f else 0xbf⟩
  else if b < 0xf5 then
    .pending ⟨b - 0xf0, 3, if b = 0xf0 then 0x90 else 0x80, if b = 0xf4 then 0x8f else 0xbf⟩
  else .wrong

/-- The text of bytes after a character that has been begun. -/
def decodeFrom (begun : Option Pending) : List UInt8 → List Char
  | [] => if begun.isSome then [replacement] else []
  | b :: bs =>
    let n := b.toNat
    let anew : List Char :=
      match opening n with
      | .char c => c :: decodeFrom none bs
      | .pending p => decodeFrom (some p) bs
      | .wrong => replacement :: decodeFrom none bs
    match begun with
    | none => anew
    | some p =>
      if p.least ≤ n ∧ n ≤ p.greatest then
        let bits := 64 * p.bits + (n - 0x80)
        if p.missing ≤ 1 then Char.ofNat bits :: decodeFrom none bs
        else decodeFrom (some ⟨bits, p.missing - 1, 0x80, 0xbf⟩) bs
      else replacement :: anew

/-- The text of bytes. A byte order mark at the start is no part of it. -/
def decode (bytes : List UInt8) : String :=
  .ofList (decodeFrom none (if bytes.take 3 = [0xef, 0xbb, 0xbf] then bytes.drop 3 else bytes))

end Colonnade.Text.Utf8
