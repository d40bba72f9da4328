/-!
# Identifiers

Sixteen bytes with a version and a variant, in groups of hexadecimal digits.
-/

namespace Colonnade.Migration

/-- The two hexadecimal digits of a byte. -/
def hexPair (b : UInt8) : List Char := [Nat.digitChar (b.toNat / 16), Nat.digitChar (b.toNat % 16)]

/-- Random bytes marked as such: the version is four, and the variant starts with a one. -/
def markRandom (bytes : List UInt8) : List UInt8 :=
  (bytes.modify 6 fun b => b % 16 + 64).modify 8 fun b => b % 64 + 128

/-- The identifier that sixteen bytes spell. -/
def spellIdentifier (bytes : List UInt8) : String :=
  let digits (start count : Nat) : String :=
    .ofList (((bytes.drop start).take count).flatMap hexPair)
  "-".intercalate [digits 0 4, digits 4 2, digits 6 2, digits 8 2, digits 10 6]

/-- The identifier of sixteen random bytes. -/
def identifierOf (random : List UInt8) : String := spellIdentifier (markRandom random)

end Colonnade.Migration
