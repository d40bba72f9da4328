/-!
# Powers of two and ten

The scales between which numbers are read and written.
-/

namespace Colonnade.Decimal

/-- A power of two. -/
def twoTo (exponent : Nat) : Nat := Nat.pow 2 exponent

/-- A power of ten. -/
def tenTo (exponent : Nat) : Nat := Nat.pow 10 exponent

end Colonnade.Decimal
