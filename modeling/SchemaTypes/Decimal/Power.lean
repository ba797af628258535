/-!
# Powers of two and of ten

The two bases of numbers: doubles are scaled by powers of two, their written forms by
powers of ten.
-/

namespace SchemaTypes.Decimal

/-- The power of two with this exponent. -/
def twoTo (n : Nat) : Nat := Nat.pow 2 n

/-- The power of ten with this exponent. -/
def tenTo (n : Nat) : Nat := Nat.pow 10 n

end SchemaTypes.Decimal
