import SchemaTypes.Decimal.Power

/-!
# Double-precision numbers

A finite double is a sign, a whole significand and a power of two. Numbers are only
ever read from decimal text and written back, so no arithmetic on them is needed:
`nearest` rounds an exact decimal to the double next to it, ties going to the even
significand, and everything is done in whole numbers.
-/

namespace SchemaTypes.Decimal

/-- A double-precision number. A finite one stands for `significand * 2 ^ exponent`,
with the sign apart, so that the two zeros differ. -/
inductive Binary64
  | nan
  | infinite (negative : Bool)
  | finite (negative : Bool) (significand : Nat) (exponent : Int)
  deriving DecidableEq, Repr

namespace Binary64

/-- The exponent of the subnormal numbers, the least there is. -/
def leastExponent : Int := -1074

/-- The greatest exponent of a finite number. -/
def greatestExponent : Int := 971

/-- A significand has at most 53 binary digits. -/
def significandBound : Nat := twoTo 53

/-- Zero with the given sign. -/
def zero (negative : Bool) : Binary64 :=
  .finite negative 0 leastExponent

/-- The quotient rounded to the nearest whole number, a half going to the even one. -/
def roundDiv (num den : Nat) : Nat :=
  let q := num / den
  let r := num % den
  if 2 * r < den then q
  else if den < 2 * r then q + 1
  else if q % 2 = 0 then q else q + 1

/-- `num / den / 2 ^ k` as a quotient of whole numbers. -/
def scaled (num den : Nat) (k : Int) : Nat × Nat :=
  if 0 ≤ k then (num, den * twoTo k.toNat) else (num * twoTo (-k).toNat, den)

/-- The `k` with `2 ^ k ≤ num / den < 2 ^ (k + 1)`, for positive numbers. -/
def binaryOrder (num den : Nat) : Int :=
  let guess : Int := (num.log2 : Int) - (den.log2 : Int)
  let (n, d) := scaled num den guess
  if d ≤ n then guess else guess - 1

/-- The double nearest to the positive quotient, or `none` when that is past the
greatest finite one. -/
def ofQuotient (negative : Bool) (num den : Nat) : Option Binary64 :=
  let exponent := max (binaryOrder num den - 52) leastExponent
  let (n, d) := scaled num den exponent
  let significand := roundDiv n d
  let (significand, exponent) :=
    if significand = significandBound then (significand / 2, exponent + 1)
    else (significand, exponent)
  if exponent ≤ greatestExponent then some (.finite negative significand exponent) else none

/-- The double nearest to `coefficient * 10 ^ power`, or `none` when that is past the
greatest finite one. Powers far outside the range of doubles are settled by the
number of digits alone. -/
def nearest (negative : Bool) (coefficient : Nat) (power : Int) : Option Binary64 :=
  if coefficient = 0 then some (zero negative)
  else
    let order := power + (Nat.toDigits 10 coefficient).length
    if 400 < order then none
    else if order < -400 then some (zero negative)
    else if 0 ≤ power then ofQuotient negative (coefficient * tenTo power.toNat) 1
    else ofQuotient negative coefficient (tenTo (-power).toNat)

end Binary64

end SchemaTypes.Decimal
