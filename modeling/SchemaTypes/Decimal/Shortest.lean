import SchemaTypes.Decimal.Binary64

/-!
# The shortest decimal of a double

Of all decimals that are nearer to a double than to any other, and so read back as
it, the shortest is written, and of those the one nearest to the double itself.

The reals that round to `m * 2 ^ q` form an interval around it. For one, two, …
seventeen digits the two multiples of a power of ten on either side of the double
are tried; the first grid with one of them inside the interval gives the answer.
-/

namespace SchemaTypes.Decimal

/-- A positive decimal: its digits, most significant first and without zeros at the
end, and the power of ten of the first of them. -/
structure Digits where
  digits : List Char
  order : Int
  deriving DecidableEq, Repr

/-- The interval of the reals that round to a double: the double and the two ends as
multiples of one unit fraction `1 / denominator`, and whether the ends belong to it. -/
structure Interval where
  value : Nat
  low : Nat
  high : Nat
  denominator : Nat
  closed : Bool

namespace Interval

/-- The interval around the double `m * 2 ^ q`. Below a power of two the next double
is only half as far away; the ends round to the double when its significand is even. -/
def around (m : Nat) (q : Int) : Interval :=
  let below := if m = twoTo 52 ∧ Binary64.leastExponent < q then 1 else 2
  let scale := if 2 ≤ q then twoTo (q - 2).toNat else 1
  { value := 4 * m * scale
    low := (4 * m - below) * scale
    high := (4 * m + 2) * scale
    denominator := if 2 ≤ q then 1 else twoTo (2 - q).toNat
    closed := m % 2 = 0 }

/-- The power of ten `k` with `10 ^ k ≤ value < 10 ^ (k + 1)`. -/
def order (i : Interval) : Int :=
  let guess : Int :=
    ((Nat.toDigits 10 i.value).length : Int) - (Nat.toDigits 10 i.denominator).length
  let reached :=
    if 0 ≤ guess then i.denominator * tenTo guess.toNat ≤ i.value
    else i.denominator ≤ i.value * tenTo (-guess).toNat
  if reached then guess else guess - 1

/-- The multiple of `10 ^ k` that is inside the interval and nearest to the double,
the even one of two equally near. -/
def gridPoint (i : Interval) (k : Int) : Option Nat :=
  let unit := if 0 ≤ k then i.denominator * tenTo k.toNat else i.denominator
  let factor := if 0 ≤ k then 1 else tenTo (-k).toNat
  let inside (d : Nat) : Bool :=
    let x := d * unit
    if i.closed then i.low * factor ≤ x && x ≤ i.high * factor
    else i.low * factor < x && x < i.high * factor
  let lower := i.value * factor / unit
  let upper := lower + 1
  match inside lower, inside upper with
  | false, false => none
  | true, false => some lower
  | false, true => some upper
  | true, true =>
    let down := i.value * factor - lower * unit
    let up := upper * unit - i.value * factor
    if down < up then some lower
    else if up < down then some upper
    else if lower % 2 = 0 then some lower else some upper

/-- The first grid with a point inside the interval, from `10 ^ k` downwards. -/
def search (i : Interval) : Nat → Int → Nat × Int
  | 0, k => (i.value / i.denominator, k)
  | n + 1, k =>
    match i.gridPoint k with
    | some d => (d, k)
    | none => search i n (k - 1)

end Interval

/-- The text without the zeros at its end. -/
def dropLastZeros (ds : List Char) : List Char :=
  (ds.reverse.dropWhile (· == '0')).reverse

/-- The shortest decimal that reads back as the positive double `m * 2 ^ q`. -/
def shortest (m : Nat) (q : Int) : Digits :=
  let i := Interval.around m q
  let (d, k) := i.search 17 i.order
  let ds := Nat.toDigits 10 d
  { digits := dropLastZeros ds, order := k + ds.length - 1 }

end SchemaTypes.Decimal
