import SchemaTypes.Decimal.Shortest

/-!
# How numbers are laid out

Numbers are written with the shortest digits that read back. A layout says between
which powers of ten the digits are written out in place and that a whole number keeps
a fraction of one zero; beyond, the power of ten follows with its sign. Not-a-number
and the infinities have no decimal form and are written `null`.

Literal types follow the same layout with one exception: a whole number below
`10 ^ 21` is written with all its digits and no fraction.
-/

namespace SchemaTypes.Decimal

/-- The powers of ten of the first digit between which a number is written in place. -/
structure Layout where
  least : Int
  greatest : Int
  deriving DecidableEq, Repr

/-- Numbers in JSON are written in place from `10 ^ -5` up to, not including, `10 ^ 16`. -/
def jsonLayout : Layout := ⟨-5, 15⟩

/-- A run of zeros. -/
def zeros (n : Nat) : List Char :=
  List.replicate n '0'

/-- The decimal digits of a whole number. -/
def natChars (n : Nat) : List Char :=
  Nat.toDigits 10 n

/-- The decimal digits of a whole number, after a minus sign when it is negative. -/
def intChars : Int → List Char
  | .ofNat n => natChars n
  | .negSucc n => '-' :: natChars (n + 1)

/-- The digits in place. -/
def positional (d : Digits) : List Char :=
  if d.order < 0 then '0' :: '.' :: (zeros (-d.order - 1).toNat ++ d.digits)
  else
    let whole := d.order.toNat + 1
    let fraction := d.digits.drop whole
    d.digits.take whole ++ zeros (whole - d.digits.length) ++ '.' ::
      (if fraction.isEmpty then ['0'] else fraction)

/-- The digits with the power of ten of the first. -/
def scientific (d : Digits) : List Char :=
  let exponent := if d.order < 0 then intChars d.order else '+' :: intChars d.order
  match d.digits with
  | [] => []
  | [c] => c :: 'e' :: exponent
  | c :: rest => c :: '.' :: (rest ++ 'e' :: exponent)

/-- The digits as the layout has them. -/
def Layout.chars (layout : Layout) (d : Digits) : List Char :=
  if layout.least ≤ d.order ∧ d.order ≤ layout.greatest then positional d else scientific d

/-- A minus sign for a negative number. -/
def signChars (negative : Bool) : List Char :=
  if negative then ['-'] else []

namespace Binary64

/-- The number as JSON text. -/
def jsonChars : Binary64 → List Char
  | .nan | .infinite _ => ['n', 'u', 'l', 'l']
  | .finite negative 0 _ => signChars negative ++ ['0', '.', '0']
  | .finite negative m q => signChars negative ++ jsonLayout.chars (shortest m q)

/-- The whole number `m * 2 ^ q`, if it is one. -/
def whole? (m : Nat) (q : Int) : Option Nat :=
  if 0 ≤ q then some (m * twoTo q.toNat)
  else if m % twoTo (-q).toNat = 0 then some (m / twoTo (-q).toNat) else none

/-- Whole numbers from here on are written with a power of ten. -/
def wholeBound : Nat := tenTo 21

/-- The number as a literal type. -/
def literalChars : Binary64 → List Char
  | .finite _ 0 _ => ['0']
  | .finite negative m q =>
    match whole? m q with
    | some n =>
      if n < wholeBound then signChars negative ++ natChars n else jsonChars (.finite negative m q)
    | none => jsonChars (.finite negative m q)
  | x => jsonChars x

end Binary64

end SchemaTypes.Decimal
