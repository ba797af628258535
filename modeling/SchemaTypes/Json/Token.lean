import SchemaTypes.Json.ReadError

/-!
# JSON tokens

A token read from a text has a value, or it stands for none. In the second case one
may still be able to read on behind it: a number out of range or half of a surrogate
pair has no value, but the token ends where it would. So a reader that only skips
the token passes where a reader of its value stops.
-/

namespace SchemaTypes.Json

/-- A token at some place of a text. -/
inductive Token (α : Type)
  /-- The token stands for this value. -/
  | ok (value : α)
  /-- The token is complete but stands for no value. -/
  | void (fault : Fault)
  /-- The token does not come to an end; a reader of values and one that skips may
  see this for different reasons. -/
  | stop (reading skipping : Fault)
  deriving DecidableEq, Repr

namespace Token

/-- The token with its value changed. -/
def map {α β : Type} (f : α → β) : Token α → Token β
  | .ok value => .ok (f value)
  | .void fault => .void fault
  | .stop reading skipping => .stop reading skipping

/-- The same token when a fault comes before it. -/
def spoil {α : Type} (fault : Fault) : Token α → Token α
  | .ok _ | .void _ => .void fault
  | .stop _ skipping => .stop fault skipping

/-- The value, or why there is none. -/
def value {α : Type} : Token α → Except Fault α
  | .ok value => .ok value
  | .void fault => .error fault
  | .stop reading _ => .error reading

/-- Why one cannot read on behind the token, if so. -/
def obstacle {α : Type} : Token α → Option Fault
  | .ok _ | .void _ => none
  | .stop _ skipping => some skipping

/-- A token that nobody can get past. -/
abbrev fail {α : Type} (fault : Fault) : Token α :=
  .stop fault fault

end Token

/-! ## White space and words -/

/-- The characters allowed between tokens. -/
def isSpace (c : Char) : Bool :=
  c == ' ' || c == '\t' || c == '\n' || c == '\r'

/-- The text from the next token on. -/
def skipSpace (cs : List Char) : List Char :=
  cs.dropWhile isSpace

/-- Reads the rest of a fixed word that stands for `value`. -/
def word {α : Type} (value : α) : List Char → List Char → Token α × List Char
  | [], cs => (.ok value, cs)
  | _ :: _, [] => (.fail .unfinished, [])
  | w :: ws, c :: cs => if c = w then word value ws cs else (.fail .malformed, cs)

/-! ## Strings -/

/-- Why the text does not start with four hexadecimal digits: it is too short for
them, counted in bytes, or something else stands there. -/
def hexFault (cs : List Char) : Fault :=
  if (String.ofList (cs.take 4)).utf8ByteSize < 4 then .unfinished else .malformed

/-- Units that open a surrogate pair. -/
def opensPair (n : Nat) : Bool := 0xD800 ≤ n && n ≤ 0xDBFF

/-- Units that close a surrogate pair. -/
def closesPair (n : Nat) : Bool := 0xDC00 ≤ n && n ≤ 0xDFFF

/-- The character of a surrogate pair. -/
def pairChar (high low : Nat) : Char :=
  Char.ofNat (0x10000 + (high - 0xD800) * 0x400 + (low - 0xDC00))

/-- The second unit of a surrogate pair, written as an escape at the start of the text. -/
def closingUnit : List Char → Except Fault Nat
  | [] | ['\\'] => .error .unfinished
  | '\\' :: 'u' :: a :: b :: c :: d :: _ =>
    match Text.hexValues? [a, b, c, d] with
    | none => .error .malformed
    | some n => if closesPair n then .ok n else .error .malformed
  | '\\' :: 'u' :: cs => .error (hexFault cs)
  | _ => .error .malformed

/-- The character of a one-letter escape. -/
def letterEscape? (c : Char) : Option Char :=
  if c = '"' ∨ c = '\\' ∨ c = '/' then some c
  else if c = 'b' then some '\x08'
  else if c = 'f' then some '\x0c'
  else if c = 'n' then some '\n'
  else if c = 'r' then some '\r'
  else if c = 't' then some '\t'
  else none

/-- Puts a character in front of a string that has been read. -/
def consChar (c : Char) (p : Token (List Char) × List Char) : Token (List Char) × List Char :=
  (p.1.map (c :: ·), p.2)

/-- Marks a string that has been read as one without a value. -/
def spoilString (f : Fault) (p : Token (List Char) × List Char) :
    Token (List Char) × List Char :=
  (p.1.spoil f, p.2)

/-- Reads a string from behind its opening quote, and gives the text behind it. -/
def stringBody : List Char → Token (List Char) × List Char
  | [] => (.fail .unfinished, [])
  | c :: cs =>
    if c = '"' then (.ok [], cs)
    else if c = '\\' then
      match cs with
      | [] => (.fail .unfinished, [])
      | e :: cs =>
        if e = 'u' then
          match cs with
          | h₁ :: h₂ :: h₃ :: h₄ :: cs =>
            match Text.hexValues? [h₁, h₂, h₃, h₄] with
            | none => (.fail .malformed, cs)
            | some n =>
              if closesPair n then spoilString .malformed (stringBody cs)
              else if opensPair n then
                match closingUnit cs with
                | .error f => spoilString f (stringBody cs)
                | .ok low =>
                  match cs with
                  | _ :: _ :: _ :: _ :: _ :: _ :: cs => consChar (pairChar n low) (stringBody cs)
                  | _ => (.fail .unfinished, [])
              else consChar (Char.ofNat n) (stringBody cs)
          | cs => (.fail (hexFault cs), cs)
        else
          match letterEscape? e with
          | none => (.fail .malformed, cs)
          | some c => consChar c (stringBody cs)
    else if c.toNat < 0x20 then (.fail .malformed, cs)
    else consChar c (stringBody cs)

/-- Reads a string from behind its opening quote. -/
def stringToken (cs : List Char) : Token String × List Char :=
  let (t, rest) := stringBody cs
  (t.map String.ofList, rest)

/-! ## Numbers -/

/-- The whole number written by decimal digits. -/
def digitsValue (ds : List Char) : Nat :=
  ds.foldl (fun n d => 10 * n + (d.toNat - 48)) 0

/-- Splits off the decimal digits at the start. -/
def splitDigits (cs : List Char) : List Char × List Char :=
  (cs.takeWhile Char.isDigit, cs.dropWhile Char.isDigit)

/-- Why no digit stands where one must: a reader of values tells the end of the text
from another character, one that skips does not. -/
def noDigit {α : Type} : List Char → Token α
  | [] => .stop .unfinished .malformed
  | _ :: _ => .fail .malformed

/-- The double `coefficient * 10 ^ power`; one past the greatest has no value. -/
def doubleToken (negative : Bool) (coefficient : Nat) (power : Int) : Token Scalar :=
  match Decimal.Binary64.nearest negative coefficient power with
  | some x => .ok (.float x)
  | none => .void .malformed

/-- A whole number without fraction and exponent: an integer when it is one of 64 bits,
signed or not, and otherwise a double. Minus zero is a double. -/
def wholeNumber (negative : Bool) (n : Nat) : Token Scalar :=
  if negative then
    if 0 < n ∧ n ≤ Decimal.twoTo 63 then .ok (.integer (-n)) else doubleToken true n 0
  else if n < Decimal.twoTo 64 then .ok (.integer n)
  else doubleToken false n 0

/-- Splits off the sign of an exponent; true for a minus. -/
def splitSign : List Char → Bool × List Char
  | '-' :: cs => (true, cs)
  | '+' :: cs => (false, cs)
  | cs => (false, cs)

/-- Reads the exponent from behind its letter. -/
def exponentPart (negative : Bool) (coefficient : Nat) (power : Int) (cs : List Char) :
    Token Scalar × List Char :=
  let (minus, cs) := splitSign cs
  let (ds, rest) := splitDigits cs
  if ds.isEmpty then (noDigit rest, rest)
  else
    let e : Int := digitsValue ds
    (doubleToken negative coefficient (if minus then power - e else power + e), rest)

/-- Whether the text goes on with an exponent. -/
def startsExponent : List Char → Bool
  | 'e' :: _ | 'E' :: _ => true
  | _ => false

/-- Reads what follows the whole part of a number. -/
def numberTail (negative : Bool) (whole : List Char) (cs : List Char) :
    Token Scalar × List Char :=
  match cs with
  | '.' :: cs =>
    let (ds, rest) := splitDigits cs
    if ds.isEmpty then (noDigit rest, rest)
    else
      let coefficient := digitsValue (whole ++ ds)
      let power : Int := -ds.length
      if startsExponent rest then exponentPart negative coefficient power (rest.drop 1)
      else (doubleToken negative coefficient power, rest)
  | _ =>
    if startsExponent cs then exponentPart negative (digitsValue whole) 0 (cs.drop 1)
    else (wholeNumber negative (digitsValue whole), cs)

/-- Reads a number from behind its sign. -/
def numberBody (negative : Bool) (cs : List Char) : Token Scalar × List Char :=
  let (ds, rest) := splitDigits cs
  match ds with
  | [] => (noDigit rest, rest)
  | '0' :: _ :: _ => (.fail .malformed, rest)
  | _ => numberTail negative ds rest

/-- Reads a value that has no parts and is no string; `c` is its first character. -/
def scalarToken (c : Char) (cs : List Char) : Token Scalar × List Char :=
  if c = 'n' then word .null ['u', 'l', 'l'] cs
  else if c = 't' then word (.boolean true) ['r', 'u', 'e'] cs
  else if c = 'f' then word (.boolean false) ['a', 'l', 's', 'e'] cs
  else if c = '-' then numberBody true cs
  else if c.isDigit then numberBody false (c :: cs)
  else (.fail .malformed, cs)

end SchemaTypes.Json
