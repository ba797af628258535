import SchemaTypes.Text.Hex

/-!
# Text in TOML

Blanks, comments and ends of lines, the four kinds of strings, and the parts of keys.
Each reader gives what it read and the text behind it.
-/

namespace SchemaTypes.Toml

/-! ## Characters -/

/-- Blanks within a line. -/
def isBlank (c : Char) : Bool := c == ' ' || c == '\t'

/-- The text without the blanks at its start. -/
def skipBlanks (cs : List Char) : List Char := cs.dropWhile isBlank

/-- Characters that may stand in comments and strings. -/
def isPlain (c : Char) : Bool :=
  c == '\t' || (0x20 ≤ c.toNat && c.toNat != 0x7F)

/-- Characters of bare keys. -/
def isKeyChar (c : Char) : Bool :=
  c.isAlphanum || c == '_' || c == '-'

/-- The text behind the end of a line. -/
def newline? : List Char → Option (List Char)
  | '\n' :: cs => some cs
  | '\r' :: '\n' :: cs => some cs
  | _ => none

/-- The text behind blanks, a comment and the end of a line, or of the document. -/
def lineEnd? (cs : List Char) : Option (List Char) :=
  let cs := match skipBlanks cs with
    | '#' :: rest => rest.dropWhile isPlain
    | rest => rest
  match cs with
  | [] => some []
  | cs => newline? cs

/-- The text behind blanks, comments and ends of lines; a comment has to end with its
line. `inComment` says whether the text starts inside one. -/
def skipFiller : Bool → List Char → Option (List Char)
  | _, '\n' :: cs | _, '\r' :: '\n' :: cs => skipFiller false cs
  | false, '#' :: cs => skipFiller true cs
  | false, c :: cs => if isBlank c then skipFiller false cs else some (c :: cs)
  | true, c :: cs => if isPlain c then skipFiller true cs else none
  | inComment, [] => if inComment then none else some []

/-! ## Strings -/

/-- The character with this number. -/
def scalarChar? (n : Nat) : Option Char :=
  if n < 0xD800 ∨ (0xE000 ≤ n ∧ n ≤ 0x10FFFF) then some (Char.ofNat n) else none

/-- The character written by so many hexadecimal digits. -/
def numbered (digits : Nat) (cs : List Char) : Option (Char × List Char) := do
  guard (digits ≤ cs.length)
  let n ← Text.hexValues? (cs.take digits)
  return (← scalarChar? n, cs.drop digits)

/-- The character of an escape, from behind the backslash. -/
def escaped : List Char → Option (Char × List Char)
  | 'b' :: cs => some ('\x08', cs)
  | 't' :: cs => some ('\t', cs)
  | 'n' :: cs => some ('\n', cs)
  | 'f' :: cs => some ('\x0c', cs)
  | 'r' :: cs => some ('\r', cs)
  | '"' :: cs => some ('"', cs)
  | '\\' :: cs => some ('\\', cs)
  | 'u' :: cs => numbered 4 cs
  | 'U' :: cs => numbered 8 cs
  | _ => none

/-- Puts a character in front of a string that was read. -/
def consChar (c : Char) (p : List Char × List Char) : List Char × List Char :=
  (c :: p.1, p.2)

/-- A string in double quotes on one line, from behind the first of them; the count
bounds its length. -/
def basicString : Nat → List Char → Option (List Char × List Char)
  | 0, _ | _, [] => none
  | n + 1, c :: cs =>
    if c = '"' then some ([], cs)
    else if c = '\\' then do
      let (c, cs) ← escaped cs
      return consChar c (← basicString n cs)
    else if isPlain c then consChar c <$> basicString n cs
    else none

/-- A string in single quotes on one line, from behind the first of them. -/
def literalString : List Char → Option (List Char × List Char)
  | [] => none
  | c :: cs =>
    if c = '\'' then some ([], cs)
    else if isPlain c then consChar c <$> literalString cs
    else none

/-- The end of a string in three quotes: up to two more belong to the string. -/
def closing? (quote : Char) (cs : List Char) : Option (Option (List Char × List Char)) :=
  let quotes := (cs.takeWhile (· == quote)).length
  if quotes < 3 then none
  else if 5 < quotes then some none
  else some (some (List.replicate (quotes - 3) quote, cs.drop quotes))

/-- The text without the blanks and ends of lines at its start. -/
def skipLines : List Char → List Char
  | ' ' :: cs | '\t' :: cs | '\n' :: cs | '\r' :: '\n' :: cs => skipLines cs
  | cs => cs

/-- The text behind a backslash at the end of a line: all blanks and ends of lines are
left out. -/
def continuation? (cs : List Char) : Option (List Char) :=
  (newline? (skipBlanks cs)).map skipLines

/-- A string in three quotes, from behind them; `escapes` says whether a backslash has a
meaning in it, and the count bounds its length. -/
def longString (quote : Char) (escapes : Bool) : Nat → List Char → Option (List Char × List Char)
  | 0, _ => none
  | n + 1, cs =>
    match closing? quote cs with
    | some result => result
    | none =>
      match newline? cs, cs with
      | some cs, _ => consChar '\n' <$> longString quote escapes n cs
      | none, [] => none
      | none, c :: cs =>
        if escapes && c == '\\' then
          match continuation? cs with
          | some cs => longString quote escapes n cs
          | none => do
            let (c, cs) ← escaped cs
            return consChar c (← longString quote escapes n cs)
        else if isPlain c then consChar c <$> longString quote escapes n cs
        else none

/-- The text without the end of a line that it starts with. -/
def dropFirstNewline (cs : List Char) : List Char :=
  (newline? cs).getD cs

/-- A string of any kind. -/
def string : List Char → Option (List Char × List Char)
  | '"' :: '"' :: '"' :: cs => longString '"' true (cs.length + 1) (dropFirstNewline cs)
  | '"' :: cs => basicString (cs.length + 1) cs
  | '\'' :: '\'' :: '\'' :: cs => longString '\'' false (cs.length + 1) (dropFirstNewline cs)
  | '\'' :: cs => literalString cs
  | _ => none

/-! ## Keys -/

/-- One part of a key, bare or in quotes; three quotes open none. -/
def key (cs : List Char) : Option (List Char × List Char) :=
  match cs with
  | '"' :: rest => basicString (rest.length + 1) rest
  | '\'' :: rest => literalString rest
  | _ =>
    let name := cs.takeWhile isKeyChar
    if name.isEmpty then none else some (name, cs.dropWhile isKeyChar)

end SchemaTypes.Toml
