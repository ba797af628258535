import SchemaTypes.Text.Hex

/-!
# Quoted text

Text in double quotes, the form of strings in JSON and in the generated code. The
quote, the backslash and the control characters below U+0020 are escaped, five of
them by a letter and the others by four hexadecimal digits; every other character
stands for itself.
-/

namespace SchemaTypes.Text

/-- One character as it is written between quotes. -/
def escapeChar (c : Char) : List Char :=
  if c = '"' then ['\\', '"']
  else if c = '\\' then ['\\', '\\']
  else if c = '\x08' then ['\\', 'b']
  else if c = '\x0c' then ['\\', 'f']
  else if c = '\n' then ['\\', 'n']
  else if c = '\r' then ['\\', 'r']
  else if c = '\t' then ['\\', 't']
  else if c.toNat < 0x20 then
    ['\\', 'u', '0', '0', hexDigit (c.toNat / 16), hexDigit (c.toNat % 16)]
  else [c]

/-- The characters as they are written between quotes. -/
def escape (cs : List Char) : List Char :=
  cs.flatMap escapeChar

/-- The characters in quotes. -/
def quotedChars (cs : List Char) : List Char :=
  '"' :: (escape cs ++ ['"'])

/-- The text in quotes. -/
def quoted (s : String) : String :=
  String.ofList (quotedChars s.toList)

@[simp] theorem toList_quoted (s : String) : (quoted s).toList = quotedChars s.toList := by
  simp [quoted]

end SchemaTypes.Text
