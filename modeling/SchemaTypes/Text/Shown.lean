import SchemaTypes.Text.Hex
import SchemaTypes.Text.Hidden

/-!
# Text inside a message

A message that speaks of a text shows it in double quotes. Here the escapes are those
for a human reader: `\0`, `\t`, `\n`, `\r`, the quote and the backslash have a short
form, and every other character that cannot be seen is written as its number in
braces.
-/

namespace SchemaTypes.Text

/-- One character as a message shows it. -/
def showChar (c : Char) : List Char :=
  if c = '\x00' then ['\\', '0']
  else if c = '\t' then ['\\', 't']
  else if c = '\n' then ['\\', 'n']
  else if c = '\r' then ['\\', 'r']
  else if c = '"' then ['\\', '"']
  else if c = '\\' then ['\\', '\\']
  else if isHidden c then ['\\', 'u', '{'] ++ hexNumber c.toNat ++ ['}']
  else [c]

/-- The text as a message shows it, in double quotes. -/
def shown (s : String) : String :=
  String.ofList ('"' :: (s.toList.flatMap showChar ++ ['"']))

end SchemaTypes.Text
