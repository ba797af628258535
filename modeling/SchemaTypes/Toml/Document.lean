import SchemaTypes.Toml.Table
import SchemaTypes.Toml.Text

/-!
# Documents in TOML

A document is a list of lines: headings, and assignments to the keys of the table that
the last heading names. This is the part of TOML in which values are strings, truth
values, tables, and arrays without items; a document with anything else in it, such as
a number or a date, is refused.
-/

namespace SchemaTypes.Toml

/-! ## Keys and values -/

/-- A key from its first part on; the count bounds the parts. -/
def keyPath : Nat → List Char → Option (KeyPath × List Char)
  | 0, _ => none
  | n + 1, cs => do
    let (part, rest) ← key (skipBlanks cs)
    match skipBlanks rest with
    | '.' :: rest =>
      let (p, rest) ← keyPath n rest
      return (p.cons (String.ofList part), rest)
    | rest => return (⟨[], String.ofList part⟩, rest)

mutual

/-- A value; the count bounds the tables in it and their entries. -/
def value : Nat → List Char → Option (Value × List Char)
  | 0, _ => none
  | _, 't' :: 'r' :: 'u' :: 'e' :: cs => some (.boolean true, cs)
  | _, 'f' :: 'a' :: 'l' :: 's' :: 'e' :: cs => some (.boolean false, cs)
  | _, '[' :: cs =>
    match skipFiller false cs with
    | some (']' :: rest) => some (.emptyArray, rest)
    | _ => none
  | n + 1, '{' :: cs =>
    match skipBlanks cs with
    | '}' :: rest => some (.table .inline [], rest)
    | cs => (inlineEntries n [] cs).map fun (entries, rest) => (.table .inline entries, rest)
  | _, cs => (string cs).map fun (text, rest) => (.string (String.ofList text), rest)

/-- The entries of a table in braces from a place where one is due, behind those that
were read before. -/
def inlineEntries : Nat → Entries → List Char → Option (Entries × List Char)
  | 0, _, _ => none
  | n + 1, entries, cs => do
    let (p, rest) ← keyPath (cs.length + 1) cs
    match rest with
    | '=' :: rest =>
      let (v, rest) ← value n (skipBlanks rest)
      let entries ← entries.assign p v
      match skipBlanks rest with
      | '}' :: rest => return (entries, rest)
      | ',' :: rest => inlineEntries n entries rest
      | _ => none
    | _ => none

end

/-! ## Lines -/

/-- A line that says something. -/
inductive Line
  | heading (path : KeyPath)
  | assignment (path : KeyPath) (value : Value)
  deriving Repr

/-- A line and the end of it. -/
def line : List Char → Option (Line × List Char)
  | '[' :: cs => do
    let (p, rest) ← keyPath (cs.length + 1) cs
    match rest with
    | ']' :: rest => return (.heading p, ← lineEnd? rest)
    | _ => none
  | cs => do
    let (p, rest) ← keyPath (cs.length + 1) cs
    match rest with
    | '=' :: rest =>
      let (v, rest) ← value (rest.length + 1) (skipBlanks rest)
      return (.assignment p v, ← lineEnd? rest)
    | _ => none

/-- The lines of a text that say something; the count bounds all lines. -/
def lines : Nat → List Char → Option (List Line)
  | 0, _ => none
  | _, [] => some []
  | n + 1, c :: cs =>
    match lineEnd? (c :: cs) with
    | some rest => lines n rest
    | none => do
      let (l, rest) ← line (skipBlanks (c :: cs))
      return l :: (← lines n rest)

/-! ## Documents -/

/-- The entries with those that the lines make, where assignments go to the table with
this heading. -/
def build (heading : List String) (entries : Entries) : List Line → Option Entries
  | [] => some entries
  | .heading p :: rest => do
    build p.toList (← entries.openTable p) rest
  | .assignment p v :: rest => do
    build heading (← entries.under heading (fun inner => inner.assign p v)) rest

/-- The mark that may stand at the start of a text to show how it is encoded. -/
def byteOrderMark : Char := '\uFEFF'

/-- The entries of a document. -/
def parse (text : String) : Option Entries := do
  let cs := match text.toList with
    | [] => []
    | c :: cs => if c = byteOrderMark then cs else c :: cs
  build [] [] (← lines (cs.length + 1) cs)

end SchemaTypes.Toml
