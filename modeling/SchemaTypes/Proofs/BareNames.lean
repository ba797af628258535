import SchemaTypes.Proofs.LetterCase
import SchemaTypes.Text.Ascii

/-!
# Identifiers

An identifier is a letter, `_` or `$`, with letters, digits, `_` and `$` behind it, where
letters and digits are those of ASCII (`IsIdentifier`). The names that can stand as a key
without quotes are just these:

> `isBareName_iff`: a text passes as a bare name exactly if it is an identifier.

Not every identifier can be declared. Some words have a meaning of their own in the
generated code (`reservedWords`), and all of them begin with a small letter.
-/

namespace SchemaTypes.Text

/-- A letter of ASCII. -/
def IsLetter (c : Char) : Prop := 'A' ≤ c ∧ c ≤ 'Z' ∨ 'a' ≤ c ∧ c ≤ 'z'

/-- A digit of ASCII. -/
def IsDigit (c : Char) : Prop := '0' ≤ c ∧ c ≤ '9'

/-- An identifier, spelled in ASCII. -/
def IsIdentifier (s : String) : Prop :=
  ∃ first rest, s.toList = first :: rest ∧ (IsLetter first ∨ first = '_' ∨ first = '$')
    ∧ ∀ c ∈ rest, IsLetter c ∨ IsDigit c ∨ c = '_' ∨ c = '$'

theorem isAlpha_iff {c : Char} : c.isAlpha ↔ IsLetter c := by
  rw [Char.isAlpha, Bool.or_eq_true, isUpper_iff, isLower_iff]
  exact Iff.rfl

theorem isDigit_iff {c : Char} : c.isDigit ↔ IsDigit c :=
  Char.isDigit_iff_toNat

theorem opensName_iff {c : Char} : opensName c ↔ IsLetter c ∨ c = '_' ∨ c = '$' := by
  rw [opensName, Bool.or_eq_true, Bool.or_eq_true, isAlpha_iff, beq_iff_eq, beq_iff_eq, or_assoc]

theorem continuesName_iff {c : Char} :
    continuesName c ↔ IsLetter c ∨ IsDigit c ∨ c = '_' ∨ c = '$' := by
  rw [continuesName, Char.isAlphanum, Bool.or_eq_true, Bool.or_eq_true, Bool.or_eq_true,
    isAlpha_iff, isDigit_iff, beq_iff_eq, beq_iff_eq, or_assoc, or_assoc]

/-- A text passes as a bare name exactly if it is an identifier. -/
theorem isBareName_iff {s : String} : isBareName s.toList ↔ IsIdentifier s := by
  unfold IsIdentifier
  cases s.toList with
  | nil =>
    refine ⟨fun h => (by cases h), ?_⟩
    rintro ⟨first, rest, hchars, _⟩
    cases hchars
  | cons c cs =>
    rw [isBareName, Bool.and_eq_true, List.all_eq_true, opensName_iff]
    constructor
    · rintro ⟨hopens, hrest⟩
      exact ⟨c, cs, rfl, hopens, fun d hd => continuesName_iff.mp (hrest d hd)⟩
    · rintro ⟨first, rest, hchars, hopens, hrest⟩
      obtain ⟨rfl, rfl⟩ := List.cons.inj hchars
      exact ⟨hopens, fun d hd => continuesName_iff.mpr (hrest d hd)⟩

instance (s : String) : Decidable (IsIdentifier s) :=
  decidable_of_iff _ isBareName_iff

/-! ## Words that are taken -/

/-- The words that a declaration cannot have as its name: keywords, literals, the names of
the types that are built in, and two that modules keep for themselves. -/
def reservedWords : List String :=
  ["break", "case", "catch", "class", "const", "continue", "debugger", "default", "delete",
   "do", "else", "enum", "export", "extends", "false", "finally", "for", "function", "if",
   "import", "in", "instanceof", "new", "null", "return", "super", "switch", "this", "throw",
   "true", "try", "typeof", "var", "void", "while", "with", "implements", "interface", "let",
   "package", "private", "protected", "public", "static", "yield", "await", "any", "bigint",
   "boolean", "never", "number", "object", "string", "symbol", "undefined", "unknown",
   "arguments", "eval"]

theorem reservedWords_head :
    ∀ word ∈ reservedWords, ∃ first rest, word.toList = first :: rest ∧ first.isLower := by
  have hlower : ∀ word ∈ reservedWords, word.toList.head?.any Char.isLower := by decide
  intro word hword
  have h := hlower word hword
  cases hchars : word.toList with
  | nil => rw [hchars] at h; cases h
  | cons first rest => exact ⟨first, rest, rfl, by rwa [hchars] at h⟩

end SchemaTypes.Text
