import Mathlib.Data.List.Basic
import SchemaTypes.Json.Token
import SchemaTypes.Text.Quoted

/-!
# String literals

The grammar of JSON strings, apart from any reader. Between its quotes a string holds
characters that stand for themselves and escapes, each of which begins with a backslash
(`StandsFor`). No quote and no control character stands for itself, so the first quote that
is not part of an escape is the end.

> `StandsFor.stringBody_eq`: what stands for a text by the grammar is read as this text,
> whatever comes behind its closing quote.

So a literal stands for one text (`IsStringLiteral.unique`), even if something follows
(`IsStringLiteral.unique_of_append`). Text in quotes is such a literal of itself
(`isStringLiteral_quoted`).
-/

namespace SchemaTypes.Json

open Text (escapeChar hexDigit hexValues?)

/-! ## The grammar -/

/-- The letters behind a backslash, and the characters that they stand for. -/
def escapeLetters : List (Char × Char) :=
  [('"', '"'), ('\\', '\\'), ('/', '/'), ('b', '\x08'), ('f', '\x0c'), ('n', '\n'), ('r', '\r'),
   ('t', '\t')]

/-- The character can stand for itself between the quotes of a string. -/
structure Unescaped (c : Char) : Prop where
  quote : c ≠ '"'
  backslash : c ≠ '\\'
  control : 0x20 ≤ c.toNat

/-- The first characters, between the quotes of a string, stand for the second ones. -/
inductive StandsFor : List Char → List Char → Prop
  | nil : StandsFor [] []
  | plain {c : Char} {cs text : List Char} (hc : Unescaped c) (h : StandsFor cs text) :
      StandsFor (c :: cs) (c :: text)
  | letter {e c : Char} {cs text : List Char} (he : (e, c) ∈ escapeLetters)
      (h : StandsFor cs text) : StandsFor ('\\' :: e :: cs) (c :: text)
  /-- Four hexadecimal digits give the number of a character. -/
  | unit {a b c d : Char} {n : Nat} {cs text : List Char} (hn : hexValues? [a, b, c, d] = some n)
      (hopens : opensPair n = false) (hcloses : closesPair n = false) (h : StandsFor cs text) :
      StandsFor ('\\' :: 'u' :: a :: b :: c :: d :: cs) (Char.ofNat n :: text)
  /-- Two such numbers give a character that has a greater one. -/
  | pair {a b c d a' b' c' d' : Char} {high low : Nat} {cs text : List Char}
      (hhigh : hexValues? [a, b, c, d] = some high) (hlow : hexValues? [a', b', c', d'] = some low)
      (hopens : opensPair high) (hcloses : closesPair low) (h : StandsFor cs text) :
      StandsFor ('\\' :: 'u' :: a :: b :: c :: d :: '\\' :: 'u' :: a' :: b' :: c' :: d' :: cs)
        (pairChar high low :: text)

/-- The text `t` is a JSON string in its quotes, and stands for `s`. -/
def IsStringLiteral (t s : String) : Prop :=
  ∃ cs, t.toList = '"' :: (cs ++ ['"']) ∧ StandsFor cs s.toList

/-! ## Reading by the grammar -/

theorem Unescaped.stringBody_cons {c : Char} (h : Unescaped c) (rest : List Char) :
    stringBody (c :: rest) = consChar c (stringBody rest) := by
  rw [stringBody.eq_def]
  show (if c = '"' then _ else if c = '\\' then _ else if c.toNat < 0x20 then _ else _) = _
  rw [if_neg h.quote, if_neg h.backslash, if_neg (Nat.not_lt.mpr h.control)]

theorem stringBody_letter {e c : Char} (h : letterEscape? e = some c) (rest : List Char) :
    stringBody ('\\' :: e :: rest) = consChar c (stringBody rest) := by
  have hletter : e ≠ 'u' := by
    rintro rfl
    cases h
  rw [stringBody.eq_def]
  show (if '\\' = '"' then _ else if '\\' = '\\' then _ else _) = _
  rw [if_neg (by decide), if_pos rfl]
  simp only [hletter, if_false, h]

theorem letterEscape?_of_mem {e c : Char} (h : (e, c) ∈ escapeLetters) :
    letterEscape? e = some c := by
  have hall : ∀ p ∈ escapeLetters, letterEscape? p.1 = some p.2 := by decide
  exact hall (e, c) h

theorem closesPair_of_opensPair {n : Nat} (h : opensPair n) : closesPair n = false := by
  simp only [opensPair, Bool.and_eq_true, decide_eq_true_eq] at h
  rw [closesPair, decide_eq_false (by omega), Bool.false_and]

theorem stringBody_unit {a b c d : Char} {n : Nat} (hn : hexValues? [a, b, c, d] = some n)
    (hopens : opensPair n = false) (hcloses : closesPair n = false) (rest : List Char) :
    stringBody ('\\' :: 'u' :: a :: b :: c :: d :: rest)
      = consChar (Char.ofNat n) (stringBody rest) := by
  rw [stringBody, if_neg (by decide), if_pos rfl]
  simp only [if_true, hn, hopens, hcloses, Bool.false_eq_true, if_false]

theorem stringBody_pair {a b c d a' b' c' d' : Char} {high low : Nat}
    (hhigh : hexValues? [a, b, c, d] = some high) (hlow : hexValues? [a', b', c', d'] = some low)
    (hopens : opensPair high) (hcloses : closesPair low) (rest : List Char) :
    stringBody ('\\' :: 'u' :: a :: b :: c :: d :: '\\' :: 'u' :: a' :: b' :: c' :: d' :: rest)
      = consChar (pairChar high low) (stringBody rest) := by
  have hunit : closingUnit ('\\' :: 'u' :: a' :: b' :: c' :: d' :: rest) = .ok low := by
    simp only [closingUnit, hlow, hcloses, if_true]
  rw [stringBody, if_neg (by decide), if_pos rfl]
  simp only [if_true, hhigh, hopens, closesPair_of_opensPair hopens, hunit, Bool.false_eq_true,
    if_false]

/-- What stands for a text by the grammar is read as this text, up to its closing quote. -/
theorem StandsFor.stringBody_eq {cs text : List Char} (h : StandsFor cs text) (rest : List Char) :
    stringBody (cs ++ '"' :: rest) = (.ok text, rest) := by
  induction h with
  | nil =>
    show stringBody ('"' :: rest) = _
    rw [stringBody.eq_def]
    rfl
  | plain hc _ ih =>
    rw [List.cons_append, hc.stringBody_cons, ih]
    rfl
  | letter he _ ih =>
    rw [List.cons_append, List.cons_append, stringBody_letter (letterEscape?_of_mem he), ih]
    rfl
  | unit hn hopens hcloses _ ih =>
    simp only [List.cons_append]
    rw [stringBody_unit hn hopens hcloses, ih]
    rfl
  | pair hhigh hlow hopens hcloses _ ih =>
    simp only [List.cons_append]
    rw [stringBody_pair hhigh hlow hopens hcloses, ih]
    rfl

/-- Only nothing stands for nothing. -/
theorem StandsFor.eq_nil_iff {cs text : List Char} (h : StandsFor cs text) :
    cs = [] ↔ text = [] := by
  cases h with
  | nil => exact Iff.rfl
  | plain | letter | unit | pair => exact iff_of_false (List.cons_ne_nil _ _) (List.cons_ne_nil _ _)

theorem unescaped_of_hexValue? {c : Char} (h : Text.hexValue? c ≠ none) : Unescaped c := by
  have hle : ∀ {d : Char}, 0x20 ≤ d.toNat → d ≤ c → 0x20 ≤ c.toNat := fun hd hdc =>
    Nat.le_trans hd hdc
  refine ⟨?_, ?_, ?_⟩
  · rintro rfl
    exact absurd h (by decide)
  · rintro rfl
    exact absurd h (by decide)
  · unfold Text.hexValue? at h
    split at h
    · next hdigit => exact hle (by decide) hdigit.1
    · split at h
      · next hsmall => exact hle (by decide) hsmall.1
      · split at h
        · next hcapital => exact hle (by decide) hcapital.1
        · exact absurd rfl h

/-- Digits that give a number are all of them digits, whatever has been read before. -/
theorem hexValue?_ne_none_of_foldl {cs : List Char} {start : Option Nat} {n : Nat}
    (h : cs.foldl (fun n c => n.bind fun n => (Text.hexValue? c).map (16 * n + ·)) start = some n) :
    start ≠ none ∧ ∀ c ∈ cs, Text.hexValue? c ≠ none := by
  induction cs generalizing start with
  | nil =>
    rw [List.foldl_nil] at h
    exact ⟨by simp [h], List.forall_mem_nil _⟩
  | cons c cs ih =>
    rw [List.foldl_cons] at h
    obtain ⟨hhead, hrest⟩ := ih h
    refine ⟨fun hstart => hhead (by rw [hstart]; rfl), List.forall_mem_cons.mpr ⟨?_, hrest⟩⟩
    intro hnone
    refine hhead ?_
    rw [hnone]
    cases start <;> rfl

theorem unescaped_of_hexValues? {cs : List Char} {n : Nat} (h : hexValues? cs = some n) :
    ∀ c ∈ cs, Unescaped c := fun c hc =>
  unescaped_of_hexValue? ((hexValue?_ne_none_of_foldl h).2 c hc)

theorem StandsFor.no_control {cs text : List Char} (h : StandsFor cs text) :
    ∀ c ∈ cs, 0x20 ≤ c.toNat := by
  have hdigits : ∀ {ds cs : List Char} {n : Nat}, hexValues? ds = some n →
      (∀ c ∈ cs, 0x20 ≤ c.toNat) → ∀ c ∈ '\\' :: 'u' :: (ds ++ cs), 0x20 ≤ c.toNat := by
    intro ds cs n hn hcs
    rw [List.forall_mem_cons, List.forall_mem_cons, List.forall_mem_append]
    exact ⟨by decide, by decide, fun c hc => (unescaped_of_hexValues? hn c hc).control, hcs⟩
  induction h with
  | nil => exact List.forall_mem_nil _
  | plain hc _ ih => exact List.forall_mem_cons.mpr ⟨hc.control, ih⟩
  | @letter e c cs text he _ ih =>
    have hall : ∀ p ∈ escapeLetters, 0x20 ≤ p.1.toNat := by decide
    exact List.forall_mem_cons.mpr ⟨by decide, List.forall_mem_cons.mpr ⟨hall (e, c) he, ih⟩⟩
  | unit hn _ _ _ ih => exact hdigits hn ih
  | pair hhigh hlow _ _ _ ih => exact hdigits hhigh (hdigits hlow ih)

theorem StandsFor.length_le {cs text : List Char} (h : StandsFor cs text) :
    text.length ≤ cs.length := by
  induction h with
  | nil => exact Nat.le_refl 0
  | plain _ _ ih | letter _ _ ih | unit _ _ _ _ ih | pair _ _ _ _ _ ih =>
    simp only [List.length_cons]
    omega

namespace IsStringLiteral

variable {t t' s s' : String}

/-- A literal stands for one text only, and where it ends does not hang on what follows. -/
theorem unique_of_append (h : IsStringLiteral t s) (h' : IsStringLiteral t' s') {rest rest' : String}
    (heq : t ++ rest = t' ++ rest') : s = s' ∧ rest = rest' := by
  obtain ⟨cs, hchars, hstands⟩ := h
  obtain ⟨cs', hchars', hstands'⟩ := h'
  have htexts := congrArg String.toList heq
  rw [String.toList_append, String.toList_append, hchars, hchars', List.cons_append,
    List.cons_append, List.append_assoc, List.append_assoc] at htexts
  have hread := hstands.stringBody_eq rest.toList
  rw [show cs ++ '"' :: rest.toList = cs' ++ '"' :: rest'.toList from (List.cons.inj htexts).2,
    hstands'.stringBody_eq rest'.toList] at hread
  obtain ⟨htext, hrest⟩ := Prod.mk.inj hread
  exact ⟨(String.toList_inj.mp (Token.ok.inj htext)).symm, (String.toList_inj.mp hrest).symm⟩

theorem unique (h : IsStringLiteral t s) (h' : IsStringLiteral t s') : s = s' :=
  (h.unique_of_append h' (rfl : t ++ "" = t ++ "")).1

/-- A literal is longer than the text that it stands for. -/
theorem ne (h : IsStringLiteral t s) : t ≠ s := by
  rintro rfl
  obtain ⟨cs, hchars, hstands⟩ := h
  have hlength := hstands.length_le
  rw [hchars, List.length_cons, List.length_append] at hlength
  omega

theorem exists_cons (h : IsStringLiteral t s) : ∃ rest, t.toList = '"' :: rest := by
  obtain ⟨cs, hchars, _⟩ := h
  exact ⟨_, hchars⟩

/-- There are no control characters in a literal. -/
theorem no_control (h : IsStringLiteral t s) : ∀ c ∈ t.toList, 0x20 ≤ c.toNat := by
  obtain ⟨cs, hchars, hstands⟩ := h
  rw [hchars, List.forall_mem_cons, List.forall_mem_append, List.forall_mem_singleton]
  exact ⟨by decide, hstands.no_control, by decide⟩

/-- A literal has more in it than its quotes exactly if it stands for more than nothing. -/
theorem two_lt_utf8ByteSize_iff (h : IsStringLiteral t s) : 2 < t.utf8ByteSize ↔ s ≠ "" := by
  obtain ⟨cs, hchars, hstands⟩ := h
  have hempty : cs = [] ↔ s = "" := by rw [hstands.eq_nil_iff, String.toList_eq_nil_iff]
  have ht : t = "\"" ++ String.ofList cs ++ "\"" := String.toList_inj.mp (by simp [hchars])
  have hsize : t.utf8ByteSize = 1 + (String.ofList cs).utf8ByteSize + 1 := by
    rw [ht, String.utf8ByteSize_append, String.utf8ByteSize_append]
    rfl
  have hnone : (String.ofList cs).utf8ByteSize = 0 ↔ s = "" := by
    rw [String.utf8ByteSize_eq_zero_iff, String.ofList_eq_empty_iff, hempty]
  rw [hsize, ne_eq, ← hnone]
  omega

end IsStringLiteral

/-! ## Text in quotes -/

theorem hexValues?_hexDigit {n : Nat} (h : n < 32) :
    hexValues? ['0', '0', hexDigit (n / 16), hexDigit (n % 16)] = some n := by
  have hall : ∀ n < 32, hexValues? ['0', '0', hexDigit (n / 16), hexDigit (n % 16)] = some n := by
    decide
  exact hall n h

/-- What is written for a character stands for it. -/
theorem StandsFor.escapeChar {cs text : List Char} (c : Char) (h : StandsFor cs text) :
    StandsFor (Text.escapeChar c ++ cs) (c :: text) := by
  by_cases hletter : c ∈ ['"', '\\', '\x08', '\x0c', '\n', '\r', '\t']
  · simp only [List.mem_cons, List.not_mem_nil, or_false] at hletter
    rcases hletter with rfl | rfl | rfl | rfl | rfl | rfl | rfl <;> exact .letter (by decide) h
  · simp only [List.mem_cons, List.not_mem_nil, or_false, not_or] at hletter
    obtain ⟨hquote, hbackslash, hbell, hfeed, hline, hreturn, htab⟩ := hletter
    rw [Text.escapeChar, if_neg hquote, if_neg hbackslash, if_neg hbell, if_neg hfeed,
      if_neg hline, if_neg hreturn, if_neg htab]
    split
    · next hcontrol =>
      have hopens : opensPair c.toNat = false := by
        rw [opensPair, decide_eq_false (by omega), Bool.false_and]
      have hcloses : closesPair c.toNat = false := by
        rw [closesPair, decide_eq_false (by omega), Bool.false_and]
      have hunit := StandsFor.unit (hexValues?_hexDigit hcontrol) hopens hcloses h
      rwa [Char.ofNat_toNat] at hunit
    · next hcontrol => exact .plain ⟨hquote, hbackslash, Nat.not_lt.mp hcontrol⟩ h

theorem standsFor_escape (cs : List Char) : StandsFor (Text.escape cs) cs := by
  induction cs with
  | nil => exact .nil
  | cons c cs ih =>
    rw [Text.escape, List.flatMap_cons]
    exact ih.escapeChar c

/-- Text in quotes is a string literal that stands for this text. -/
theorem isStringLiteral_quoted (s : String) : IsStringLiteral (Text.quoted s) s :=
  ⟨Text.escape s.toList, Text.toList_quoted s, standsFor_escape s.toList⟩

/-- It stands for no other text. -/
theorem isStringLiteral_quoted_iff {s text : String} :
    IsStringLiteral (Text.quoted s) text ↔ text = s := by
  refine ⟨fun h => h.unique (isStringLiteral_quoted s), ?_⟩
  rintro rfl
  exact isStringLiteral_quoted text

end SchemaTypes.Json
