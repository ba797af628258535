import SchemaTypes.Proofs.BareNames
import SchemaTypes.Proofs.Descriptions
import SchemaTypes.Proofs.WrittenForms

/-!
# Keys and literals that can be told apart

A key is written as it stands if it is an identifier, and else as a string that stands for
it. An identifier does not begin with a quote, and nothing in it is a colon, so either
form can be read up to its end:

> `keyText_append_colon`: what is written for a key, and the colon behind it, tells the key
> and what follows.

In both forms a property's text has its key behind a comment that can be read up to its
end as well (`key_eq_of_opening`). Literals that are no strings have no quote in them.

> `keys_and_literals_readable`: all of this for every key, every property and every
> literal.
-/

namespace SchemaTypes.Render

open Text Rendered

/-! ## Keys -/

theorem keyText_of_isIdentifier {key : String} (h : IsIdentifier key) : keyText key = key :=
  if_pos (isBareName_iff.mpr h)

theorem isStringLiteral_keyText {key : String} (h : ¬IsIdentifier key) :
    Json.IsStringLiteral (keyText key) key := by
  rw [keyText, if_neg (isBareName_iff.not.mpr h)]
  exact Json.isStringLiteral_quoted key

/-- A key is written as it stands exactly if it is an identifier. -/
theorem keyText_eq_self_iff {key : String} : keyText key = key ↔ IsIdentifier key := by
  refine ⟨fun h => ?_, keyText_of_isIdentifier⟩
  by_contra hnot
  exact (isStringLiteral_keyText hnot).ne h

theorem continuesName_of_isIdentifier {key : String} (h : IsIdentifier key) :
    ∀ c ∈ key.toList, continuesName c :=
  continuesName_of_isBareName (isBareName_iff.mpr h)

/-- What is written for a key begins with a quote, or as a name does. -/
theorem keyText_head (key : String) :
    ∃ first rest, (keyText key).toList = first :: rest ∧ (first = '"' ∨ continuesName first) := by
  by_cases h : IsIdentifier key
  · have hall := continuesName_of_isIdentifier h
    rw [keyText_of_isIdentifier h]
    obtain ⟨first, rest, hchars, _⟩ := h
    rw [hchars] at hall
    exact ⟨first, rest, hchars, .inr (hall first List.mem_cons_self)⟩
  · obtain ⟨rest, hchars⟩ := (isStringLiteral_keyText h).exists_cons
    exact ⟨'"', rest, hchars, .inl rfl⟩

/-- No identifier begins as a string does. -/
theorem identifier_append_ne_literal {key t s rest rest' : String} (hkey : IsIdentifier key)
    (ht : Json.IsStringLiteral t s) : key ++ rest ≠ t ++ rest' := by
  intro heq
  have hall := continuesName_of_isIdentifier hkey
  obtain ⟨first, more, hchars, _⟩ := hkey
  obtain ⟨more', hchars'⟩ := ht.exists_cons
  have htexts := congrArg String.toList heq
  rw [String.toList_append, String.toList_append, hchars, hchars'] at htexts
  have hfirst : first = '"' := (List.cons.inj htexts).1
  rw [hchars, hfirst] at hall
  exact absurd (hall '"' List.mem_cons_self) (by decide)

/-- An identifier goes up to the first character that is no part of a name. -/
theorem identifier_append_colon {key key' rest rest' : String} (h : IsIdentifier key)
    (h' : IsIdentifier key') (heq : key ++ (": " ++ rest) = key' ++ (": " ++ rest')) :
    key = key' := by
  have hread : ∀ key rest : String, IsIdentifier key →
      (key ++ (": " ++ rest)).toList.takeWhile continuesName = key.toList := by
    intro key rest hkey
    rw [String.toList_append, String.toList_append,
      List.takeWhile_append_of_pos (continuesName_of_isIdentifier hkey)]
    show key.toList ++ List.takeWhile continuesName (':' :: (' ' :: rest.toList)) = key.toList
    rw [List.takeWhile_cons_of_neg (by decide), List.append_nil]
  refine String.toList_inj.mp ?_
  rw [← hread key rest h, heq, hread key' rest' h']

/-- What is written for a key, and the colon behind it, tells the key and what follows. -/
theorem keyText_append_colon {key key' rest rest' : String}
    (heq : keyText key ++ (": " ++ rest) = keyText key' ++ (": " ++ rest')) :
    key = key' ∧ rest = rest' := by
  have hkey : key = key' := by
    by_cases h : IsIdentifier key <;> by_cases h' : IsIdentifier key'
    · rw [keyText_of_isIdentifier h, keyText_of_isIdentifier h'] at heq
      exact identifier_append_colon h h' heq
    · rw [keyText_of_isIdentifier h] at heq
      exact absurd heq (identifier_append_ne_literal h (isStringLiteral_keyText h'))
    · rw [keyText_of_isIdentifier h'] at heq
      exact absurd heq.symm (identifier_append_ne_literal h' (isStringLiteral_keyText h))
    · exact ((isStringLiteral_keyText h).unique_of_append (isStringLiteral_keyText h') heq).1
  subst hkey
  exact ⟨rfl, (String.append_right_inj _).mp ((String.append_right_inj _).mp heq)⟩

theorem keyText_injective : Function.Injective keyText := fun _ _ h =>
  (keyText_append_colon (congrArg (· ++ (": " ++ "")) h)).1

/-! ## Keys of properties -/

/-- In this form, properties with different keys have different texts, and the difference
does not hang on what follows the text. -/
def TellsKeys (form : Property → Nat → Rendered String) : Prop :=
  ∀ p q depth s s' rest rest', form p depth = .ok s → form q depth = .ok s' →
    s ++ rest = s' ++ rest' → p.key = q.key

/-- A comment is no key. -/
theorem comment_append_ne_keyText (d key rest rest' : String) :
    comment d ++ rest ≠ keyText key ++ rest' := by
  intro heq
  obtain ⟨first, more, hchars, hfirst⟩ := keyText_head key
  have hcomment : ∃ more', (comment d).toList = '/' :: more' := by simp [comment]
  obtain ⟨more', hchars'⟩ := hcomment
  have htexts := congrArg String.toList heq
  rw [String.toList_append, String.toList_append, hchars, hchars'] at htexts
  have hslash : '/' = first := (List.cons.inj htexts).1
  rw [← hslash] at hfirst
  exact absurd hfirst (by decide)

/-- The text of a property tells its key, with a comment before it or without one. -/
theorem key_eq_of_opening {p q : Property} {depth : Nat} {rest rest' : String}
    (heq : commentLine depth p ++ (indent depth ++ (keyText p.key ++ (": " ++ rest)))
      = commentLine depth q ++ (indent depth ++ (keyText q.key ++ (": " ++ rest')))) :
    p.key = q.key := by
  unfold commentLine at heq
  cases hp : p.trimmedDescription with
  | none =>
    cases hq : q.trimmedDescription with
    | none =>
      simp only [hp, hq, String.empty_append, String.append_right_inj] at heq
      exact (keyText_append_colon heq).1
    | some d' =>
      simp only [hp, hq, String.empty_append, String.append_assoc, String.append_right_inj] at heq
      exact absurd heq.symm (comment_append_ne_keyText d' p.key _ _)
  | some d =>
    cases hq : q.trimmedDescription with
    | none =>
      simp only [hp, hq, String.empty_append, String.append_assoc, String.append_right_inj] at heq
      exact absurd heq (comment_append_ne_keyText d q.key _ _)
    | some d' =>
      simp only [hp, hq, String.append_assoc, String.append_right_inj] at heq
      have hclosed := (isCommentOf_comment d).closesOnce
      obtain ⟨_, hrest⟩ := hclosed.unique_of_append (isCommentOf_comment d').closesOnce heq
      simp only [String.append_right_inj] at hrest
      exact (keyText_append_colon hrest).1

theorem WritesProperties.tellsKeys {render : Expression → Nat → Rendered String}
    {propertyText : Property → Nat → Rendered String} {ending : Property → String}
    (h : WritesProperties render propertyText ending) : TellsKeys propertyText := by
  intro p q depth s s' rest rest' hs hs' heq
  obtain ⟨t, _, rfl⟩ := h.eq_ok_iff.mp hs
  obtain ⟨t', _, rfl⟩ := h.eq_ok_iff.mp hs'
  simp only [propertyHead, String.append_assoc] at heq
  exact key_eq_of_opening heq

/-! ## Literals -/

/-- A literal that is no string has no quote in it. -/
theorem quote_not_mem_literalText {l : Literal} (h : ∀ s, l ≠ .string s) :
    '"' ∉ (literalText l).toList := by
  cases l with
  | boolean value => cases value <;> decide
  | integer n =>
    rw [literalText, String.toList_ofList]
    exact Decimal.not_mem_of_isNumeral (Decimal.isNumeral_intChars _) (by decide)
  | float x =>
    rw [literalText, String.toList_ofList]
    exact Decimal.not_mem_of_isNumeral (Decimal.Binary64.isNumeral_literalChars x) (by decide)
  | string s => exact absurd rfl (h s)

/-- What is written for a string is written for this string only. -/
theorem literalText_eq_string_iff {l : Literal} {s : String} :
    literalText l = literalText (.string s) ↔ l = .string s := by
  refine ⟨fun heq => ?_, fun h => by rw [h]⟩
  have hliteral := Json.isStringLiteral_quoted s
  by_cases hstring : ∃ s', l = .string s'
  · obtain ⟨s', rfl⟩ := hstring
    have hquoted : quoted s' = quoted s := heq
    have hliteral' := Json.isStringLiteral_quoted s'
    rw [hquoted] at hliteral'
    rw [hliteral'.unique hliteral]
  · obtain ⟨rest, hchars⟩ := hliteral.exists_cons
    have hnone := quote_not_mem_literalText fun s' h => hstring ⟨s', h⟩
    rw [heq] at hnone
    exact absurd (hchars ▸ List.mem_cons_self) hnone

/-- A key is written as itself if it is an identifier, and else as a string literal, without
control characters, that stands for it and nothing else. So different keys are written
differently, and different keys of properties can be told apart in both forms. A string is
written as a literal that stands for it and nothing else, and no other literal is written
like that. -/
theorem keys_and_literals_readable :
    (∀ key, keyText key = key ∧ IsIdentifier key
      ∨ (∀ s, Json.IsStringLiteral (keyText key) s ↔ s = key)
        ∧ ∀ c ∈ (keyText key).toList, 0x20 ≤ c.toNat)
    ∧ (∀ key, keyText key = key ↔ IsIdentifier key)
    ∧ Function.Injective keyText
    ∧ TellsKeys StaticType.propertyText ∧ TellsKeys Validator.propertyText
    ∧ (∀ s text, Json.IsStringLiteral (literalText (.string s)) text ↔ text = s)
    ∧ ∀ l s, literalText l = literalText (.string s) ↔ l = .string s := by
  refine ⟨fun key => ?_, fun _ => keyText_eq_self_iff, keyText_injective,
    StaticType.writesProperties.tellsKeys, Validator.writesProperties.tellsKeys,
    fun _ _ => Json.isStringLiteral_quoted_iff, fun _ _ => literalText_eq_string_iff⟩
  by_cases h : IsIdentifier key
  · exact .inl ⟨keyText_of_isIdentifier h, h⟩
  · have hliteral := isStringLiteral_keyText h
    refine .inr ⟨fun s => ⟨fun hs => hs.unique hliteral, ?_⟩, hliteral.no_control⟩
    rintro rfl
    exact hliteral

end SchemaTypes.Render
