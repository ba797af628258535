import SchemaTypes.Proofs.Agreement
import SchemaTypes.Proofs.OneLine
import SchemaTypes.Proofs.StringLiterals
import SchemaTypes.Proofs.Trimming
import SchemaTypes.Proofs.WrittenForms

/-!
# How descriptions are carried

A property's description is written as a comment in both forms, and the validator has it
once more behind the value, as a string. Neither may break what stands around it. A string
is read up to its closing quote, but a comment goes up to the first `*/`, whatever that was
meant to be. So it must have none before its end (`ClosesOnce`):

> `unclosed_defused`: defused text has no `*/` in it, not even one that was put together by
> defusing it.

> `descriptions_carried`: both forms open with the same comment if there is a description
> with anything but blanks in it, and without any comment otherwise.
-/

namespace SchemaTypes

namespace Text

/-! ## Ends of comments -/

/-- There is no `*/` in the text. -/
def Unclosed (cs : List Char) : Prop := ¬['*', '/'] <:+: cs

instance (cs : List Char) : Decidable (Unclosed cs) :=
  inferInstanceAs (Decidable ¬_)

theorem unclosed_nil : Unclosed [] := by decide

theorem unclosed_cons {c : Char} {cs : List Char} :
    Unclosed (c :: cs) ↔ ¬(c = '*' ∧ cs.head? = some '/') ∧ Unclosed cs := by
  have hprefix : ['*', '/'] <+: c :: cs ↔ c = '*' ∧ cs.head? = some '/' := by
    rw [List.cons_prefix_cons, eq_comm]
    cases cs with
    | nil => simp
    | cons d cs => simp [eq_comm]
  rw [Unclosed, List.infix_cons_iff, not_or, hprefix, Unclosed]

/-- Nothing is put together across a character that is neither of the two. -/
theorem Unclosed.append_cons {c : Char} {cs ds : List Char} (hcs : Unclosed cs)
    (hstar : c ≠ '*') (hslash : c ≠ '/') (hds : Unclosed ds) : Unclosed (cs ++ c :: ds) := by
  induction cs with
  | nil => exact unclosed_cons.mpr ⟨fun h => hstar h.1, hds⟩
  | cons d cs ih =>
    obtain ⟨hhead, htail⟩ := unclosed_cons.mp hcs
    refine unclosed_cons.mpr ⟨fun h => hhead ⟨h.1, ?_⟩, ih htail⟩
    cases cs with
    | nil => exact absurd (Option.some.inj h.2) hslash
    | cons d' cs => exact h.2

/-- The text ends with `*/`, which stands nowhere in it before. -/
structure ClosesOnce (c : String) : Prop where
  closes : ∃ before, c.toList = before ++ ['*', '/']
  once : ∀ before after, c.toList = before ++ '*' :: '/' :: after → after = []

theorem closesOnce_of_unclosed {c : String} {cs : List Char} (hc : c.toList = cs ++ ['*', '/'])
    (h : Unclosed (cs ++ ['*'])) : ClosesOnce c := by
  refine ⟨⟨cs, hc⟩, fun before after hsplit => ?_⟩
  -- one that comes before the end would still be there without the last slash
  rcases List.eq_nil_or_concat after with hnil | ⟨after', last, rfl⟩
  · exact hnil
  · have hshorter : (cs ++ ['*']) ++ ['/'] = (before ++ '*' :: '/' :: after') ++ [last] := by
      rw [List.concat_eq_append] at hsplit
      rw [List.append_assoc, List.append_assoc]
      exact hc.symm.trans hsplit
    refine absurd ⟨before, after', ?_⟩ h
    rw [(List.append_inj' hshorter rfl).1, List.append_assoc]
    rfl

/-- Of two comments that begin a text, both are the same one. -/
theorem ClosesOnce.unique_of_append {c c' : String} (h : ClosesOnce c) (h' : ClosesOnce c')
    {rest rest' : String} (heq : c ++ rest = c' ++ rest') : c = c' ∧ rest = rest' := by
  have hprefix : ∀ {c c' : String}, ClosesOnce c → ClosesOnce c' →
      ∀ more, c'.toList = c.toList ++ more → more = [] := by
    intro c c' h h' more hmore
    obtain ⟨before, hbefore⟩ := h.closes
    refine h'.once before more ?_
    rw [hmore, hbefore, List.append_assoc]
    rfl
  have hchars : c.toList ++ rest.toList = c'.toList ++ rest'.toList := by
    rw [← String.toList_append, heq, String.toList_append]
  have hsame : c.toList = c'.toList := by
    rcases List.append_eq_append_iff.mp hchars with ⟨more, hmore, _⟩ | ⟨more, hmore, _⟩
    · rw [hmore, hprefix h h' more hmore, List.append_nil]
    · rw [hmore, hprefix h' h more hmore, List.append_nil]
  rw [hsame] at hchars
  exact ⟨String.toList_inj.mp hsame, String.toList_inj.mp (List.append_cancel_left hchars)⟩

/-- Nothing is left of a text by trimming exactly if there is nothing but blanks in it. -/
theorem trim_eq_empty_iff {s : String} : trim s = "" ↔ Blank s.toList := by
  rw [← trimChars_eq_nil_iff, trim, String.ofList_eq_empty_iff]

end Text

namespace Render

open Text

/-! ## Comments -/

/-- Defusing does not change how a text begins. -/
theorem head?_defused (cs : List Char) : (defused cs).head? = cs.head? := by
  cases cs using defused.induct with
  | case1 cs ih => rfl
  | case2 c cs hterminator ih => rw [defused.eq_2 c cs hterminator]; rfl
  | case3 => rfl

/-- In a defused text there is no `*/`. -/
theorem unclosed_defused (cs : List Char) : Unclosed (defused cs) := by
  induction cs using defused.induct with
  | case1 cs ih =>
    rw [defused, unclosed_cons, unclosed_cons, unclosed_cons]
    refine ⟨fun h => ?_, fun h => ?_, fun h => ?_, ih⟩
    · exact absurd (Option.some.inj h.2) (by decide)
    · exact absurd h.1 (by decide)
    · exact absurd h.1 (by decide)
  | case2 c cs hterminator ih =>
    rw [defused.eq_2 c cs hterminator, unclosed_cons]
    refine ⟨fun h => ?_, ih⟩
    -- a slash behind the star is one that was there before
    rw [head?_defused] at h
    obtain ⟨rest, hrest⟩ := List.head?_eq_some_iff.mp h.2
    exact hterminator rest h.1 hrest
  | case3 => exact unclosed_nil

/-- A text that has no `*/` in it is left as it is. -/
theorem defused_eq_self {cs : List Char} (h : Unclosed cs) : defused cs = cs := by
  induction cs using defused.induct with
  | case1 cs ih => exact absurd ⟨rfl, rfl⟩ (unclosed_cons.mp h).1
  | case2 c cs hterminator ih =>
    rw [defused.eq_2 c cs hterminator, ih (unclosed_cons.mp h).2]
  | case3 => rfl

/-- The text is a comment that documents with `d`. -/
structure IsCommentOf (d comment : String) : Prop where
  marks : ∃ body, comment = "/** " ++ body ++ " */"
  /-- It ends where it should and nowhere before. -/
  closesOnce : ClosesOnce comment
  /-- What cannot end it is in it as it stands. -/
  faithful : Unclosed d.toList → comment = "/** " ++ d ++ " */"
  oneLine : OneLine d → OneLine comment

theorem isCommentOf_comment (d : String) : IsCommentOf d (comment d) := by
  have hchars : (comment d).toList
      = ("/**".toList ++ ' ' :: (defused d.toList ++ [' '])) ++ ['*', '/'] := by
    simp [comment]
  have hinner : Unclosed (defused d.toList ++ ' ' :: ['*']) :=
    (unclosed_defused d.toList).append_cons (by decide) (by decide) (by decide)
  have hall : Unclosed ("/**".toList ++ ' ' :: (defused d.toList ++ ' ' :: ['*'])) :=
    Unclosed.append_cons (by decide) (by decide) (by decide) hinner
  refine ⟨⟨String.ofList (defused d.toList), rfl⟩, closesOnce_of_unclosed hchars ?_, ?_,
    oneLine_comment⟩
  · simpa using hall
  · intro hd
    rw [comment, defused_eq_self hd, String.ofList_toList]

/-! ## Descriptions -/

/-- The property has the description `d`, and there is something in it that is not blank. -/
def Describes (d : String) (p : Property) : Prop :=
  p.description = some d ∧ ∃ c ∈ d.toList, isBlank c = false

theorem trimmedDescription_of_describes {d : String} {p : Property} (h : Describes d p) :
    trim d ≠ "" ∧ p.trimmedDescription = some (trim d) := by
  obtain ⟨hd, c, hc, hblank⟩ := h
  have hne : trim d ≠ "" := fun hempty => by
    rw [trim_eq_empty_iff.mp hempty c hc] at hblank
    cases hblank
  rw [PropertyOf.trimmedDescription, hd]
  exact ⟨hne, if_neg hne⟩

theorem trimmedDescription_eq_none {p : Property} (h : ∀ d, ¬Describes d p) :
    p.trimmedDescription = none := by
  rw [PropertyOf.trimmedDescription]
  cases hd : p.description with
  | none => rfl
  | some d =>
    refine if_pos (trim_eq_empty_iff.mpr fun c hc => ?_)
    exact Bool.of_not_eq_false fun hblank => h d ⟨hd, c, hc, hblank⟩

theorem propertyHead_of_describes {d : String} {p : Property} (h : Describes d p) (depth : Nat) :
    propertyHead depth p
      = indent depth ++ comment (trim d) ++ "\n" ++ indent depth ++ keyText p.key ++ ": " := by
  rw [propertyHead, commentLine, (trimmedDescription_of_describes h).2]

theorem propertyHead_of_not_describes {p : Property} (h : ∀ d, ¬Describes d p) (depth : Nat) :
    propertyHead depth p = indent depth ++ keyText p.key ++ ": " := by
  rw [propertyHead, commentLine, trimmedDescription_eq_none h, String.empty_append]

/-- There is something between the quotes of a description, so no description is left out. -/
theorem two_lt_utf8ByteSize_of_describes {d : String} {p : Property} (h : Describes d p) :
    2 < (quoted (trim d)).utf8ByteSize :=
  (Json.isStringLiteral_quoted _).two_lt_utf8ByteSize_iff.mpr (trimmedDescription_of_describes h).1

theorem describeText_of_describes {d : String} {p : Property} (h : Describes d p) :
    Validator.describeText p = ".describe(" ++ quoted (trim d) ++ ")" := by
  rw [Validator.describeText, (trimmedDescription_of_describes h).2]
  exact if_pos (two_lt_utf8ByteSize_of_describes h)

theorem describeText_eq_empty {p : Property} (h : ∀ d, ¬Describes d p) :
    Validator.describeText p = "" := by
  rw [Validator.describeText, trimmedDescription_eq_none h]

/-- A property whose value has a static form has both forms. If its description is more than
blanks, they open with the same comment, which ends at its own end only, and the validator
has `.describe` behind the value, with a string that stands for the description without
blanks at its ends. Otherwise there is no comment in either form, and nothing behind the
value. -/
theorem descriptions_carried {p : Property} {depth : Nat} {t : String}
    (h : StaticType.text p.value depth = .ok t) :
    ∃ v, Validator.text p.value depth = .ok v
      ∧ (∀ d, Describes d p → ∃ comment literal,
          IsCommentOf (trim d) comment
          ∧ (∀ s, Json.IsStringLiteral literal s ↔ s = trim d) ∧ 2 < literal.utf8ByteSize
          ∧ StaticType.propertyText p depth = .ok (indent depth ++ comment ++ "\n"
              ++ indent depth ++ keyText p.key ++ ": " ++ t ++ ";\n")
          ∧ Validator.propertyText p depth = .ok (indent depth ++ comment ++ "\n"
              ++ indent depth ++ keyText p.key ++ ": " ++ v ++ (".describe(" ++ literal ++ ")")
              ++ ",\n"))
      ∧ ((∀ d, ¬Describes d p) →
          StaticType.propertyText p depth
            = .ok (indent depth ++ keyText p.key ++ ": " ++ t ++ ";\n")
          ∧ Validator.propertyText p depth
            = .ok (indent depth ++ keyText p.key ++ ": " ++ v ++ ",\n")) := by
  obtain ⟨v, hv⟩ := (StaticType.ok_iff_validator_ok p.value depth depth).mp ⟨t, h⟩
  refine ⟨v, hv, fun d hd => ?_, fun hnone => ?_⟩
  · refine ⟨comment (trim d), quoted (trim d), isCommentOf_comment _,
      fun _ => Json.isStringLiteral_quoted_iff, two_lt_utf8ByteSize_of_describes hd, ?_, ?_⟩
    · rw [StaticType.writesProperties.eq_ok_iff]
      exact ⟨t, h, by rw [propertyHead_of_describes hd]⟩
    · rw [Validator.writesProperties.eq_ok_iff]
      refine ⟨v, hv, ?_⟩
      rw [propertyHead_of_describes hd, describeText_of_describes hd]
      exact String.append_assoc
  · constructor
    · rw [StaticType.writesProperties.eq_ok_iff]
      exact ⟨t, h, by rw [propertyHead_of_not_describes hnone]⟩
    · rw [Validator.writesProperties.eq_ok_iff]
      refine ⟨v, hv, ?_⟩
      rw [propertyHead_of_not_describes hnone, describeText_eq_empty hnone, String.empty_append]

/-- A property whose description does what it can to end its comment. -/
def rowsProperty : Property :=
  { key := "row-count", value := .named "number", description := some "\t/ and */ of **/*\n" }

/-- It is a comment and a string in both forms all the same. -/
theorem descriptions_carried_rows :
    StaticType.text rowsProperty.value 1 = .ok "number"
    ∧ ∃ comment literal, IsCommentOf "/ and */ of **/*" comment
      ∧ (∀ s, Json.IsStringLiteral literal s ↔ s = "/ and */ of **/*")
      ∧ StaticType.propertyText rowsProperty 1
        = .ok ("  " ++ comment ++ "\n  \"row-count\": number;\n")
      ∧ Validator.propertyText rowsProperty 1
        = .ok ("  " ++ comment ++ "\n  \"row-count\": z.coerce.number().describe(" ++ literal
          ++ "),\n") := by
  have htext : StaticType.text rowsProperty.value 1 = .ok "number" := rfl
  obtain ⟨v, hv, hdescribed, _⟩ := descriptions_carried htext
  have hdescribes : Describes "\t/ and */ of **/*\n" rowsProperty :=
    ⟨rfl, '/', by decide, by decide⟩
  have htrim : trim "\t/ and */ of **/*\n" = "/ and */ of **/*" := by decide
  obtain ⟨comment, literal, hcomment, hliteral, _, hstatic, hvalidator⟩ := hdescribed _ hdescribes
  have hvalue : v = "z.coerce.number()" := (Except.ok.inj hv).symm
  have hindent : indent 1 = "  " := by decide
  have hkey : keyText rowsProperty.key = "\"row-count\"" := by decide
  rw [htrim] at hcomment hliteral
  refine ⟨htext, comment, literal, hcomment, hliteral, ?_, ?_⟩
  · rw [hstatic, hindent, hkey]
    simp only [String.append_assoc]
    rfl
  · rw [hvalidator, hindent, hkey, hvalue]
    simp only [String.append_assoc]
    rfl

end Render

end SchemaTypes
