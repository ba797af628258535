import Mathlib.Data.List.Basic
import SchemaTypes.Proofs.Children
import SchemaTypes.Proofs.StringLiterals
import SchemaTypes.Render.StaticType
import SchemaTypes.Render.Validator

/-!
# Texts on one line

Keys, literals and module names are quoted where they need it, and a newline between
quotes is escaped (`oneLine_quoted`). So only what is written as it stands can bring a
newline into a text: the names of types and parameters, and the descriptions that become
comments. `Expression.OneLine` and `Statement.OneLine` say that none of them has one.
-/

namespace SchemaTypes

namespace Text

/-- There is no newline in the text. -/
def OneLine (s : String) : Prop := '\n' ∉ s.toList

instance (s : String) : Decidable (OneLine s) :=
  inferInstanceAs (Decidable ('\n' ∉ s.toList))

@[simp] theorem oneLine_append {s t : String} : OneLine (s ++ t) ↔ OneLine s ∧ OneLine t := by
  simp [OneLine]

@[simp] theorem oneLine_ofList {cs : List Char} : OneLine (String.ofList cs) ↔ '\n' ∉ cs := by
  simp [OneLine]

/-- What appending keeps, putting texts together with a separator keeps as well. -/
theorem intercalate_of_append {P : String → Prop} {separator : String} {ts : List String}
    (hempty : P "") (happend : ∀ s t, P s → P t → P (s ++ t)) (hseparator : P separator)
    (h : ∀ t ∈ ts, P t) : P (separator.intercalate ts) := by
  match ts with
  | [] => exact hempty
  | [t] =>
    rw [String.intercalate_singleton]
    exact h t List.mem_cons_self
  | t :: t' :: ts =>
    obtain ⟨hhead, htail⟩ := List.forall_mem_cons.mp h
    rw [String.intercalate_cons_cons]
    exact happend _ _ (happend _ _ hhead hseparator)
      (intercalate_of_append hempty happend hseparator htail)

theorem oneLine_intercalate {separator : String} {ts : List String} (hseparator : OneLine separator)
    (h : ∀ t ∈ ts, OneLine t) : OneLine (separator.intercalate ts) :=
  intercalate_of_append (by decide) (fun _ _ hs ht => oneLine_append.mpr ⟨hs, ht⟩) hseparator h

/-- A newline is a control character, and a string literal has none. -/
theorem oneLine_quoted (s : String) : OneLine (quoted s) := fun h =>
  absurd ((Json.isStringLiteral_quoted s).no_control _ h) (by decide)

theorem continuesName_of_isBareName {cs : List Char} (h : isBareName cs) :
    ∀ c ∈ cs, continuesName c := by
  cases cs with
  | nil => exact fun c hc => (by cases hc)
  | cons c cs =>
    rw [isBareName, Bool.and_eq_true, List.all_eq_true] at h
    obtain ⟨hopens, hrest⟩ := h
    refine List.forall_mem_cons.mpr ⟨?_, hrest⟩
    rw [opensName, Bool.or_eq_true, Bool.or_eq_true] at hopens
    rw [continuesName, Bool.or_eq_true, Bool.or_eq_true]
    exact hopens.imp_left fun h => h.imp_left fun h => Bool.or_eq_true_iff.mpr (.inl h)

theorem oneLine_of_isBareName {s : String} (h : isBareName s.toList) : OneLine s :=
  fun hmem => absurd (continuesName_of_isBareName h _ hmem) (by decide)

end Text

/-! ## Numbers -/

namespace Decimal

/-- A character that numbers are written with. -/
def isNumeral (c : Char) : Bool :=
  c.isDigit || ['-', '+', '.', 'e', 'n', 'u', 'l'].contains c

theorem isNumeral_toDigits (n : Nat) : ∀ c ∈ Nat.toDigits 10 n, isNumeral c := by
  intro c hc
  rw [isNumeral, Nat.isDigit_of_mem_toDigits (by decide) (by decide) hc, Bool.true_or]

theorem isNumeral_intChars (n : Int) : ∀ c ∈ intChars n, isNumeral c := by
  cases n with
  | ofNat n => exact isNumeral_toDigits n
  | negSucc n => exact List.forall_mem_cons.mpr ⟨by decide, isNumeral_toDigits (n + 1)⟩

theorem isNumeral_shortest (m : Nat) (q : Int) : ∀ c ∈ (shortest m q).digits, isNumeral c := by
  intro c hc
  have hkept := (List.dropWhile_sublist _).subset (List.mem_reverse.mp hc)
  exact isNumeral_toDigits _ c (List.mem_reverse.mp hkept)

theorem isNumeral_zeros (n : Nat) : ∀ c ∈ zeros n, isNumeral c := by
  intro c hc
  rw [List.eq_of_mem_replicate hc]
  decide

theorem isNumeral_positional {d : Digits} (h : ∀ c ∈ d.digits, isNumeral c) :
    ∀ c ∈ positional d, isNumeral c := by
  have htake : ∀ n, ∀ c ∈ d.digits.take n, isNumeral c := fun _ c hc =>
    h c (List.mem_of_mem_take hc)
  have hdrop : ∀ n, ∀ c ∈ d.digits.drop n, isNumeral c := fun _ c hc =>
    h c (List.mem_of_mem_drop hc)
  unfold positional
  split
  · simp only [List.forall_mem_cons, List.forall_mem_append]
    exact ⟨by decide, by decide, isNumeral_zeros _, h⟩
  · simp only [List.forall_mem_cons, List.forall_mem_append]
    refine ⟨⟨htake _, isNumeral_zeros _⟩, by decide, ?_⟩
    split
    · exact List.all_eq_true.mp (by decide)
    · exact hdrop _

theorem isNumeral_scientific {d : Digits} (h : ∀ c ∈ d.digits, isNumeral c) :
    ∀ c ∈ scientific d, isNumeral c := by
  have hexponent : ∀ c ∈ 'e' :: (if d.order < 0 then intChars d.order else '+' :: intChars d.order),
      isNumeral c := by
    refine List.forall_mem_cons.mpr ⟨by decide, ?_⟩
    split
    · exact isNumeral_intChars _
    · exact List.forall_mem_cons.mpr ⟨by decide, isNumeral_intChars _⟩
  rw [scientific]
  match hdigits : d.digits with
  | [] => exact fun c hc => (by cases hc)
  | [c] =>
    rw [hdigits, List.forall_mem_singleton] at h
    exact List.forall_mem_cons.mpr ⟨h, hexponent⟩
  | c :: c' :: rest =>
    rw [hdigits, List.forall_mem_cons] at h
    exact List.forall_mem_cons.mpr ⟨h.1, List.forall_mem_cons.mpr ⟨by decide,
      List.forall_mem_append.mpr ⟨h.2, hexponent⟩⟩⟩

namespace Binary64

theorem isNumeral_signChars (negative : Bool) : ∀ c ∈ signChars negative, isNumeral c := by
  cases negative <;> exact List.all_eq_true.mp (by decide)

theorem isNumeral_jsonChars (x : Binary64) : ∀ c ∈ x.jsonChars, isNumeral c := by
  unfold jsonChars
  split
  · exact List.all_eq_true.mp (by decide)
  · exact List.all_eq_true.mp (by decide)
  · exact List.forall_mem_append.mpr ⟨isNumeral_signChars _, List.all_eq_true.mp (by decide)⟩
  · next negative m q _ =>
    have hdigits := isNumeral_shortest m q
    refine List.forall_mem_append.mpr ⟨isNumeral_signChars _, ?_⟩
    rw [Layout.chars]
    split
    · exact isNumeral_positional hdigits
    · exact isNumeral_scientific hdigits

theorem isNumeral_literalChars (x : Binary64) : ∀ c ∈ x.literalChars, isNumeral c := by
  unfold literalChars
  split
  · exact List.all_eq_true.mp (by decide)
  · split
    · split
      · exact List.forall_mem_append.mpr ⟨isNumeral_signChars _, isNumeral_toDigits _⟩
      · exact isNumeral_jsonChars _
    · exact isNumeral_jsonChars _
  · exact isNumeral_jsonChars _

end Binary64

/-- What no numeral is does not occur in a number. -/
theorem not_mem_of_isNumeral {c : Char} {cs : List Char} (h : ∀ d ∈ cs, isNumeral d)
    (hc : isNumeral c = false) : c ∉ cs := by
  intro hmem
  rw [h c hmem] at hc
  cases hc

end Decimal

/-! ## Parts of both written forms -/

namespace Render

open Text

theorem oneLine_indent (depth : Nat) : OneLine (indent depth) := by
  rw [indent, oneLine_ofList]
  intro h
  exact absurd (List.eq_of_mem_replicate h) (by decide)

theorem oneLine_keyText (key : String) : OneLine (keyText key) := by
  unfold keyText
  split
  · next hbare => exact oneLine_of_isBareName hbare
  · exact oneLine_quoted key

theorem oneLine_literalText (l : Literal) : OneLine (literalText l) := by
  cases l with
  | boolean value => cases value <;> decide
  | integer n =>
    exact oneLine_ofList.mpr
      (Decimal.not_mem_of_isNumeral (Decimal.isNumeral_intChars _) (by decide))
  | float x =>
    exact oneLine_ofList.mpr
      (Decimal.not_mem_of_isNumeral (Decimal.Binary64.isNumeral_literalChars x) (by decide))
  | string s => exact oneLine_quoted s

theorem newline_not_mem_defused {cs : List Char} (h : '\n' ∉ cs) : '\n' ∉ defused cs := by
  induction cs using defused.induct with
  | case1 cs ih =>
    simp only [List.mem_cons, not_or] at h
    simp [defused, ih h.2.2]
  | case2 c cs hterminator ih =>
    simp only [List.mem_cons, not_or] at h
    rw [defused.eq_2 c cs hterminator]
    simp [h.1, ih h.2]
  | case3 => exact h

theorem oneLine_comment {s : String} (h : OneLine s) : OneLine (comment s) := by
  have hdefused := oneLine_ofList.mpr (newline_not_mem_defused h)
  rw [comment, oneLine_append, oneLine_append]
  exact ⟨⟨by decide, hdefused⟩, by decide⟩

end Render

theorem Validator.oneLine_describeText (p : Property) : Text.OneLine (describeText p) := by
  unfold describeText
  split
  · decide
  · next d _ =>
    split
    · rw [Text.oneLine_append, Text.oneLine_append]
      exact ⟨⟨by decide, Text.oneLine_quoted d⟩, by decide⟩
    · decide

theorem Validator.oneLine_identifierText {i : Identifier} (h : Text.OneLine i.name) :
    Text.OneLine (identifierText i) := by
  unfold identifierText
  split
  case h_8 => exact h
  all_goals decide

/-! ## Expressions and statements -/

namespace Expression

/-- What the expression itself brings into a text as it stands: names, and the
descriptions of its properties. -/
def ownWords : Expression → List String
  | .identifier id => [id.name]
  | .generic name _ => [name]
  | .conditional name _ _ _ => [name]
  | .infer name => [name]
  | .object properties => properties.filterMap PropertyOf.trimmedDescription
  | _ => []

/-- No name or description in the expression, at any depth, has a newline. -/
def OneLine (e : Expression) : Prop :=
  ∀ inner, Within inner e → ∀ word ∈ inner.ownWords, Text.OneLine word

theorem oneLine_iff {e : Expression} :
    e.OneLine ↔ (∀ word ∈ e.ownWords, Text.OneLine word) ∧ ∀ p ∈ e.children, p.2.OneLine :=
  forall_within_iff

end Expression

/-- No name or description in the statement has a newline. -/
def Statement.OneLine : Statement → Prop
  | .imports i => ∀ clause ∈ i.clauses,
      Text.OneLine clause.name ∧ ∀ localName, clause.localName = some localName →
        Text.OneLine localName
  | .exports (.typeAlias name body) =>
      Text.OneLine name ∧ (∀ param ∈ body.params, Text.OneLine param) ∧ body.expression.OneLine
  | .exports (.interface name properties) =>
      Text.OneLine name ∧ (Expression.object properties).OneLine

end SchemaTypes
