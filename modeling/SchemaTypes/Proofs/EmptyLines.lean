import SchemaTypes.Proofs.WrittenForms

/-!
# Empty lines

A text is cut into paragraphs at its empty lines (`Text.paragraphs`). Texts that have no
empty line themselves (`Text.Solid`) can be put one below the other, with an empty line
between each two, and be told apart again (`divided_separated`).

A statement is written as such a text, as long as none of its names and descriptions has
a newline:

> `StaticType.solid_statementText`, `Validator.solid_statementText`: no line is empty in
> either form of a statement.
-/

namespace SchemaTypes

/-! ## Empty lines -/

namespace Text

/-- What stands between the empty lines of a text. -/
def paragraphs : List Char → List (List Char)
  | '\n' :: '\n' :: cs => [] :: paragraphs cs
  | c :: cs => (paragraphs cs).modifyHead (c :: ·)
  | [] => [[]]

/-- The text ends with one newline, there are never three of them in a row, and these are
the paragraphs in front of the last one. -/
def Divided (text : String) (ps : List String) : Prop :=
  ∃ body : String, text = body ++ "\n" ∧ body.toList.getLast? ≠ some '\n'
    ∧ ¬['\n', '\n', '\n'] <:+: text.toList ∧ paragraphs body.toList = ps.map String.toList

/-- Something follows every newline on its line. -/
def Unbroken (cs : List Char) : Prop :=
  ∀ before after, cs = before ++ '\n' :: after → ∃ c rest, after = c :: rest ∧ c ≠ '\n'

/-- No line of the text is empty, neither the first nor the last one. -/
def Solid (s : String) : Prop := Unbroken ('\n' :: s.toList)

namespace Unbroken

variable {cs ds : List Char}

theorem of_not_mem (h : '\n' ∉ cs) : Unbroken cs := by
  intro before after hsplit
  rw [hsplit] at h
  exact absurd (List.mem_append_right before List.mem_cons_self) h

theorem newline_cons (h : '\n' ∉ cs) (hne : cs ≠ []) : Unbroken ('\n' :: cs) := by
  intro before after hsplit
  cases before with
  | nil =>
    obtain ⟨_, rfl⟩ := List.cons.inj hsplit
    obtain ⟨c, rest, rfl⟩ := List.exists_cons_of_ne_nil hne
    exact ⟨c, rest, rfl, Ne.symm (List.ne_of_not_mem_cons h)⟩
  | cons c before => exact of_not_mem h before after (List.cons.inj hsplit).2

theorem append (hcs : Unbroken cs) (hds : Unbroken ds) : Unbroken (cs ++ ds) := by
  intro before after hsplit
  rcases List.append_eq_append_iff.mp hsplit with ⟨front, hfront, hback⟩ | ⟨back, hfront, hback⟩
  · exact hds front after hback
  · cases back with
    | nil => exact hds [] after hback.symm
    | cons c back =>
      -- the newline is in the first text, and so is what follows it
      obtain ⟨rfl, rfl⟩ := List.cons.inj hback
      obtain ⟨c, rest, rfl, hc⟩ := hcs before back hfront
      exact ⟨c, rest ++ ds, rfl, hc⟩

theorem tail {c : Char} (h : Unbroken (c :: cs)) : Unbroken cs := by
  intro before after hsplit
  exact h (c :: before) after (by rw [hsplit, List.cons_append])

end Unbroken

theorem OneLine.unbroken {s : String} (h : OneLine s) : Unbroken s.toList := .of_not_mem h

theorem OneLine.solid {s : String} (h : OneLine s) (hne : s ≠ "") : Solid s :=
  Unbroken.newline_cons h fun hnil => hne (String.toList_injective hnil)

theorem unbroken_append {s t : String} (hs : Unbroken s.toList) (ht : Unbroken t.toList) :
    Unbroken (s ++ t).toList := by
  rw [String.toList_append]
  exact hs.append ht

namespace Solid

theorem unbroken {s : String} (h : Solid s) : Unbroken s.toList := Unbroken.tail h

theorem exists_head {s : String} (h : Solid s) : ∃ c rest, s.toList = c :: rest ∧ c ≠ '\n' :=
  h [] s.toList rfl

theorem ne_empty {s : String} (h : Solid s) : s ≠ "" := by
  obtain ⟨c, rest, hchars, _⟩ := h.exists_head
  rintro rfl
  cases hchars

/-- Words, and behind them more of the text. -/
theorem of_words {s t : String} (hs : OneLine s) (hne : s ≠ "") (ht : Unbroken t.toList) :
    Solid (s ++ t) := by
  rw [Solid, String.toList_append, ← List.cons_append]
  exact Unbroken.append (hs.solid hne) ht

theorem below {s t : String} (hs : Solid s) (ht : Solid t) : Solid (s ++ "\n" ++ t) := by
  have hchars : (s ++ "\n" ++ t).toList = s.toList ++ '\n' :: t.toList := by
    rw [String.toList_append, String.toList_append, List.append_assoc]
    rfl
  rw [Solid, hchars, ← List.cons_append]
  exact Unbroken.append hs ht

theorem intercalate {ts : List String} (hne : ts ≠ []) (h : ∀ t ∈ ts, Solid t) :
    Solid ("\n".intercalate ts) := by
  match ts with
  | [t] =>
    rw [String.intercalate_singleton]
    exact h t List.mem_cons_self
  | t :: t' :: ts =>
    obtain ⟨hhead, htail⟩ := List.forall_mem_cons.mp h
    rw [String.intercalate_cons_cons]
    exact hhead.below (intercalate (List.cons_ne_nil t' ts) htail)

end Solid

theorem paragraphs_cons {c : Char} {cs : List Char} (h : c = '\n' → cs.head? ≠ some '\n') :
    paragraphs (c :: cs) = (paragraphs cs).modifyHead (c :: ·) := by
  apply paragraphs.eq_2
  rintro rest rfl rfl
  exact h rfl rfl

theorem Unbroken.head?_ne {cs : List Char} {c : Char} (h : Unbroken (c :: cs)) (hc : c = '\n') :
    ∃ c' rest, cs = c' :: rest ∧ c' ≠ '\n' := by
  subst hc
  exact h [] cs rfl

/-- No paragraph ends within a text that has no empty line. -/
theorem Unbroken.paragraphs_cons_append {c : Char} {cs : List Char} (h : Unbroken (c :: cs))
    (rest : List Char) :
    paragraphs (c :: (cs ++ rest)) = (paragraphs (cs ++ rest)).modifyHead (c :: ·) := by
  refine paragraphs_cons fun hc => ?_
  obtain ⟨c', rest', rfl, hc'⟩ := h.head?_ne hc
  simpa using hc'

/-- What has no empty line is one paragraph, up to the empty line behind it. -/
theorem paragraphs_append {cs : List Char} (h : Unbroken cs) (rest : List Char) :
    paragraphs (cs ++ '\n' :: '\n' :: rest) = cs :: paragraphs rest := by
  induction cs with
  | nil => rw [List.nil_append, paragraphs]
  | cons c cs ih =>
    rw [List.cons_append, h.paragraphs_cons_append, ih h.tail, List.modifyHead_cons]

theorem paragraphs_of_unbroken {cs : List Char} (h : Unbroken cs) : paragraphs cs = [cs] := by
  induction cs with
  | nil => rfl
  | cons c cs ih =>
    have hcons := h.paragraphs_cons_append []
    rw [List.append_nil, ih h.tail, List.modifyHead_cons] at hcons
    exact hcons

/-- A text without empty lines does not end with a newline, so it adds none to those
behind it. -/
theorem Unbroken.no_gap_append {cs ds : List Char} (h : Unbroken cs)
    (hgap : ¬['\n', '\n', '\n'] <:+: ds) : ¬['\n', '\n', '\n'] <:+: cs ++ ds := by
  induction cs with
  | nil => exact hgap
  | cons c cs ih =>
    rw [List.cons_append, List.infix_cons_iff, not_or]
    refine ⟨fun hprefix => ?_, ih h.tail⟩
    obtain ⟨hc, hrest⟩ := List.cons_prefix_cons.mp hprefix
    obtain ⟨c', rest, rfl, hc'⟩ := h.head?_ne hc.symm
    exact hc' (List.cons_prefix_cons.mp hrest).1.symm

theorem no_gap_emptyLine {cs : List Char} (hhead : cs.head? ≠ some '\n')
    (hgap : ¬['\n', '\n', '\n'] <:+: cs) : ¬['\n', '\n', '\n'] <:+: '\n' :: '\n' :: cs := by
  have hprefix : ¬['\n'] <+: cs := by
    rintro ⟨rest, rfl⟩
    exact hhead rfl
  have hprefix' : ¬['\n', '\n'] <+: cs := fun h => hprefix ((List.prefix_append ['\n'] _).trans h)
  simp only [List.infix_cons_iff, List.cons_prefix_cons, true_and, hprefix, hprefix', hgap, or_self,
    not_false_eq_true]

/-! ## Solid texts with empty lines between them -/

/-- The texts with an empty line between each two. -/
def separated (ps : List String) : String := "\n\n".intercalate ps

theorem separated_singleton (p : String) : separated [p] = p := String.intercalate_singleton

theorem separated_cons_cons (p q : String) (ps : List String) :
    separated (p :: q :: ps) = p ++ "\n\n" ++ separated (q :: ps) :=
  String.intercalate_cons_cons

theorem toList_separated_cons (p q : String) (ps : List String) :
    (separated (p :: q :: ps)).toList
      = p.toList ++ '\n' :: '\n' :: (separated (q :: ps)).toList := by
  rw [separated_cons_cons, String.toList_append, String.toList_append, List.append_assoc]
  rfl

theorem exists_head_separated {p : String} (h : Solid p) (ps : List String) :
    ∃ c rest, (separated (p :: ps)).toList = c :: rest ∧ c ≠ '\n' := by
  obtain ⟨c, rest, hp, hc⟩ := h.exists_head
  cases ps with
  | nil => exact ⟨c, rest, by rw [separated_singleton, hp], hc⟩
  | cons q ps => exact ⟨c, _, by rw [toList_separated_cons, hp, List.cons_append], hc⟩

theorem getLast?_separated {p : String} {ps : List String} (h : ∀ q ∈ p :: ps, Solid q) :
    (separated (p :: ps)).toList.getLast? ≠ some '\n' := by
  induction ps generalizing p with
  | nil =>
    rw [separated_singleton]
    intro hlast
    obtain ⟨before, hsplit⟩ := List.getLast?_eq_some_iff.mp hlast
    -- nothing follows a newline at the end
    obtain ⟨c, rest, hnil, _⟩ := (h p List.mem_cons_self).unbroken before [] hsplit
    cases hnil
  | cons q ps ih =>
    obtain ⟨_, htail⟩ := List.forall_mem_cons.mp h
    obtain ⟨c, rest, hchars, _⟩ := exists_head_separated (htail q List.mem_cons_self) ps
    have hlast := ih htail
    rw [hchars] at hlast
    rw [toList_separated_cons, hchars, List.getLast?_append, List.getLast?_cons_cons,
      List.getLast?_cons_cons, List.getLast?_cons]
    rw [List.getLast?_cons] at hlast
    exact hlast

theorem no_gap_separated {p : String} {ps : List String} (h : ∀ q ∈ p :: ps, Solid q) :
    ¬['\n', '\n', '\n'] <:+: (separated (p :: ps)).toList ++ ['\n'] := by
  induction ps generalizing p with
  | nil =>
    rw [separated_singleton]
    exact (h p List.mem_cons_self).unbroken.no_gap_append (by decide)
  | cons q ps ih =>
    obtain ⟨hhead, htail⟩ := List.forall_mem_cons.mp h
    obtain ⟨c, rest, hchars, hc⟩ := exists_head_separated (htail q List.mem_cons_self) ps
    have hrest := ih htail
    rw [toList_separated_cons, List.append_assoc]
    rw [hchars] at hrest ⊢
    refine hhead.unbroken.no_gap_append (no_gap_emptyLine ?_ hrest)
    simpa using hc

theorem paragraphs_separated {p : String} {ps : List String} (h : ∀ q ∈ p :: ps, Solid q) :
    paragraphs (separated (p :: ps)).toList = (p :: ps).map String.toList := by
  induction ps generalizing p with
  | nil =>
    rw [separated_singleton]
    exact paragraphs_of_unbroken (h p List.mem_cons_self).unbroken
  | cons q ps ih =>
    obtain ⟨hhead, htail⟩ := List.forall_mem_cons.mp h
    rw [toList_separated_cons, paragraphs_append hhead.unbroken, ih htail]
    rfl

/-- Solid texts with empty lines between them can be told apart again. -/
theorem divided_separated {ps : List String} (hne : ps ≠ []) (h : ∀ p ∈ ps, Solid p) :
    Divided (separated ps ++ "\n") ps := by
  obtain ⟨p, ps, rfl⟩ := List.exists_cons_of_ne_nil hne
  refine ⟨_, rfl, getLast?_separated h, ?_, paragraphs_separated h⟩
  rw [String.toList_append]
  exact no_gap_separated h

end Text

/-! ## Fragments and statements -/

namespace Render

open Text

theorem Fragment.unbroken_text (depth : Nat) (fragment : Fragment) :
    Unbroken (fragment.text depth).toList := by
  cases fragment with
  | words s hline => exact hline.unbroken
  | line level s hline hne =>
    have hchars : s.toList ≠ [] := fun h => hne (String.toList_injective h)
    have hindented := oneLine_append.mpr ⟨oneLine_indent (depth + level), hline⟩
    rw [Fragment.text, String.append_assoc, String.toList_append]
    refine Unbroken.newline_cons hindented ?_
    rw [String.toList_append]
    simp [hchars]

theorem unbroken_textOf (depth : Nat) (fragments : List Fragment) :
    Unbroken (textOf depth fragments).toList := by
  induction fragments with
  | nil => exact OneLine.unbroken (by decide : OneLine "")
  | cons fragment fragments ih =>
    have hcons : textOf depth (fragment :: fragments)
        = fragment.text depth ++ textOf depth fragments := String.join_cons
    rw [hcons]
    exact unbroken_append (fragment.unbroken_text depth) ih

theorem Uniform.unbroken {r : Nat → Rendered String} (h : Uniform LaidOut r) {depth : Nat}
    {t : String} (ht : r depth = .ok t) : Unbroken t.toList := by
  rcases h with ⟨error, rfl⟩ | ⟨f, ⟨fragments, rfl⟩, rfl⟩
  · cases ht
  · rw [← Except.ok.inj ht]
    exact unbroken_textOf depth fragments

end Render

open Text Render Rendered

namespace StaticType

theorem oneLine_importText {options : Options} {i : Import} {t : String}
    (hline : (Statement.imports i).OneLine) (h : importText options i = .ok t) :
    OneLine t ∧ t ≠ "" := by
  have hclause : ∀ clause ∈ i.clauses, OneLine (clauseText clause) := by
    intro clause hclause
    obtain ⟨hname, hlocal⟩ := hline clause hclause
    unfold clauseText
    split
    · exact hname
    · next localName hsome =>
      exact oneLine_append.mpr ⟨oneLine_append.mpr ⟨hname, by decide⟩, hlocal localName hsome⟩
  have hclauses : OneLine (", ".intercalate (i.clauses.map clauseText)) :=
    oneLine_intercalate (by decide) (List.forall_mem_map.mpr hclause)
  have hmark : OneLine (if options.typeOnlyImports then "type " else "") := by
    split <;> decide
  unfold importText at h
  split at h
  · cases h
  · rw [← Except.ok.inj h]
    refine ⟨?_, by simp⟩
    simp only [oneLine_append, hmark, hclauses, oneLine_quoted, and_true]
    decide

theorem oneLine_paramsText {body : AliasBody} {t : String}
    (hline : ∀ param ∈ body.params, OneLine param) (h : paramsText body = .ok t) : OneLine t := by
  cases body with
  | plain e =>
    rw [← Except.ok.inj h]
    exact (by decide : OneLine "")
  | template template =>
    have hparams : OneLine (", ".intercalate template.params) :=
      oneLine_intercalate (by decide) hline
    rw [paramsText] at h
    split at h
    · cases h
    · rw [← Except.ok.inj h]
      simp only [oneLine_append, hparams]
      decide

theorem solid_statementText {options : Options} {s : Statement} {t : String} (hline : s.OneLine)
    (h : statementText options s = .ok t) : Solid t := by
  rcases s with i | (⟨name, body⟩ | ⟨name, ps⟩)
  · obtain ⟨ht, hne⟩ := oneLine_importText hline h
    exact ht.solid hne
  · obtain ⟨hname, hparams, hbody⟩ := hline
    rw [statementText, inDeclaration_eq_ok_iff, bind_return_eq_ok_iff] at h
    obtain ⟨declared, hdeclared, rfl⟩ := h
    simp only [declarationText, bind_eq_ok_iff] at hdeclared
    obtain ⟨params, hp, u, hu, hok⟩ := hdeclared
    rw [← Except.ok.inj hok]
    have hfront : Unbroken ("type " ++ name ++ params ++ " = ").toList := OneLine.unbroken (by
      simp only [oneLine_append, hname, oneLine_paramsText hparams hp]
      decide)
    have hend : Unbroken ";".toList := OneLine.unbroken (by decide)
    exact Solid.of_words (by decide) (by decide)
      (unbroken_append (unbroken_append hfront ((descends.uniform _ hbody).unbroken hu)) hend)
  · obtain ⟨hname, hproperties⟩ := hline
    rw [statementText, inDeclaration_eq_ok_iff, bind_return_eq_ok_iff] at h
    obtain ⟨declared, hdeclared, rfl⟩ := h
    rw [declarationText, bind_return_eq_ok_iff] at hdeclared
    obtain ⟨u, hu, rfl⟩ := hdeclared
    have hfront : Unbroken ("interface " ++ name ++ " ").toList := OneLine.unbroken (by
      simp only [oneLine_append, hname]
      decide)
    exact Solid.of_words (by decide) (by decide)
      (unbroken_append hfront ((descends.uniform _ hproperties).unbroken hu))

end StaticType

namespace Validator

theorem ne_empty_of_interface {name : String} {ps : List Property} {t : String}
    (h : statementText (.exports (.interface name ps)) = .ok t) : t ≠ "" := by
  rw [statementText_interface, map_eq_ok_iff] at h
  obtain ⟨u, _, rfl⟩ := h
  simp

theorem solid_statementText {s : Statement} {t : String} (hline : s.OneLine)
    (h : statementText s = .ok t) (hne : t ≠ "") : Solid t := by
  rcases s with i | (⟨name, body⟩ | ⟨name, ps⟩)
  · exact absurd (Except.ok.inj h).symm hne
  · exact absurd (Except.ok.inj h).symm hne
  · obtain ⟨hname, hproperties⟩ := hline
    rw [statementText_interface, map_eq_ok_iff] at h
    obtain ⟨u, hu, rfl⟩ := h
    rw [inDeclaration_eq_ok_iff] at hu
    have hfront : OneLine ("export const " ++ name ++ " = ") := by
      simp only [oneLine_append, hname]
      decide
    have hend : Unbroken ";".toList := OneLine.unbroken (by decide)
    rw [String.append_assoc]
    exact Solid.of_words hfront (by simp)
      (unbroken_append ((descends.uniform _ hproperties).unbroken hu) hend)

end Validator

end SchemaTypes
