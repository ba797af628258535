import SchemaTypes.Assembly
import SchemaTypes.Proofs.LetterCase

/-!
# Type names

A type name is made of the letters and digits of a database name, in their order, with
the first one of each run as a capital (`lettersAfter`, `flatMap_capitalized_words`). A
`_` comes in front if that would begin with a digit or is empty. So all type names have
one of three forms (`PascalForm`), and a name that has one of these is left as it is:

> `pascalChars_eq_self_iff`: a name is its own type name exactly if it has such a form.

Each form opens with a capital or with `_` (`pascalChars_head`). The names of table
interfaces begin in the same way (`interfaceName_head`), and so none of them is a name that
starts with a small letter (`interfaceName_ne_of_isLower`).
-/

namespace SchemaTypes.Text

/-! ## The letters of a type name -/

/-- The letters and digits of a text that comes after the character `before`; one that
does not come after another one is a capital. -/
def lettersAfter (before : Char) : List Char → List Char
  | [] => []
  | c :: cs =>
    if c.isAlphanum then
      (if before.isAlphanum then c else c.toUpper) :: lettersAfter c cs
    else lettersAfter c cs

theorem capitalized_append {run : List Char} (h : run ≠ []) (cs : List Char) :
    capitalized (run ++ cs) = capitalized run ++ cs := by
  cases run with
  | nil => exact absurd rfl h
  | cons c run => rfl

/-- The invariant of the search for words: a run is being read exactly if a letter or digit
has just been read. -/
theorem flatMap_capitalized_wordsFrom {cs run : List Char} {before : Char}
    (hrun : run = [] ↔ ¬before.isAlphanum) :
    (wordsFrom run cs).flatMap capitalized
      = capitalized run.reverse ++ lettersAfter before cs := by
  induction cs generalizing run before with
  | nil =>
    cases run with
    | nil => rfl
    | cons c run => simp [wordsFrom, lettersAfter]
  | cons c cs ih =>
    by_cases hc : c.isAlphanum
    · have hread : c :: run = [] ↔ ¬c.isAlphanum := by simp [hc]
      rw [wordsFrom, if_pos hc, ih hread, lettersAfter, if_pos hc, List.reverse_cons]
      by_cases hempty : run = []
      · rw [if_neg (hrun.mp hempty), hempty]
        rfl
      · have hbefore : before.isAlphanum := not_not.mp fun h => hempty (hrun.mpr h)
        rw [if_pos hbefore, capitalized_append (List.reverse_eq_nil_iff.not.mpr hempty),
          List.append_assoc, List.singleton_append]
    · have hrest : (wordsFrom [] cs).flatMap capitalized = lettersAfter c cs :=
        ih (iff_of_true rfl hc)
      rw [wordsFrom, if_neg hc, lettersAfter, if_neg hc]
      by_cases hempty : run = []
      · rw [if_pos (List.isEmpty_iff.mpr hempty), hrest, hempty]
        rfl
      · rw [if_neg (List.isEmpty_iff.not.mpr hempty), List.flatMap_cons, hrest]

/-- The words of a name, capitalised, are its letters and digits. -/
theorem flatMap_capitalized_words (cs : List Char) :
    (words cs).flatMap capitalized = lettersAfter '_' cs :=
  flatMap_capitalized_wordsFrom (iff_of_true rfl (by decide))

theorem isAlphanum_lettersAfter (before : Char) (cs : List Char) :
    ∀ c ∈ lettersAfter before cs, c.isAlphanum := by
  induction cs generalizing before with
  | nil => exact List.forall_mem_nil _
  | cons c cs ih =>
    unfold lettersAfter
    split
    · next hc =>
      refine List.forall_mem_cons.mpr ⟨?_, ih c⟩
      split
      · exact hc
      · exact isAlphanum_toUpper hc
    · exact ih c

/-- Up to their case, these are the letters and digits of the text. -/
theorem map_toLower_lettersAfter (before : Char) (cs : List Char) :
    (lettersAfter before cs).map Char.toLower = (cs.filter Char.isAlphanum).map Char.toLower := by
  induction cs generalizing before with
  | nil => rfl
  | cons c cs ih =>
    unfold lettersAfter
    split
    · next hc =>
      rw [List.filter_cons_of_pos hc, List.map_cons, List.map_cons, ih]
      split
      · rfl
      · rw [Char.toLower_toUpper_eq_toLower]
    · next hc => rw [List.filter_cons_of_neg hc, ih]

/-- Letters and digits that come after others are left as they are. -/
theorem lettersAfter_eq_self {before : Char} {cs : List Char} (hbefore : before.isAlphanum)
    (h : ∀ c ∈ cs, c.isAlphanum) : lettersAfter before cs = cs := by
  induction cs generalizing before with
  | nil => rfl
  | cons c cs ih =>
    obtain ⟨hc, hcs⟩ := List.forall_mem_cons.mp h
    rw [lettersAfter, if_pos hc, if_pos hbefore, ih hc hcs]

/-- The first of the letters is a capital or a digit, if none comes before the text. -/
theorem head_lettersAfter {before first : Char} {cs : List Char} (hbefore : ¬before.isAlphanum)
    (h : (lettersAfter before cs).head? = some first) : first.isUpper ∨ first.isDigit := by
  induction cs generalizing before with
  | nil => cases h
  | cons c cs ih =>
    unfold lettersAfter at h
    split at h
    · next hc =>
      have hfirst : c.toUpper = first := by simpa [hbefore] using h
      exact hfirst ▸ isUpper_or_isDigit_toUpper hc
    · next hc => exact ih hc h

/-! ## The forms of type names -/

/-- The forms that type names have. -/
inductive PascalForm : List Char → Prop
  | blank : PascalForm ['_']
  | digit {d : Char} {cs : List Char} (hd : d.isDigit) (hcs : ∀ c ∈ cs, c.isAlphanum) :
      PascalForm ('_' :: d :: cs)
  | capital {c : Char} {cs : List Char} (hc : c.isUpper) (hcs : ∀ c ∈ cs, c.isAlphanum) :
      PascalForm (c :: cs)

/-- A type name is its letters, with a `_` in front if there are none or a digit is first. -/
theorem pascalChars_cases (cs : List Char) :
    (pascalChars cs = '_' :: lettersAfter '_' cs
        ∧ ∀ first, (lettersAfter '_' cs).head? = some first → first.isDigit)
    ∨ (pascalChars cs = lettersAfter '_' cs
        ∧ ∃ first, (lettersAfter '_' cs).head? = some first ∧ first.isUpper) := by
  unfold pascalChars
  rw [flatMap_capitalized_words]
  have hhead : ∀ first, (lettersAfter '_' cs).head? = some first → first.isUpper ∨ first.isDigit :=
    fun _ => head_lettersAfter (by decide)
  cases hletters : lettersAfter '_' cs with
  | nil => exact .inl ⟨rfl, fun _ h => (by cases h)⟩
  | cons c rest =>
    rw [hletters] at hhead
    by_cases hc : c.isDigit
    · left
      refine ⟨if_pos hc, fun first hfirst => ?_⟩
      rw [List.head?_cons, Option.some.injEq] at hfirst
      exact hfirst ▸ hc
    · exact .inr ⟨if_neg hc, c, rfl, (hhead c rfl).resolve_right hc⟩

theorem pascalForm_pascalChars (cs : List Char) : PascalForm (pascalChars cs) := by
  have halnum := isAlphanum_lettersAfter '_' cs
  rcases pascalChars_cases cs with ⟨heq, hdigit⟩ | ⟨heq, first, hfirst, hupper⟩
  · rw [heq]
    cases hletters : lettersAfter '_' cs with
    | nil => exact .blank
    | cons d rest =>
      rw [hletters] at halnum hdigit
      exact .digit (hdigit d rfl) fun c hc => halnum c (List.mem_cons_of_mem d hc)
  · rw [heq]
    cases hletters : lettersAfter '_' cs with
    | nil => rw [hletters] at hfirst; cases hfirst
    | cons c rest =>
      rw [hletters] at halnum hfirst
      rw [List.head?_cons, Option.some.injEq] at hfirst
      exact .capital (hfirst ▸ hupper) fun d hd => halnum d (List.mem_cons_of_mem c hd)

theorem PascalForm.pascalChars_eq {cs : List Char} (h : PascalForm cs) : pascalChars cs = cs := by
  unfold pascalChars
  rw [flatMap_capitalized_words]
  cases h with
  | blank => rfl
  | @digit d cs hd hcs =>
    have halnum := isAlphanum_of_isDigit hd
    have hletters : lettersAfter '_' ('_' :: d :: cs) = d :: cs := by
      rw [lettersAfter, if_neg (by decide), lettersAfter, if_pos halnum, if_neg (by decide),
        toUpper_of_isUpper_or_isDigit (.inr hd), lettersAfter_eq_self halnum hcs]
    rw [hletters]
    exact if_pos hd
  | @capital c cs hc hcs =>
    have halnum := isAlphanum_of_isUpper hc
    have hletters : lettersAfter '_' (c :: cs) = c :: cs := by
      rw [lettersAfter, if_pos halnum, if_neg (by decide),
        toUpper_of_isUpper_or_isDigit (.inl hc), lettersAfter_eq_self halnum hcs]
    rw [hletters]
    exact if_neg (not_isDigit_of_isUpper hc)

/-- A name is its own type name exactly if it has the form of one. -/
theorem pascalChars_eq_self_iff {cs : List Char} : pascalChars cs = cs ↔ PascalForm cs :=
  ⟨fun h => h ▸ pascalForm_pascalChars cs, PascalForm.pascalChars_eq⟩

/-- A type name made of a type name is the same one. -/
theorem pascalCase_pascalCase (name : String) :
    pascalCase (pascalCase name) = pascalCase name := by
  rw [pascalCase, pascalCase, String.toList_ofList,
    (pascalForm_pascalChars name.toList).pascalChars_eq]

/-- A type name opens with a capital or with `_`. -/
theorem pascalChars_head (cs : List Char) :
    ∃ c rest, pascalChars cs = c :: rest ∧ (c.isUpper ∨ c = '_') := by
  have hform := pascalForm_pascalChars cs
  generalize pascalChars cs = name at hform
  cases hform with
  | blank => exact ⟨'_', [], rfl, .inr rfl⟩
  | digit hd hcs => exact ⟨'_', _, rfl, .inr rfl⟩
  | capital hc hcs => exact ⟨_, _, rfl, .inl hc⟩

end SchemaTypes.Text

namespace SchemaTypes.Assembly

theorem interfaceName_head (c : Catalog) (t : Table) :
    ∃ first rest, (interfaceName c t).toList = first :: rest ∧ (first.isUpper ∨ first = '_') := by
  unfold interfaceName
  split
  · obtain ⟨first, rest, hchars, hfirst⟩ := Text.pascalChars_head t.name.toList
    exact ⟨first, rest, by rw [Text.pascalCase, String.toList_ofList, hchars], hfirst⟩
  · obtain ⟨first, rest, hchars, hfirst⟩ := Text.pascalChars_head (schemaOf c t).toList
    refine ⟨first, rest ++ (Text.pascalCase t.name).toList, ?_, hfirst⟩
    rw [String.toList_append, Text.pascalCase, String.toList_ofList, hchars, List.cons_append]

/-- No interface has a name that starts with a small letter. -/
theorem interfaceName_ne_of_isLower (c : Catalog) (t : Table) {name : String} {first : Char}
    {rest : List Char} (hname : name.toList = first :: rest) (hfirst : first.isLower) :
    interfaceName c t ≠ name := by
  intro h
  obtain ⟨opening, others, hchars, hopening⟩ := interfaceName_head c t
  rw [h, hname] at hchars
  obtain ⟨rfl, _⟩ := List.cons.inj hchars
  rcases hopening with hupper | rfl
  · have hu := Text.isUpper_iff.mp hupper
    have hl := Text.isLower_iff.mp hfirst
    omega
  · exact absurd hfirst (by decide)

end SchemaTypes.Assembly
