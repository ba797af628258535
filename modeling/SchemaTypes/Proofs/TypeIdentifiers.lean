import SchemaTypes.Proofs.BareNames
import SchemaTypes.Proofs.PascalCase

/-!
# Type names as identifiers

The forms that type names have are those of identifiers. Two of them put together, as for
a table of another schema, are an identifier as well, since a type name has nothing in it
that could not follow in one (`PascalForm.continuesName`). None of them is taken: a word
that is taken begins with a small letter.

> `typeNames_spelled`: the name of a table's interface is an identifier that can be
> declared, and every type name is spelled from the letters and digits of the name that it
> is made of (`SpelledFrom`).
-/

namespace SchemaTypes.Text

/-! ## Identifiers -/

/-- All that stands in a type name continues a bare name. -/
theorem PascalForm.continuesName {cs : List Char} (h : PascalForm cs) :
    ∀ c ∈ cs, continuesName c := by
  have hword : ∀ {c : Char}, c.isAlphanum → Text.continuesName c := fun hc => by
    rw [Text.continuesName, hc, Bool.true_or, Bool.true_or]
  cases h with
  | blank => exact List.forall_mem_singleton.mpr (by decide)
  | digit hd hcs =>
    exact List.forall_mem_cons.mpr ⟨by decide, List.forall_mem_cons.mpr
      ⟨hword (isAlphanum_of_isDigit hd), fun c hc => hword (hcs c hc)⟩⟩
  | capital hc hcs =>
    exact List.forall_mem_cons.mpr ⟨hword (isAlphanum_of_isUpper hc), fun c hc => hword (hcs c hc)⟩

/-- Characters that continue a name make a bare name when a capital or `_` is first. -/
theorem isBareName_of_continuesName {first : Char} {rest : List Char}
    (hfirst : first.isUpper ∨ first = '_') (hrest : ∀ c ∈ rest, continuesName c) :
    isBareName (first :: rest) := by
  rw [isBareName, Bool.and_eq_true, List.all_eq_true]
  refine ⟨opensName_iff.mpr ?_, hrest⟩
  exact hfirst.imp (fun h => isAlpha_iff.mp (by rw [Char.isAlpha, h, Bool.true_or])) .inl

/-! ## Spelling -/

theorem underscore_not_mem_lettersAfter (before : Char) (cs : List Char) :
    '_' ∉ lettersAfter before cs := fun h =>
  absurd (isAlphanum_lettersAfter before cs _ h) (by decide)

/-- Without its `_`, a type name is its letters. -/
theorem filter_pascalChars (cs : List Char) :
    (pascalChars cs).filter (· ≠ '_') = lettersAfter '_' cs := by
  have hletters : (lettersAfter '_' cs).filter (· ≠ '_') = lettersAfter '_' cs := by
    refine List.filter_eq_self.mpr fun c hc => decide_eq_true ?_
    rintro rfl
    exact underscore_not_mem_lettersAfter '_' cs hc
  rcases pascalChars_cases cs with ⟨heq, _⟩ | ⟨heq, _⟩
  · rw [heq, List.filter_cons_of_neg (by decide), hletters]
  · rw [heq, hletters]

/-- A `_` in a type name is its first character. -/
theorem eq_nil_of_pascalChars_eq {cs before after : List Char}
    (h : pascalChars cs = before ++ '_' :: after) : before = [] := by
  have hnone := underscore_not_mem_lettersAfter '_' cs
  rcases pascalChars_cases cs with ⟨heq, _⟩ | ⟨heq, _⟩
  · rw [heq] at h
    cases before with
    | nil => rfl
    | cons c before =>
      obtain ⟨_, hrest⟩ := List.cons.inj h
      exact absurd (hrest ▸ List.mem_append_right _ List.mem_cons_self) hnone
  · rw [heq] at h
    exact absurd (h ▸ List.mem_append_right _ List.mem_cons_self) hnone

/-- There is a `_` in a type name exactly if its letters are none or begin with a digit. -/
theorem underscore_mem_pascalChars_iff {cs : List Char} :
    '_' ∈ pascalChars cs ↔ ∀ first, (lettersAfter '_' cs).head? = some first → first.isDigit := by
  rcases pascalChars_cases cs with ⟨heq, hdigit⟩ | ⟨heq, first, hfirst, hupper⟩
  · exact iff_of_true (heq ▸ List.mem_cons_self) hdigit
  · have hnone : '_' ∉ pascalChars cs := heq ▸ underscore_not_mem_lettersAfter '_' cs
    exact iff_of_false hnone fun h => not_isDigit_of_isUpper hupper (h first hfirst)

/-- How a type name is spelled after the database name that it is made of. -/
structure SpelledFrom (name typeName : String) : Prop where
  underscore_first : ∀ before after, typeName.toList = before ++ '_' :: after → before = []
  /-- The rest are the letters and digits of the name, in their order, with the first one of
  each run as a capital. -/
  letters : typeName.toList.filter (· ≠ '_') = lettersAfter '_' name.toList
  /-- So they are those of the name up to their case. -/
  same_letters : (typeName.toList.filter (· ≠ '_')).map Char.toLower
    = (name.toList.filter Char.isAlphanum).map Char.toLower
  /-- There is a `_` exactly if the rest is empty or begins with a digit. -/
  marked : '_' ∈ typeName.toList
    ↔ ∀ first, (lettersAfter '_' name.toList).head? = some first → first.isDigit

theorem spelledFrom_pascalCase (name : String) : SpelledFrom name (pascalCase name) := by
  have hchars : (pascalCase name).toList = pascalChars name.toList := String.toList_ofList
  constructor
  · intro before after hsplit
    exact eq_nil_of_pascalChars_eq (hchars.symm.trans hsplit)
  · rw [hchars, filter_pascalChars]
  · rw [hchars, filter_pascalChars, map_toLower_lettersAfter]
  · rw [hchars, underscore_mem_pascalChars_iff]

end SchemaTypes.Text

namespace SchemaTypes.Assembly

theorem interfaceName_continuesName (c : Catalog) (t : Table) :
    ∀ d ∈ (interfaceName c t).toList, Text.continuesName d := by
  have hpascal : ∀ name, ∀ d ∈ (Text.pascalCase name).toList, Text.continuesName d := by
    intro name
    rw [Text.pascalCase, String.toList_ofList]
    exact (Text.pascalForm_pascalChars name.toList).continuesName
  unfold interfaceName
  split
  · exact hpascal t.name
  · rw [String.toList_append]
    exact List.forall_mem_append.mpr ⟨hpascal _, hpascal _⟩

/-- The name of a table's interface is an identifier. -/
theorem interfaceName_isIdentifier (c : Catalog) (t : Table) :
    Text.IsIdentifier (interfaceName c t) := by
  obtain ⟨first, rest, hchars, hfirst⟩ := interfaceName_head c t
  have hall := interfaceName_continuesName c t
  rw [hchars] at hall
  refine Text.isBareName_iff.mp ?_
  rw [hchars]
  exact Text.isBareName_of_continuesName hfirst fun d hd => hall d (List.mem_cons_of_mem _ hd)

/-- No interface has the name of a word that is taken. -/
theorem interfaceName_not_mem_reservedWords (c : Catalog) (t : Table) :
    interfaceName c t ∉ Text.reservedWords := by
  intro hmem
  obtain ⟨first, rest, hchars, hlower⟩ := Text.reservedWords_head _ hmem
  exact interfaceName_ne_of_isLower c t hchars hlower rfl

/-- For every catalog and table, whatever its schema and name are, the name of the
interface is an identifier that can be declared and begins with a capital or `_`. Every
type name is spelled from the letters and digits of the name that it is made of, with at
most a `_` in front, and is its own type name. -/
theorem typeNames_spelled :
    (∀ (c : Catalog) (t : Table), Text.IsIdentifier (interfaceName c t)
      ∧ interfaceName c t ∉ Text.reservedWords
      ∧ ∃ first rest, (interfaceName c t).toList = first :: rest
        ∧ ('A' ≤ first ∧ first ≤ 'Z' ∨ first = '_'))
    ∧ ∀ name : String, Text.SpelledFrom name (Text.pascalCase name)
      ∧ Text.pascalCase (Text.pascalCase name) = Text.pascalCase name := by
  constructor
  · intro c t
    obtain ⟨first, rest, hchars, hfirst⟩ := interfaceName_head c t
    have hcapital : first.isUpper → 'A' ≤ first ∧ first ≤ 'Z' := Text.isUpper_iff.mp
    exact ⟨interfaceName_isIdentifier c t, interfaceName_not_mem_reservedWords c t, first, rest,
      hchars, hfirst.imp_left hcapital⟩
  · intro name
    exact ⟨Text.spelledFrom_pascalCase name, Text.pascalCase_pascalCase name⟩

end SchemaTypes.Assembly
