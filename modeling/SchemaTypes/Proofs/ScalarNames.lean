import SchemaTypes.Assembly
import SchemaTypes.Proofs.Wrappers

/-!
# Reading database types

The type inside a wrapper is read as it is on its own, and nothing else around a type
matters but its wrappers: not blanks and not capitals (`parse_congr`). What is left when
the wrappers are gone is a name, and the name of a type is read as itself (`parse_base`).

> `parse_compositional`: all of this for every text, and that a column of the type in a
> wrapper is the column of the type with the flag of the wrapper set.
-/

namespace SchemaTypes

open Text (trimChars)
open Wrapper (Bare Wraps strip?_eq_some_iff)

namespace ScalarName

/-! ## Capitals and blanks -/

/-- The parentheses are not affected by letters being made small. -/
theorem strip?_map_toLower (w : Wrapper) (cs : List Char) :
    w.strip? (cs.map Char.toLower) = (w.strip? cs).map (List.map Char.toLower) := by
  refine Option.ext fun inner => ?_
  rw [strip?_eq_some_iff, Option.map_eq_some_iff]
  constructor
  · rintro ⟨word, body, hcs, hword, rfl⟩
    obtain ⟨word', rest, rfl, rfl, hrest⟩ := List.map_eq_append_iff.mp hcs
    obtain ⟨c, rest, rfl, hopen, hbody⟩ := List.map_eq_cons_iff.mp hrest
    obtain ⟨body', last, rfl, rfl, hlast⟩ := List.map_eq_append_iff.mp hbody
    obtain ⟨d, last, rfl, hclose, hnil⟩ := List.map_eq_cons_iff.mp hlast
    obtain rfl := List.map_eq_nil_iff.mp hnil
    obtain rfl := (Text.toLower_eq_iff (by decide) (by decide)).mp hopen
    obtain rfl := (Text.toLower_eq_iff (by decide) (by decide)).mp hclose
    rw [Text.map_toLower_map_toLower] at hword
    exact ⟨trimChars body', strip?_eq_some_iff.mpr ⟨word', body', rfl, hword, rfl⟩,
      (Text.trimChars_map_toLower body').symm⟩
  · rintro ⟨inner', hinner, rfl⟩
    obtain ⟨word, body, rfl, hword, rfl⟩ := strip?_eq_some_iff.mp hinner
    refine ⟨word.map Char.toLower, body.map Char.toLower, ?_, ?_,
      (Text.trimChars_map_toLower body).symm⟩
    · rw [List.map_append, List.map_cons, List.map_append]
      rfl
    · rw [Text.map_toLower_map_toLower, hword]

theorem base_map_toLower (cs : List Char) : base (cs.map Char.toLower) = base cs := by
  have hopen : (· != '(') ∘ Char.toLower = (· != '(') := by
    funext c
    rw [Function.comp_apply, Bool.eq_iff_iff, bne_iff_ne, bne_iff_ne, ne_eq, ne_eq,
      Text.toLower_eq_iff (by decide) (by decide)]
  rw [base, base, List.takeWhile_map, hopen, Text.trimChars_map_toLower,
    Text.map_toLower_map_toLower]

/-- Capitals and small letters make no difference. -/
theorem ofChars_map_toLower (cs : List Char) : ofChars (cs.map Char.toLower) = ofChars cs := by
  induction cs using ofChars.induct with
  | case1 cs w inner h ih =>
    have hstrip := strip?_map_toLower w cs
    rw [unwrap?_eq_some_iff.mp h, Option.map_some] at hstrip
    rw [ofChars_of_unwrap? h, ofChars_of_unwrap? (unwrap?_eq_some_iff.mpr hstrip), ih]
  | case2 cs h =>
    have hnone : unwrap? (cs.map Char.toLower) = none := by
      rw [Option.eq_none_iff_forall_ne_some]
      rintro ⟨w, inner⟩ hfound
      rw [unwrap?_eq_some_iff, strip?_map_toLower, Option.map_eq_some_iff] at hfound
      obtain ⟨inner', hinner, -⟩ := hfound
      rw [unwrap?_eq_some_iff.mpr hinner] at h
      cases h
    rw [ofChars_of_unwrap?_eq_none h, ofChars_of_unwrap?_eq_none hnone, base_map_toLower]

/-- The name of a type has no parenthesis, capital or blank end, so it is read as itself. -/
theorem parse_base (cs : List Char) :
    parse (String.ofList (base cs)) = { name := String.ofList (base cs) } := by
  have hopen : ∀ c ∈ base cs, (c != '(') = true := by
    intro c hc
    obtain ⟨d, hd, rfl⟩ := List.mem_map.mp hc
    obtain ⟨before, after, -, -, hcs⟩ := Text.exists_trimChars (cs.takeWhile (· != '('))
    have hmem : d ∈ cs.takeWhile (· != '(') := by
      rw [hcs]
      exact List.mem_append_left _ (List.mem_append_right _ hd)
    have hkept : (d != '(') = true := List.mem_takeWhile_imp (p := (· != '(')) hmem
    rw [bne_iff_ne, ne_eq, Text.toLower_eq_iff (by decide) (by decide)]
    exact bne_iff_ne.mp hkept
  have hbare : Bare (base cs) := fun w inner hwraps =>
    absurd (hopen '(' hwraps.open_mem) (by decide)
  have hread := parse_of_bare (String.ofList (base cs)) (by rwa [String.toList_ofList])
  have hbase : base (base cs) = base cs := by
    rw [base, List.takeWhile_eq_self_iff.mpr hopen, base, Text.trimChars_map_toLower,
      Text.trimChars_trimChars, Text.map_toLower_map_toLower]
  rw [hread, String.toList_ofList, base_trimChars, hbase]

/-- Types that are the same up to blanks around them and to capitals are read alike. -/
theorem parse_congr {raw other : String}
    (h : Text.sameIgnoringCase (Text.trim other) (Text.trim raw)) : parse other = parse raw := by
  have hsmall : (trimChars other.toList).map Char.toLower
      = (trimChars raw.toList).map Char.toLower := by
    rw [Text.sameIgnoringCase, beq_iff_eq, Text.toList_trim, Text.toList_trim] at h
    exact h
  rw [parse, parse, ← ofChars_map_toLower, hsmall, ofChars_map_toLower]

end ScalarName

/-! ## Columns -/

theorem Catalog.resolve_of_wraps (c : Catalog) {w : Wrapper} {inner outer : String}
    (h : Wraps w inner.toList outer.toList) :
    c.resolve outer =
      { expression := (c.resolve inner).expression
        isNullable := (c.resolve inner).isNullable || decide (w = .nullable)
        isArray := (c.resolve inner).isArray || decide (w = .array) } := by
  rw [resolve, resolve, ScalarName.parse_of_wraps h]
  cases w <;> simp [ScalarName.wrapped]

/-- A column of a type in `Nullable` is one of that type that may be missing. -/
theorem Assembly.columnProperty_of_nullable (c : Catalog) (column : Column)
    {inner outer : String} (h : Wraps .nullable inner.toList outer.toList) :
    columnProperty c { column with dataType := outer }
      = columnProperty c { column with dataType := inner, isNullable := true } := by
  unfold columnProperty columnType
  simp only [c.resolve_of_wraps h, reduceCtorEq, decide_true, decide_false, Bool.or_true,
    Bool.true_or, Bool.or_false]

/-- A column of a type in `Array` is one that holds a list of that type. -/
theorem Assembly.columnProperty_of_array (c : Catalog) (column : Column)
    {inner outer : String} (h : Wraps .array inner.toList outer.toList) :
    columnProperty c { column with dataType := outer }
      = columnProperty c { column with dataType := inner, isArray := true } := by
  unfold columnProperty columnType
  simp only [c.resolve_of_wraps h, reduceCtorEq, decide_true, decide_false, Bool.or_true,
    Bool.true_or, Bool.or_false]

/-! ## Reading types -/

namespace ScalarName

/-- For every text: in a wrapper it is read as it is on its own, with the flag of the
wrapper; if it is not wrapped itself it is read as a name; taking off its wrappers ends,
and leaves the flags of all of them; case and blanks around it make no difference; its
name is read as itself; and a column of the type in a wrapper is the column of the type
with the flag set. -/
theorem parse_compositional (raw : String) :
    (∀ (w : Wrapper) (outer : String), Wraps w raw.toList outer.toList →
      parse outer =
        { name := (parse raw).name
          isNullable := (parse raw).isNullable || decide (w = .nullable)
          isArray := (parse raw).isArray || decide (w = .array) })
    ∧ (Bare raw.toList →
      parse raw =
        { name := String.ofList ((trimChars (raw.toList.takeWhile (· != '('))).map Char.toLower)
          isNullable := false
          isArray := false })
    ∧ (∃ ws core, Layers ws core raw.toList ∧ 7 * ws.length + core.length ≤ raw.toList.length
      ∧ parse raw =
        { name := String.ofList ((trimChars (core.takeWhile (· != '('))).map Char.toLower)
          isNullable := decide (.nullable ∈ ws)
          isArray := decide (.array ∈ ws) })
    ∧ (∀ other : String, Text.sameIgnoringCase (Text.trim other) (Text.trim raw) →
      parse other = parse raw)
    ∧ parse (parse raw).name = { name := (parse raw).name, isNullable := false, isArray := false }
    ∧ ∀ (c : Catalog) (column : Column) (outer : String),
      (Wraps .nullable raw.toList outer.toList →
        Assembly.columnProperty c { column with dataType := outer }
          = Assembly.columnProperty c { column with dataType := raw, isNullable := true })
      ∧ (Wraps .array raw.toList outer.toList →
        Assembly.columnProperty c { column with dataType := outer }
          = Assembly.columnProperty c { column with dataType := raw, isArray := true }) := by
  obtain ⟨ws, core, hlayers, hlength⟩ := exists_layers raw.toList
  have hread := parse_of_layers hlayers
  refine ⟨fun w outer h => ?_, fun h => ?_, ⟨ws, core, hlayers, hlength, hread⟩,
    fun other h => parse_congr h, ?_, fun c column outer => ?_⟩
  · rw [parse_of_wraps h]
    cases w <;> simp [wrapped]
  · rw [parse_of_bare raw h, base_trimChars]
    rfl
  · rw [hread]
    exact parse_base core
  · exact ⟨Assembly.columnProperty_of_nullable c column, Assembly.columnProperty_of_array c column⟩

theorem parse_compositional_string :
    Bare "String".toList
      ∧ Wraps .nullable "String".toList "NULLABLE( String)".toList
      ∧ Wraps .lowCardinality "NULLABLE( String)".toList
        " LowCardinality(NULLABLE( String)\t)\n".toList
      ∧ Wraps .array "String".toList "Array(String)".toList
      ∧ parse " LowCardinality(NULLABLE( String)\t)\n" =
        { name := "string", isNullable := true, isArray := false }
      ∧ parse "\tSTRING" = { name := "string", isNullable := false, isArray := false }
      ∧ ∀ (c : Catalog) (column : Column),
        Assembly.columnProperty c { column with dataType := "Array(String)" }
          = Assembly.columnProperty c { column with dataType := "String", isArray := true } := by
  have hbare : Bare "String".toList := fun w inner h => absurd h.open_mem (by decide)
  have hnullable : Wraps .nullable "String".toList "NULLABLE( String)".toList :=
    .intro [] "NULLABLE".toList [' '] [] [] (by decide) (by decide) (by decide) (by decide)
      (by decide)
  have houter : Wraps .lowCardinality "NULLABLE( String)".toList
      " LowCardinality(NULLABLE( String)\t)\n".toList :=
    .intro [' '] "LowCardinality".toList [] ['\t'] ['\n'] (by decide) (by decide) (by decide)
      (by decide) (by decide)
  have harray : Wraps .array "String".toList "Array(String)".toList :=
    .intro [] "Array".toList [] [] [] (by decide) (by decide) (by decide) (by decide) (by decide)
  obtain ⟨hwrapped, hname, -, hcase, -, hcolumn⟩ := parse_compositional "String"
  have hstring : parse "String" = { name := "string", isNullable := false, isArray := false } :=
    hname hbare
  refine ⟨hbare, hnullable, houter, harray, ?_, ?_, fun c column => (hcolumn c column _).2 harray⟩
  · rw [(parse_compositional "NULLABLE( String)").1 .lowCardinality _ houter,
      hwrapped .nullable _ hnullable, hstring]
    rfl
  · rw [hcase "\tSTRING" (by decide), hstring]

end ScalarName

end SchemaTypes
