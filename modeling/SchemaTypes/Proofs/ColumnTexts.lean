import SchemaTypes.Proofs.CanonicalOrder
import SchemaTypes.Proofs.Declared
import SchemaTypes.Proofs.Dialects
import SchemaTypes.Proofs.ScalarNames
import SchemaTypes.Proofs.ValidatorTexts

/-!
# The two forms of a column

The type of a column is built in layers around its scalar type: a list, a generated
column, `null`. Each layer adds something to the static type and to the validator, and
what it adds does not depend on what is inside: a list of one type needs no parentheses,
and `null` stands behind every name but `undefined`. A generated column is left out of the
validator, which checks what is read. So the text of a column is put together from that
of its scalar type:

> `column_texts`: both forms of a column, for every catalog whose scalar types are names,
> as they are in all dialects (`Dialect.namesScalars`).
-/

namespace SchemaTypes

open Render Rendered

/-! ## Static types -/

namespace StaticType

variable {e : Expression} {depth : Nat} {t : String}

/-- A list of anything but a union is written without parentheses. -/
theorem text_array_of_ok (hsingle : e.isMultiVariantUnion = false) (h : text e depth = .ok t) :
    text (.array e) depth = .ok (t ++ "[]") := by
  rw [text_array, h]
  show (Except.ok (if e.isMultiVariantUnion then "(" ++ t ++ ")[]" else t ++ "[]") :
    Rendered String) = _
  rw [hsingle]
  rfl

theorem text_generic_of_ok (name : String) (h : text e depth = .ok t) :
    text (.generic name [e]) depth = .ok (name ++ "<" ++ t ++ ">") := by
  rw [text_generic (List.cons_ne_nil e []), List.map_singleton, h]
  show (Except.ok (name ++ "<" ++ ", ".intercalate [t] ++ ">") : Rendered String) = _
  rw [String.intercalate_singleton]

/-- No name but `undefined` comes after `null`. -/
theorem compareIdentifiers_null {id : Identifier} (h : id.isUndefined = false) :
    (UnionOrder.compareIdentifiers id (.named "null")).isLE := by
  have hnull : UnionOrder.rank (.named "null") = 1 := by decide
  rw [UnionOrder.compareIdentifiers, hnull, UnionOrder.rank, h]
  cases hid : id.isNull with
  | false => rfl
  | true =>
    have hname : id.name = "null" := beq_iff_eq.mp hid
    rw [hname]
    decide

/-- The name `null` stays behind a name that is not `undefined`, and behind what is no
name in any case. -/
theorem canonical_nullable {e : Expression}
    (h : ∀ id, e = .identifier id → id.isUndefined = false) :
    UnionOrder.canonical Expression.identifier? [e, .null] = [e, .null] := by
  cases e with
  | identifier id =>
    exact UnionOrder.canonical_eq_self (List.pairwise_pair.mpr (compareIdentifiers_null (h id rfl)))
  | _ => exact UnionOrder.canonical_eq_self (List.pairwise_singleton _ _)

theorem text_nullable_of_ok (hname : ∀ id, e = .identifier id → id.isUndefined = false)
    (h : text e depth = .ok t) : text e.nullable depth = .ok (t ++ " | null") := by
  have hnull : text .null depth = .ok "null" := rfl
  rw [Expression.nullable, text_union (List.cons_ne_nil _ _), canonical_nullable hname]
  simp only [List.map_cons, List.map_nil, collect, h, hnull]
  show (Except.ok (" | ".intercalate [t, "null"]) : Rendered String) = _
  rw [String.intercalate_cons_cons, String.intercalate_singleton, String.append_assoc]
  rfl

end StaticType

/-! ## Validators -/

namespace Validator

variable {e : Expression} {depth : Nat} {t : String}

theorem text_array_of_ok (hsingle : e.isMultiVariantUnion = false) (h : text e depth = .ok t) :
    text (.array e) depth = .ok ("z.array(" ++ t ++ ")") := by
  rw [text_array, h]
  show (Except.ok (if e.isMultiVariantUnion then "z.array(z.union(" ++ t ++ "))"
    else "z.array(" ++ t ++ ")") : Rendered String) = _
  rw [hsingle]
  rfl

/-- A type constructor is left out, and its one argument is written in its place. -/
theorem text_generic_of_ok (name : String) (h : text e depth = .ok t) :
    text (.generic name [e]) depth = .ok t := by
  rw [text_generic (List.cons_ne_nil e []), List.map_singleton, h]
  show (Except.ok (", ".intercalate [t]) : Rendered String) = _
  rw [String.intercalate_singleton]

theorem text_nullable_of_ok (h : text e depth = .ok t) :
    text e.nullable depth = .ok (t ++ ".nullish()") := by
  have hinner : Expression.nullableInner? [e, .null] = some e := rfl
  rw [Expression.nullable, text_union_of_nullable hinner, h]
  rfl

end Validator

/-! ## Columns -/

/-- All scalar types of the catalog are names, and none is `undefined`. -/
def Catalog.NamesScalars (c : Catalog) : Prop :=
  ∀ e ∈ c.scalarTypes, ∃ id : Identifier, e = .identifier id ∧ id.isUndefined = false

/-- The scalar types of a dialect are names. -/
theorem Dialect.namesScalars {d : Dialect} {c : Catalog} (hc : d.catalog = .ok c) :
    c.NamesScalars := by
  have hscalars : ∀ d : Dialect, ∀ entry ∈ d.scalars,
      (Identifier.named entry.2).isUndefined = false := by
    intro d
    cases d <;> decide
  intro e he
  rw [Catalog.scalarTypes, defaultScalar_eq hc, entries_scalars hc, List.map_map] at he
  rcases List.mem_cons.mp he with rfl | he
  · exact ⟨_, rfl, rfl⟩
  · obtain ⟨scalar, hscalar, rfl⟩ := List.mem_map.mp he
    exact ⟨_, rfl, hscalars d scalar hscalar⟩

namespace Assembly

open ScalarName (HasWrapper)

/-- The column holds lists: the column says so, or its type is in `Array`. -/
def HoldsLists (column : Column) : Prop :=
  column.isArray ∨ HasWrapper .array column.dataType

/-- The column may hold nothing: the column says so, or its type is in `Nullable`. -/
def MayBeMissing (column : Column) : Prop :=
  column.isNullable ∨ HasWrapper .nullable column.dataType

/-- An insert may leave the column out. -/
def IsGenerated (column : Column) : Prop :=
  column.hasDefault ∨ column.isAutoIncrementing

instance (column : Column) : Decidable (HoldsLists column) :=
  inferInstanceAs (Decidable (_ ∨ _))

instance (column : Column) : Decidable (MayBeMissing column) :=
  inferInstanceAs (Decidable (_ ∨ _))

instance (column : Column) : Decidable (IsGenerated column) :=
  inferInstanceAs (Decidable (_ ∨ _))

/-- The static type of a column with this scalar type. -/
def staticColumnText (column : Column) (scalar : String) : String :=
  let value := if HoldsLists column then scalar ++ "[]" else scalar
  let value := if IsGenerated column then "Generated<" ++ value ++ ">" else value
  if MayBeMissing column then value ++ " | null" else value

/-- The validator of a column with this scalar type. -/
def validatorColumnText (column : Column) (scalar : String) : String :=
  let value := if HoldsLists column then "z.array(" ++ scalar ++ ")" else scalar
  if MayBeMissing column then value ++ ".nullish()" else value

theorem columnExpression_eq (c : Catalog) (column : Column) :
    columnExpression c column =
      let scalar := (c.resolve column.dataType).expression
      let value := if HoldsLists column then .array scalar else scalar
      let value := if IsGenerated column then .generic "Generated" [value] else value
      if MayBeMissing column then value.nullable else value := by
  have hlists : (column.isArray || (c.resolve column.dataType).isArray) = true
      ↔ HoldsLists column := by
    rw [Bool.or_eq_true, HoldsLists, ← ScalarName.parse_isArray_iff]
    rfl
  have hmissing : (column.isNullable || (c.resolve column.dataType).isNullable) = true
      ↔ MayBeMissing column := by
    rw [Bool.or_eq_true, MayBeMissing, ← ScalarName.parse_isNullable_iff]
    rfl
  have hgenerated : (column.hasDefault || column.isAutoIncrementing) = true
      ↔ IsGenerated column := by
    rw [Bool.or_eq_true, IsGenerated]
  rw [columnExpression]
  simp only [hlists, hmissing, hgenerated]

/-- A type that a layer can be put around: the two texts it has, and that it is neither a
union nor the name `undefined`. -/
structure Layer (depth : Nat) (e : Expression) (static validator : String) : Prop where
  static_text : StaticType.text e depth = .ok static
  validator_text : Validator.text e depth = .ok validator
  single : e.isMultiVariantUnion = false
  defined : ∀ id, e = .identifier id → id.isUndefined = false

namespace Layer

variable {depth : Nat} {e : Expression} {static validator : String} {column : Column}

theorem identifier {id : Identifier} (hid : id.isUndefined = false) :
    Layer depth (.identifier id) id.name (Validator.identifierText id) where
  static_text := by rw [StaticType.text]
  validator_text := Validator.text_identifier id depth
  single := rfl
  defined := by
    rintro _ ⟨⟩
    exact hid

theorem list (h : Layer depth e static validator) :
    Layer depth (if HoldsLists column then .array e else e)
      (if HoldsLists column then static ++ "[]" else static)
      (if HoldsLists column then "z.array(" ++ validator ++ ")" else validator) := by
  split
  · exact {
      static_text := StaticType.text_array_of_ok h.single h.static_text
      validator_text := Validator.text_array_of_ok h.single h.validator_text
      single := rfl
      defined := by rintro _ ⟨⟩ }
  · exact h

/-- The validator of a generated column is that of what it holds. -/
theorem generated (h : Layer depth e static validator) :
    Layer depth (if IsGenerated column then .generic "Generated" [e] else e)
      (if IsGenerated column then "Generated<" ++ static ++ ">" else static) validator := by
  split
  · exact {
      static_text := StaticType.text_generic_of_ok "Generated" h.static_text
      validator_text := Validator.text_generic_of_ok "Generated" h.validator_text
      single := rfl
      defined := by rintro _ ⟨⟩ }
  · exact h

theorem missing (h : Layer depth e static validator) :
    StaticType.text (if MayBeMissing column then e.nullable else e) depth
        = .ok (if MayBeMissing column then static ++ " | null" else static)
      ∧ Validator.text (if MayBeMissing column then e.nullable else e) depth
        = .ok (if MayBeMissing column then validator ++ ".nullish()" else validator) := by
  split
  · exact ⟨StaticType.text_nullable_of_ok h.defined h.static_text,
      Validator.text_nullable_of_ok h.validator_text⟩
  · exact ⟨h.static_text, h.validator_text⟩

end Layer

/-- The texts of a column, from the inside out: what it holds, a list of it, a generated
column of that, `null`. -/
theorem columnExpression_texts {c : Catalog} {column : Column} {id : Identifier}
    (hscalar : (c.resolve column.dataType).expression = .identifier id)
    (hid : id.isUndefined = false) (depth : Nat) :
    StaticType.text (columnExpression c column) depth = .ok (staticColumnText column id.name)
      ∧ Validator.text (columnExpression c column) depth
        = .ok (validatorColumnText column (Validator.identifierText id)) := by
  rw [columnExpression_eq, hscalar]
  exact (Layer.identifier hid).list.generated.missing

/-- Both forms of a column are put together from the two texts of its scalar type, and take
from the same facts about the column whether it is a list and whether it may be missing;
the validator does not depend on whether it is generated. -/
theorem column_texts (c : Catalog) (hscalars : c.NamesScalars) (column : Column) (depth : Nat) :
    ∃ p n v, columnProperty c column = .ok p
      ∧ StaticType.text (c.resolve column.dataType).expression depth = .ok n
      ∧ Validator.text (c.resolve column.dataType).expression depth = .ok v
      ∧ StaticType.text p.value depth = .ok (staticColumnText column n)
      ∧ Validator.text p.value depth = .ok (validatorColumnText column v) := by
  obtain ⟨id, hscalar, hid⟩ := hscalars _ (c.resolve_mem column.dataType)
  refine ⟨columnMember c column, id.name, Validator.identifierText id,
    columnProperty_eq_ok c column, ?_, ?_, columnExpression_texts hscalar hid depth⟩
  · rw [hscalar, StaticType.text]
  · rw [hscalar, Validator.text_identifier]

/-- Times that may be missing, in a list with a default. -/
def timesColumn : Column where
  name := "times"
  dataType := "Array(LowCardinality(Nullable(DateTime)))"
  hasDefault := true

theorem timesColumn_layers :
    HoldsLists timesColumn ∧ IsGenerated timesColumn ∧ MayBeMissing timesColumn := by
  have hparse : ScalarName.parse timesColumn.dataType
      = { name := "datetime", isNullable := true, isArray := true } := by
    cbv
  refine ⟨.inr ?_, .inl rfl, .inr ?_⟩
  · rw [← ScalarName.parse_isArray_iff, hparse]
  · rw [← ScalarName.parse_isNullable_iff, hparse]

/-- The default is in the static type only. -/
theorem column_texts_times :
    ∃ c p, Dialect.clickHouse.catalog = .ok c ∧ columnProperty c timesColumn = .ok p
      ∧ StaticType.text p.value 0 = .ok "Generated<Date[]> | null"
      ∧ Validator.text p.value 0 = .ok "z.array(z.coerce.date()).nullish()" := by
  obtain ⟨c, hc⟩ : ∃ c, Dialect.clickHouse.catalog = .ok c := ⟨_, rfl⟩
  obtain ⟨hlists, hgenerated, hmissing⟩ := timesColumn_layers
  have hdate : Dialect.clickHouse.typeName timesColumn.dataType = "Date" := by cbv
  obtain ⟨p, n, v, hp, hn, hv, hstatic, hvalidator⟩ :=
    column_texts c (Dialect.namesScalars hc) timesColumn 0
  rw [Dialect.resolve_expression hc, hdate] at hn hv
  obtain rfl : "Date" = n := Except.ok.inj hn
  obtain rfl : "z.coerce.date()" = v := Except.ok.inj hv
  refine ⟨c, p, hc, hp, ?_, ?_⟩
  · rw [hstatic, staticColumnText, if_pos hlists, if_pos hgenerated, if_pos hmissing]
    rfl
  · rw [hvalidator, validatorColumnText, if_pos hlists, if_pos hmissing]
    rfl

end Assembly

end SchemaTypes
