import SchemaTypes.Proofs.FirstError
import SchemaTypes.Render.Validator

/-!
# The texts of validators

A validator is put together from fragments, and its text is read off them (`written`). So
the text of a validator is put together from the texts of its parts, by one equation for
each form of an expression: `text_array`, `text_object` and so on. They say of texts what
`fragments` says of fragments, and nothing else about texts refers to fragments.

A union is the one form with two equations. If `null` is its second and last variant, the
validator is that of the other one (`text_union_of_nullable`); in all other unions the
variants are enumerated (`text_union_of_not_nullable`).
-/

namespace SchemaTypes.Validator

open Expression Render Rendered

/-! ## The text of fragments -/

@[simp] theorem written_nil : written [] = "" := rfl

@[simp] theorem written_cons (f : Fragment) (fs : List Fragment) :
    written (f :: fs) = f.written ++ written fs := by
  rw [written, List.map_cons, String.join_cons, written]

@[simp] theorem written_append (fs fs' : List Fragment) :
    written (fs ++ fs') = written fs ++ written fs' := by
  rw [written, List.map_append, String.join_append, written, written]

@[simp] theorem written_flatten (fss : List (List Fragment)) :
    written fss.flatten = String.join (fss.map written) := by
  induction fss with
  | nil => rfl
  | cons fs fss ih => rw [List.flatten_cons, written_append, ih, List.map_cons, String.join_cons]

@[simp] theorem written_intercalate (separator : String) (fss : List (List Fragment)) :
    written (List.intercalate [.text separator] fss) = separator.intercalate (fss.map written) := by
  match fss with
  | [] => rw [List.map_nil, String.intercalate_nil]; rfl
  | [fs] => rw [List.map_singleton, String.intercalate_singleton, List.intercalate_singleton]
  | fs :: fs' :: fss =>
    have ih := written_intercalate separator (fs' :: fss)
    rw [List.map_cons] at ih
    rw [List.map_cons, List.map_cons, String.intercalate_cons_cons, ← ih,
      List.intercalate_cons_cons, written_append, written_append]
    simp [Fragment.written]

@[simp] theorem written_text (t : String) : (Fragment.text t).written = t := rfl

@[simp] theorem written_name (n : String) : (Fragment.name n).written = n := rfl

/-- What is made of fragments makes a text of theirs. -/
theorem map_written_bind {α β : Type} {f : α → List Fragment} {g : β → String} {k : α → β}
    (h : ∀ a, written (f a) = g (k a)) (r : Rendered α) :
    (do
      let a ← r
      return f a : Rendered (List Fragment)).map written = (r.map k).map g := by
  cases r with
  | error e => rfl
  | ok a => exact congrArg Except.ok (h a)

/-! ## Expressions -/

theorem fragmentsOfAll_eq_map (es : List Expression) (depth : Nat) :
    fragmentsOfAll es depth = es.map fun e => fragments e depth :=
  eq_map_of_cons (g := fun es => fragmentsOfAll es depth) rfl (fun _ _ => rfl) es

theorem fragmentsOfProperties_eq_map (ps : List Property) (depth : Nat) :
    fragmentsOfProperties ps depth = ps.map fun p => fragmentsOfProperty p depth :=
  eq_map_of_cons (g := fun ps => fragmentsOfProperties ps depth) rfl (fun _ _ => rfl) ps

theorem collect_fragmentsOfAll (es : List Expression) (depth : Nat) :
    (collect (fragmentsOfAll es depth)).map (List.map written)
      = collect (es.map fun e => text e depth) := by
  rw [fragmentsOfAll_eq_map, ← collect_map_map]
  rfl

theorem identifierText_eq_written (i : Identifier) :
    identifierText i = written [identifierFragment i] := by
  obtain ⟨name, kind⟩ := i
  cases kind <;> simp [identifierText, identifierFragment]

theorem written_singleton (f : Fragment) : written [f] = f.written := by simp

theorem text_identifier (i : Identifier) (depth : Nat) :
    text (.identifier i) depth = .ok (identifierText i) := by
  rw [identifierText_eq_written]
  rfl

theorem text_literal (value : Literal) (depth : Nat) :
    text (.literal value) depth = .ok (literalText value) :=
  congrArg Except.ok (written_singleton (.text (literalText value)))

theorem text_infer (name : String) (depth : Nat) :
    text (.infer name) depth = .ok ("infer " ++ name) :=
  congrArg Except.ok (written_singleton (.text ("infer " ++ name)))

theorem text_array (element : Expression) (depth : Nat) :
    text (.array element) depth = (text element depth).map fun t =>
      if element.isMultiVariantUnion then "z.array(z.union(" ++ t ++ "))"
      else "z.array(" ++ t ++ ")" := by
  refine map_written_bind (fun fs => ?_) (fragments element depth)
  split <;> simp [String.append_assoc]

theorem nullableInner?_eq_some {vs : List Expression} {inner : Expression}
    (h : nullableInner? vs = some inner) : ∃ i, vs = [inner, .identifier i] ∧ i.isNull := by
  unfold nullableInner? at h
  split at h
  · split at h
    · next hnull => exact ⟨_, by rw [Option.some.inj h], hnull⟩
    · cases h
  · cases h

/-- A union with `null` as its second and last variant is written by the other one. -/
theorem text_union_of_nullable {vs : List Expression} {inner : Expression}
    (h : nullableInner? vs = some inner) (depth : Nat) :
    text (.union vs) depth = (text inner depth).map fun t => t ++ ".nullish()" := by
  obtain ⟨i, rfl, _⟩ := nullableInner?_eq_some h
  have hbranch : fragments (.union [inner, .identifier i]) depth = _ := if_pos (by rw [h]; rfl)
  rw [text, hbranch]
  exact map_written_bind (fun fs => by simp) (fragments inner depth)

theorem text_union_of_not_nullable {vs : List Expression} (hne : vs ≠ [])
    (h : nullableInner? vs = none) (depth : Nat) :
    text (.union vs) depth = (collect (vs.map fun v => text v depth)).map fun ts =>
      "z.enum([" ++ ", ".intercalate ts ++ "])" := by
  cases vs with
  | nil => exact absurd rfl hne
  | cons v vs =>
    have hbranch : fragments (.union (v :: vs)) depth = _ := if_neg (by rw [h]; simp)
    rw [text, hbranch, ← collect_fragmentsOfAll]
    exact map_written_bind (fun fss => by simp [String.append_assoc])
      (collect (fragmentsOfAll (v :: vs) depth))

theorem text_object {ps : List Property} (hne : ps ≠ []) (depth : Nat) :
    text (.object ps) depth = (collect (ps.map fun p => propertyText p (depth + 1))).map fun ts =>
      "z.object(" ++ block depth (String.join ts) ++ ")" := by
  have hlines : collect (ps.map fun p => propertyText p (depth + 1))
      = (collect (fragmentsOfProperties ps (depth + 1))).map (List.map written) := by
    rw [fragmentsOfProperties_eq_map, ← collect_map_map]
    rfl
  cases ps with
  | nil => exact absurd rfl hne
  | cons p ps =>
    rw [hlines]
    exact map_written_bind (fun fss => by simp [block, String.append_assoc])
      (collect (fragmentsOfProperties (p :: ps) (depth + 1)))

/-- A type constructor is left out, and its arguments are written in its place. -/
theorem text_generic {as : List Expression} (hne : as ≠ []) (name : String) (depth : Nat) :
    text (.generic name as) depth
      = (collect (as.map fun a => text a depth)).map ", ".intercalate := by
  cases as with
  | nil => exact absurd rfl hne
  | cons a as =>
    rw [← collect_fragmentsOfAll]
    exact map_written_bind (fun fss => by simp) (collect (fragmentsOfAll (a :: as) depth))

theorem text_conditional (name : String) (test consequent alternate : Expression) (depth : Nat) :
    text (.conditional name test consequent alternate) depth = do
      let t ← text test (depth + 1)
      let c ← text consequent (depth + 1)
      let a ← text alternate (depth + 1)
      return name ++ " extends " ++ t ++ "\n" ++ indent (depth + 1) ++ "? " ++ c
        ++ "\n" ++ indent (depth + 1) ++ ": " ++ a := by
  rw [text, text, text, text, fragments]
  -- the first part that fails decides, so they are gone through in their order
  cases fragments test (depth + 1) with
  | error e => rfl
  | ok t =>
    cases fragments consequent (depth + 1) with
    | error e => rfl
    | ok c =>
      cases fragments alternate (depth + 1) with
      | error e => rfl
      | ok a => exact congrArg Except.ok (by simp [String.append_assoc])

theorem text_mapped (value : Expression) (depth : Nat) :
    text (.mapped value) depth
      = (text value depth).map fun t => "z.record(z.string(), " ++ t ++ ".optional())" :=
  map_written_bind (fun fs => by simp [String.append_assoc]) (fragments value depth)

/-! ## Properties and statements -/

theorem propertyText_eq (p : Property) (depth : Nat) :
    propertyText p depth = (inProperty p.key (text p.value depth)).map fun t =>
      propertyHead depth p ++ t ++ (describeText p ++ ",\n") := by
  obtain ⟨key, value, description⟩ := p
  rw [propertyText, fragmentsOfProperty, ← inProperty_map, ← inProperty_map]
  exact congrArg (inProperty key) (map_written_bind (fun fs => by simp [String.append_assoc]) _)

theorem statementText_interface (name : String) (ps : List Property) :
    statementText (.exports (.interface name ps))
      = (inDeclaration name (text (.object ps) 0)).map fun t =>
        "export const " ++ name ++ " = " ++ t ++ ";" := by
  rw [statementText, statementFragments, ← inDeclaration_map, ← inDeclaration_map]
  exact congrArg (inDeclaration name)
    (map_written_bind (fun fs => by simp [String.append_assoc]) _)

end SchemaTypes.Validator
