import SchemaTypes.Render.Validator

/-!
# The names in a validator

The fragments of a validator say which names are written in it as they are: those of the
kind of references. Which ones there are does not change when a type is made an array, a
generic with one argument or nullable (`PrintsNames`), and those are all the ways in which
the types of columns are made.
-/

namespace SchemaTypes.Validator

open Render Rendered

/-- The names among the fragments. -/
def namesIn (fs : List Fragment) : List String :=
  fs.filterMap Fragment.name?

@[simp] theorem namesIn_nil : namesIn [] = [] := rfl

@[simp] theorem namesIn_text (t : String) (fs : List Fragment) :
    namesIn (.text t :: fs) = namesIn fs := rfl

@[simp] theorem namesIn_append (fs fs' : List Fragment) :
    namesIn (fs ++ fs') = namesIn fs ++ namesIn fs' :=
  List.filterMap_append

theorem mem_namesIn {name : String} {fs : List Fragment} : name ∈ namesIn fs ↔ .name name ∈ fs := by
  rw [namesIn, List.mem_filterMap]
  constructor
  · intro h
    obtain ⟨f, hf, hname⟩ := h
    cases f with
    | name n => rwa [← Option.some.inj hname]
    | text t => cases hname
  · intro h
    exact ⟨.name name, h, rfl⟩

/-- The validator of the type has these names in it, at any depth. -/
def PrintsNames (e : Expression) (names : List String) : Prop :=
  ∀ depth, ∃ fs, fragments e depth = .ok fs ∧ namesIn fs = names

namespace PrintsNames

variable {e : Expression} {names : List String}

theorem identifier (i : Identifier) :
    PrintsNames (.identifier i) (if i.kind = .reference then [i.name] else []) := by
  intro depth
  refine ⟨[identifierFragment i], rfl, ?_⟩
  rw [identifierFragment]
  split <;> rfl

/-- Text around the names does not change them. -/
theorem of_fragments_eq {e' : Expression} (f : List Fragment → List Fragment)
    (hnames : ∀ fs, namesIn (f fs) = namesIn fs) (h : PrintsNames e names)
    (hfragments : ∀ depth, fragments e' depth = (fragments e depth).map f) :
    PrintsNames e' names := by
  intro depth
  obtain ⟨fs, hfs, rfl⟩ := h depth
  exact ⟨f fs, by rw [hfragments, hfs]; rfl, hnames fs⟩

theorem array (h : PrintsNames e names) : PrintsNames (.array e) names := by
  refine h.of_fragments_eq (fun fs => if e.isMultiVariantUnion
    then .text "z.array(z.union(" :: fs ++ [.text "))"]
    else .text "z.array(" :: fs ++ [.text ")"]) (fun fs => ?_) fun depth => ?_
  · split <;> simp
  · rw [fragments]
    cases fragments e depth <;> rfl

theorem generic (name : String) (h : PrintsNames e names) :
    PrintsNames (.generic name [e]) names := by
  refine h.of_fragments_eq (fun fs => List.intercalate [.text ", "] [fs]) (fun fs => ?_)
    fun depth => ?_
  · rw [List.intercalate_singleton]
  · rw [fragments, fragmentsOfAll, fragmentsOfAll]
    cases fragments e depth <;> rfl

theorem nullable (h : PrintsNames e names) : PrintsNames e.nullable names := by
  refine h.of_fragments_eq (fun fs => fs ++ [.text ".nullish()"]) (fun fs => ?_) fun depth => ?_
  · simp
  · have hnull : (Expression.nullableInner? [e, Expression.null]).isSome := rfl
    rw [Expression.nullable, fragments, if_pos hnull]
    cases fragments e depth <;> rfl

theorem ite {e' : Expression} (b : Bool) (h : PrintsNames e names)
    (h' : PrintsNames e' names) : PrintsNames (if b then e else e') names := by
  cases b
  · exact h'
  · exact h

theorem property {p : Property} (h : PrintsNames p.value names) (depth : Nat) :
    ∃ fs, fragmentsOfProperty p depth = .ok fs ∧ namesIn fs = names := by
  obtain ⟨key, value, description⟩ := p
  obtain ⟨fs, hfs, hnames⟩ := h depth
  exact ⟨_, by rw [fragmentsOfProperty, hfs]; rfl, by simp [hnames]⟩

theorem properties {α : Type} {l : List α} {property : α → Property}
    {names : α → List String} (h : ∀ a ∈ l, PrintsNames (property a).value (names a))
    (depth : Nat) : ∃ fss, collect (fragmentsOfProperties (l.map property) depth) = .ok fss
      ∧ namesIn fss.flatten = l.flatMap names := by
  induction l with
  | nil => exact ⟨[], rfl, rfl⟩
  | cons a l ih =>
    obtain ⟨hhead, htail⟩ := List.forall_mem_cons.mp h
    obtain ⟨fs, hfs, hnames⟩ := hhead.property depth
    obtain ⟨fss, hfss, hrest⟩ := ih htail
    refine ⟨fs :: fss, ?_, ?_⟩
    · rw [List.map_cons, fragmentsOfProperties, collect, hfs, hfss]
      rfl
    · rw [List.flatten_cons, namesIn_append, hnames, hrest, List.flatMap_cons]

/-- An object has the names that the types of its properties have. -/
theorem object {α : Type} {l : List α} {property : α → Property} {names : α → List String}
    (h : ∀ a ∈ l, PrintsNames (property a).value (names a)) :
    PrintsNames (.object (l.map property)) (l.flatMap names) := by
  intro depth
  cases l with
  | nil => exact ⟨_, rfl, rfl⟩
  | cons a l =>
    obtain ⟨fss, hfss, hnames⟩ := properties h (depth + 1)
    rw [List.map_cons] at hfss ⊢
    exact ⟨_, by rw [fragments, hfss]; rfl, by simp [hnames]⟩

end PrintsNames

end SchemaTypes.Validator
