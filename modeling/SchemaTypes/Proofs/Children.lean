import SchemaTypes.Expression

/-!
# The parts of an expression

Expressions nest through lists and through the properties of objects. `children` puts
all that is directly inside an expression in one list, and

> `induction_on_children`: what holds of an expression once it holds of its parts holds
> of all expressions.

`Within` is what stands in an expression at any depth.
-/

namespace SchemaTypes.Expression

/-- The parts of an expression, each with the key of the property that it is the type
of. -/
def children : Expression → List (Option String × Expression)
  | .array element => [(none, element)]
  | .union variants => variants.map fun v => (none, v)
  | .object properties => properties.map fun p => (some p.key, p.value)
  | .generic _ arguments => arguments.map fun a => (none, a)
  | .conditional _ test consequent alternate =>
    [(none, test), (none, consequent), (none, alternate)]
  | .mapped value => [(none, value)]
  | .identifier _ | .literal _ | .infer _ | .moduleReference _ => []

theorem sizeOf_lt_of_mem_children {e : Expression} {p : Option String × Expression}
    (hp : p ∈ e.children) : sizeOf p.2 < sizeOf e := by
  cases e with
  | array element =>
    rw [List.mem_singleton.mp hp, array.sizeOf_spec]
    show sizeOf element < _
    omega
  | union variants =>
    obtain ⟨v, hv, rfl⟩ := List.mem_map.mp hp
    have hlt := List.sizeOf_lt_of_mem hv
    rw [union.sizeOf_spec]
    show sizeOf v < _
    omega
  | object properties =>
    obtain ⟨q, hq, rfl⟩ := List.mem_map.mp hp
    have hlt := List.sizeOf_lt_of_mem hq
    have hvalue : sizeOf q.value < sizeOf q := by
      cases q
      simp only [PropertyOf.mk.sizeOf_spec]
      omega
    rw [object.sizeOf_spec]
    show sizeOf q.value < _
    omega
  | generic name arguments =>
    obtain ⟨a, ha, rfl⟩ := List.mem_map.mp hp
    have hlt := List.sizeOf_lt_of_mem ha
    rw [generic.sizeOf_spec]
    show sizeOf a < _
    omega
  | conditional name test consequent alternate =>
    rw [conditional.sizeOf_spec]
    rcases List.mem_cons.mp hp with rfl | hp
    · show sizeOf test < _
      omega
    · rcases List.mem_cons.mp hp with rfl | hp
      · show sizeOf consequent < _
        omega
      · rw [List.mem_singleton.mp hp]
        show sizeOf alternate < _
        omega
  | mapped value =>
    rw [List.mem_singleton.mp hp, mapped.sizeOf_spec]
    show sizeOf value < _
    omega
  | identifier _ => cases hp
  | literal _ => cases hp
  | infer _ => cases hp
  | moduleReference _ => cases hp

/-- What holds of an expression once it holds of its parts holds of all expressions. -/
theorem induction_on_children {P : Expression → Prop}
    (h : ∀ e : Expression, (∀ p ∈ e.children, P p.2) → P e) (e : Expression) : P e :=
  h e fun _ hp =>
    have := sizeOf_lt_of_mem_children hp
    induction_on_children h _
termination_by sizeOf e

/-- The first expression is the second one or stands in it, at any depth. -/
inductive Within (inner : Expression) : Expression → Prop
  | self : Within inner inner
  | part {e : Expression} {p : Option String × Expression} (hp : p ∈ e.children)
      (h : Within inner p.2) : Within inner e

theorem within_iff {inner e : Expression} :
    Within inner e ↔ inner = e ∨ ∃ p ∈ e.children, Within inner p.2 := by
  constructor
  · intro h
    cases h with
    | self => exact .inl rfl
    | part hp h => exact .inr ⟨_, hp, h⟩
  · intro h
    rcases h with rfl | ⟨p, hp, h⟩
    · exact .self
    · exact .part hp h

/-- Something holds at every depth if it holds of the expression and at every depth of its
parts. -/
theorem forall_within_iff {P : Expression → Prop} {e : Expression} :
    (∀ inner, Within inner e → P inner)
      ↔ P e ∧ ∀ p ∈ e.children, ∀ inner, Within inner p.2 → P inner := by
  constructor
  · intro h
    exact ⟨h e .self, fun p hp inner hinner => h inner (.part hp hinner)⟩
  · intro h inner hinner
    obtain ⟨hself, hparts⟩ := h
    rcases within_iff.mp hinner with rfl | ⟨p, hp, hwithin⟩
    · exact hself
    · exact hparts p hp inner hwithin

end SchemaTypes.Expression
