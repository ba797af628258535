import SchemaTypes.Proofs.Children
import SchemaTypes.Proofs.Fragments

/-!
# Going down into the parts of an expression

Static types and validators are put together in the same way: the parts of an expression
are rendered, and their texts laid out. The two forms differ in the order in which they
visit the parts, in how much further in a part stands, in what they write around it, and
validators leave a part out. A `Walk` is what one form does with one expression, and
`Descends` says of a form what it does with each form of expression; what both do in the
same way is said there once.

Everything that holds of a form because of how it goes down is an induction over the parts.
One such result is here, and the other is about errors:

> `Descends.uniform`: an expression in which no name and no description has a newline is
> written by the same fragments at every depth, or fails in the same way.
-/

namespace SchemaTypes

namespace Expression

/-- What is wrong with an expression itself, whatever its parts are. -/
def ownDefect? : Expression → Option RenderError
  | .union [] => some .emptyUnion
  | .generic name [] => some (.emptyGeneric name)
  | .moduleReference module => some (.moduleReference module)
  | _ => none

end Expression

namespace Render

open Expression Rendered

/-- The result, with errors placed in the property with this key if there is one. -/
def inPlace {α : Type} : Option String → Rendered α → Rendered α
  | none, r => r
  | some key, r => inProperty key r

variable {render : Expression → Nat → Rendered String}

/-! ## Walks -/

/-- Rendering visits these parts of an expression, so many levels further in, fails as the
first of them that does, and lays their texts out. -/
structure Walk (render : Expression → Nat → Rendered String) (e : Expression)
    (visited : List (Option String × Expression)) (inward : Nat)
    (layout : Nat → List String → String) : Prop where
  children : ∀ p ∈ visited, p ∈ e.children
  left_out : ∀ p ∈ e.children, p ∈ visited ∨ ∀ d, ∃ t, render p.2 d = .ok t
  text_eq : ∀ depth, render e depth
    = (collect (visited.map fun p => inPlace p.1 (render p.2 (depth + inward)))).map (layout depth)
  laidOut : (∀ word ∈ e.ownWords, Text.OneLine word) →
    ∀ f : Option String × Expression → Nat → String, (∀ p ∈ visited, LaidOut (f p)) →
      LaidOut fun depth => layout depth (visited.map fun p => f p (depth + inward))

/-- Rendering goes down into the parts of the expression, in some way. -/
def Walks (render : Expression → Nat → Rendered String) (e : Expression) : Prop :=
  ∃ visited inward layout, Walk render e visited inward layout

theorem Walks.of_no_children {e : Expression} {t : String} (hchildren : e.children = [])
    (htext : ∀ depth, render e depth = .ok t)
    (hline : (∀ word ∈ e.ownWords, Text.OneLine word) → Text.OneLine t) : Walks render e := by
  refine ⟨[], 0, fun _ _ => t, ?_, ?_, htext, fun hwords _ _ => .words (hline hwords)⟩
  · intro p hp
    cases hp
  · intro p hp
    rw [hchildren] at hp
    cases hp

/-- One part is visited, and the others cannot fail. -/
theorem Walks.of_one_part {e part : Expression} (inward : Nat)
    {layout : Nat → String → String} (hpart : (none, part) ∈ e.children)
    (hothers : ∀ p ∈ e.children, p = (none, part) ∨ ∀ d, ∃ t, render p.2 d = .ok t)
    (htext : ∀ depth, render e depth = (render part (depth + inward)).map (layout depth))
    (hlaid : (∀ word ∈ e.ownWords, Text.OneLine word) → ∀ f, LaidOut f →
      LaidOut fun depth => layout depth (f (depth + inward))) : Walks render e := by
  have hone : ∀ t, String.join [t] = t := fun t => by
    rw [String.join_cons, String.join_nil, String.append_empty]
  refine ⟨[(none, part)], inward, fun depth ts => layout depth (String.join ts),
    List.forall_mem_singleton.mpr hpart, fun p hp => ?_, fun depth => ?_, fun hwords f hf => ?_⟩
  · exact (hothers p hp).imp_left List.mem_singleton.mpr
  · rw [htext, List.map_singleton, inPlace]
    cases render part (depth + inward) with
    | error error => rfl
    | ok t => exact congrArg (fun t => Except.ok (layout depth t)) (hone t).symm
  · refine (hlaid hwords _ (hf _ List.mem_cons_self)).congr fun depth => ?_
    rw [List.map_singleton, hone]

theorem Walks.of_only_child {e part : Expression} (inward : Nat)
    {layout : Nat → String → String} (hchildren : e.children = [(none, part)])
    (htext : ∀ depth, render e depth = (render part (depth + inward)).map (layout depth))
    (hlaid : (∀ word ∈ e.ownWords, Text.OneLine word) → ∀ f, LaidOut f →
      LaidOut fun depth => layout depth (f (depth + inward))) : Walks render e := by
  have hpart : (none, part) ∈ e.children := by
    rw [hchildren]
    exact List.mem_cons_self
  refine .of_one_part inward hpart (fun p hp => ?_) htext hlaid
  rw [hchildren] at hp
  exact .inl (List.mem_singleton.mp hp)

/-- All parts are visited, in whatever order, and stand as far in as the whole. -/
theorem Walks.of_list {e : Expression} {parts : List Expression} {layout : List String → String}
    (hperm : (parts.map fun part => (none, part)).Perm e.children)
    (htext : ∀ depth, render e depth
      = (collect (parts.map fun part => render part depth)).map layout)
    (hlaid : (∀ word ∈ e.ownWords, Text.OneLine word) → ∀ fs : List (Nat → String),
      (∀ f ∈ fs, LaidOut f) → LaidOut fun depth => layout (fs.map fun f => f depth)) :
    Walks render e := by
  refine ⟨parts.map fun part => (none, part), 0, fun _ => layout, fun p hp => hperm.mem_iff.mp hp,
    fun p hp => .inl (hperm.mem_iff.mpr hp), fun depth => ?_, fun hwords f hf => ?_⟩
  · rw [htext, List.map_map]
    rfl
  · refine (hlaid hwords _ (List.forall_mem_map.mpr hf)).congr fun depth => ?_
    rw [List.map_map, List.map_map, List.map_map]
    rfl

/-- What stands before each of the three parts of a conditional. -/
def conditionalWords (name : String) (depth : Nat) : List String :=
  [name ++ " extends ", "\n" ++ indent (depth + 1) ++ "? ", "\n" ++ indent (depth + 1) ++ ": "]

/-- The branches of a conditional have lines of their own. -/
theorem Walks.conditional {name : String} {test consequent alternate : Expression}
    (htext : ∀ depth, render (.conditional name test consequent alternate) depth = do
      let t ← render test (depth + 1)
      let c ← render consequent (depth + 1)
      let a ← render alternate (depth + 1)
      return name ++ " extends " ++ t ++ "\n" ++ indent (depth + 1) ++ "? " ++ c
        ++ "\n" ++ indent (depth + 1) ++ ": " ++ a) :
    Walks render (.conditional name test consequent alternate) := by
  have hlayout : ∀ depth t c a,
      String.join ((conditionalWords name depth).zipWith (· ++ ·) [t, c, a])
        = name ++ " extends " ++ t ++ "\n" ++ indent (depth + 1) ++ "? " ++ c
          ++ "\n" ++ indent (depth + 1) ++ ": " ++ a := fun depth t c a => by
    simp [conditionalWords, String.append_assoc]
  refine ⟨[(none, test), (none, consequent), (none, alternate)], 1,
    fun depth ts => String.join ((conditionalWords name depth).zipWith (· ++ ·) ts),
    fun p hp => hp, fun p hp => .inl hp, fun depth => ?_, fun hwords f hf => ?_⟩
  · rw [htext]
    simp only [List.map_cons, List.map_nil, inPlace, collect]
    cases render test (depth + 1) with
    | error error => rfl
    | ok t =>
      cases render consequent (depth + 1) with
      | error error => rfl
      | ok c =>
        cases render alternate (depth + 1) with
        | error error => rfl
        | ok a => exact congrArg Except.ok (hlayout depth t c a).symm
  · simp only [List.forall_mem_cons] at hf
    obtain ⟨ht, hc, ha, _⟩ := hf
    have hname : Text.OneLine (name ++ " extends ") :=
      Text.oneLine_append.mpr ⟨hwords _ List.mem_cons_self, by decide⟩
    have hfirst := (LaidOut.words hname).append ht.inner
    have hsecond := (hfirst.newLine 1 (s := "? ") (by decide) (by decide)).append hc.inner
    refine ((hsecond.newLine 1 (s := ": ") (by decide) (by decide)).append ha.inner).congr
      fun depth => ?_
    exact hlayout depth _ _ _

/-! ## Properties -/

/-- The lines of a property are the text of its value behind its key, with something
behind it that ends the line. -/
structure WritesProperties (render : Expression → Nat → Rendered String)
    (propertyText : Property → Nat → Rendered String) (ending : Property → String) : Prop where
  text_eq : ∀ p depth, propertyText p depth
    = (inProperty p.key (render p.value depth)).map fun t => propertyHead depth p ++ t ++ ending p
  ends_line : ∀ p, ∃ s, Text.OneLine s ∧ ending p = s ++ "\n"

namespace WritesProperties

variable {propertyText : Property → Nat → Rendered String} {ending : Property → String}

theorem eq_error_iff (h : WritesProperties render propertyText ending) {p : Property} {depth : Nat}
    {error : RenderError} :
    propertyText p depth = .error error
      ↔ inProperty p.key (render p.value depth) = .error error := by
  rw [h.text_eq, map_eq_error_iff]

theorem eq_ok_iff (h : WritesProperties render propertyText ending) {p : Property} {depth : Nat}
    {s : String} : propertyText p depth = .ok s ↔ ∃ t, render p.value depth = .ok t
      ∧ s = propertyHead depth p ++ t ++ ending p := by
  rw [h.text_eq, map_eq_ok_iff]
  simp only [inProperty_eq_ok_iff]

/-- The properties of an object, in whatever order, have lines of their own. -/
theorem walks (h : WritesProperties render propertyText ending) {ps visited : List Property}
    {before after : String} (hbefore : Text.OneLine before) (hafter : Text.OneLine after)
    (hperm : visited.Perm ps)
    (htext : ∀ depth, render (.object ps) depth
      = (collect (visited.map fun p => propertyText p (depth + 1))).map fun ts =>
        before ++ block depth (String.join ts) ++ after) : Walks render (.object ps) := by
  have hchildren : (visited.map fun p => (some p.key, p.value)).Perm (object ps).children :=
    hperm.map _
  refine ⟨visited.map fun p => (some p.key, p.value), 1,
    fun depth ts => before ++ block depth (String.join ((visited.zip ts).map fun q =>
      propertyHead (depth + 1) q.1 ++ q.2 ++ ending q.1)) ++ after,
    fun p hp => hchildren.mem_iff.mp hp, fun p hp => .inl (hchildren.mem_iff.mpr hp),
    fun depth => ?_, fun hwords f hf => ?_⟩
  · rw [htext, List.map_map]
    simp only [h.text_eq]
    rw [collect_map_zip, map_map]
    rfl
  · -- each property has whole lines, whatever its value is written as
    have hlines : ∀ g ∈ visited.map fun p depth =>
        propertyHead depth p ++ f (some p.key, p.value) depth ++ ending p, WholeLines g := by
      refine List.forall_mem_map.mpr fun p hp => ?_
      obtain ⟨s, hs, hending⟩ := h.ends_line p
      have hdescription : ∀ d, p.trimmedDescription = some d → Text.OneLine d := fun d hd =>
        hwords d (List.mem_filterMap.mpr ⟨p, hperm.mem_iff.mp hp, hd⟩)
      have hvalue := hf _ (List.mem_map_of_mem hp)
      rw [hending]
      exact .property hdescription hvalue hs
    refine ((WholeLines.join hlines).block.between hbefore hafter).congr fun depth => ?_
    rw [List.map_map, List.map_map, zip_map_self, List.map_map]
    rfl

end WritesProperties

/-! ## Renderings that go down -/

/-- A rendering that goes down into the parts of an expression, and fails by itself only
where something is wrong with the expression itself. -/
structure Descends (render : Expression → Nat → Rendered String) : Prop where
  identifier : ∀ id, Walks render (.identifier id)
  literal : ∀ value depth, render (.literal value) depth = .ok (literalText value)
  array : ∀ element, Walks render (.array element)
  emptyUnion : ∀ depth, render (.union []) depth = .error .emptyUnion
  union : ∀ vs, vs ≠ [] → Walks render (.union vs)
  object : ∀ ps, Walks render (.object ps)
  emptyGeneric : ∀ name depth, render (.generic name []) depth = .error (.emptyGeneric name)
  generic : ∀ name as, as ≠ [] → Walks render (.generic name as)
  conditional : ∀ name test consequent alternate,
    Walks render (.conditional name test consequent alternate)
  infer : ∀ name depth, render (.infer name) depth = .ok ("infer " ++ name)
  mapped : ∀ value, Walks render (.mapped value)
  moduleReference : ∀ module depth,
    render (.moduleReference module) depth = .error (.moduleReference module)

namespace Descends

/-- What is wrong with an expression itself is reported. -/
theorem own (h : Descends render) {e : Expression} {error : RenderError} (depth : Nat)
    (hown : e.ownDefect? = some error) : render e depth = .error error := by
  unfold ownDefect? at hown
  split at hown
  · cases hown
    exact h.emptyUnion depth
  · cases hown
    exact h.emptyGeneric _ depth
  · cases hown
    exact h.moduleReference _ depth
  · cases hown

/-- Where nothing is wrong with the expression itself, rendering goes down. -/
theorem walks (h : Descends render) (e : Expression) (hown : e.ownDefect? = none) :
    Walks render e := by
  cases e with
  | identifier id => exact h.identifier id
  | literal value =>
    exact .of_no_children rfl (h.literal value) fun _ => oneLine_literalText value
  | array element => exact h.array element
  | union vs =>
    refine h.union vs ?_
    rintro rfl
    cases hown
  | object ps => exact h.object ps
  | generic name as =>
    refine h.generic name as ?_
    rintro rfl
    cases hown
  | conditional name test consequent alternate =>
    exact h.conditional name test consequent alternate
  | infer name =>
    refine .of_no_children rfl (h.infer name) fun hwords => ?_
    exact Text.oneLine_append.mpr ⟨by decide, hwords _ List.mem_cons_self⟩
  | mapped value => exact h.mapped value
  | moduleReference module => cases hown

theorem inPlace_uniform {key : Option String} {r : Nat → Rendered String}
    (h : Uniform LaidOut r) : Uniform LaidOut fun depth => inPlace key (r depth) := by
  cases key with
  | none => exact h
  | some key =>
    rcases h with ⟨error, rfl⟩ | ⟨f, hf, rfl⟩
    · exact .inl ⟨.property key error, rfl⟩
    · exact .inr ⟨f, hf, rfl⟩

/-- An expression of which no name and no description has a newline is written by the same
fragments at every depth, or fails in the same way. -/
theorem uniform (h : Descends render) (e : Expression) :
    e.OneLine → Uniform LaidOut (render e) := by
  induction e using induction_on_children with
  | h e ih =>
    intro hline
    obtain ⟨hwords, hparts⟩ := oneLine_iff.mp hline
    cases hown : e.ownDefect? with
    | some error => exact .inl ⟨error, funext fun depth => h.own depth hown⟩
    | none =>
      obtain ⟨visited, inward, layout, hwalk⟩ := h.walks e hown
      have hvisited : ∀ p ∈ visited, Uniform LaidOut fun depth => inPlace p.1 (render p.2 depth) :=
        fun p hp => inPlace_uniform (ih p (hwalk.children p hp) (hparts p (hwalk.children p hp)))
      -- the parts stand further in, but what they are made of does not hang on that
      rcases Uniform.collect hvisited with ⟨error, herror⟩ | ⟨f, hf, htexts⟩
      · refine .inl ⟨error, funext fun depth => ?_⟩
        rw [hwalk.text_eq, herror (depth + inward)]
        rfl
      · refine .inr ⟨_, hwalk.laidOut hwords f hf, funext fun depth => ?_⟩
        rw [hwalk.text_eq, htexts (depth + inward)]
        rfl

end Descends

end Render

end SchemaTypes
