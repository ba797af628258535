import SchemaTypes.Proofs.FirstError
import SchemaTypes.Proofs.OneLine

/-!
# Texts on several lines

Objects, mapped types and conditionals are written on several lines. A text like that is
made of fragments: words, and beginnings of lines, which say by how many levels they
stand further in than the text itself. A fragment has no other line breaks, and nothing
begins a line but words.

A text is laid out (`LaidOut`) if its fragments are the same however deep it stands, and
it is made of whole lines (`WholeLines`) if it begins a line and ends one. Both are kept by
the ways in which texts are put together. What is rendered is `Uniform` if it is laid out
or else fails for the same reason at every depth.
-/

namespace SchemaTypes

namespace Render

open Text

/-! ## Fragments -/

/-- A part of a text on several lines. -/
inductive Fragment
  /-- Words that go on with the line. -/
  | words (s : String) (oneLine : OneLine s)
  /-- A new line, so many levels further in, and the words that it begins with. -/
  | line (level : Nat) (s : String) (oneLine : OneLine s) (ne : s ≠ "")

/-- The fragment in a text that stands at this depth. -/
def Fragment.text (depth : Nat) : Fragment → String
  | words s _ => s
  | line level s _ _ => "\n" ++ indent (depth + level) ++ s

/-- The fragment of a text that stands one level further in. -/
def Fragment.inner : Fragment → Fragment
  | words s h => words s h
  | line level s h hne => line (level + 1) s h hne

theorem Fragment.text_inner (depth : Nat) (fragment : Fragment) :
    fragment.inner.text depth = fragment.text (depth + 1) := by
  cases fragment with
  | words s h => rfl
  | line level s h hne =>
    have hdepth : depth + (level + 1) = depth + 1 + level := by omega
    rw [inner, text, text, hdepth]

/-- The fragments one after the other. -/
def textOf (depth : Nat) (fragments : List Fragment) : String :=
  String.join (fragments.map (Fragment.text depth))

theorem textOf_append (depth : Nat) (fs gs : List Fragment) :
    textOf depth (fs ++ gs) = textOf depth fs ++ textOf depth gs := by
  rw [textOf, List.map_append, String.join_append, textOf, textOf]

theorem textOf_singleton (depth : Nat) (f : Fragment) : textOf depth [f] = f.text depth := by
  rw [textOf, List.map_singleton, String.join_cons, String.join_nil, String.append_empty]

theorem textOf_inner (depth : Nat) (fs : List Fragment) :
    textOf depth (fs.map Fragment.inner) = textOf (depth + 1) fs := by
  rw [textOf, List.map_map, textOf]
  congr 2
  funext f
  exact f.text_inner depth

/-! ## Texts made of fragments -/

/-- The text is made of the same fragments at every depth. -/
def LaidOut (f : Nat → String) : Prop := ∃ fragments, f = fun depth => textOf depth fragments

/-- The text is made of whole lines: it begins a line, and its last line is ended. -/
def WholeLines (f : Nat → String) : Prop :=
  ∃ fragments, ∀ depth, "\n" ++ f depth = textOf depth fragments ++ "\n"

namespace LaidOut

variable {f g : Nat → String}

theorem congr (h : LaidOut f) (hfg : ∀ depth, g depth = f depth) : LaidOut g := by
  rw [funext hfg]
  exact h

theorem fragment (part : Fragment) : LaidOut fun depth => part.text depth :=
  ⟨[part], funext fun depth => (textOf_singleton depth part).symm⟩

theorem words {s : String} (h : OneLine s) : LaidOut fun _ => s :=
  fragment (.words s h)

theorem empty : LaidOut fun _ => "" := words (by decide)

theorem append (hf : LaidOut f) (hg : LaidOut g) : LaidOut fun depth => f depth ++ g depth := by
  obtain ⟨fs, rfl⟩ := hf
  obtain ⟨gs, rfl⟩ := hg
  exact ⟨fs ++ gs, funext fun depth => (textOf_append depth fs gs).symm⟩

theorem between {before after : String} (h : LaidOut f) (hbefore : OneLine before)
    (hafter : OneLine after) : LaidOut fun depth => before ++ f depth ++ after :=
  ((words hbefore).append h).append (words hafter)

/-- The text goes on in a new line. -/
theorem newLine (h : LaidOut f) (level : Nat) {s : String} (hs : OneLine s) (hne : s ≠ "") :
    LaidOut fun depth => f depth ++ "\n" ++ indent (depth + level) ++ s := by
  refine (h.append (fragment (.line level s hs hne))).congr fun depth => ?_
  simp only [Fragment.text, String.append_assoc]

/-- The text one level further in. -/
theorem inner (h : LaidOut f) : LaidOut fun depth => f (depth + 1) := by
  obtain ⟨fs, rfl⟩ := h
  exact ⟨fs.map Fragment.inner, funext fun depth => (textOf_inner depth fs).symm⟩

theorem intercalate {separator : String} (hseparator : OneLine separator)
    {gs : List (Nat → String)} (h : ∀ g ∈ gs, LaidOut g) :
    LaidOut fun depth => separator.intercalate (gs.map fun g => g depth) := by
  induction gs with
  | nil => exact empty
  | cons g gs ih =>
    obtain ⟨hhead, htail⟩ := List.forall_mem_cons.mp h
    cases gs with
    | nil => exact hhead.congr fun depth => String.intercalate_singleton
    | cons g' gs =>
      refine ((hhead.append (words hseparator)).append (ih htail)).congr fun depth => ?_
      exact String.intercalate_cons_cons

theorem join {gs : List (Nat → String)} (h : ∀ g ∈ gs, LaidOut g) :
    LaidOut fun depth => String.join (gs.map fun g => g depth) := by
  induction gs with
  | nil => exact empty
  | cons g gs ih =>
    obtain ⟨hhead, htail⟩ := List.forall_mem_cons.mp h
    exact (hhead.append (ih htail)).congr fun depth => String.join_cons

end LaidOut

namespace WholeLines

variable {f g : Nat → String}

theorem congr (h : WholeLines f) (hfg : ∀ depth, g depth = f depth) : WholeLines g := by
  rw [funext hfg]
  exact h

/-- What begins with a word makes a line of its own. -/
theorem of_laidOut {s : String} (hs : OneLine s) (hne : s ≠ "") (h : LaidOut f) :
    WholeLines fun depth => indent depth ++ s ++ f depth ++ "\n" := by
  obtain ⟨fragments, hline⟩ := (LaidOut.empty.newLine 0 hs hne).append h
  refine ⟨fragments, fun depth => ?_⟩
  rw [← congrFun hline depth]
  simp only [String.append_assoc, String.empty_append, Nat.add_zero]

theorem empty : WholeLines fun _ => "" :=
  ⟨[], fun _ => rfl⟩

theorem append (hf : WholeLines f) (hg : WholeLines g) :
    WholeLines fun depth => f depth ++ g depth := by
  obtain ⟨fs, hf⟩ := hf
  obtain ⟨gs, hg⟩ := hg
  refine ⟨fs ++ gs, fun depth => ?_⟩
  rw [← String.append_assoc, hf, String.append_assoc, hg, textOf_append, String.append_assoc]

theorem join {gs : List (Nat → String)} (h : ∀ g ∈ gs, WholeLines g) :
    WholeLines fun depth => String.join (gs.map fun g => g depth) := by
  induction gs with
  | nil => exact empty
  | cons g gs ih =>
    obtain ⟨hhead, htail⟩ := List.forall_mem_cons.mp h
    exact (hhead.append (ih htail)).congr fun depth => String.join_cons

/-- Whole lines between braces stand one level further in. -/
theorem block (h : WholeLines f) : LaidOut fun depth => Render.block depth (f (depth + 1)) := by
  obtain ⟨fragments, hf⟩ := h
  have hlines : LaidOut fun depth => textOf (depth + 1) fragments :=
    LaidOut.inner ⟨fragments, rfl⟩
  have hopen : OneLine openBrace := by decide
  refine (((LaidOut.words hopen).append hlines).newLine 0 (s := closeBrace) (by decide)
    (by decide)).congr fun depth => ?_
  have hend : openBrace ++ "\n" ++ f (depth + 1)
      = openBrace ++ textOf (depth + 1) fragments ++ "\n" := by
    rw [String.append_assoc, hf, String.append_assoc]
  simp only [Render.block, hend, Nat.add_zero]

/-- The lines of a property. -/
theorem property {p : Property} (hdescription : ∀ d, p.trimmedDescription = some d → OneLine d)
    (h : LaidOut f) {ending : String} (hending : OneLine ending) :
    WholeLines fun depth => propertyHead depth p ++ f depth ++ (ending ++ "\n") := by
  have hcomment : WholeLines fun depth => commentLine depth p := by
    cases hp : p.trimmedDescription with
    | none =>
      refine empty.congr fun depth => ?_
      rw [commentLine, hp]
    | some d =>
      have hne : comment d ≠ "" := by simp [comment]
      refine (of_laidOut (oneLine_comment (hdescription d hp)) hne .empty).congr fun depth => ?_
      rw [commentLine, hp, String.append_empty]
  have hkey : OneLine (keyText p.key ++ ": ") := oneLine_append.mpr ⟨oneLine_keyText _, by decide⟩
  have hline := of_laidOut hkey (by simp) (h.append (.words hending))
  refine (hcomment.append hline).congr fun depth => ?_
  simp only [propertyHead, String.append_assoc]

end WholeLines

/-! ## The same at every depth -/

/-- What is rendered fails with one error at every depth, or with none at any depth, and
then the property holds of the results. -/
def Uniform {α : Type} (Q : (Nat → α) → Prop) (r : Nat → Rendered α) : Prop :=
  (∃ error, r = fun _ => .error error) ∨ ∃ f, Q f ∧ r = fun depth => .ok (f depth)

namespace Uniform

variable {ι α : Type} {Q : (Nat → α) → Prop}

theorem eq_error_iff {r : Nat → Rendered α} (h : Uniform Q r) (depth depth' : Nat)
    (error : RenderError) : r depth = .error error ↔ r depth' = .error error := by
  rcases h with ⟨error', rfl⟩ | ⟨f, _, rfl⟩
  · rfl
  · exact ⟨fun h => (by cases h), fun h => (by cases h)⟩

theorem exists_of_ok {r : Nat → Rendered α} (h : Uniform Q r) {depth : Nat} {a : α}
    (ha : r depth = .ok a) : ∃ f, Q f ∧ r = fun depth => .ok (f depth) := by
  refine h.resolve_left ?_
  rintro ⟨error, rfl⟩
  cases ha

/-- What is collected is the same error at every depth, or there is none, and then the property
holds of each of the results. -/
theorem collect [Inhabited α] {r : ι → Nat → Rendered α} {l : List ι}
    (h : ∀ i ∈ l, Uniform Q (r i)) :
    (∃ error, ∀ depth, Rendered.collect (l.map fun i => r i depth) = .error error)
      ∨ ∃ f : ι → Nat → α, (∀ i ∈ l, Q (f i))
        ∧ ∀ depth,
          Rendered.collect (l.map fun i => r i depth) = .ok (l.map fun i => f i depth) := by
  cases hzero : Rendered.collect (l.map fun i => r i 0) with
  | error error =>
    have halike : ∀ depth, Rendered.collect (l.map fun i => r i depth) = .error error
        ↔ Rendered.collect (l.map fun i => r i 0) = .error error := fun depth =>
      Rendered.collect_map_eq_error_congr (fun i hi => (h i hi).eq_error_iff depth 0) error
    exact .inl ⟨error, fun depth => (halike depth).mpr hzero⟩
  | ok as =>
    have hf : ∀ i ∈ l, Q (fun depth => (r i depth).toOption.getD default)
        ∧ ∀ depth, r i depth = .ok ((r i depth).toOption.getD default) := by
      intro i hi
      obtain ⟨a, _, ha⟩ := Rendered.exists_of_collect_eq_ok hzero i hi
      obtain ⟨f, hf, hr⟩ := (h i hi).exists_of_ok ha
      rw [hr]
      exact ⟨hf, fun _ => rfl⟩
    exact .inr ⟨_, fun i hi => (hf i hi).1, fun depth =>
      Rendered.collect_map_of_ok fun i hi => (hf i hi).2 depth⟩

end Uniform

end Render

end SchemaTypes
