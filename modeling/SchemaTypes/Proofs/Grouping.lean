import Mathlib.Tactic.ByContra
import SchemaTypes.Proofs.Outermost
import SchemaTypes.Proofs.WrittenForms

/-!
# Grouping in static types

`A | B[]` is not a list, and in `T extends U ? X : Y | Z` the last variant belongs to `Y`.
So an array puts a union in parentheses. It looks no further than the element itself, and
a union puts nothing in parentheses at all. What is not in parentheses can be told from the
expression (`Exposes`), and

> `grouped_iff`: the element of an array is one piece exactly if the array exposes neither
> a conditional nor a union of two or more, and no variant of a union ends in the branch of
> a conditional exactly if the union exposes none.

A union of one variant is written as this variant, so a union inside it loses its
parentheses, and a conditional has none in the first place (`grouping_lost`).
-/

namespace SchemaTypes

open Text Render Rendered

/-! ## What texts show -/

namespace Text

/-- The text has a bar between types at its outermost level. -/
def ShowsBar (t : String) : Prop := " | ".toList <:+: outer t

/-- The text has the `extends` of a conditional at its outermost level. A name can be
spelled like this as well: in a union it is followed by a bar, and otherwise by no space. -/
def ShowsConditional (t : String) : Prop := ∃ c ≠ '|', " extends ".toList ++ [c] <:+: outer t

instance (t : String) : Decidable (ShowsBar t) :=
  inferInstanceAs (Decidable (_ <:+: _))

variable {s t : String}

theorem ShowsBar.mono (h : ShowsBar s) (hst : outer s <:+: outer t) : ShowsBar t :=
  h.trans hst

theorem ShowsConditional.mono (h : ShowsConditional s) (hst : outer s <:+: outer t) :
    ShowsConditional t := by
  obtain ⟨c, hc, hinfix⟩ := h
  exact ⟨c, hc, hinfix.trans hst⟩

theorem not_showsBar (h : '|' ∉ outer t) : ¬ShowsBar t := by
  intro hbar
  exact h (hbar.subset (by decide))

/-- Every space, after this character, is beside a bar or after an `r`, as in `infer`. -/
def spacedAfter (before : Option Char) : List Char → Bool
  | [] => true
  | c :: cs =>
    (c != ' ' || before == some '|' || before == some 'r' || cs.head? == some '|')
      && spacedAfter (some c) cs

/-- No space is where a conditional has one behind its `extends`. -/
def Spaced (cs : List Char) : Prop := spacedAfter none cs

theorem spacedAfter_of_none {cs : List Char} (h : spacedAfter none cs) (before : Option Char) :
    spacedAfter before cs := by
  cases cs with
  | nil => rfl
  | cons c cs =>
    simp only [spacedAfter, Bool.and_eq_true, Bool.or_eq_true] at h ⊢
    obtain ⟨((hspace | hnone) | hnone) | hbar, hrest⟩ := h
    · exact ⟨.inl (.inl (.inl hspace)), hrest⟩
    · cases hnone
    · cases hnone
    · exact ⟨.inr hbar, hrest⟩

theorem spacedAfter_append {before : Option Char} {cs ds : List Char}
    (hcs : spacedAfter before cs) (hds : Spaced ds) : spacedAfter before (cs ++ ds) := by
  induction cs generalizing before with
  | nil => exact spacedAfter_of_none hds before
  | cons c cs ih =>
    simp only [spacedAfter, Bool.and_eq_true, Bool.or_eq_true, List.cons_append] at hcs ⊢
    obtain ⟨hspace, hrest⟩ := hcs
    refine ⟨hspace.imp_right fun hbar => ?_, ih hrest⟩
    obtain ⟨rest, rfl⟩ := List.head?_eq_some_iff.mp (beq_iff_eq.mp hbar)
    rfl

theorem spacedAfter_of_append {before : Option Char} {c : Char} {cs ds : List Char}
    (h : spacedAfter before (cs ++ c :: ds)) : spacedAfter (some c) ds := by
  induction cs generalizing before with
  | nil => exact (Bool.and_eq_true_iff.mp h).2
  | cons d cs ih => exact ih (Bool.and_eq_true_iff.mp h).2

theorem Spaced.append {cs ds : List Char} (hcs : Spaced cs) (hds : Spaced ds) :
    Spaced (cs ++ ds) :=
  spacedAfter_append hcs hds

theorem spacedAfter_of_not_mem {cs : List Char} (h : ' ' ∉ cs) (before : Option Char) :
    spacedAfter before cs := by
  induction cs generalizing before with
  | nil => rfl
  | cons c cs ih =>
    rw [List.mem_cons, not_or] at h
    obtain ⟨hc, hcs⟩ := h
    simp [spacedAfter, Ne.symm hc, ih hcs]

theorem Spaced.of_not_mem {cs : List Char} (h : ' ' ∉ cs) : Spaced cs :=
  spacedAfter_of_not_mem h none

theorem not_showsConditional (h : Spaced (outer t)) : ¬ShowsConditional t := by
  rintro ⟨c, hc, before, after, hsplit⟩
  have hchars : outer t
      = (before ++ " extend".toList) ++ 's' :: ' ' :: c :: after := by
    rw [← hsplit]
    simp
  rw [Spaced, hchars] at h
  -- the space behind the `s` would have to be beside a bar
  have hspace := spacedAfter_of_append h
  simp [spacedAfter, hc] at hspace

end Text

/-! ## What expressions expose -/

namespace Expression

/-- The names that the expression itself is written with. -/
def names : Expression → List String
  | .identifier id => [id.name]
  | .generic name _ => [name]
  | .conditional name _ _ _ => [name]
  | .infer name => [name]
  | _ => []

/-- All names in the expression, at any depth, are bare names. -/
def PlainNames (e : Expression) : Prop :=
  ∀ inner, Within inner e → ∀ name ∈ inner.names, Text.isBareName name.toList

theorem plainNames_iff {e : Expression} :
    e.PlainNames ↔ (∀ name ∈ e.names, Text.isBareName name.toList)
      ∧ ∀ p ∈ e.children, p.2.PlainNames :=
  forall_within_iff

@[simp] theorem plainNames_named {name : String} :
    (named name).PlainNames ↔ Text.isBareName name.toList := by
  rw [plainNames_iff]
  simp [named, Identifier.named, names, children]

@[simp] theorem plainNames_array {element : Expression} :
    (array element).PlainNames ↔ element.PlainNames := by
  rw [plainNames_iff]
  simp [names, children]

@[simp] theorem plainNames_union {vs : List Expression} :
    (union vs).PlainNames ↔ ∀ v ∈ vs, v.PlainNames := by
  rw [plainNames_iff]
  simp [names, children]

@[simp] theorem plainNames_conditional {name : String} {test consequent alternate : Expression} :
    (conditional name test consequent alternate).PlainNames ↔ Text.isBareName name.toList
      ∧ test.PlainNames ∧ consequent.PlainNames ∧ alternate.PlainNames := by
  rw [plainNames_iff]
  simp [names, children]

/-- A conditional. -/
def isConditional : Expression → Bool
  | .conditional .. => true
  | _ => false

/-- A type that comes apart when something is written behind it. -/
def isLoose (e : Expression) : Bool := e.isConditional || e.isMultiVariantUnion

/-- A type of this kind is written in the expression with nothing around it: it is the
expression, or exposed in a variant, or in an element that gets no parentheses. -/
inductive Exposes (kind : Expression → Bool) : Expression → Prop
  | self {e : Expression} (h : kind e) : Exposes kind e
  | variant {v : Expression} {vs : List Expression} (hv : v ∈ vs) (h : Exposes kind v) :
      Exposes kind (.union vs)
  | element {e : Expression} (hsingle : e.isMultiVariantUnion = false) (h : Exposes kind e) :
      Exposes kind (.array e)

variable {kind kind' : Expression → Bool}

theorem Exposes.mono {e : Expression} (h : Exposes kind e) (himp : ∀ e, kind e → kind' e) :
    Exposes kind' e := by
  induction h with
  | self h => exact .self (himp _ h)
  | variant hv _ ih => exact .variant hv ih
  | element hsingle _ ih => exact .element hsingle ih

theorem exposes_union_iff {vs : List Expression} :
    Exposes kind (.union vs) ↔ kind (.union vs) ∨ ∃ v ∈ vs, Exposes kind v := by
  constructor
  · intro h
    cases h with
    | self h => exact .inl h
    | variant hv h => exact .inr ⟨_, hv, h⟩
  · intro h
    rcases h with h | ⟨v, hv, h⟩
    · exact .self h
    · exact .variant hv h

theorem exposes_array_iff {e : Expression} :
    Exposes kind (.array e)
      ↔ kind (.array e) ∨ e.isMultiVariantUnion = false ∧ Exposes kind e := by
  constructor
  · intro h
    cases h with
    | self h => exact .inl h
    | element hsingle h => exact .inr ⟨hsingle, h⟩
  · intro h
    rcases h with h | ⟨hsingle, h⟩
    · exact .self h
    · exact .element hsingle h

/-- An array or a union, which can expose something other than itself. -/
def exposesParts : Expression → Bool
  | .array _ | .union _ => true
  | _ => false

theorem not_exposes {e : Expression} (hself : kind e = false) (hparts : e.exposesParts = false) :
    ¬Exposes kind e := by
  intro h
  cases h with
  | self h =>
    rw [hself] at h
    cases h
  | variant _ _ => cases hparts
  | element _ _ => cases hparts

end Expression

/-! ## Texts of unions -/

namespace Text

variable {separator t : String} {ts : List String}

theorem outer_intercalate_cons_cons (hseparator : Closed separator) {t' : String}
    (h : ∀ s ∈ t :: t' :: ts, Closed s) :
    outer (separator.intercalate (t :: t' :: ts))
      = outer t ++ outer separator ++ outer (separator.intercalate (t' :: ts)) := by
  obtain ⟨hhead, _⟩ := List.forall_mem_cons.mp h
  rw [String.intercalate_cons_cons, outer_append (hhead.append hseparator), outer_append hhead]

theorem outer_infix_intercalate (hseparator : Closed separator) {ts : List String}
    (h : ∀ s ∈ ts, Closed s) (ht : t ∈ ts) : outer t <:+: outer (separator.intercalate ts) := by
  match ts with
  | [] => cases ht
  | [s] =>
    have hone : separator.intercalate [s] = t := by
      rw [String.intercalate_singleton, List.mem_singleton.mp ht]
    exact hone ▸ List.infix_rfl
  | s :: s' :: ts =>
    rw [outer_intercalate_cons_cons hseparator h]
    rcases List.mem_cons.mp ht with rfl | ht
    · rw [List.append_assoc]
      exact (List.prefix_append _ _).isInfix
    · have hrest := outer_infix_intercalate hseparator (List.forall_mem_cons.mp h).2 ht
      exact hrest.trans (List.suffix_append _ _).isInfix

/-- A property of what texts show that appending keeps. -/
theorem outer_intercalate {P : List Char → Prop} (hempty : P [])
    (happend : ∀ cs ds, P cs → P ds → P (cs ++ ds)) (hseparator : Closed separator)
    (houter : P (outer separator)) (h : ∀ t ∈ ts, Closed t ∧ P (outer t)) :
    P (outer (separator.intercalate ts)) := by
  have hboth := intercalate_of_append (P := fun t => Closed t ∧ P (outer t)) ⟨Leads.nil, hempty⟩
    (fun s t hs ht => by
      rw [outer_append hs.1]
      exact ⟨hs.1.append ht.1, happend _ _ hs.2 ht.2⟩) ⟨hseparator, houter⟩ h
  exact hboth.2

theorem head?_append_ne {c : Char} {cs ds : List Char} (hcs : cs.head? ≠ some c)
    (hds : ds.head? ≠ some c) : (cs ++ ds).head? ≠ some c := by
  cases cs with
  | nil => exact hds
  | cons d cs => exact hcs

theorem closed_bar : Closed " | " := Unmarked.closed (by decide)

theorem outer_bar : outer " | " = [' ', '|', ' '] := Unmarked.outer (by decide)

theorem showsBar_intercalate (h : ∀ s ∈ ts, Closed s) (hlength : 2 ≤ ts.length) :
    ShowsBar (" | ".intercalate ts) := by
  match ts, hlength with
  | s :: s' :: ts, _ =>
    rw [ShowsBar, outer_intercalate_cons_cons closed_bar h, outer_bar]
    exact List.infix_append _ _ _

end Text

/-! ## Texts of expressions -/

namespace StaticType

open Expression

/-- What the text of an expression shows is what the expression exposes. -/
structure Outline (e : Expression) (t : String) : Prop where
  closed : Closed t
  /-- Behind an `extends`, a bar would make it a name. -/
  start : (outer t).head? ≠ some '|'
  bar_or_conditional : Exposes isLoose e → ShowsBar t ∨ ShowsConditional t
  no_bar : ¬Exposes isLoose e → '|' ∉ outer t
  shows_conditional : Exposes isConditional e → ShowsConditional t
  spaced : ¬Exposes isConditional e → Spaced (outer t)

variable {e v : Expression} {s t : String} {depth : Nat}

theorem exposes_isLoose_of_isConditional (h : Exposes isConditional e) : Exposes isLoose e :=
  h.mono fun _ h => Bool.or_eq_true_iff.mpr (.inl h)

namespace Outline

theorem showsConditional_iff (h : Outline e t) : ShowsConditional t ↔ Exposes isConditional e := by
  constructor
  · intro hshows
    by_contra hexposes
    exact not_showsConditional (h.spaced hexposes) hshows
  · exact h.shows_conditional

theorem shows_iff (h : Outline e t) :
    ShowsBar t ∨ ShowsConditional t ↔ Exposes isLoose e := by
  constructor
  · intro hshows
    by_contra hexposes
    have hconditional : ¬Exposes isConditional e := mt exposes_isLoose_of_isConditional hexposes
    exact hshows.elim (not_showsBar (h.no_bar hexposes))
      (not_showsConditional (h.spaced hconditional))
  · exact h.bar_or_conditional

/-- A text of one piece. -/
theorem piece (hclosed : Closed t) (hbar : '|' ∉ outer t) (hspaced : Spaced (outer t))
    (hexposes : ¬Exposes isLoose e) : Outline e t where
  closed := hclosed
  start h := hbar (List.mem_of_mem_head? h)
  bar_or_conditional h := absurd h hexposes
  no_bar _ := hbar
  shows_conditional h := absurd (exposes_isLoose_of_isConditional h) hexposes
  spaced _ := hspaced

/-- A word behind the text of an expression that exposes the same. -/
theorem append_word {e' : Expression} {suffix : String} (h : Outline e t) (hsuffix : Word suffix)
    (hexposes : ∀ kind ∈ [isLoose, isConditional], Exposes kind e' ↔ Exposes kind e) :
    Outline e' (t ++ suffix) := by
  have hloose := hexposes isLoose List.mem_cons_self
  have hconditional := hexposes isConditional (List.mem_cons_of_mem _ List.mem_cons_self)
  have houter : outer (t ++ suffix) = outer t ++ suffix.toList := by
    rw [outer_append h.closed, hsuffix.unmarked.outer]
  have hinfix : outer t <:+: outer (t ++ suffix) := by
    rw [houter]
    exact (List.prefix_append _ _).isInfix
  have hbar : '|' ∉ suffix.toList := hsuffix.not_mem (by decide)
  exact {
    closed := h.closed.append hsuffix.unmarked.closed
    start := by
      rw [houter]
      exact head?_append_ne h.start fun hhead => hbar (List.mem_of_mem_head? hhead)
    bar_or_conditional := fun hl =>
      (h.bar_or_conditional (hloose.mp hl)).imp (·.mono hinfix) (·.mono hinfix)
    no_bar := fun hl => by
      rw [houter, List.mem_append, not_or]
      exact ⟨h.no_bar (mt hloose.mpr hl), hbar⟩
    shows_conditional := fun hc => (h.shows_conditional (hconditional.mp hc)).mono hinfix
    spaced := fun hc => by
      rw [houter]
      exact (h.spaced (mt hconditional.mpr hc)).append (.of_not_mem (hsuffix.not_mem (by decide))) }

theorem array (hsingle : e.isMultiVariantUnion = false) (h : Outline e t) :
    Outline (.array e) (t ++ "[]") := by
  refine h.append_word (by decide) fun kind hkind => ?_
  have hself : kind (.array e) = false := by
    rcases List.mem_pair.mp hkind with rfl | rfl <;> rfl
  rw [exposes_array_iff, hself, hsingle]
  simp

theorem union_singleton (h : Outline v t) : Outline (.union [v]) t := by
  rw [← String.append_empty (s := t)]
  refine h.append_word (by decide) fun kind hkind => ?_
  have hself : kind (.union [v]) = false := by
    rcases List.mem_pair.mp hkind with rfl | rfl <;> rfl
  rw [exposes_union_iff, hself]
  simp

theorem union {v' : Expression} {vs : List Expression} {ts : List String}
    (hlength : 2 ≤ ts.length)
    (hvariants : ∀ w ∈ v :: v' :: vs, ∃ t ∈ ts, Outline w t)
    (htexts : ∀ t ∈ ts, ∃ w ∈ v :: v' :: vs, Outline w t) :
    Outline (.union (v :: v' :: vs)) (" | ".intercalate ts) := by
  have hclosed : ∀ t ∈ ts, Closed t := by
    intro t ht
    obtain ⟨_, _, h⟩ := htexts t ht
    exact h.closed
  exact {
    closed := .intercalate closed_bar hclosed
    start := by
      refine outer_intercalate (P := fun cs => cs.head? ≠ some '|') (by decide)
        (fun _ _ => head?_append_ne) closed_bar (by rw [outer_bar]; decide) fun t ht => ?_
      obtain ⟨_, _, h⟩ := htexts t ht
      exact ⟨h.closed, h.start⟩
    bar_or_conditional := fun _ => .inl (showsBar_intercalate hclosed hlength)
    no_bar := fun hl => absurd (.self rfl) hl
    shows_conditional := fun hc => by
      obtain hself | ⟨w, hw, hexposes⟩ := exposes_union_iff.mp hc
      · cases hself
      · obtain ⟨t, ht, h⟩ := hvariants w hw
        exact (h.shows_conditional hexposes).mono (outer_infix_intercalate closed_bar hclosed ht)
    spaced := fun hc => by
      refine outer_intercalate rfl (fun _ _ => Spaced.append) closed_bar (by rw [outer_bar]; rfl)
        fun t ht => ?_
      obtain ⟨w, hw, h⟩ := htexts t ht
      exact ⟨h.closed, h.spaced fun hexposes => hc (.variant hw hexposes)⟩ }

theorem word (h : Word t) (hexposes : ¬Exposes isLoose e) : Outline e t := by
  have houter := h.unmarked.outer
  refine .piece h.unmarked.closed ?_ (.of_not_mem ?_) hexposes
  · rw [houter]
    exact h.not_mem (by decide)
  · rw [houter]
    exact h.not_mem (by decide)

/-- A text in brackets, behind a name or on its own. -/
theorem group (name opening closing : String) (hname : Word name)
    (hbrackets : (opening, closing) ∈ brackets) (h : Closed t) (hexposes : ¬Exposes isLoose e) :
    Outline e (name ++ (opening ++ t ++ closing)) := by
  have houter : outer (name ++ (opening ++ t ++ closing))
      = name.toList ++ (opening ++ closing).toList := by
    rw [outer_append hname.unmarked.closed, hname.unmarked.outer, outer_group h hbrackets]
  have hpairs : ∀ b ∈ brackets, '|' ∉ (b.1 ++ b.2).toList ∧ ' ' ∉ (b.1 ++ b.2).toList := by
    decide
  obtain ⟨hbar, hspace⟩ := hpairs _ hbrackets
  refine .piece (hname.unmarked.closed.append (h.group hbrackets)) ?_ (.of_not_mem ?_) hexposes
  · rw [houter, List.mem_append, not_or]
    exact ⟨hname.not_mem (by decide), hbar⟩
  · rw [houter, List.mem_append, not_or]
    exact ⟨hname.not_mem (by decide), hspace⟩

theorem braces {inner : String} (h : Closed inner) (hexposes : ¬Exposes isLoose e)
    (ht : t = openBrace ++ inner ++ closeBrace) : Outline e t := by
  rw [ht, ← String.empty_append (s := openBrace ++ inner ++ closeBrace)]
  exact .group "" openBrace closeBrace (by decide) (by decide) h hexposes

/-- Lines between braces. -/
theorem block {lines : String} (h : Closed lines) (hexposes : ¬Exposes isLoose e) :
    Outline e (block depth lines) := by
  have hnewline : Closed "\n" := Unmarked.closed (by decide)
  refine .braces ((hnewline.append h).append (closed_indent depth)) hexposes ?_
  simp only [Render.block, String.append_assoc]

/-- A list of a union, which stands in parentheses. -/
theorem array_of_union (hmulti : e.isMultiVariantUnion) (h : Closed t) :
    Outline (.array e) ("(" ++ t ++ ")[]") := by
  have hbrackets : ("(", ")") ∈ brackets := by decide
  have hclosed := h.group hbrackets
  have htext : "(" ++ t ++ ")[]" = "(" ++ t ++ ")" ++ "[]" := by
    simp only [String.append_assoc]
    rfl
  have houter : outer ("(" ++ t ++ ")" ++ "[]") = ['(', ')', '[', ']'] := by
    rw [outer_append hclosed, outer_group h hbrackets]
    rfl
  have hexposes : ¬Exposes isLoose (.array e) := by
    rw [exposes_array_iff, hmulti]
    exact fun h => h.elim (fun h => (by cases h)) fun h => (by cases h.1)
  rw [htext]
  refine .piece (hclosed.append (Unmarked.closed (by decide))) ?_ ?_ hexposes
  · rw [houter]
    decide
  · rw [houter]
    rfl

/-- A conditional, with the lines below its test. -/
theorem conditional {name below : String} {test consequent alternate : Expression}
    (hname : Word name) (ht : Outline test t) (hbelow : Closed below) :
    Outline (.conditional name test consequent alternate)
      (name ++ " extends " ++ t ++ "\n" ++ below) := by
  have hextends : Unmarked " extends " := by decide
  have hnewline : Unmarked "\n" := by decide
  have hopening := hname.unmarked.closed.append hextends.closed
  have hfirst := (hopening.append ht.closed).append hnewline.closed
  have houter : outer (name ++ " extends " ++ t ++ "\n" ++ below)
      = name.toList ++ " extends ".toList ++ (outer t ++ '\n' :: outer below) := by
    rw [outer_append hfirst, outer_append (hopening.append ht.closed), outer_append hopening,
      outer_append hname.unmarked.closed, hname.unmarked.outer, hextends.outer, hnewline.outer,
      List.append_assoc, List.append_assoc]
    rfl
  have hshows : ShowsConditional (name ++ " extends " ++ t ++ "\n" ++ below) := by
    obtain ⟨c, cs, hcs, hc⟩ : ∃ c cs, outer t ++ '\n' :: outer below = c :: cs ∧ c ≠ '|' := by
      cases houter : outer t with
      | nil => exact ⟨_, _, rfl, by decide⟩
      | cons c cs =>
        refine ⟨c, _, rfl, fun hc => ht.start ?_⟩
        rw [houter, hc]
        rfl
    refine ⟨c, hc, name.toList, cs, ?_⟩
    rw [houter, hcs]
    simp
  exact {
    closed := hfirst.append hbelow
    start := by
      rw [houter, List.append_assoc]
      refine head?_append_ne (fun h => hname.not_mem (by decide) (List.mem_of_mem_head? h)) ?_
      show some ' ' ≠ some '|'
      decide
    bar_or_conditional := fun _ => .inr hshows
    no_bar := fun hl => absurd (.self rfl) hl
    shows_conditional := fun _ => hshows
    spaced := fun hc => absurd (.self rfl) hc }

theorem conditional_of_branches {name c a : String} {test consequent alternate : Expression}
    (hname : Word name) (ht : Outline test t) (hc : Closed c) (ha : Closed a) :
    Outline (.conditional name test consequent alternate)
      (name ++ " extends " ++ t ++ "\n" ++ indent depth ++ "? " ++ c ++ "\n" ++ indent depth
        ++ ": " ++ a) := by
  have hquestion : Closed "? " := Unmarked.closed (by decide)
  have hnewline : Closed "\n" := Unmarked.closed (by decide)
  have hcolon : Closed ": " := Unmarked.closed (by decide)
  have hlevel := closed_indent depth
  have hbelow := (((((hlevel.append hquestion).append hc).append hnewline).append hlevel).append
    hcolon).append ha
  have h : Outline (.conditional name test consequent alternate) _ :=
    conditional hname ht hbelow
  simp only [← String.append_assoc] at h
  exact h

end Outline

theorem closed_propertyText {p : Property}
    (h : propertyText p depth = .ok t) (hvalue : ∀ s, text p.value depth = .ok s → Closed s) :
    Closed t := by
  obtain ⟨s, hs, rfl⟩ := writesProperties.eq_ok_iff.mp h
  have hcolon : Closed ": " := Unmarked.closed (by decide)
  have hend : Closed ";\n" := Unmarked.closed (by decide)
  have hstart := (closed_commentLine depth p).append (closed_indent depth)
  exact (((hstart.append (closed_keyText p.key)).append hcolon).append (hvalue s hs)).append hend

/-- In a union, each variant has one of the texts and each text is that of a variant. -/
theorem outline_variants {vs : List Expression} {ts : List String}
    (hparts : ∀ v ∈ vs, ∀ t, text v depth = .ok t → Outline v t)
    (hts : collect ((UnionOrder.canonical identifier? vs).map fun v => text v depth) = .ok ts) :
    (∀ v ∈ vs, ∃ t ∈ ts, Outline v t) ∧ ∀ t ∈ ts, ∃ v ∈ vs, Outline v t := by
  have hperm := UnionOrder.canonical_perm identifier? vs
  constructor
  · intro v hv
    obtain ⟨t, ht, h⟩ := exists_of_collect_eq_ok hts v (hperm.mem_iff.mpr hv)
    exact ⟨t, ht, hparts v hv t h⟩
  · intro t ht
    obtain ⟨v, hv, h⟩ := exists_of_mem_collected hts t ht
    have hmem := hperm.mem_iff.mp hv
    exact ⟨v, hmem, hparts v hmem t h⟩

theorem outline_union {vs : List Expression} {ts : List String} (hne : vs ≠ [])
    (hparts : ∀ v ∈ vs, ∀ t, text v depth = .ok t → Outline v t)
    (hts : collect ((UnionOrder.canonical identifier? vs).map fun v => text v depth) = .ok ts) :
    Outline (.union vs) (" | ".intercalate ts) := by
  obtain ⟨hvariants, htexts⟩ := outline_variants hparts hts
  have hlength : ts.length = vs.length :=
    (collect_map_eq_ok_iff.mp hts).length_eq.symm.trans
      (UnionOrder.canonical_perm identifier? vs).length_eq
  clear hts hparts
  match vs with
  | [] => exact absurd rfl hne
  | [v] =>
    obtain ⟨t, rfl⟩ := List.length_eq_one_iff.mp hlength
    obtain ⟨w, hw, h⟩ := htexts t List.mem_cons_self
    rw [List.mem_singleton.mp hw] at h
    rw [String.intercalate_singleton]
    exact .union_singleton h
  | v :: v' :: vs => exact .union (by rw [hlength]; simp) hvariants htexts

theorem outline_literal (value : Literal) : Outline (.literal value) (literalText value) := by
  have hexposes : ¬Exposes isLoose (.literal value) := not_exposes rfl rfl
  cases value with
  | boolean value => exact .word (by cases value <;> decide) hexposes
  | integer n => exact .word (word_of_isNumeral (Decimal.isNumeral_intChars _)) hexposes
  | float x => exact .word (word_of_isNumeral (Decimal.Binary64.isNumeral_literalChars x)) hexposes
  | string s =>
    refine .piece (closed_quoted s) ?_ ?_ hexposes
    · rw [literalText, outer_quoted]
      decide
    · rw [literalText, outer_quoted]
      rfl

theorem outline_infer {name : String} (hname : Word name) :
    Outline (.infer name) ("infer " ++ name) := by
  have hinfer : Unmarked "infer " := by decide
  have houter : outer ("infer " ++ name) = "infer ".toList ++ name.toList := by
    rw [outer_append hinfer.closed, hinfer.outer, hname.unmarked.outer]
  refine .piece (hinfer.closed.append hname.unmarked.closed) ?_ ?_ (not_exposes rfl rfl)
  · rw [houter, List.mem_append, not_or]
    exact ⟨by decide, hname.not_mem (by decide)⟩
  · rw [houter]
    have hspaced : Spaced "infer ".toList := rfl
    exact hspaced.append (.of_not_mem (hname.not_mem (by decide)))

theorem outline_object {ps : List Property}
    (hparts : ∀ p ∈ ps, ∀ s, text p.value (depth + 1) = .ok s → Closed s)
    (h : text (.object ps) depth = .ok t) : Outline (.object ps) t := by
  have hexposes : ¬Exposes isLoose (.object ps) := not_exposes rfl rfl
  by_cases hne : ps = []
  · subst hne
    rw [text] at h
    obtain rfl := Except.ok.inj h
    have hnothing : Closed "" := Leads.nil
    exact .braces hnothing hexposes rfl
  · rw [text_object hne, map_eq_ok_iff] at h
    obtain ⟨ts, hts, rfl⟩ := h
    have hclosed : ∀ t ∈ ts, Closed t := by
      intro t ht
      obtain ⟨p, hp, h⟩ := exists_of_mem_collected hts t ht
      exact closed_propertyText h (hparts p ((List.mergeSort_perm ps _).mem_iff.mp hp))
    exact .block (.join hclosed) hexposes

theorem outline_generic {name : String} {as : List Expression} (hname : Word name)
    (hparts : ∀ a ∈ as, ∀ s, text a depth = .ok s → Closed s)
    (h : text (.generic name as) depth = .ok t) : Outline (.generic name as) t := by
  by_cases hne : as = []
  · subst hne
    rw [text] at h
    cases h
  · rw [text_generic hne, map_eq_ok_iff] at h
    obtain ⟨ts, hts, rfl⟩ := h
    have hclosed : ∀ t ∈ ts, Closed t := by
      intro t ht
      obtain ⟨a, ha, h⟩ := exists_of_mem_collected hts t ht
      exact hparts a ha t h
    have harguments : Closed (", ".intercalate ts) :=
      .intercalate (Unmarked.closed (by decide)) hclosed
    have htext : name ++ "<" ++ ", ".intercalate ts ++ ">"
        = name ++ ("<" ++ ", ".intercalate ts ++ ">") := by
      simp only [String.append_assoc]
    rw [htext]
    exact .group name "<" ">" hname (by decide) harguments (not_exposes rfl rfl)

theorem outline_mapped {value : Expression}
    (hvalue : ∀ s, text value (depth + 1) = .ok s → Closed s)
    (h : text (.mapped value) depth = .ok t) : Outline (.mapped value) t := by
  rw [text_mapped, map_eq_ok_iff] at h
  obtain ⟨s, hs, rfl⟩ := h
  have hkey : Closed "[K in string]?: " := Unmarked.closed (by decide)
  have hend : Closed ";\n" := Unmarked.closed (by decide)
  have hline := (((closed_indent (depth + 1)).append hkey).append (hvalue s hs)).append hend
  exact .block hline (not_exposes rfl rfl)

/-- What a static type shows is what its expression exposes. -/
theorem outline_of_text (e : Expression) :
    e.PlainNames → ∀ {depth : Nat} {t : String}, text e depth = .ok t → Outline e t := by
  induction e using induction_on_children with
  | h e ih =>
    intro hplain depth t ht
    obtain ⟨hnames, hparts⟩ := plainNames_iff.mp hplain
    have hpart : ∀ p ∈ e.children, ∀ {depth : Nat} {t : String},
        text p.2 depth = .ok t → Outline p.2 t := fun p hp => ih p hp (hparts p hp)
    clear ih hparts hplain
    -- only lists, unions and conditionals need to know what their parts show; whatever is in
    -- brackets needs them closed
    cases e with
    | identifier id =>
      rw [text] at ht
      obtain rfl := Except.ok.inj ht
      have hname := word_of_isBareName (hnames _ List.mem_cons_self)
      exact .word hname (not_exposes rfl rfl)
    | literal value =>
      rw [text] at ht
      obtain rfl := Except.ok.inj ht
      exact outline_literal value
    | array element =>
      rw [text_array, map_eq_ok_iff] at ht
      obtain ⟨s, hs, rfl⟩ := ht
      have helement := hpart _ List.mem_cons_self hs
      split
      · next hmulti => exact .array_of_union hmulti helement.closed
      · next hsingle => exact .array (eq_false_of_ne_true hsingle) helement
    | union vs =>
      by_cases hne : vs = []
      · subst hne
        rw [text] at ht
        cases ht
      · rw [text_union hne, map_eq_ok_iff] at ht
        obtain ⟨ts, hts, rfl⟩ := ht
        exact outline_union hne (fun v hv _ => hpart (none, v) (List.mem_map_of_mem hv)) hts
    | object ps =>
      exact outline_object (fun p hp _ hs =>
        (hpart (some p.key, p.value) (List.mem_map_of_mem hp) hs).closed) ht
    | generic name as =>
      have hname := word_of_isBareName (hnames _ List.mem_cons_self)
      exact outline_generic hname (fun a ha _ hs =>
        (hpart (none, a) (List.mem_map_of_mem ha) hs).closed) ht
    | conditional name test consequent alternate =>
      rw [text, bind_eq_ok_iff] at ht
      obtain ⟨t, htest, ht⟩ := ht
      obtain ⟨c, hconsequent, ht⟩ := bind_eq_ok_iff.mp ht
      obtain ⟨a, halternate, rfl⟩ := bind_return_eq_ok_iff.mp ht
      have hname := word_of_isBareName (hnames _ List.mem_cons_self)
      have htest := hpart (none, test) (by simp [children]) htest
      have hconsequent := hpart (none, consequent) (by simp [children]) hconsequent
      have halternate := hpart (none, alternate) (by simp [children]) halternate
      exact .conditional_of_branches hname htest hconsequent.closed halternate.closed
    | infer name =>
      rw [text] at ht
      obtain rfl := Except.ok.inj ht
      exact outline_infer (word_of_isBareName (hnames _ List.mem_cons_self))
    | mapped value =>
      exact outline_mapped (fun _ hs => (hpart _ List.mem_cons_self hs).closed) ht
    | moduleReference module =>
      rw [text] at ht
      cases ht

/-- The element of a list is in one piece exactly if the list exposes nothing that comes
apart, and the variants of a union are kept out of the branches of conditionals exactly if
the union exposes none. -/
theorem grouped_iff (hplain : e.PlainNames) (h : text e depth = .ok t) :
    (∀ element, e = .array element → ∃ s, t = s ++ "[]"
        ∧ (¬ShowsBar s ∧ ¬ShowsConditional s ↔ ¬Exposes isLoose e))
    ∧ ∀ vs, e = .union vs → 2 ≤ vs.length → ∃ ts, t = " | ".intercalate ts
        ∧ List.Forall₂ (fun v s => text v depth = .ok s) (UnionOrder.canonical identifier? vs) ts
        ∧ ((∀ s ∈ ts, ¬ShowsConditional s) ↔ ¬Exposes isConditional e) := by
  obtain ⟨-, hparts⟩ := plainNames_iff.mp hplain
  constructor
  · rintro element rfl
    rw [text_array, map_eq_ok_iff] at h
    obtain ⟨s, hs, rfl⟩ := h
    have helement := outline_of_text element (hparts _ List.mem_cons_self) hs
    have hexposes : Exposes isLoose (.array element)
        ↔ element.isMultiVariantUnion = false ∧ Exposes isLoose element := by
      rw [exposes_array_iff]
      simp [isLoose, isConditional, isMultiVariantUnion]
    split
    · next hmulti =>
      have hbrackets : ("(", ")") ∈ brackets := by decide
      have houter := outer_group helement.closed hbrackets
      have hbar : ¬ShowsBar ("(" ++ s ++ ")") := not_showsBar (by rw [houter]; decide)
      have hconditional : ¬ShowsConditional ("(" ++ s ++ ")") :=
        not_showsConditional (by rw [houter]; rfl)
      refine ⟨"(" ++ s ++ ")", ?_, ?_⟩
      · simp only [String.append_assoc]
        rfl
      · rw [hexposes, hmulti]
        simp [hbar, hconditional]
    · next hsingle =>
      refine ⟨s, rfl, ?_⟩
      rw [hexposes, ← not_or, helement.shows_iff]
      simp [hsingle]
  · rintro vs rfl hlength
    have hne : vs ≠ [] := by
      rintro rfl
      cases hlength
    rw [text_union hne, map_eq_ok_iff] at h
    obtain ⟨ts, hts, rfl⟩ := h
    refine ⟨ts, rfl, collect_map_eq_ok_iff.mp hts, ?_⟩
    obtain ⟨hvariants, htexts⟩ := outline_variants
      (fun v hv _ => outline_of_text v (hparts (none, v) (List.mem_map_of_mem hv))) hts
    constructor
    · intro hnone hexposes
      obtain hself | ⟨v, hv, hexposes⟩ := exposes_union_iff.mp hexposes
      · cases hself
      · obtain ⟨s, hs, h⟩ := hvariants v hv
        exact hnone s hs (h.shows_conditional hexposes)
    · intro hexposes s hs hshows
      obtain ⟨v, hv, h⟩ := htexts s hs
      exact hexposes (.variant hv (h.showsConditional_iff.mp hshows))

/-- A list of a union of two names. -/
def listOfUnion : Expression := .array (.union [.named "B", .named "A"])

/-- A list of a union is one piece, also beside another variant. -/
theorem grouped_iff_listOfUnion :
    (∃ s, text listOfUnion 0 = .ok (s ++ "[]") ∧ ¬ShowsBar s ∧ ¬ShowsConditional s)
    ∧ ∃ ts, text (.union [listOfUnion, .named "Z"]) 0 = .ok (" | ".intercalate ts)
        ∧ ∀ s ∈ ts, ¬ShowsConditional s := by
  have hplain : listOfUnion.PlainNames := by
    simp only [listOfUnion, plainNames_array, plainNames_union, List.forall_mem_cons,
      plainNames_named, List.not_mem_nil, false_implies, implies_true]
    decide
  have hexposes : ∀ kind : Expression → Bool, kind listOfUnion = false →
      ¬Exposes kind listOfUnion := by
    intro kind hself
    rw [listOfUnion, exposes_array_iff]
    rintro (h | ⟨h, _⟩)
    · exact absurd hself (by simp [listOfUnion, h])
    · cases h
  have htext : text listOfUnion 0 = .ok "(A | B)[]" := by
    have hsorted : UnionOrder.canonical identifier? [named "B", named "A"]
        = [named "A", named "B"] := by
      rw [UnionOrder.canonical, UnionOrder.sortedNames_eq]
      show UnionOrder.refill _ (List.mergeSort [named "B", named "A"] _) _ = _
      rw [mergeSort_pair, if_neg (by decide)]
      rfl
    rw [listOfUnion, text_array, text_union (List.cons_ne_nil _ _), hsorted]
    rfl
  have hunion : text (.union [listOfUnion, .named "Z"]) 0 = .ok "(A | B)[] | Z" := by
    have hplaces : UnionOrder.canonical identifier? [listOfUnion, named "Z"]
        = [listOfUnion, named "Z"] := UnionOrder.canonical_eq_self (List.pairwise_singleton _ _)
    rw [text_union (List.cons_ne_nil _ _), hplaces, List.map_cons, htext]
    rfl
  constructor
  · obtain ⟨s, hs, hgrouped⟩ := (grouped_iff hplain htext).1 _ rfl
    exact ⟨s, by rw [htext, hs], hgrouped.mpr (hexposes _ rfl)⟩
  · have hplain : (Expression.union [listOfUnion, .named "Z"]).PlainNames := by
      simp only [plainNames_union, List.forall_mem_cons, hplain, plainNames_named,
        List.not_mem_nil, false_implies, implies_true]
      decide
    obtain ⟨ts, hts, _, hgrouped⟩ := (grouped_iff hplain hunion).2 _ rfl (by decide)
    refine ⟨ts, by rw [hunion, hts], hgrouped.mpr fun h => ?_⟩
    obtain h | ⟨v, hv, h⟩ := exposes_union_iff.mp h
    · cases h
    · rcases List.mem_cons.mp hv with rfl | hv
      · exact hexposes _ rfl h
      · rw [List.mem_singleton.mp hv] at h
        exact not_exposes rfl rfl h

/-- A list of a union inside a union of one variant. -/
def nestedUnion : Expression := .array (.union [.union [.named "A", .named "B"]])

/-- A conditional. -/
def choice : Expression := .conditional "T" (.named "U") (.named "X") (.named "Y")

theorem text_nestedUnion : text nestedUnion 0 = .ok "A | B[]" := by
  have hplaces : UnionOrder.canonical identifier? [union [named "A", named "B"]]
      = [union [named "A", named "B"]] := UnionOrder.canonical_eq_self .nil
  have hsorted : UnionOrder.canonical identifier? [named "A", named "B"]
      = [named "A", named "B"] :=
    UnionOrder.canonical_eq_self (List.pairwise_pair.mpr (by decide))
  rw [nestedUnion, text_array, text_union (List.cons_ne_nil _ _), hplaces, List.map_singleton,
    text_union (List.cons_ne_nil _ _), hsorted]
  rfl

theorem text_choice_or_name :
    text (.union [choice, .named "Z"]) 0 = .ok "T extends U\n  ? X\n  : Y | Z" := by
  have hplaces : UnionOrder.canonical identifier? [choice, named "Z"] = [choice, named "Z"] :=
    UnionOrder.canonical_eq_self (List.pairwise_singleton _ _)
  rw [text_union (List.cons_ne_nil _ _), hplaces]
  rfl

/-- The brackets of the list are those of `B` alone, and the variant `Z` belongs to the last
branch of the conditional. -/
theorem grouping_lost :
    nestedUnion.PlainNames ∧ text nestedUnion 0 = .ok "A | B[]"
      ∧ (∀ s, "A | B[]" = s ++ "[]" → ShowsBar s)
      ∧ (Expression.union [choice, .named "Z"]).PlainNames
      ∧ text (.union [choice, .named "Z"]) 0 = .ok "T extends U\n  ? X\n  : Y | Z"
      ∧ ∃ s, text choice 0 = .ok s ∧ ShowsConditional s := by
  refine ⟨?_, text_nestedUnion, ?_, ?_, text_choice_or_name, "T extends U\n  ? X\n  : Y", rfl,
    'U', by decide, ?_⟩
  · simp only [nestedUnion, plainNames_array, plainNames_union, List.forall_mem_cons,
      plainNames_named, List.not_mem_nil, false_implies, implies_true]
    decide
  · intro s hs
    have hs : "A | B" ++ "[]" = s ++ "[]" := hs
    rw [← (String.append_left_inj "[]").mp hs]
    decide
  · simp only [choice, plainNames_union, List.forall_mem_cons, plainNames_conditional,
      plainNames_named, List.not_mem_nil, false_implies, implies_true]
    decide
  · rw [Unmarked.outer (by decide)]
    exact ⟨['T'], "\n  ? X\n  : Y".toList, by decide⟩

end StaticType

end SchemaTypes
