import Mathlib.Data.List.Basic
import SchemaTypes.Render.Validator

/-!
# Where two texts part

Two texts that differ can still look alike once other texts are put around them. They
cannot if they part (`Apart`): somewhere both go on, with different characters. Texts that
part go on doing so whatever is put before and behind them.

`Tells P t t'` says of two texts, written for two validators, that they show whether `P`
holds: they are the same if it does, and part if it does not. Texts that tell something
each, one behind the other, tell all of it (`Tells.append`, `Tells.row`). A union can be
written in two ways, behind the words `z.enum([` or without them, and

> `Tells.nullish_enumerated`: these two always part.

For that one has to know that a text never begins in the way that the other one does
behind any number of these words (`Beyond`), even where a name spells some of them: what
comes behind a name never goes on as the words do (`Stops`).
-/

namespace SchemaTypes.Text

/-- Both texts go on at some place where they have been the same, with different characters. -/
inductive Apart : List Char → List Char → Prop
  | head {c d : Char} (h : c ≠ d) (s t : List Char) : Apart (c :: s) (d :: t)
  | tail (c : Char) {s t : List Char} (h : Apart s t) : Apart (c :: s) (c :: t)

namespace Apart

variable {s t : List Char}

theorem symm (h : Apart s t) : Apart t s := by
  induction h with
  | head h s t => exact .head h.symm t s
  | tail c _ ih => exact .tail c ih

theorem ne (h : Apart s t) : s ≠ t := by
  induction h with
  | head h s t => exact fun heq => h (List.cons.inj heq).1
  | tail c _ ih => exact fun heq => ih (List.cons.inj heq).2

theorem append_left (h : Apart s t) (before : List Char) : Apart (before ++ s) (before ++ t) := by
  induction before with
  | nil => exact h
  | cons c before ih => exact .tail c ih

theorem append (h : Apart s t) (s' t' : List Char) : Apart (s ++ s') (t ++ t') := by
  induction h with
  | head h s t => exact .head h _ _
  | tail c _ ih => exact .tail c ih

/-- Texts that do not part are one the beginning of the other. -/
theorem or_prefix (s t : List Char) : Apart s t ∨ s <+: t ∨ t <+: s := by
  induction s generalizing t with
  | nil => exact .inr (.inl (List.nil_prefix))
  | cons c s ih =>
    cases t with
    | nil => exact .inr (.inr (List.nil_prefix))
    | cons d t =>
      by_cases hcd : c = d
      · subst hcd
        rw [List.prefix_cons_inj, List.prefix_cons_inj]
        exact (ih t).imp_left (.tail c)
      · exact .inl (.head hcd s t)

end Apart

end SchemaTypes.Text

namespace SchemaTypes.Validator

open Text

/-! ## The words before the variants of a union -/

/-- The words that a union begins with if its variants are enumerated. -/
def opening : List Char := "z.enum([".toList

/-- These words, so many times. -/
def openings (k : Nat) : List Char := (List.replicate k opening).flatten

theorem toList_append_append (t r : String) (y : List Char) :
    (t ++ r).toList ++ y = t.toList ++ (r.toList ++ y) := by
  rw [String.toList_append, List.append_assoc]

theorem toList_enumerated_append (t r : String) (y : List Char) :
    ("z.enum([" ++ t ++ r).toList ++ y = opening ++ (t.toList ++ (r.toList ++ y)) := by
  rw [toList_append_append, toList_append_append]
  rfl

/-- Other words that begin with `z.` part from them at the third character. -/
theorem apart_opening {b : String} {c : Char} {rest : List Char}
    (hb : b.toList = 'z' :: '.' :: c :: rest) (hc : c ≠ 'e') : Apart b.toList opening := by
  rw [hb]
  exact .tail 'z' (.tail '.' (.head hc _ _))

theorem openings_succ (k : Nat) : openings (k + 1) = opening ++ openings k := by
  rw [openings, List.replicate_succ, List.flatten_cons, openings]

theorem openings_succ' (k : Nat) : openings (k + 1) = openings k ++ opening := by
  rw [openings, List.replicate_succ', List.flatten_append, List.flatten_singleton, openings]

theorem mem_opening_of_mem_openings {k : Nat} {c : Char} (h : c ∈ openings k) : c ∈ opening := by
  obtain ⟨l, hl, hc⟩ := List.mem_flatten.mp h
  rw [List.eq_of_mem_replicate hl] at hc
  exact hc

/-- In these words a point comes before an `e`. -/
theorem exists_of_point {k : Nat} {v : List Char} (h : '.' :: v <:+ openings k) :
    ∃ w, v = 'e' :: w := by
  induction k with
  | zero => cases List.suffix_nil.mp h
  | succ k ih =>
    have hopening : openings (k + 1)
        = 'z' :: '.' :: 'e' :: 'n' :: 'u' :: 'm' :: '(' :: '[' :: openings k := by
      rw [openings_succ]
      rfl
    rw [hopening] at h
    simp only [List.suffix_cons_iff, List.cons.injEq] at h
    rcases h with ⟨h, _⟩ | ⟨_, h⟩ | ⟨h, _⟩ | ⟨h, _⟩ | ⟨h, _⟩ | ⟨h, _⟩ | ⟨h, _⟩ | ⟨h, _⟩ | h
    · exact absurd h (by decide)
    · exact ⟨_, h⟩
    all_goals first | exact absurd h (by decide) | exact ih h

/-- The text parts from every end of these words, with anything behind it. -/
def Stops (x : List Char) : Prop :=
  ∀ (k : Nat) (v y : List Char), v ≠ [] → v <:+ openings k → Apart x (v ++ y)

theorem stops_of_head {c : Char} (hc : c ∉ opening) (x : List Char) : Stops (c :: x) := by
  intro k v y hne hsuffix
  obtain ⟨d, v, rfl⟩ := List.exists_cons_of_ne_nil hne
  refine .head (fun heq => hc ?_) _ _
  rw [heq]
  exact mem_opening_of_mem_openings (hsuffix.subset List.mem_cons_self)

/-- A name may spell a part of the words, but what is behind it does not go on with them. -/
theorem Stops.apart {x : List Char} (hx : Stops x) (n y : List Char) (k : Nat) :
    Apart (n ++ x) (openings (k + 1) ++ (n ++ y)) := by
  have hlength : 0 < (openings (k + 1)).length := by
    rw [openings_succ, List.length_append]
    exact Nat.add_pos_left (by decide) _
  rcases Apart.or_prefix n (openings (k + 1)) with h | h | h
  · exact h.append _ _
  · -- the name spells the beginning of the words: `x` stands against their end
    obtain ⟨v, hv⟩ := h
    rw [← hv, List.append_assoc]
    refine Apart.append_left ?_ n
    cases v with
    | cons c v => exact hx (k + 1) (c :: v) _ (List.cons_ne_nil c v) ⟨n, hv⟩
    | nil =>
      rw [List.append_nil] at hv
      subst hv
      exact hx (k + 1) _ y (List.ne_nil_of_length_pos hlength) List.suffix_rfl
  · -- the name begins with the words, which are the same on both sides
    obtain ⟨m, hm⟩ := h
    rw [← hm, List.append_assoc, List.append_assoc]
    exact (hx.apart m y k).append_left _
termination_by n.length
decreasing_by
  rw [← hm, List.length_append]
  omega

/-- Whatever is behind the text, it parts from every end of the words. -/
def Halts (r : String) : Prop := ∀ x, Stops (r.toList ++ x)

/-- Behind the text it stops where it would have stopped without it. -/
def Ends (r : String) : Prop := ∀ x, Stops x → Stops (r.toList ++ x)

theorem halts_of_head {c : Char} (hc : c ∉ opening) {r : String} (hr : r.toList.head? = some c) :
    Halts r := by
  intro x
  obtain ⟨rest, hrest⟩ := List.head?_eq_some_iff.mp hr
  rw [hrest]
  exact stops_of_head hc _

theorem halts_nullish : Halts ".nullish()" := by
  intro _ k v y hne hsuffix
  obtain ⟨c, v, rfl⟩ := List.exists_cons_of_ne_nil hne
  have hchars : ".nullish()".toList = '.' :: 'n' :: "ullish()".toList := rfl
  rw [hchars, List.cons_append, List.cons_append, List.cons_append]
  by_cases hc : '.' = c
  · subst hc
    obtain ⟨w, rfl⟩ := exists_of_point hsuffix
    exact .tail '.' (.head (by decide) _ _)
  · exact .head hc _ _

theorem Halts.append {r : String} (h : Halts r) (s : String) : Halts (r ++ s) := by
  intro x
  rw [toList_append_append]
  exact h _

theorem Halts.ends {r : String} (h : Halts r) : Ends r := fun x _ => h x

theorem ends_empty : Ends "" := fun _ hx => hx

/-! ## Two texts, the one behind openings of unions -/

/-- The first text never begins like the second one behind openings of unions, as long as
something stops it. -/
def Beyond (t t' : String) : Prop :=
  ∀ (k : Nat) (x y : List Char), Stops x →
    Apart (t.toList ++ x) (openings (k + 1) ++ (t'.toList ++ y))

namespace Beyond

variable {t t' : String}

theorem refl (t : String) : Beyond t t := fun k _ y hx => hx.apart t.toList y k

theorem of_apart {before : String} (hbefore : Apart before.toList opening) (t after t' : String) :
    Beyond (before ++ t ++ after) t' := by
  intro k x y _
  rw [openings_succ, toList_append_append, toList_append_append, List.append_assoc]
  exact hbefore.append _ _

theorem append (h : Beyond t t') {r : String} (hr : Ends r) (r' : String) :
    Beyond (t ++ r) (t' ++ r') := by
  intro k x y hx
  rw [toList_append_append, toList_append_append]
  exact h k _ _ (hr x hx)

/-- Openings on both sides fall away. -/
theorem enumerated (h : Beyond t t') {r : String} (hr : Ends r) (r' : String) :
    Beyond ("z.enum([" ++ t ++ r) ("z.enum([" ++ t' ++ r') := by
  intro k x y hx
  have hopenings : openings (k + 1) ++ opening = opening ++ openings (k + 1) := by
    rw [← openings_succ', ← openings_succ]
  rw [toList_enumerated_append, toList_enumerated_append, ← List.append_assoc (openings (k + 1)),
    hopenings, List.append_assoc]
  exact (h k _ _ (hr x hx)).append_left opening

end Beyond

/-! ## What two texts tell -/

/-- The texts are the same if `P` holds, and part if it does not. -/
def Shows (P : Prop) (t t' : String) : Prop :=
  P ∧ t = t' ∨ ¬P ∧ Apart t.toList t'.toList

namespace Shows

variable {P Q : Prop} {t t' r r' : String}

theorem congr (h : Shows P t t') (hPQ : P ↔ Q) : Shows Q t t' := by
  rw [Shows, ← hPQ]
  exact h

theorem refl (t : String) : Shows True t t := .inl ⟨trivial, rfl⟩

theorem append (h : Shows P t t') (hr : Shows Q r r') : Shows (P ∧ Q) (t ++ r) (t' ++ r') := by
  rcases h with ⟨hP, rfl⟩ | ⟨hP, hapart⟩
  · rcases hr with ⟨hQ, rfl⟩ | ⟨hQ, hapart⟩
    · exact .inl ⟨⟨hP, hQ⟩, rfl⟩
    · refine .inr ⟨fun hboth => hQ hboth.2, ?_⟩
      rw [String.toList_append, String.toList_append]
      exact hapart.append_left _
  · refine .inr ⟨fun hboth => hP hboth.1, ?_⟩
    rw [String.toList_append, String.toList_append]
    exact hapart.append _ _

theorem between (h : Shows P t t') (before after : String) :
    Shows P (before ++ t ++ after) (before ++ t' ++ after) :=
  (((refl before).append h).append (refl after)).congr (by simp)

theorem block (h : Shows P t t') (depth : Nat) :
    Shows P (Render.block depth t) (Render.block depth t') := by
  have hbetween := h.between (Text.openBrace ++ "\n") (Render.indent depth ++ Text.closeBrace)
  rw [← String.append_assoc, ← String.append_assoc] at hbetween
  exact hbetween

theorem join {α : Type} {p : α → Prop} {f f' : α → String} {l : List α}
    (h : ∀ a ∈ l, Shows (p a) (f a) (f' a)) :
    Shows (∀ a ∈ l, p a) (String.join (l.map f)) (String.join (l.map f')) := by
  induction l with
  | nil => exact (refl "").congr (by simp)
  | cons a l ih =>
    obtain ⟨hhead, htail⟩ := List.forall_mem_cons.mp h
    rw [List.map_cons, List.map_cons, String.join_cons, String.join_cons]
    exact (hhead.append (ih htail)).congr List.forall_mem_cons.symm

theorem eq_iff (h : Shows P t t') : t = t' ↔ P := by
  rcases h with ⟨hP, rfl⟩ | ⟨hP, hapart⟩
  · exact ⟨fun _ => hP, fun _ => rfl⟩
  · exact ⟨fun heq => absurd (congrArg String.toList heq) hapart.ne, fun h => absurd h hP⟩

end Shows

/-- The texts show whether `P` holds, and neither begins like the other one behind openings
of unions. -/
structure Tells (P : Prop) (t t' : String) : Prop where
  shows : Shows P t t'
  left : Beyond t t'
  right : Beyond t' t

namespace Tells

variable {P Q : Prop} {t t' r r' : String}

theorem symm (h : Tells P t t') : Tells P t' t where
  shows := h.shows.imp (fun hP => ⟨hP.1, hP.2.symm⟩) fun hP => ⟨hP.1, hP.2.symm⟩
  left := h.right
  right := h.left

theorem congr (h : Tells P t t') (hPQ : P ↔ Q) : Tells Q t t' :=
  ⟨h.shows.congr hPQ, h.left, h.right⟩

theorem refl (t : String) : Tells True t t := ⟨.refl t, .refl t, .refl t⟩

theorem of_eq (hP : P) (h : t = t') : Tells P t t' := by
  rw [h]
  exact (refl t').congr (iff_of_true trivial hP)

/-- Texts between the same words, the ones before them not being those of a union. -/
theorem between (h : Shows P t t') {before : String} (hbefore : Apart before.toList opening)
    (after : String) : Tells P (before ++ t ++ after) (before ++ t' ++ after) where
  shows := h.between before after
  left := .of_apart hbefore t after _
  right := .of_apart hbefore t' after _

theorem append (h : Tells P t t') (hr : Shows Q r r') (hends : Ends r) (hends' : Ends r') :
    Tells (P ∧ Q) (t ++ r) (t' ++ r') where
  shows := h.shows.append hr
  left := h.left.append hends r'
  right := h.right.append hends' r

/-- Unions whose variants are enumerated. -/
theorem enumerated (h : Tells P t t') (hr : Shows Q r r') (hends : Ends r) (hends' : Ends r') :
    Tells (P ∧ Q) ("z.enum([" ++ t ++ r) ("z.enum([" ++ t' ++ r') where
  shows := (((Shows.refl "z.enum([").append h.shows).append hr).congr (by simp)
  left := h.left.enumerated hends r'
  right := h.right.enumerated hends' r

/-- Two nullish texts. -/
theorem nullish (h : Tells P t t') : Tells P (t ++ ".nullish()") (t' ++ ".nullish()") :=
  (h.append (.refl ".nullish()") halts_nullish.ends halts_nullish.ends).congr (by simp)

/-- **Two ways to write a union part.** The one has its first variant behind an opening,
and the other one does not. -/
theorem nullish_enumerated (h : Tells P t t') (s : String) :
    Tells False (t ++ ".nullish()") ("z.enum([" ++ t' ++ (", " ++ s)) where
  shows := by
    refine .inr ⟨id, ?_⟩
    have hapart := h.left 0 (".nullish()".toList ++ []) ((", " ++ s).toList ++ [])
      (halts_nullish [])
    rw [openings_succ, List.append_assoc, ← toList_append_append, List.append_nil] at hapart
    rw [← List.append_nil ("z.enum([" ++ t' ++ (", " ++ s)).toList, toList_enumerated_append]
    exact hapart
  left := by
    -- there is one opening more on the right
    intro k x y _
    rw [toList_enumerated_append, toList_append_append t, ← List.append_assoc (openings (k + 1)),
      ← openings_succ']
    exact h.left (k + 1) _ _ (halts_nullish x)
  right := by
    intro k x y _
    have hhalts : Halts (", " ++ s) := (halts_of_head (c := ',') (by decide) rfl).append s
    rw [toList_enumerated_append, toList_append_append t, openings_succ, List.append_assoc]
    refine Apart.append_left ?_ opening
    cases k with
    | succ k => exact h.right k _ _ (hhalts x)
    | zero =>
      -- the openings are used up: what is behind the variants decides, if they do not
      rcases h.shows with ⟨_, rfl⟩ | ⟨_, hapart⟩
      · have hcomma : (", " ++ s).toList = ',' :: ' ' :: s.toList := by
          rw [String.toList_append]
          rfl
        have hpoint : ".nullish()".toList = '.' :: "nullish()".toList := rfl
        rw [hcomma, hpoint]
        exact Apart.append_left (.head (by decide) _ _) t.toList
      · exact hapart.symm.append _ _

end Tells

/-! ## Texts in a row -/

/-- The texts that come behind the first one in a row, each with the separator before it. -/
def rest (ts : List String) : String := String.join (ts.map (", " ++ ·))

theorem intercalate_cons (t : String) (ts : List String) :
    ", ".intercalate (t :: ts) = t ++ rest ts := by
  induction ts generalizing t with
  | nil => rw [String.intercalate_singleton, rest, List.map_nil, String.join_nil,
      String.append_empty]
  | cons t' ts ih =>
    rw [String.intercalate_cons_cons, ih t', rest, rest, List.map_cons, String.join_cons]
    simp only [String.append_assoc]

theorem halts_rest_append (ts : List String) {after : String} (h : Halts after) :
    Halts (rest ts ++ after) := by
  cases ts with
  | nil => simpa [rest] using h
  | cons t ts =>
    rw [rest, List.map_cons, String.join_cons, String.append_assoc, String.append_assoc]
    exact (halts_of_head (c := ',') (by decide) rfl).append _

theorem ends_rest (ts : List String) : Ends (rest ts) := by
  cases ts with
  | nil => exact ends_empty
  | cons t ts =>
    rw [rest, List.map_cons, String.join_cons, String.append_assoc]
    exact ((halts_of_head (c := ',') (by decide) rfl).append _).ends

section Rows

variable {α : Type} {P : α → Prop} {f f' : α → String} {a : α} {l : List α}

theorem shows_rest (h : ∀ b ∈ l, Tells (P b) (f b) (f' b)) :
    Shows (∀ b ∈ l, P b) (rest (l.map f)) (rest (l.map f')) := by
  rw [rest, rest, List.map_map, List.map_map]
  refine Shows.join fun b hb => ?_
  exact ((Shows.refl ", ").append (h b hb).shows).congr (by simp)

theorem Tells.row (h : ∀ b ∈ a :: l, Tells (P b) (f b) (f' b)) :
    Tells (∀ b ∈ a :: l, P b) (", ".intercalate ((a :: l).map f))
      (", ".intercalate ((a :: l).map f')) := by
  obtain ⟨hfirst, hothers⟩ := List.forall_mem_cons.mp h
  rw [List.map_cons, List.map_cons, intercalate_cons, intercalate_cons]
  exact (hfirst.append (shows_rest hothers) (ends_rest _) (ends_rest _)).congr
    List.forall_mem_cons.symm

theorem Tells.enumerated_row (h : ∀ b ∈ a :: l, Tells (P b) (f b) (f' b)) :
    Tells (∀ b ∈ a :: l, P b) ("z.enum([" ++ f a ++ (rest (l.map f) ++ "])"))
      ("z.enum([" ++ f' a ++ (rest (l.map f') ++ "])")) := by
  obtain ⟨hfirst, hothers⟩ := List.forall_mem_cons.mp h
  have hend : ∀ ts : List String, Ends (rest ts ++ "])") := fun ts =>
    (halts_rest_append ts (halts_of_head (c := ']') (by decide) rfl)).ends
  refine (hfirst.enumerated ((shows_rest hothers).append (.refl "])")) (hend _) (hend _)).congr ?_
  rw [List.forall_mem_cons, and_true]

end Rows

end SchemaTypes.Validator
