import SchemaTypes.Catalog

/-!
# The names that a module needs

Starting from the names that the columns refer to, the definitions that have to be
declared are found by following what they refer to in turn. A name that the catalog
imports ends there; one that it neither imports nor defines needs nothing. Definitions
may refer to each other in circles: each is followed once, and so the search ends.

What was found is kept in lists without repeats, the last one found in front. Nothing
depends on that order: what is needed is put in the order of the names before it is written.
-/

namespace SchemaTypes

/-- The definitions and imports that were found to be needed, without repeats. -/
structure Needs where
  definitions : List String := []
  imports : List String := []
  deriving DecidableEq, Repr

/-- Whether the name has to be declared or imported. -/
def Needs.contains (needs : Needs) (name : String) : Bool :=
  needs.definitions.contains name || needs.imports.contains name

/-- The set with an element put in. -/
def addName (name : String) (names : List String) : List String :=
  if names.contains name then names else name :: names

namespace Catalog

/-- How many of the entries are not among the names. -/
def countUnseen {α : Type} (seen : List String) (entries : List (String × α)) : Nat :=
  entries.countP fun entry => !seen.contains entry.1

theorem countUnseen_cons_le {α : Type} (name : String) (seen : List String)
    (entries : List (String × α)) :
    countUnseen (name :: seen) entries ≤ countUnseen seen entries := by
  unfold countUnseen
  apply List.countP_mono_left
  intro entry _ h
  simp only [List.contains_cons, Bool.not_or, Bool.and_eq_true] at h
  exact h.2

theorem countUnseen_cons_lt {α : Type} {name : String} {seen : List String} {value : α}
    {entries : List (String × α)} (hfind : entries.lookup name = some value)
    (hnew : seen.contains name = false) :
    countUnseen (name :: seen) entries < countUnseen seen entries := by
  induction entries with
  | nil => simp at hfind
  | cons entry rest ih =>
    obtain ⟨key, v⟩ := entry
    have hle := countUnseen_cons_le name seen rest
    unfold countUnseen at hle ih ⊢
    by_cases hkey : name = key
    · subst hkey
      rw [List.countP_cons_of_neg (by simp), List.countP_cons_of_pos (by simpa using hnew)]
      omega
    · have hrest : rest.lookup name = some value := by
        rw [List.lookup_cons, beq_eq_false_iff_ne.mpr hkey] at hfind
        exact hfind
      have hlt := ih hrest
      have hne : (key == name) = false := beq_eq_false_iff_ne.mpr fun e => hkey e.symm
      have hsame : (!(name :: seen).contains key) = !seen.contains key := by
        rw [List.contains_cons, hne, Bool.false_or]
      simp only [List.countP_cons, hsame]
      omega

/-- Follows the pending names, given what was found before. -/
def follow (c : Catalog) (found : Needs) : List String → Needs
  | [] => found
  | name :: pending =>
    if (c.moduleOf? name).isSome then
      c.follow { found with imports := addName name found.imports } pending
    else
      match _hfind : c.definition? name with
      | none => c.follow found pending
      | some body =>
        if _hseen : found.definitions.contains name then c.follow found pending
        else
          c.follow { found with definitions := name :: found.definitions }
            (body.freeReferences ++ pending)
termination_by pending => (countUnseen found.definitions c.definitions.entries, pending.length)
decreasing_by
  · exact Prod.Lex.right _ (Nat.lt_succ_self _)
  · exact Prod.Lex.right _ (Nat.lt_succ_self _)
  · exact Prod.Lex.right _ (Nat.lt_succ_self _)
  · exact Prod.Lex.left _ _ (countUnseen_cons_lt _hfind (by simpa using _hseen))

/-- The definitions and imports that these names need. -/
def needs (c : Catalog) (names : List String) : Needs :=
  c.follow {} names

end Catalog

end SchemaTypes
