import Mathlib.Data.List.DropRight
import SchemaTypes.Proofs.LetterCase
import SchemaTypes.Text.Blank

/-!
# Trimming and small letters

What is around a text that is trimmed makes no difference as long as it is blank
(`trimChars_append`), and what trimming takes away is blank (`exists_trimChars`). Making
letters small changes no blank into another character nor another character into a
blank, so it does not matter which of the two is done first (`trimChars_map_toLower`).
-/

namespace SchemaTypes.Text

/-! ## Blanks at the ends -/

/-- All the characters are blank. -/
def Blank (cs : List Char) : Prop := ∀ c ∈ cs, isBlank c

instance (cs : List Char) : Decidable (Blank cs) :=
  List.decidableBAll (fun c => isBlank c) cs

theorem blank_nil : Blank [] := fun _ h => absurd h List.not_mem_nil

theorem trimChars_eq (cs : List Char) :
    trimChars cs = (cs.dropWhile isBlank).rdropWhile isBlank := rfl

/-- Blanks around a text are taken away with its own. -/
theorem trimChars_append {before after : List Char} (hbefore : Blank before)
    (hafter : Blank after) (cs : List Char) :
    trimChars (before ++ cs ++ after) = trimChars cs := by
  rw [trimChars, trimChars, List.append_assoc, List.dropWhile_append_of_pos hbefore,
    List.dropWhile_append]
  split
  · next hempty =>
    -- there is nothing but blanks
    rw [List.isEmpty_iff] at hempty
    rw [hempty, List.dropWhile_eq_nil_iff.mpr hafter]
  · have hreverse : ∀ c ∈ after.reverse, isBlank c := fun c hc =>
      hafter c (List.mem_reverse.mp hc)
    rw [List.reverse_append, List.dropWhile_append_of_pos hreverse]

/-- Trimming takes blanks away, and nothing else. -/
theorem exists_trimChars (cs : List Char) :
    ∃ before after, Blank before ∧ Blank after ∧ cs = before ++ trimChars cs ++ after := by
  have hblank : ∀ l : List Char, Blank (l.takeWhile isBlank) := fun _ _ hc =>
    List.mem_takeWhile_imp hc
  refine ⟨cs.takeWhile isBlank, ((cs.dropWhile isBlank).reverse.takeWhile isBlank).reverse,
    hblank cs, fun c hc => hblank _ c (List.mem_reverse.mp hc), ?_⟩
  rw [trimChars, List.append_assoc, ← List.reverse_append, List.takeWhile_append_dropWhile,
    List.reverse_reverse, List.takeWhile_append_dropWhile]

/-- Nothing is left exactly if there is nothing but blanks. -/
theorem trimChars_eq_nil_iff {cs : List Char} : trimChars cs = [] ↔ Blank cs := by
  constructor
  · intro h
    obtain ⟨before, after, hbefore, hafter, hcs⟩ := exists_trimChars cs
    rw [h, List.append_nil] at hcs
    rw [hcs]
    exact List.forall_mem_append.mpr ⟨hbefore, hafter⟩
  · intro h
    have htrim := trimChars_append h blank_nil []
    rwa [List.append_nil, List.append_nil, trimChars_nil] at htrim

theorem trimChars_trimChars (cs : List Char) : trimChars (trimChars cs) = trimChars cs := by
  obtain ⟨before, after, hbefore, hafter, hcs⟩ := exists_trimChars cs
  have htrim := trimChars_append hbefore hafter (trimChars cs)
  rw [← hcs] at htrim
  exact htrim.symm

/-- A text that neither begins nor ends with a blank is left as it is. -/
theorem trimChars_of_ends {first last : Char} (hfirst : isBlank first = false)
    (hlast : isBlank last = false) (middle : List Char) :
    trimChars (first :: (middle ++ [last])) = first :: (middle ++ [last]) := by
  rw [trimChars_eq, List.dropWhile_cons_of_neg (by rw [hfirst]; decide), ← List.cons_append,
    List.rdropWhile_concat_neg _ _ _ (by rw [hlast]; decide)]

/-! ## Small letters -/

theorem isBlank_of_isAlpha {c : Char} (h : c.isAlpha) : isBlank c = false := by
  rw [Char.isAlpha, Bool.or_eq_true, isUpper_iff, isLower_iff] at h
  simp only [isBlank, Bool.or_eq_false_iff, Bool.and_eq_false_iff, decide_eq_false_iff_not,
    beq_eq_false_iff_ne]
  omega

theorem isBlank_toLower (c : Char) : isBlank c.toLower = isBlank c := by
  rcases toLower_cases c with h | ⟨hc, hsmall⟩
  · rw [h]
  · rw [isBlank_of_isAlpha (c := c) (by rw [Char.isAlpha, hc, Bool.true_or]),
      isBlank_of_isAlpha (c := c.toLower) (by rw [Char.isAlpha, hsmall, Bool.or_true])]

/-- It makes no difference whether letters are made small before or after trimming. -/
theorem trimChars_map_toLower (cs : List Char) :
    trimChars (cs.map Char.toLower) = (trimChars cs).map Char.toLower := by
  have hblank : isBlank ∘ Char.toLower = isBlank := funext isBlank_toLower
  rw [trimChars, trimChars, List.dropWhile_map, hblank, ← List.map_reverse, List.dropWhile_map,
    hblank, List.map_reverse]

end SchemaTypes.Text
