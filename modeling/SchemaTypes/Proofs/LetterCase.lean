import Mathlib

/-!
# Letters, digits and their case

A letter of ASCII is a capital or a small letter, and has the other form as well. What is
said here of a character is said by its code point (`isUpper_iff`, `isLower_iff`) or by the
laws of the library about ASCII letters, which no part of Mathlib imports by itself.
-/

namespace SchemaTypes.Text

/-! ## Capitals and digits -/

theorem isUpper_iff {c : Char} : c.isUpper ↔ 65 ≤ c.toNat ∧ c.toNat ≤ 90 := by
  simp only [Char.isUpper, UInt32.le_iff_toNat_le, ge_iff_le, decide_eq_true_eq]
  exact Iff.rfl

theorem isLower_iff {c : Char} : c.isLower ↔ 97 ≤ c.toNat ∧ c.toNat ≤ 122 := by
  simp only [Char.isLower, UInt32.le_iff_toNat_le, ge_iff_le, decide_eq_true_eq,
    Bool.and_eq_true]
  exact Iff.rfl

theorem isAlphanum_of_isDigit {c : Char} (h : c.isDigit) : c.isAlphanum := by
  rw [Char.isAlphanum, h, Bool.or_true]

theorem isAlphanum_of_isUpper {c : Char} (h : c.isUpper) : c.isAlphanum := by
  rw [Char.isAlphanum, Char.isAlpha, h, Bool.true_or, Bool.true_or]

theorem not_isDigit_of_isUpper {c : Char} (h : c.isUpper) : ¬c.isDigit := by
  rw [Char.isDigit_iff_toNat]
  have hupper := isUpper_iff.mp h
  have hnine : '9'.toNat = 57 := rfl
  omega

/-- A capital or a digit is not changed by making it a capital. -/
theorem toUpper_of_isUpper_or_isDigit {c : Char} (h : c.isUpper ∨ c.isDigit) : c.toUpper = c := by
  refine Char.toUpper_eq_of_not_isLower fun hlower => ?_
  rw [isUpper_iff, Char.isDigit_iff_toNat] at h
  have hsmall := isLower_iff.mp hlower
  have hnine : '9'.toNat = 57 := rfl
  omega

/-- A letter becomes a capital, and a digit stays a digit. -/
theorem isUpper_or_isDigit_toUpper {c : Char} (h : c.isAlphanum) :
    c.toUpper.isUpper ∨ c.toUpper.isDigit := by
  by_cases hletter : c.isAlpha
  · left
    rw [Char.isUpper_toUpper_eq_isAlpha]
    exact hletter
  · right
    rw [Char.isAlphanum, Bool.or_eq_true] at h
    rw [Char.isAlpha, Bool.or_eq_true, not_or] at hletter
    rw [Char.toUpper_eq_of_not_isLower hletter.2]
    exact h.resolve_left (by simp [Char.isAlpha, hletter])

theorem isAlphanum_toUpper {c : Char} (h : c.isAlphanum) : c.toUpper.isAlphanum := by
  rw [Char.isAlphanum, Char.isAlpha, Bool.or_eq_true, Bool.or_eq_true]
  exact (isUpper_or_isDigit_toUpper h).imp_left .inl

/-! ## Small letters -/

/-- A character is left as it is, unless it is a capital. -/
theorem toLower_cases (c : Char) : c.toLower = c ∨ c.isUpper ∧ c.toLower.isLower := by
  by_cases h : c.isUpper
  · right
    refine ⟨h, ?_⟩
    rw [Char.isLower_toLower_eq_isAlpha, Char.isAlpha, h, Bool.true_or]
  · exact .inl (Char.toLower_eq_of_not_isUpper h)

/-- What is no letter is made of nothing but itself. -/
theorem toLower_eq_iff {c d : Char} (hupper : d.isUpper = false) (hlower : d.isLower = false) :
    c.toLower = d ↔ c = d := by
  rcases toLower_cases c with h | ⟨hc, hsmall⟩
  · rw [h]
  · constructor
    · rintro rfl
      rw [hsmall] at hlower
      cases hlower
    · rintro rfl
      rw [hc] at hupper
      cases hupper

theorem map_toLower_map_toLower (cs : List Char) :
    (cs.map Char.toLower).map Char.toLower = cs.map Char.toLower := by
  rw [List.map_map]
  exact List.map_congr_left fun c _ => Char.toLower_toLower_eq_toLower c

end SchemaTypes.Text
