import SchemaTypes.Json.Writer
import SchemaTypes.Proofs.StringLiterals

/-!
# Tokens that are read back

What is written for a string, a truth value, `null` or an integer of 64 bits is read as
just that, whatever stands behind it. A string ends with its quote. A number has no mark
at its end, so what follows must be nothing that a number could go on with
(`EndsNumber`); in a written text a comma, a bracket or the end follows.

> `stringToken_escape`: text is read back from its quoted form, and what follows is left.
> `scalarToken_chars`: so is a scalar that is no double, if what follows ends a number.
-/

namespace SchemaTypes

/-- The scalar is no double, and an integer fits into 64 bits, with or without a sign. -/
def Scalar.Plain : Scalar → Prop
  | .integer n => -(Decimal.twoTo 63 : Int) ≤ n ∧ n < Decimal.twoTo 64
  | .float _ => False
  | .null | .boolean _ => True

namespace Json

/-! ## Strings -/

/-- Text is read back from its quoted form, and what follows it is left. -/
theorem stringToken_escape (s : String) (rest : List Char) :
    stringToken (Text.escape s.toList ++ '"' :: rest) = (.ok s, rest) := by
  rw [stringToken, (standsFor_escape s.toList).stringBody_eq]
  show ((Token.ok (String.ofList s.toList) : Token String), rest) = _
  rw [String.ofList_toList]

/-! ## Whole numbers -/

/-- Nothing that could go on with a number follows. -/
def EndsNumber (rest : List Char) : Prop :=
  ∀ c cs, rest = c :: cs → c.isDigit = false ∧ c ≠ '.' ∧ c ≠ 'e' ∧ c ≠ 'E'

theorem natChars_isDigit {n : Nat} : ∀ c ∈ Decimal.natChars n, c.isDigit :=
  fun _ hc => Nat.isDigit_of_mem_toDigits (by decide) (by decide) hc

theorem digitsValue_natChars (n : Nat) : digitsValue (Decimal.natChars n) = n :=
  Nat.ofDigitChars_toDigits (by decide) (by decide)

/-- A number of several digits does not start with a zero. -/
theorem natChars_ne_zero_cons (n : Nat) (d : Char) (ds : List Char) :
    Decimal.natChars n ≠ '0' :: d :: ds := by
  have hhead : ∀ n, 0 < n → (Decimal.natChars n).head? ≠ some '0' := by
    intro n
    induction n using Nat.strongRecOn with
    | ind n ih =>
      intro hn
      by_cases hsmall : n < 10
      · rw [Decimal.natChars, Nat.toDigits_of_lt_base hsmall, List.head?_cons, ne_eq,
          Option.some.injEq, Nat.digitChar_eq_zero]
        omega
      · have hrest := ih (n / 10) (by omega) (by omega)
        rw [Decimal.natChars, Nat.toDigits_of_base_le (by decide) (by omega)]
        rw [List.head?_append_of_ne_nil _ Nat.toDigits_ne_nil]
        exact hrest
  intro h
  have hpos : 0 < n := by
    rcases Nat.eq_zero_or_pos n with rfl | hpos
    · rw [Decimal.natChars, Nat.toDigits_zero] at h
      cases h
    · exact hpos
  exact hhead n hpos (by rw [h]; rfl)

theorem splitDigits_append {ds rest : List Char} (hds : ∀ c ∈ ds, c.isDigit)
    (hrest : EndsNumber rest) : splitDigits (ds ++ rest) = (ds, rest) := by
  have hstop : rest.takeWhile Char.isDigit = [] ∧ rest.dropWhile Char.isDigit = rest := by
    cases rest with
    | nil => exact ⟨rfl, rfl⟩
    | cons c cs =>
      have hc := (hrest c cs rfl).1
      rw [List.takeWhile_cons_of_neg (by simp [hc]), List.dropWhile_cons_of_neg (by simp [hc])]
      exact ⟨rfl, rfl⟩
  rw [splitDigits, List.takeWhile_append_of_pos hds, List.dropWhile_append_of_pos hds, hstop.1,
    hstop.2, List.append_nil]

theorem numberTail_of_endsNumber (negative : Bool) (whole : List Char) {rest : List Char}
    (hrest : EndsNumber rest) :
    numberTail negative whole rest = (wholeNumber negative (digitsValue whole), rest) := by
  cases rest with
  | nil => rfl
  | cons c cs =>
    obtain ⟨_, hpoint, he, hE⟩ := hrest c cs rfl
    have hexponent : startsExponent (c :: cs) = false := by
      unfold startsExponent
      split
      · next h => exact absurd (List.cons.inj h).1 he
      · next h => exact absurd (List.cons.inj h).1 hE
      · rfl
    unfold numberTail
    split
    · next h => exact absurd (List.cons.inj h).1 hpoint
    · rw [hexponent, if_neg (by decide)]

theorem numberBody_natChars (negative : Bool) (n : Nat) {rest : List Char}
    (hrest : EndsNumber rest) :
    numberBody negative (Decimal.natChars n ++ rest) = (wholeNumber negative n, rest) := by
  have htail := numberTail_of_endsNumber negative (Decimal.natChars n) hrest
  rw [digitsValue_natChars] at htail
  unfold numberBody
  simp only [splitDigits_append natChars_isDigit hrest]
  split
  · next h => exact absurd h Nat.toDigits_ne_nil
  · next h => exact absurd h (natChars_ne_zero_cons n _ _)
  · exact htail

/-! ## Scalars -/

theorem wholeNumber_natAbs {n : Int} (h : (Scalar.integer n).Plain) :
    wholeNumber (n < 0) n.natAbs = .ok (.integer n) := by
  obtain ⟨hlow, hhigh⟩ := h
  by_cases hnegative : n < 0
  · rw [wholeNumber, decide_eq_true hnegative, if_pos rfl, if_pos (by omega)]
    congr 2
    omega
  · rw [wholeNumber, decide_eq_false hnegative, if_neg (by decide), if_pos (by omega)]
    congr 2
    omega

/-- What opens the text of a scalar opens nothing else. -/
structure OpensScalar (c : Char) : Prop where
  space : isSpace c = false
  quote : c ≠ '"'
  bracket : c ≠ '['
  brace : c ≠ '{'
  closing : c ≠ ']'

theorem OpensScalar.of_isDigit {c : Char} (h : c.isDigit) : OpensScalar c := by
  constructor
  · by_cases hspace : isSpace c
    · simp only [isSpace, Bool.or_eq_true, beq_iff_eq] at hspace
      rcases hspace with ((rfl | rfl) | rfl) | rfl <;> exact absurd h (by decide)
    · simpa using hspace
  all_goals
    rintro rfl
    exact absurd h (by decide)

theorem OpensScalar.of_mem {c : Char} (h : c ∈ ['-', 'n', 't', 'f']) : OpensScalar c := by
  simp only [List.mem_cons, List.not_mem_nil, or_false] at h
  rcases h with rfl | rfl | rfl | rfl <;>
    exact ⟨rfl, by decide, by decide, by decide, by decide⟩

theorem scalarToken_digit {c : Char} (h : c.isDigit) (cs : List Char) :
    scalarToken c cs = numberBody false (c :: cs) := by
  have hne : ∀ d : Char, d.isDigit = false → c ≠ d := by
    rintro d hd rfl
    rw [h] at hd
    cases hd
  rw [scalarToken, if_neg (hne 'n' rfl), if_neg (hne 't' rfl), if_neg (hne 'f' rfl),
    if_neg (hne '-' rfl), if_pos h]

theorem scalarToken_integer {n : Int} (h : (Scalar.integer n).Plain) {rest : List Char}
    (hrest : EndsNumber rest) :
    ∃ c cs, Decimal.intChars n = c :: cs ∧ OpensScalar c
      ∧ scalarToken c (cs ++ rest) = (.ok (.integer n), rest) := by
  have hvalue := wholeNumber_natAbs h
  cases n with
  | ofNat n =>
    obtain ⟨c, cs, hchars⟩ := List.exists_cons_of_ne_nil (Nat.toDigits_ne_nil (n := n) (b := 10))
    have hc : c.isDigit := natChars_isDigit (n := n) c (by
      rw [Decimal.natChars, hchars]
      exact List.mem_cons_self)
    have hbody := numberBody_natChars false n hrest
    refine ⟨c, cs, hchars, .of_isDigit hc, ?_⟩
    rw [scalarToken_digit hc, ← List.cons_append, ← hchars]
    show numberBody false (Decimal.natChars n ++ rest) = _
    rw [hbody]
    exact congrArg (·, rest) hvalue
  | negSucc n =>
    have hbody := numberBody_natChars true (n + 1) hrest
    refine ⟨'-', Decimal.natChars (n + 1), rfl, .of_mem (by decide), ?_⟩
    show numberBody true _ = _
    rw [hbody]
    have hsign : decide (Int.negSucc n < 0) = true := decide_eq_true (Int.negSucc_lt_zero n)
    rw [hsign] at hvalue
    exact congrArg (·, rest) hvalue

theorem scalarToken_chars {s : Scalar} (h : s.Plain) {rest : List Char} (hrest : EndsNumber rest) :
    ∃ c cs, s.chars = c :: cs ∧ OpensScalar c ∧ scalarToken c (cs ++ rest) = (.ok s, rest) := by
  cases s with
  | null => exact ⟨_, _, rfl, .of_mem (by decide), rfl⟩
  | boolean b => cases b <;> exact ⟨_, _, rfl, .of_mem (by decide), rfl⟩
  | integer n => exact scalarToken_integer h hrest
  | float x => exact absurd h (by simp [Scalar.Plain])

end Json

end SchemaTypes
