import SchemaTypes.Proofs.Trimming
import SchemaTypes.ScalarName

/-!
# Wrapped database types

A database type is wrapped if it is the word of a wrapper, in capitals or small letters,
and another type in parentheses, with blanks around it all and around the type inside
(`Wraps`). The type inside may be any text, balanced or not. Reading a type takes one
wrapper after the other off its outside, which comes to an end since a wrapper takes seven
characters at least (`exists_layers`), and

> `parse_of_layers`: the type is read as the name of its core, with the flags of all its
> wrappers.

So the flags tell which wrappers there are (`parse_isNullable_iff`, `parse_isArray_iff`).
-/

namespace SchemaTypes

open Text (Blank isBlank trimChars)

/-! ## One wrapper -/

namespace Wrapper

/-- The outer text is the inner one in the wrapper. -/
inductive Wraps (w : Wrapper) (inner : List Char) : List Char → Prop
  | intro (before word left right after : List Char) (hword : word.map Char.toLower = w.word)
      (hbefore : Blank before) (hleft : Blank left) (hright : Blank right) (hafter : Blank after) :
      Wraps w inner (before ++ (word ++ '(' :: (left ++ inner ++ right ++ [')'])) ++ after)

/-- A text that no wrapper is around. -/
def Bare (cs : List Char) : Prop := ∀ w inner, ¬Wraps w inner cs

theorem Wraps.open_mem {w : Wrapper} {inner outer : List Char} (h : Wraps w inner outer) :
    '(' ∈ outer := by
  obtain ⟨before, word, left, right, after⟩ := h
  simp

theorem word_eq_cons (w : Wrapper) : ∃ first rest, w.word = first :: rest ∧ first.isAlpha := by
  cases w <;> exact ⟨_, _, rfl, rfl⟩

theorem length_word (w : Wrapper) : 5 ≤ w.word.length := by
  cases w <;> decide

theorem word_injective {w w' : Wrapper} (h : w.word = w'.word) : w = w' := by
  cases w <;> cases w' <;> first | rfl | cases h

/-- What stands before the first parenthesis of a wrapped type is the word. -/
theorem takeWhile_word (w : Wrapper) (rest : List Char) :
    (w.word ++ '(' :: rest).takeWhile (· != '(') = w.word := by
  have hword : ∀ c ∈ w.word, (c != '(') = true := by cases w <;> simp [word]
  rw [List.takeWhile_append_of_pos hword, List.takeWhile_cons_of_neg (by decide),
    List.append_nil]

theorem strip?_eq_some_iff {w : Wrapper} {cs inner : List Char} :
    w.strip? cs = some inner ↔
      ∃ word body, cs = word ++ '(' :: (body ++ [')']) ∧ word.map Char.toLower = w.word
        ∧ inner = trimChars body := by
  constructor
  · intro h
    unfold strip? at h
    split at h
    · next hword =>
      split at h
      · next rest hrest =>
        split at h
        · next hlast =>
          refine ⟨cs.take w.word.length, rest.dropLast, ?_, hword, (Option.some.inj h).symm⟩
          obtain ⟨body, rfl⟩ := List.getLast?_eq_some_iff.mp hlast
          rw [List.dropLast_concat, ← hrest, List.take_append_drop]
        · cases h
      · cases h
    · cases h
  · rintro ⟨word, body, rfl, hword, rfl⟩
    have hlength : w.word.length = word.length := by rw [← hword, List.length_map]
    unfold strip?
    rw [hlength, List.take_left, List.drop_left, if_pos hword]
    simp only [List.getLast?_concat, if_true, List.dropLast_concat]

/-- No text has two wrappers outermost. -/
theorem strip?_unique {w w' : Wrapper} {cs inner inner' : List Char}
    (h : w.strip? cs = some inner) (h' : w'.strip? cs = some inner') : w = w' := by
  obtain ⟨word, body, rfl, hword, -⟩ := strip?_eq_some_iff.mp h
  obtain ⟨word', body', hcs, hword', -⟩ := strip?_eq_some_iff.mp h'
  have hsmall := congrArg (List.map Char.toLower) hcs
  rw [List.map_append, List.map_append, List.map_cons, List.map_cons, hword, hword'] at hsmall
  have htake := congrArg (List.takeWhile (· != '(')) hsmall
  have hparenthesis : Char.toLower '(' = '(' := by decide
  rw [hparenthesis, takeWhile_word, takeWhile_word] at htake
  exact word_injective htake

end Wrapper

/-! ## All wrappers -/

namespace ScalarName

open Wrapper (Bare Wraps strip?_eq_some_iff strip?_unique)

theorem unwrap?_eq_some_iff {w : Wrapper} {cs inner : List Char} :
    unwrap? cs = some (w, inner) ↔ w.strip? cs = some inner := by
  constructor
  · intro h
    obtain ⟨w', -, hw'⟩ := List.exists_of_findSome?_eq_some h
    obtain ⟨inner', hstrip, hpair⟩ := Option.map_eq_some_iff.mp hw'
    cases hpair
    exact hstrip
  · intro h
    have hall : w ∈ Wrapper.all := by cases w <;> decide
    have hsome : (unwrap? cs).isSome := by
      rw [unwrap?, List.findSome?_isSome_iff]
      exact ⟨w, hall, by rw [h]; rfl⟩
    obtain ⟨⟨w', inner'⟩, hfound⟩ := Option.isSome_iff_exists.mp hsome
    -- whichever wrapper is found first, it is this one
    obtain ⟨w'', -, hw''⟩ := List.exists_of_findSome?_eq_some hfound
    obtain ⟨inner'', hstrip, hpair⟩ := Option.map_eq_some_iff.mp hw''
    cases hpair
    obtain rfl := strip?_unique h hstrip
    rw [h] at hstrip
    rw [hfound, Option.some.inj hstrip]

theorem ofChars_of_unwrap? {w : Wrapper} {cs inner : List Char}
    (h : unwrap? cs = some (w, inner)) : ofChars cs = (ofChars inner).wrapped w := by
  rw [ofChars]
  split
  · next hfound =>
    rw [h] at hfound
    cases hfound
    rfl
  · next hnone =>
    rw [h] at hnone
    cases hnone

theorem ofChars_of_unwrap?_eq_none {cs : List Char} (h : unwrap? cs = none) :
    ofChars cs = { name := String.ofList (base cs) } := by
  rw [ofChars]
  split
  · next hfound =>
    rw [h] at hfound
    cases hfound
  · rfl

/-- A wrapped type without the blanks around it. -/
theorem unwrap?_of_wraps {w : Wrapper} {inner outer : List Char} (h : Wraps w inner outer) :
    unwrap? (trimChars outer) = some (w, trimChars inner) := by
  obtain ⟨before, word, left, right, after, hword, hbefore, hleft, hright, hafter⟩ := h
  obtain ⟨first, rest, hw, hfirst⟩ := w.word_eq_cons
  obtain ⟨c, word', rfl⟩ : ∃ c word', word = c :: word' := by
    cases word with
    | nil => rw [hw] at hword; cases hword
    | cons c word' => exact ⟨c, word', rfl⟩
  have hc : c.isAlpha := by
    rw [hw, List.map_cons] at hword
    rw [← Char.isAlpha_toLower_eq_isAlpha, (List.cons.inj hword).1]
    exact hfirst
  rw [unwrap?_eq_some_iff, strip?_eq_some_iff]
  refine ⟨c :: word', left ++ inner ++ right, ?_, hword,
    (Text.trimChars_append hleft hright inner).symm⟩
  have hends := Text.trimChars_of_ends (Text.isBlank_of_isAlpha hc)
    (by decide : isBlank ')' = false) (word' ++ '(' :: (left ++ inner ++ right))
  rw [Text.trimChars_append hbefore hafter]
  simpa using hends

/-- What is taken off is a wrapper. -/
theorem wraps_of_unwrap? {w : Wrapper} {cs inner : List Char}
    (h : unwrap? (trimChars cs) = some (w, inner)) :
    ∃ body, Wraps w body cs ∧ inner = trimChars body := by
  obtain ⟨word, body, htrim, hword, rfl⟩ := strip?_eq_some_iff.mp (unwrap?_eq_some_iff.mp h)
  obtain ⟨before, after, hbefore, hafter, hcs⟩ := Text.exists_trimChars cs
  refine ⟨body, ?_, rfl⟩
  rw [hcs, htrim]
  have hwraps : Wraps w body _ := .intro before word [] [] after hword hbefore
    Text.blank_nil Text.blank_nil hafter
  rwa [List.nil_append, List.append_nil] at hwraps

/-- A wrapped type is read as what is in the wrapper, with the flag of the wrapper. -/
theorem parse_of_wraps {w : Wrapper} {inner outer : String}
    (h : Wraps w inner.toList outer.toList) : parse outer = (parse inner).wrapped w :=
  ofChars_of_unwrap? (unwrap?_of_wraps h)

/-- A text that is not wrapped is read as a name. -/
theorem parse_of_bare (raw : String) (h : Bare raw.toList) :
    parse raw = { name := String.ofList (base (trimChars raw.toList)) } := by
  refine ofChars_of_unwrap?_eq_none ?_
  rw [Option.eq_none_iff_forall_ne_some]
  rintro ⟨w, inner⟩ hfound
  obtain ⟨body, hwraps, -⟩ := wraps_of_unwrap? hfound
  exact h w body hwraps

/-! ## All layers -/

/-- Blanks around a type make no difference to its name. -/
theorem base_trimChars (cs : List Char) : base (trimChars cs) = base cs := by
  obtain ⟨before, after, hbefore, hafter, hcs⟩ := Text.exists_trimChars cs
  have hopen : ∀ l : List Char, Blank l → ∀ c ∈ l, (c != '(') = true := by
    intro l hl c hc
    rw [bne_iff_ne]
    rintro rfl
    exact absurd (hl _ hc) (by decide)
  have htake : cs.takeWhile (· != '(')
      = before ++ (trimChars cs ++ after).takeWhile (· != '(') := by
    conv => lhs; rw [hcs, List.append_assoc]
    rw [List.takeWhile_append_of_pos (hopen before hbefore)]
  have htrim : trimChars ((trimChars cs ++ after).takeWhile (· != '('))
      = trimChars ((trimChars cs).takeWhile (· != '(')) := by
    rw [List.takeWhile_append]
    split
    · next hall =>
      rw [List.takeWhile_eq_self_iff.mpr (hopen after hafter),
        (List.takeWhile_sublist _).eq_of_length hall]
      have hend := Text.trimChars_append Text.blank_nil hafter (trimChars cs)
      rwa [List.nil_append] at hend
    · rfl
  have hfront := Text.trimChars_append hbefore Text.blank_nil
    ((trimChars cs ++ after).takeWhile (· != '('))
  rw [List.append_nil] at hfront
  rw [base, base, htake, hfront, htrim]

/-- The text has these wrappers around a core, the outermost first, and no more. -/
inductive Layers : List Wrapper → List Char → List Char → Prop
  | bare {cs : List Char} (h : Bare cs) : Layers [] cs cs
  | wrapped {w : Wrapper} {ws : List Wrapper} {core inner outer : List Char}
      (h : Wraps w inner outer) (hinner : Layers ws core inner) : Layers (w :: ws) core outer

/-- One of the wrappers around the type is this one. -/
def HasWrapper (w : Wrapper) (raw : String) : Prop :=
  ∃ ws core, Layers ws core raw.toList ∧ w ∈ ws

/-- A wrapper takes at least a word of five letters and two parentheses. -/
theorem length_of_wraps {w : Wrapper} {inner outer : List Char} (h : Wraps w inner outer) :
    inner.length + 7 ≤ outer.length := by
  obtain ⟨before, word, left, right, after, hword⟩ := h
  have hlength := congrArg List.length hword
  have hfive := w.length_word
  rw [List.length_map] at hlength
  simp only [List.length_append, List.length_cons, List.length_nil]
  omega

/-- Taking off wrappers comes to an end, after one step for each seven characters at most. -/
theorem exists_layers (cs : List Char) :
    ∃ ws core, Layers ws core cs ∧ 7 * ws.length + core.length ≤ cs.length := by
  induction hn : cs.length using Nat.strongRecOn generalizing cs with
  | ind n ih =>
    by_cases hbare : Bare cs
    · exact ⟨[], cs, .bare hbare, by rw [hn, List.length_nil]; omega⟩
    · obtain ⟨w, inner, hwraps⟩ : ∃ w inner, Wraps w inner cs := by
        simpa only [Wrapper.Bare, not_forall, not_not] using hbare
      have hlength := length_of_wraps hwraps
      obtain ⟨ws, core, hlayers, hcount⟩ := ih inner.length (by omega) inner rfl
      exact ⟨w :: ws, core, .wrapped hwraps hlayers, by rw [List.length_cons]; omega⟩

/-- The type is read as its core, with the flags of all its wrappers. -/
theorem ofChars_of_layers {ws : List Wrapper} {core cs : List Char} (h : Layers ws core cs) :
    ofChars (trimChars cs) =
      { name := String.ofList (base core)
        isNullable := decide (.nullable ∈ ws)
        isArray := decide (.array ∈ ws) } := by
  induction h with
  | @bare cs h =>
    have hread := parse_of_bare (String.ofList cs) (by rwa [String.toList_ofList])
    rw [parse, String.toList_ofList, base_trimChars] at hread
    rw [hread]
    rfl
  | @wrapped w ws core inner outer h _ ih =>
    rw [ofChars_of_unwrap? (unwrap?_of_wraps h), ih]
    cases w <;> simp [wrapped]

theorem parse_of_layers {ws : List Wrapper} {core : List Char} {raw : String}
    (h : Layers ws core raw.toList) :
    parse raw =
      { name := String.ofList (base core)
        isNullable := decide (.nullable ∈ ws)
        isArray := decide (.array ∈ ws) } :=
  ofChars_of_layers h

theorem flag_iff_hasWrapper (flag : ScalarName → Bool) {w : Wrapper}
    (hflag : ∀ ws core raw, Layers ws core raw.toList → flag (parse raw) = decide (w ∈ ws))
    {raw : String} : flag (parse raw) ↔ HasWrapper w raw := by
  constructor
  · intro h
    obtain ⟨ws, core, hlayers, -⟩ := exists_layers raw.toList
    rw [hflag ws core raw hlayers] at h
    exact ⟨ws, core, hlayers, of_decide_eq_true h⟩
  · rintro ⟨ws, core, hlayers, hmem⟩
    rw [hflag ws core raw hlayers]
    exact decide_eq_true hmem

/-- One flag says whether `Nullable` is among the wrappers. -/
theorem parse_isNullable_iff {raw : String} :
    (parse raw).isNullable ↔ HasWrapper .nullable raw :=
  flag_iff_hasWrapper isNullable fun _ _ _ h => by rw [parse_of_layers h]

/-- The other one says whether `Array` is. -/
theorem parse_isArray_iff {raw : String} : (parse raw).isArray ↔ HasWrapper .array raw :=
  flag_iff_hasWrapper isArray fun _ _ _ h => by rw [parse_of_layers h]

instance (raw : String) : Decidable (HasWrapper .nullable raw) :=
  decidable_of_iff _ parse_isNullable_iff

instance (raw : String) : Decidable (HasWrapper .array raw) :=
  decidable_of_iff _ parse_isArray_iff

end ScalarName

end SchemaTypes
