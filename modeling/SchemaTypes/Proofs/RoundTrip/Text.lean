import SchemaTypes.Json.Source
import SchemaTypes.Proofs.RoundTrip.Tokens

/-!
# Values found in their text

The text of a JSON value has the tree of that value (`Json.outline`), with nothing cut
off and nothing malformed. The tree is found with a count of steps, so the lemmas say of
a value that a count of twice its characters is enough (`Found`), and of the items of
an array and the members of an object that it is when it is for each of them.

> `Plain.ofText_text`: in the text of a value without doubles one finds the tree of the
> value, and the end of the text behind it.
-/

namespace SchemaTypes.Json

open Outline (itemsFrom membersFrom)

/-- All numbers in the value are integers that fit into 64 bits. -/
inductive Plain : Json → Prop
  | scalar {s : Scalar} (h : s.Plain) : Plain (.scalar s)
  | string (s : String) : Plain (.string s)
  | array {items : List Json} (h : ∀ item ∈ items, Plain item) : Plain (.array items)
  | object {members : List (String × Json)} (h : ∀ m ∈ members, Plain m.2) :
      Plain (.object members)

@[simp] theorem plain_string (s : String) : (Json.string s).Plain := .string s

@[simp] theorem plain_array {items : List Json} :
    (Json.array items).Plain ↔ ∀ item ∈ items, item.Plain :=
  ⟨fun h => by cases h; assumption, .array⟩

@[simp] theorem plain_object {members : List (String × Json)} :
    (Json.object members).Plain ↔ ∀ m ∈ members, m.2.Plain :=
  ⟨fun h => by cases h; assumption, .object⟩

mutual

/-- The tree that the text of a value has. -/
def outline : Json → Outline
  | .scalar s => .scalar (.ok s)
  | .string s => .string (.ok s)
  | .array items => .array (outlineItems items) .closed
  | .object members => .object (outlineMembers members) .closed

/-- The trees of the items. -/
def outlineItems : List Json → List Outline
  | [] => []
  | item :: rest => item.outline :: outlineItems rest

/-- The names and trees of the members. -/
def outlineMembers : List (String × Json) → List (Key × Outline)
  | [] => []
  | member :: rest => outlineMember member :: outlineMembers rest

/-- The name and the tree of a member. -/
def outlineMember : String × Json → Key × Outline
  | (name, value) => (.quoted (.ok name), value.outline)

end

theorem outlineItems_eq_map (items : List Json) : outlineItems items = items.map outline := by
  induction items with
  | nil => rfl
  | cons item rest ih => rw [outlineItems, ih, List.map_cons]

theorem outlineMembers_eq_map (members : List (String × Json)) :
    outlineMembers members = members.map fun m => (.quoted (.ok m.1), m.2.outline) := by
  induction members with
  | nil => rfl
  | cons member rest ih =>
    obtain ⟨name, value⟩ := member
    rw [outlineMembers, ih, List.map_cons, outlineMember]

/-! ## Between the tokens -/

theorem skipSpace_cons_of_neg {c : Char} (h : isSpace c = false) (cs : List Char) :
    skipSpace (c :: cs) = c :: cs :=
  List.dropWhile_cons_of_neg (by simp [h])

theorem endsNumber_nil : EndsNumber [] := by
  intro c cs h
  cases h

/-- A comma or a closing bracket ends a number. -/
theorem endsNumber_cons {c : Char} (h : c ∈ [',', ']', '}']) (cs : List Char) :
    EndsNumber (c :: cs) := by
  intro d ds hcons
  obtain ⟨rfl, -⟩ := List.cons.inj hcons
  simp only [List.mem_cons, List.not_mem_nil, or_false] at h
  rcases h with rfl | rfl | rfl <;> exact ⟨rfl, by decide, by decide, by decide⟩

/-- A value does not start with a space or a closing bracket. -/
theorem Plain.chars_eq_cons {j : Json} (h : j.Plain) :
    ∃ c cs, j.chars = c :: cs ∧ isSpace c = false ∧ c ≠ ']' := by
  cases h with
  | scalar h =>
    obtain ⟨c, cs, hchars, hopens, -⟩ := scalarToken_chars h endsNumber_nil
    exact ⟨c, cs, hchars, hopens.space, hopens.closing⟩
  | string s => exact ⟨_, _, rfl, rfl, by decide⟩
  | array h => exact ⟨_, _, rfl, rfl, by decide⟩
  | object h => exact ⟨_, _, rfl, rfl, by decide⟩

/-! ## Values -/

/-- Whatever ends a number behind it, a count of twice its characters finds the value. -/
def Found (j : Json) : Prop :=
  ∀ (fuel : Nat) (rest : List Char), EndsNumber rest → 2 * j.chars.length ≤ fuel →
    Outline.value fuel (j.chars ++ rest) = (j.outline, some rest)

theorem found_scalar {s : Scalar} (h : s.Plain) : Found (.scalar s) := by
  intro fuel rest hrest hfuel
  obtain ⟨c, cs, hchars, hopens, htoken⟩ := scalarToken_chars h hrest
  have hj : (Json.scalar s).chars = c :: cs := hchars
  obtain ⟨fuel, rfl⟩ : ∃ n, fuel = n + 1 := ⟨fuel - 1, by rw [hj, List.length_cons] at hfuel; omega⟩
  rw [hj, List.cons_append, Outline.value, skipSpace_cons_of_neg hopens.space]
  simp only [hopens.quote, hopens.bracket, hopens.brace, if_false, htoken]
  rfl

theorem found_string (s : String) : Found (.string s) := by
  intro fuel rest _ hfuel
  have hj : (Json.string s).chars = '"' :: (Text.escape s.toList ++ ['"']) := rfl
  obtain ⟨fuel, rfl⟩ : ∃ n, fuel = n + 1 := ⟨fuel - 1, by rw [hj, List.length_cons] at hfuel; omega⟩
  rw [hj, List.cons_append, List.append_assoc, Outline.value, skipSpace_cons_of_neg rfl]
  simp only [if_true, List.singleton_append, stringToken_escape]
  rfl

theorem itemsFrom_last {fuel : Nat} {cs rest : List Char} {item : Outline}
    (h : Outline.value fuel cs = (item, some (']' :: rest))) :
    itemsFrom (fuel + 1) cs = (([item], .closed), some rest) := by
  rw [itemsFrom, h]
  rfl

theorem itemsFrom_comma {fuel : Nat} {cs rest : List Char} {item : Outline}
    (h : Outline.value fuel cs = (item, some (',' :: rest))) {items : List Outline}
    {ending : Ending} {behind : Option (List Char)}
    (hrest : itemsFrom fuel rest = ((items, ending), behind)) :
    itemsFrom (fuel + 1) cs = ((item :: items, ending), behind) := by
  rw [itemsFrom, h]
  simp only [skipSpace_cons_of_neg (c := ',') rfl, hrest]

/-- The items of an array are found if each of them is. -/
theorem itemsFrom_itemChars {items : List Json} (hitems : ∀ item ∈ items, Found item)
    (hne : items ≠ []) (fuel : Nat) (rest : List Char)
    (hfuel : 2 * (itemChars items).length + 1 ≤ fuel) :
    itemsFrom fuel (itemChars items ++ ']' :: rest)
      = ((outlineItems items, .closed), some rest) := by
  induction items generalizing fuel with
  | nil => exact absurd rfl hne
  | cons item tail ih =>
    obtain ⟨fuel, rfl⟩ : ∃ n, fuel = n + 1 := ⟨fuel - 1, by omega⟩
    have hitem := hitems item List.mem_cons_self
    rw [itemChars, List.length_append] at hfuel
    cases tail with
    | nil =>
      have hvalue := hitem fuel (']' :: rest) (endsNumber_cons (by decide) _) (by omega)
      rw [itemChars, itemTailChars, List.append_nil]
      exact itemsFrom_last hvalue
    | cons next tail =>
      -- the comma before the next item is what pays for the step to it
      have hcomma : itemTailChars (next :: tail) = ',' :: itemChars (next :: tail) := rfl
      rw [hcomma, List.length_cons] at hfuel
      have hvalue := hitem fuel (',' :: (itemChars (next :: tail) ++ ']' :: rest))
        (endsNumber_cons (by decide) _) (by omega)
      have hrest := ih (fun i hi => hitems i (List.mem_cons_of_mem _ hi)) (List.cons_ne_nil _ _)
        fuel (by omega)
      rw [itemChars, hcomma, List.append_assoc]
      exact itemsFrom_comma hvalue hrest

/-! ## Members -/

theorem oneMemberChars_append (name : String) (value : Json) (cs : List Char) :
    oneMemberChars (name, value) ++ cs
      = '"' :: (Text.escape name.toList ++ '"' :: ':' :: (value.chars ++ cs)) := by
  simp [oneMemberChars, Text.quotedChars]

theorem length_oneMemberChars (name : String) (value : Json) :
    value.chars.length + 3 ≤ (oneMemberChars (name, value)).length := by
  have h := congrArg List.length (oneMemberChars_append name value [])
  simp only [List.append_nil, List.length_cons, List.length_append] at h
  omega

theorem membersFrom_last {fuel : Nat} {name : String} {cs rest : List Char} {item : Outline}
    (h : Outline.value fuel cs = (item, some ('}' :: rest))) :
    membersFrom (fuel + 1) ('"' :: (Text.escape name.toList ++ '"' :: ':' :: cs))
      = (([(.quoted (.ok name), item)], .closed), some rest) := by
  rw [membersFrom, skipSpace_cons_of_neg rfl]
  simp only [stringToken_escape, skipSpace_cons_of_neg (c := ':') rfl, h]
  rfl

theorem membersFrom_comma {fuel : Nat} {name : String} {cs rest : List Char} {item : Outline}
    (h : Outline.value fuel cs = (item, some (',' :: rest))) {members : List (Key × Outline)}
    {ending : Ending} {behind : Option (List Char)}
    (hrest : membersFrom fuel rest = ((members, ending), behind)) :
    membersFrom (fuel + 1) ('"' :: (Text.escape name.toList ++ '"' :: ':' :: cs))
      = (((.quoted (.ok name), item) :: members, ending), behind) := by
  rw [membersFrom, skipSpace_cons_of_neg rfl]
  simp only [stringToken_escape, skipSpace_cons_of_neg (c := ':') rfl, h,
    skipSpace_cons_of_neg (c := ',') rfl, hrest]
  rfl

/-- The members of an object are found if the value of each of them is. -/
theorem membersFrom_memberChars {members : List (String × Json)}
    (hmembers : ∀ m ∈ members, Found m.2) (hne : members ≠ []) (fuel : Nat) (rest : List Char)
    (hfuel : 2 * (memberChars members).length + 1 ≤ fuel) :
    membersFrom fuel (memberChars members ++ '}' :: rest)
      = ((outlineMembers members, .closed), some rest) := by
  induction members generalizing fuel with
  | nil => exact absurd rfl hne
  | cons member tail ih =>
    obtain ⟨name, value⟩ := member
    obtain ⟨fuel, rfl⟩ : ∃ n, fuel = n + 1 := ⟨fuel - 1, by omega⟩
    have hitem : Found value := hmembers (name, value) List.mem_cons_self
    have hlength := length_oneMemberChars name value
    rw [memberChars, List.length_append] at hfuel
    cases tail with
    | nil =>
      have hvalue := hitem fuel ('}' :: rest) (endsNumber_cons (by decide) _) (by omega)
      rw [memberChars, memberTailChars, List.append_nil, oneMemberChars_append]
      exact membersFrom_last hvalue
    | cons next tail =>
      have hcomma : memberTailChars (next :: tail) = ',' :: memberChars (next :: tail) := rfl
      rw [hcomma, List.length_cons] at hfuel
      have hvalue := hitem fuel (',' :: (memberChars (next :: tail) ++ '}' :: rest))
        (endsNumber_cons (by decide) _) (by omega)
      have hrest := ih (fun m hm => hmembers m (List.mem_cons_of_mem _ hm)) (List.cons_ne_nil _ _)
        fuel (by omega)
      rw [memberChars, hcomma, List.append_assoc, oneMemberChars_append]
      exact membersFrom_comma hvalue hrest

/-! ## Arrays, objects and texts -/

theorem value_array {fuel : Nat} {c : Char} {cs : List Char} (hspace : isSpace c = false)
    (hclosing : c ≠ ']') {items : List Outline} {ending : Ending} {behind : Option (List Char)}
    (h : itemsFrom fuel (c :: cs) = ((items, ending), behind)) :
    Outline.value (fuel + 1) ('[' :: c :: cs) = (.array items ending, behind) := by
  rw [Outline.value, skipSpace_cons_of_neg rfl]
  simp only [skipSpace_cons_of_neg hspace, h]
  rw [if_neg (by decide), if_pos trivial]
  split
  · next h => cases h
  · next h => exact absurd (List.cons.inj h).1 hclosing
  · rfl

theorem value_object {fuel : Nat} {cs : List Char} {members : List (Key × Outline)}
    {ending : Ending} {behind : Option (List Char)}
    (h : membersFrom fuel ('"' :: cs) = ((members, ending), behind)) :
    Outline.value (fuel + 1) ('{' :: '"' :: cs) = (.object members ending, behind) := by
  rw [Outline.value, skipSpace_cons_of_neg rfl]
  simp only [skipSpace_cons_of_neg (c := '"') rfl, h]
  rfl

theorem found_array {items : List Json} (hplain : ∀ item ∈ items, Plain item)
    (hitems : ∀ item ∈ items, Found item) : Found (.array items) := by
  intro fuel rest _ hfuel
  have hj : (Json.array items).chars = '[' :: (itemChars items ++ [']']) := rfl
  rw [hj, List.length_cons, List.length_append, List.length_singleton] at hfuel
  obtain ⟨fuel, rfl⟩ : ∃ n, fuel = n + 1 := ⟨fuel - 1, by omega⟩
  rw [hj, List.cons_append, List.append_assoc, List.singleton_append]
  cases items with
  | nil => rfl
  | cons item tail =>
    have hfound := itemsFrom_itemChars hitems (List.cons_ne_nil _ _) fuel rest (by omega)
    obtain ⟨c, cs, hchars, hspace, hclosing⟩ := (hplain item List.mem_cons_self).chars_eq_cons
    rw [itemChars, hchars] at hfound ⊢
    exact value_array hspace hclosing hfound

theorem found_object {members : List (String × Json)} (hmembers : ∀ m ∈ members, Found m.2) :
    Found (.object members) := by
  intro fuel rest _ hfuel
  have hj : (Json.object members).chars = '{' :: (memberChars members ++ ['}']) := rfl
  rw [hj, List.length_cons, List.length_append, List.length_singleton] at hfuel
  obtain ⟨fuel, rfl⟩ : ∃ n, fuel = n + 1 := ⟨fuel - 1, by omega⟩
  rw [hj, List.cons_append, List.append_assoc, List.singleton_append]
  cases members with
  | nil => rfl
  | cons member tail =>
    have hfound := membersFrom_memberChars hmembers (List.cons_ne_nil _ _) fuel rest (by omega)
    obtain ⟨name, value⟩ := member
    rw [memberChars, List.append_assoc, oneMemberChars_append] at hfound ⊢
    exact value_object hfound

/-- The text of a value has the tree of the value. -/
theorem Plain.found {j : Json} (h : j.Plain) : Found j := by
  induction h with
  | scalar h => exact found_scalar h
  | string s => exact found_string s
  | array h ih => exact found_array h ih
  | object h ih => exact found_object ih

theorem Plain.ofText_text {j : Json} (h : j.Plain) :
    Outline.ofText j.text = (j.outline, some []) := by
  have hlength : j.text.length = j.chars.length := String.length_ofList
  have hfound := h.found (2 * j.chars.length + 2) [] endsNumber_nil (by omega)
  rw [List.append_nil] at hfound
  rw [Outline.ofText, hlength, text, String.toList_ofList, hfound]

/-- A reader that reads a value from its tree reads it from its text. -/
theorem read_text {α : Type} {reader : Reader Outline α} {j : Json} {a : α} (hplain : j.Plain)
    (h : reader j.outline = .ok a) : read reader j.text = .ok a := by
  unfold read
  rw [hplain.ofText_text]
  show (reader j.outline >>= fun value => .ok value) = .ok a
  rw [h]
  rfl

end SchemaTypes.Json
