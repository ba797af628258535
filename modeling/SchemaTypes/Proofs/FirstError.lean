import SchemaTypes.Proofs.Lists
import SchemaTypes.Render.Error

/-!
# The first error

A rendered text is put together from other rendered texts, and fails when one of them
does. The laws here say which error comes out, for the few ways in which texts are put
together: one value used in another (`bind_eq_error_iff`), a value placed in a property
(`inProperty_eq_error_iff`), and a list of values:

> `collect_eq_error_iff`: the error is that of a value before which every value was
> rendered.

So the outcome depends on the values only through which of them fail, and how
(`collect_map_eq_error_congr`). Without an error, every value is used as it is
(`bind_return_eq_ok_iff`, `collect_map_of_ok`).
-/

namespace SchemaTypes

namespace Rendered

variable {α β : Type}

theorem bind_eq_error_iff {x : Rendered α} {f : α → Rendered β} {e : RenderError} :
    (x >>= f) = .error e ↔ x = .error e ∨ ∃ a, x = .ok a ∧ f a = .error e := by
  cases x with
  | error e' =>
    constructor
    · intro h
      cases h
      exact .inl rfl
    · intro h
      rcases h with h | ⟨a, h, _⟩
      · cases h
        rfl
      · cases h
  | ok a =>
    constructor
    · intro h
      exact .inr ⟨a, rfl, h⟩
    · intro h
      rcases h with h | ⟨b, hb, h⟩
      · cases h
      · cases hb
        exact h

theorem bind_return_eq_error_iff {x : Rendered α} {f : α → β} {e : RenderError} :
    (x >>= fun a => (return f a : Rendered β)) = .error e ↔ x = .error e := by
  rw [bind_eq_error_iff]
  constructor
  · intro h
    rcases h with h | ⟨a, _, h⟩
    · exact h
    · cases h
  · intro h
    exact .inl h

theorem inProperty_eq_error_iff {key : String} {x : Rendered α} {e : RenderError} :
    inProperty key x = .error e ↔ ∃ source, x = .error source ∧ e = .property key source := by
  cases x with
  | error source =>
    constructor
    · intro h
      exact ⟨source, rfl, (Except.error.inj h).symm⟩
    · intro h
      obtain ⟨_, hsource, rfl⟩ := h
      rw [← Except.error.inj hsource]
      rfl
  | ok a =>
    constructor
    · intro h
      cases h
    · intro h
      obtain ⟨_, hsource, _⟩ := h
      cases hsource

theorem inDeclaration_eq_error_iff {name : String} {x : Rendered α} {e : RenderError} :
    inDeclaration name x = .error e ↔
      ∃ source, x = .error source ∧ e = .declaration name source := by
  cases x with
  | error source =>
    constructor
    · intro h
      exact ⟨source, rfl, (Except.error.inj h).symm⟩
    · intro h
      obtain ⟨_, hsource, rfl⟩ := h
      rw [← Except.error.inj hsource]
      rfl
  | ok a =>
    constructor
    · intro h
      cases h
    · intro h
      obtain ⟨_, hsource, _⟩ := h
      cases hsource

/-- The error is the first one: everything before it was rendered. -/
theorem collect_eq_error_iff {rs : List (Rendered α)} {e : RenderError} :
    collect rs = .error e ↔
      ∃ before after, rs = before ++ .error e :: after ∧ ∀ r ∈ before, ∃ a, r = .ok a := by
  induction rs with
  | nil =>
    constructor
    · intro h
      cases h
    · intro h
      obtain ⟨before, after, h, _⟩ := h
      cases before <;> cases h
  | cons r rs ih =>
    rw [collect, bind_eq_error_iff]
    simp only [bind_return_eq_error_iff]
    constructor
    · intro h
      rcases h with rfl | ⟨a, rfl, h⟩
      · exact ⟨[], rs, rfl, by simp⟩
      · obtain ⟨before, after, rfl, hbefore⟩ := ih.mp h
        exact ⟨.ok a :: before, after, rfl, List.forall_mem_cons.mpr ⟨⟨a, rfl⟩, hbefore⟩⟩
    · intro h
      obtain ⟨before, after, h, hbefore⟩ := h
      cases before with
      | nil => exact .inl (List.cons.inj h).1
      | cons r' before =>
        obtain ⟨rfl, rfl⟩ := List.cons.inj h
        obtain ⟨⟨a, rfl⟩, hrest⟩ := List.forall_mem_cons.mp hbefore
        exact .inr ⟨a, rfl, ih.mpr ⟨before, after, rfl, hrest⟩⟩

theorem collect_singleton_eq_error_iff {x : Rendered α} {e : RenderError} :
    collect [x] = .error e ↔ x = .error e := by
  rw [collect, collect]
  exact bind_return_eq_error_iff

theorem collect_three_eq_error_iff {x y z : Rendered α} {f : α → α → α → β} {e : RenderError} :
    (do
      let a ← x
      let b ← y
      let c ← z
      return f a b c : Rendered β) = .error e ↔ collect [x, y, z] = .error e := by
  rw [collect, collect]
  simp only [bind_eq_error_iff (x := x), bind_eq_error_iff (x := y), bind_return_eq_error_iff,
    collect_singleton_eq_error_iff]

/-- Values that fail alike fail alike in sequence. -/
theorem collect_map_eq_error_congr {ι : Type} {f : ι → Rendered α} {g : ι → Rendered β}
    {l : List ι} (h : ∀ i ∈ l, ∀ e, f i = .error e ↔ g i = .error e) (e : RenderError) :
    collect (l.map f) = .error e ↔ collect (l.map g) = .error e := by
  induction l with
  | nil => exact ⟨fun h => (by cases h), fun h => (by cases h)⟩
  | cons i l ih =>
    obtain ⟨hhead, htail⟩ := List.forall_mem_cons.mp h
    -- failing alike, the first two values are also rendered alike
    have hok : (∃ a, f i = .ok a) ↔ ∃ b, g i = .ok b := by
      cases hf : f i with
      | error e' => simp [(hhead e').mp hf]
      | ok a =>
        cases hg : g i with
        | error e' => exact absurd ((hhead e').mpr hg) (by simp [hf])
        | ok b => simp
    simp only [List.map_cons, collect, bind_eq_error_iff (x := f i), bind_eq_error_iff (x := g i),
      bind_return_eq_error_iff, hhead e, ih htail]
    rw [exists_and_right, exists_and_right, hok]

theorem exists_of_collect_eq_error {f : α → Rendered β} {l : List α} {e : RenderError}
    (h : collect (l.map f) = .error e) : ∃ a ∈ l, f a = .error e := by
  obtain ⟨before, after, hsplit, _⟩ := collect_eq_error_iff.mp h
  have hmem : .error e ∈ l.map f := by
    rw [hsplit]
    exact List.mem_append_right before List.mem_cons_self
  exact List.mem_map.mp hmem

theorem collect_eq_error_of_mem {f : α → Rendered β} {l : List α} {a : α} (ha : a ∈ l)
    (h : ∃ e, f a = .error e) : ∃ e, collect (l.map f) = .error e := by
  induction l with
  | nil => cases ha
  | cons b l ih =>
    rw [List.map_cons, collect]
    simp only [bind_eq_error_iff (x := f b), bind_return_eq_error_iff]
    cases hb : f b with
    | error e => exact ⟨e, .inl rfl⟩
    | ok value =>
      -- `a` fails, so it is not the first
      have htail : a ∈ l := by
        rcases List.mem_cons.mp ha with rfl | ha
        · obtain ⟨e, h⟩ := h
          rw [hb] at h
          cases h
        · exact ha
      obtain ⟨e, he⟩ := ih htail
      exact ⟨e, .inr ⟨value, rfl, he⟩⟩

/-! ## No error -/

theorem bind_return_eq_ok_iff {x : Rendered α} {f : α → β} {b : β} :
    (x >>= fun a => (return f a : Rendered β)) = .ok b ↔ ∃ a, x = .ok a ∧ b = f a := by
  rw [bind_eq_ok_iff]
  constructor
  · intro h
    obtain ⟨a, ha, h⟩ := h
    exact ⟨a, ha, (Except.ok.inj h).symm⟩
  · intro h
    obtain ⟨a, ha, rfl⟩ := h
    exact ⟨a, ha, rfl⟩

theorem inProperty_eq_ok_iff {key : String} {x : Rendered α} {a : α} :
    inProperty key x = .ok a ↔ x = .ok a := by
  cases x with
  | error e => exact ⟨fun h => (by cases h), fun h => (by cases h)⟩
  | ok a' => exact Iff.rfl

theorem inDeclaration_eq_ok_iff {name : String} {x : Rendered α} {a : α} :
    inDeclaration name x = .ok a ↔ x = .ok a := by
  cases x with
  | error e => exact ⟨fun h => (by cases h), fun h => (by cases h)⟩
  | ok a' => exact Iff.rfl

/-- Without an error, the values are those that were rendered, one by one. -/
theorem collect_map_eq_ok_iff {f : α → Rendered β} {l : List α} {bs : List β} :
    collect (l.map f) = .ok bs ↔ List.Forall₂ (fun a b => f a = .ok b) l bs := by
  induction l generalizing bs with
  | nil =>
    rw [List.forall₂_nil_left_iff]
    exact ⟨fun h => (Except.ok.inj h).symm, fun h => congrArg Except.ok h.symm⟩
  | cons a l ih =>
    rw [List.map_cons, collect, bind_eq_ok_iff, List.forall₂_cons_left_iff]
    simp only [bind_return_eq_ok_iff, ih]
    constructor
    · intro h
      obtain ⟨b, hb, bs', hbs, rfl⟩ := h
      exact ⟨b, bs', hb, hbs, rfl⟩
    · intro h
      obtain ⟨b, bs', hb, hbs, rfl⟩ := h
      exact ⟨b, hb, bs', hbs, rfl⟩

theorem collect_map_of_ok {f : α → Rendered β} {g : α → β} {l : List α}
    (h : ∀ a ∈ l, f a = .ok (g a)) : collect (l.map f) = .ok (l.map g) :=
  collect_map_eq_ok_iff.mpr (List.forall₂_map_right_iff.mpr (List.forall₂_same.mpr h))

theorem exists_of_collect_eq_ok {f : α → Rendered β} {l : List α} {bs : List β}
    (h : collect (l.map f) = .ok bs) : ∀ a ∈ l, ∃ b ∈ bs, f a = .ok b :=
  fun _ ha => exists_mem_of_forall₂ (collect_map_eq_ok_iff.mp h) ha

/-- Each of the texts is that of one of the values. -/
theorem exists_of_mem_collected {f : α → Rendered β} {l : List α} {bs : List β}
    (h : collect (l.map f) = .ok bs) : ∀ b ∈ bs, ∃ a ∈ l, f a = .ok b :=
  fun _ hb => exists_mem_of_forall₂ (collect_map_eq_ok_iff.mp h).flip hb

/-- Without an error, the values are what a function makes of the elements. -/
theorem exists_map_of_collect_eq_ok [Inhabited β] {f : α → Rendered β} {l : List α} {bs : List β}
    (h : collect (l.map f) = .ok bs) : ∃ g : α → β, bs = l.map g ∧ ∀ a ∈ l, f a = .ok (g a) := by
  have heach : ∀ a ∈ l, f a = .ok ((f a).toOption.getD default) := fun a ha => by
    obtain ⟨b, _, hb⟩ := exists_of_collect_eq_ok h a ha
    rw [hb]
    rfl
  rw [collect_map_of_ok heach] at h
  exact ⟨_, (Except.ok.inj h).symm, heach⟩

/-! ## Values that are put to use -/

theorem bind_return_eq_map (x : Rendered α) (f : α → β) :
    (do
      let a ← x
      return f a : Rendered β) = x.map f := by
  cases x <;> rfl

theorem map_eq_error_iff {x : Rendered α} {f : α → β} {e : RenderError} :
    x.map f = .error e ↔ x = .error e := by
  rw [← bind_return_eq_map]
  exact bind_return_eq_error_iff

theorem map_eq_ok_iff {x : Rendered α} {f : α → β} {b : β} :
    x.map f = .ok b ↔ ∃ a, x = .ok a ∧ b = f a := by
  rw [← bind_return_eq_map]
  exact bind_return_eq_ok_iff

theorem map_map {γ : Type} (x : Rendered α) (f : α → β) (g : β → γ) :
    (x.map f).map g = x.map fun a => g (f a) := by
  cases x <;> rfl

theorem inProperty_map (f : α → β) (key : String) (x : Rendered α) :
    inProperty key (x.map f) = (inProperty key x).map f := by
  cases x <;> rfl

theorem inDeclaration_map (f : α → β) (name : String) (x : Rendered α) :
    inDeclaration name (x.map f) = (inDeclaration name x).map f := by
  cases x <;> rfl

/-- Values that are each put to a use of their own may be collected first. -/
theorem collect_map_zip {ι : Type} (f : ι → α → β) (r : ι → Rendered α) (l : List ι) :
    collect (l.map fun i => (r i).map (f i))
      = (collect (l.map r)).map fun as => (l.zip as).map fun p => f p.1 p.2 := by
  induction l with
  | nil => rfl
  | cons i l ih =>
    rw [List.map_cons, List.map_cons, collect, collect, ih]
    cases r i with
    | error e => rfl
    | ok a => cases collect (l.map r) <;> rfl

theorem collect_map_map {ι : Type} (f : α → β) (r : ι → Rendered α) (l : List ι) :
    collect (l.map fun i => (r i).map f) = (collect (l.map r)).map (List.map f) := by
  induction l with
  | nil => rfl
  | cons i l ih =>
    rw [List.map_cons, List.map_cons, collect, collect, ih]
    cases r i with
    | error e => rfl
    | ok a => cases collect (l.map r) <;> rfl

end Rendered

end SchemaTypes
