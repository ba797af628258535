import SchemaTypes.Proofs.OneLine

/-!
# What a text shows at its outermost level

A reader of generated code skips what is in parentheses, braces, angle brackets, quotes
and comments. `Place.next` follows such a reader through a text, one character at a time,
and `outer` is what is left: the characters outside all of these, and those that open and
close them.

A text is `Closed` when it closes all that it opens and nothing else. Then it can stand
anywhere without being read differently (`outer_append`), and shows nothing of itself
inside something else (`outer_group`).
-/

namespace SchemaTypes

namespace Text

/-! ## Reading -/

/-- What is being read. -/
inductive Mode
  | code
  /-- After a slash, which may open a comment. -/
  | slash
  | comment
  /-- After a star in a comment, which a slash would end. -/
  | star
  | quoted
  /-- After a backslash in quotes. -/
  | escaped
  deriving DecidableEq, Repr

/-- Where a reader is: how many brackets, quotes and comments are open, and what is being
read. -/
structure Place where
  depth : Nat
  mode : Mode
  deriving DecidableEq, Repr

/-- The brackets of which there can be any number inside each other. -/
def brackets : List (String × String) := [("(", ")"), (openBrace, closeBrace), ("<", ">")]

namespace Place

/-- The place after a character of code. -/
def nextInCode (p : Place) (c : Char) : Place :=
  if c = '"' then ⟨p.depth + 1, .quoted⟩
  else if c = '/' then ⟨p.depth, .slash⟩
  else if c ∈ ['(', '{', '<'] then ⟨p.depth + 1, .code⟩
  else if c ∈ [')', '}', '>'] then ⟨p.depth - 1, .code⟩
  else ⟨p.depth, .code⟩

/-- The place after a character. -/
def next (p : Place) (c : Char) : Place :=
  match p.mode with
  | .code => p.nextInCode c
  | .slash => if c = '*' then ⟨p.depth + 1, .comment⟩ else p.nextInCode c
  | .comment => ⟨p.depth, if c = '*' then .star else .comment⟩
  | .star =>
    if c = '/' then ⟨p.depth - 1, .code⟩ else ⟨p.depth, if c = '*' then .star else .comment⟩
  | .quoted =>
    if c = '"' then ⟨p.depth - 1, .code⟩
    else ⟨p.depth, if c = '\\' then .escaped else .quoted⟩
  | .escaped => ⟨p.depth, .quoted⟩

/-- The place after a text. -/
def after (p : Place) (cs : List Char) : Place := cs.foldl next p

@[simp] theorem after_nil (p : Place) : p.after [] = p := rfl

@[simp] theorem after_cons (p : Place) (c : Char) (cs : List Char) :
    p.after (c :: cs) = (p.next c).after cs := rfl

theorem after_append (p : Place) (cs ds : List Char) :
    p.after (cs ++ ds) = (p.after cs).after ds :=
  List.foldl_append

end Place

/-- The characters before or after which nothing is open. -/
def outermost (p : Place) : List Char → List Char
  | [] => []
  | c :: cs =>
    if p.depth = 0 ∨ (p.next c).depth = 0 then c :: outermost (p.next c) cs
    else outermost (p.next c) cs

theorem outermost_append (p : Place) (cs ds : List Char) :
    outermost p (cs ++ ds) = outermost p cs ++ outermost (p.after cs) ds := by
  induction cs generalizing p with
  | nil => rfl
  | cons c cs ih =>
    rw [List.cons_append, outermost, outermost, Place.after_cons, ih]
    split <;> rfl

/-- What the text shows at its outermost level. -/
def outer (t : String) : List Char := outermost ⟨0, .code⟩ t.toList

/-! ## Texts that close what they open -/

/-- A reader gets through the text without a change of depth, and with nothing to see of
it if something is open before. -/
structure Leads (m : Mode) (cs : List Char) (m' : Mode) : Prop where
  after : ∀ depth, Place.after ⟨depth, m⟩ cs = ⟨depth, m'⟩
  hidden : ∀ depth, outermost ⟨depth + 1, m⟩ cs = []

namespace Leads

variable {m m' m'' : Mode} {c : Char} {cs ds : List Char}

theorem nil : Leads m [] m := ⟨fun _ => rfl, fun _ => rfl⟩

theorem cons (hc : ∀ depth, Place.next ⟨depth, m⟩ c = ⟨depth, m'⟩) (hcs : Leads m' cs m'') :
    Leads m (c :: cs) m'' where
  after depth := by rw [Place.after_cons, hc, hcs.after]
  hidden depth := by
    rw [outermost, hc, if_neg (by simp), hcs.hidden]

theorem append (hcs : Leads m cs m') (hds : Leads m' ds m'') : Leads m (cs ++ ds) m'' where
  after depth := by rw [Place.after_append, hcs.after, hds.after]
  hidden depth := by rw [outermost_append, hcs.hidden, hcs.after, hds.hidden, List.append_nil]

theorem flatMap {α : Type} {f : α → List Char} {l : List α} (h : ∀ a ∈ l, Leads m (f a) m) :
    Leads m (l.flatMap f) m := by
  induction l with
  | nil => exact nil
  | cons a l ih =>
    obtain ⟨hhead, htail⟩ := List.forall_mem_cons.mp h
    exact hhead.append (ih htail)

section Group

variable {opening closing : Char} {inner inner' : Mode}

theorem outermost_group (hopening : ∀ depth, Place.next ⟨depth, m⟩ opening = ⟨depth + 1, inner⟩)
    (h : Leads inner cs inner')
    (hclosing : ∀ depth, Place.next ⟨depth + 1, inner'⟩ closing = ⟨depth, m'⟩) :
    outermost ⟨0, m⟩ (opening :: (cs ++ [closing])) = [opening, closing] := by
  rw [outermost, if_pos (.inl rfl), hopening, outermost_append, h.hidden, h.after, outermost,
    hclosing, if_pos (.inr rfl)]
  rfl

/-- A text between a character that opens something and one that closes it. -/
theorem group (hopening : ∀ depth, Place.next ⟨depth, m⟩ opening = ⟨depth + 1, inner⟩)
    (h : Leads inner cs inner')
    (hclosing : ∀ depth, Place.next ⟨depth + 1, inner'⟩ closing = ⟨depth, m'⟩) :
    Leads m (opening :: (cs ++ [closing])) m' where
  after depth := by
    rw [Place.after_cons, hopening, Place.after_append, h.after, Place.after_cons, hclosing,
      Place.after_nil]
  hidden depth := by
    rw [outermost, hopening, if_neg (by simp), outermost_append, h.hidden, h.after, outermost,
      hclosing, if_neg (by simp)]
    rfl

end Group

end Leads

/-- The text closes what it opens, and nothing else. -/
def Closed (t : String) : Prop := Leads .code t.toList .code

theorem Closed.append {s t : String} (hs : Closed s) (ht : Closed t) : Closed (s ++ t) := by
  rw [Closed, String.toList_append]
  exact Leads.append hs ht

/-- What stands behind a closed text is read as it would be on its own. -/
theorem outer_append {s : String} (hs : Closed s) (t : String) :
    outer (s ++ t) = outer s ++ outer t := by
  rw [outer, String.toList_append, outermost_append, hs.after]
  rfl

theorem Closed.intercalate {separator : String} {ts : List String} (hseparator : Closed separator)
    (h : ∀ t ∈ ts, Closed t) : Closed (separator.intercalate ts) :=
  intercalate_of_append Leads.nil (fun _ _ => Closed.append) hseparator h

theorem Closed.join {ts : List String} (h : ∀ t ∈ ts, Closed t) : Closed (String.join ts) := by
  rw [Closed, String.toList_join]
  exact .flatMap h

/-! ## Words -/

/-- The characters that open or close something. -/
def marks : List Char := ['"', '/', '(', ')', '{', '}', '<', '>']

/-- A text that opens and closes nothing. -/
def Unmarked (t : String) : Prop := ∀ c ∈ t.toList, c ∉ marks

instance (t : String) : Decidable (Unmarked t) :=
  List.decidableBAll (fun c => c ∉ marks) t.toList

theorem Place.next_of_not_mem_marks {c : Char} (hc : c ∉ marks) (depth : Nat) :
    Place.next ⟨depth, .code⟩ c = ⟨depth, .code⟩ := by
  simp only [marks, List.mem_cons, List.not_mem_nil, or_false, not_or] at hc
  simp [Place.next, Place.nextInCode, hc]

namespace Leads

theorem of_unmarked {cs : List Char} (h : ∀ c ∈ cs, c ∉ marks) : Leads .code cs .code := by
  induction cs with
  | nil => exact nil
  | cons c cs ih =>
    obtain ⟨hc, hcs⟩ := List.forall_mem_cons.mp h
    exact cons (Place.next_of_not_mem_marks hc) (ih hcs)

theorem outermost_of_unmarked {cs : List Char} (h : ∀ c ∈ cs, c ∉ marks) :
    outermost ⟨0, .code⟩ cs = cs := by
  induction cs with
  | nil => rfl
  | cons c cs ih =>
    obtain ⟨hc, hcs⟩ := List.forall_mem_cons.mp h
    rw [outermost, if_pos (.inl rfl), Place.next_of_not_mem_marks hc, ih hcs]

end Leads

theorem Unmarked.closed {t : String} (h : Unmarked t) : Closed t := Leads.of_unmarked h

theorem Unmarked.outer {t : String} (h : Unmarked t) : outer t = t.toList :=
  Leads.outermost_of_unmarked h

/-- A text without marks, bars and spaces, such as a name or a number. -/
def Word (t : String) : Prop := ∀ c ∈ t.toList, c ∉ '|' :: ' ' :: marks

instance (t : String) : Decidable (Word t) :=
  List.decidableBAll (fun c => c ∉ '|' :: ' ' :: marks) t.toList

theorem Word.unmarked {t : String} (h : Word t) : Unmarked t := fun c hc hmark =>
  h c hc (List.mem_cons_of_mem _ (List.mem_cons_of_mem _ hmark))

theorem Word.not_mem {t : String} (h : Word t) {c : Char} (hc : c ∈ ['|', ' ']) : c ∉ t.toList :=
  fun hmem => h c hmem (List.mem_append_left marks hc)

theorem word_of_forall {p : Char → Bool} {t : String} (h : ∀ c ∈ t.toList, p c)
    (hp : ('|' :: ' ' :: marks).all fun c => !p c) : Word t := by
  intro c hc hmark
  have hnot := List.all_eq_true.mp hp c hmark
  rw [h c hc] at hnot
  cases hnot

theorem word_of_isBareName {t : String} (h : isBareName t.toList) : Word t :=
  word_of_forall (continuesName_of_isBareName h) (by decide)

theorem word_of_isNumeral {cs : List Char} (h : ∀ c ∈ cs, Decimal.isNumeral c) :
    Word (String.ofList cs) := by
  refine word_of_forall (p := Decimal.isNumeral) ?_ (by decide)
  rw [String.toList_ofList]
  exact h

/-! ## Brackets, quotes and comments -/

section Brackets

variable {opening closing t : String}

theorem exists_of_mem_brackets (h : (opening, closing) ∈ brackets) :
    ∃ o c, opening.toList = [o] ∧ closing.toList = [c]
      ∧ (∀ depth, Place.next ⟨depth, .code⟩ o = ⟨depth + 1, .code⟩)
      ∧ ∀ depth, Place.next ⟨depth + 1, .code⟩ c = ⟨depth, .code⟩ := by
  simp only [brackets, List.mem_cons, Prod.mk.injEq, List.not_mem_nil, or_false] at h
  rcases h with ⟨rfl, rfl⟩ | ⟨rfl, rfl⟩ | ⟨rfl, rfl⟩
  all_goals exact ⟨_, _, rfl, rfl, fun _ => rfl, fun _ => rfl⟩

theorem Closed.group (h : Closed t) (hbrackets : (opening, closing) ∈ brackets) :
    Closed (opening ++ t ++ closing) := by
  obtain ⟨o, c, ho, hc, hopening, hclosing⟩ := exists_of_mem_brackets hbrackets
  rw [Closed, String.toList_append, String.toList_append, ho, hc]
  exact Leads.group hopening h hclosing

theorem outer_group (h : Closed t) (hbrackets : (opening, closing) ∈ brackets) :
    outer (opening ++ t ++ closing) = (opening ++ closing).toList := by
  obtain ⟨o, c, ho, hc, hopening, hclosing⟩ := exists_of_mem_brackets hbrackets
  rw [outer, String.toList_append, String.toList_append, String.toList_append, ho, hc]
  exact Leads.outermost_group hopening h hclosing

end Brackets

/-- What stands between the quotes of a string leads from one to the other. -/
theorem leads_of_standsFor {cs text : List Char} (h : Json.StandsFor cs text) :
    Leads .quoted cs .quoted := by
  have hunescaped : ∀ {c : Char}, Json.Unescaped c →
      ∀ depth, Place.next ⟨depth, .quoted⟩ c = ⟨depth, .quoted⟩ := by
    intro c hc depth
    simp [Place.next, hc.quote, hc.backslash]
  have hdigits : ∀ {ds cs : List Char} {n : Nat}, hexValues? ds = some n → Leads .quoted cs .quoted →
      Leads .quoted ('\\' :: 'u' :: (ds ++ cs)) .quoted := by
    intro ds cs n hn hcs
    have hleads : Leads .quoted ds .quoted := by
      rw [← List.flatMap_singleton' ds]
      exact .flatMap fun d hd => .cons (hunescaped (Json.unescaped_of_hexValues? hn d hd)) .nil
    exact .cons (fun _ => rfl) (.cons (fun _ => rfl) (hleads.append hcs))
  induction h with
  | nil => exact .nil
  | plain hc _ ih => exact .cons (hunescaped hc) ih
  | letter _ _ ih => exact .cons (fun _ => rfl) (.cons (fun _ => rfl) ih)
  | unit hn _ _ _ ih => exact hdigits hn ih
  | pair hhigh hlow _ _ _ ih => exact hdigits hhigh (hdigits hlow ih)

theorem leads_escape (cs : List Char) : Leads .quoted (escape cs) .quoted :=
  leads_of_standsFor (Json.standsFor_escape cs)

theorem closed_quoted (s : String) : Closed (quoted s) := by
  rw [Closed, toList_quoted]
  exact .group (fun _ => rfl) (leads_escape s.toList) fun _ => rfl

theorem outer_quoted (s : String) : outer (quoted s) = ['"', '"'] := by
  rw [outer, toList_quoted]
  exact Leads.outermost_group (fun _ => rfl) (leads_escape s.toList) fun _ => rfl

theorem Place.next_in_comment {m : Mode} {c : Char}
    (h : m = .comment ∨ m = .star ∧ c ≠ '/') (depth : Nat) :
    Place.next ⟨depth, m⟩ c = ⟨depth, if c = '*' then .star else .comment⟩ := by
  rcases h with rfl | ⟨rfl, hc⟩
  · rfl
  · exact if_neg hc

/-- A comment does not end within a text in which no star comes before a slash. -/
theorem exists_leads_defused (cs : List Char) :
    ∀ m, m = .comment ∨ m = .star ∧ cs.head? ≠ some '/' →
      ∃ m', (m' = .comment ∨ m' = .star) ∧ Leads m (Render.defused cs) m' := by
  induction cs using Render.defused.induct with
  | case1 cs ih =>
    intro m hm
    obtain ⟨m', hm', h⟩ := ih .comment (.inl rfl)
    refine ⟨m', hm', .cons (Place.next_in_comment ?_) (.cons (fun _ => rfl)
      (.cons (fun _ => rfl) h))⟩
    exact hm.imp_right fun h => ⟨h.1, by decide⟩
  | case2 c cs hterminator ih =>
    intro m hm
    obtain ⟨m', hm', h⟩ := ih (if c = '*' then .star else .comment) (by
      split
      · next hc =>
        refine .inr ⟨rfl, fun hhead => ?_⟩
        obtain ⟨rest, hrest⟩ := List.head?_eq_some_iff.mp hhead
        exact hterminator rest hc hrest
      · exact .inl rfl)
    rw [Render.defused.eq_2 c cs hterminator]
    refine ⟨m', hm', .cons (Place.next_in_comment ?_) h⟩
    exact hm.imp_right fun h => ⟨h.1, fun hc => h.2 (congrArg some hc)⟩
  | case3 =>
    intro m hm
    exact ⟨m, hm.imp_right (·.1), .nil⟩

theorem closed_comment (s : String) : Closed (Render.comment s) := by
  obtain ⟨m, hm, hdefused⟩ := exists_leads_defused s.toList .comment (.inl rfl)
  have hend : Leads m [' ', '*'] .star :=
    .cons (Place.next_in_comment (hm.imp_right fun h => ⟨h, by decide⟩)) (.cons (fun _ => rfl) .nil)
  have hinner : Leads .comment ('*' :: ' ' :: (Render.defused s.toList ++ [' ', '*'])) .star :=
    .cons (fun _ => rfl) (.cons (fun _ => rfl) (hdefused.append hend))
  have hgroup : Leads .slash
      ('*' :: (('*' :: ' ' :: (Render.defused s.toList ++ [' ', '*'])) ++ ['/'])) .code :=
    .group (fun _ => rfl) hinner fun _ => rfl
  have hchars : (Render.comment s).toList
      = '/' :: '*' :: (('*' :: ' ' :: (Render.defused s.toList ++ [' ', '*'])) ++ ['/']) := by
    simp [Render.comment]
  rw [Closed, hchars]
  exact .cons (fun _ => rfl) hgroup

example : outer "( /** | */ \"|\" ) | A<B | C>[]" = "() | A<>[]".toList := by decide

end Text

/-! ## Parts of static types -/

namespace Render

open Text

theorem closed_indent (depth : Nat) : Closed (indent depth) := by
  refine Unmarked.closed fun c hc => ?_
  rw [indent, String.toList_ofList] at hc
  rw [List.eq_of_mem_replicate hc]
  decide

theorem closed_keyText (key : String) : Closed (keyText key) := by
  unfold keyText
  split
  · next hbare => exact (word_of_isBareName hbare).unmarked.closed
  · exact closed_quoted key

theorem closed_commentLine (depth : Nat) (p : Property) : Closed (commentLine depth p) := by
  unfold commentLine
  split
  · exact Leads.nil
  · next d _ =>
    exact ((closed_indent depth).append (closed_comment d)).append (Unmarked.closed (by decide))

end Render

end SchemaTypes
