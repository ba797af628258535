import Mathlib.Data.List.SplitBy
import SchemaTypes.Proofs.EmptyLines
import SchemaTypes.Proofs.WellFormed

/-!
# The paragraphs of a module

The statements of a module are set off from each other by empty lines, except for imports
that follow each other (`runs`). No statement has an empty line of its own unless a name
or a description brings one, so a module can be cut back into its statements:

> `Module.divided`: cut at its empty lines, a module has one paragraph for each export
> and one for each run of imports, in their order; so it is for the static types and the
> validators when they are modules of their own.
-/

namespace SchemaTypes

open Text Rendered

/-- Whether the statement exports an interface. -/
def Statement.isInterface : Statement → Bool
  | .exports (.interface _ _) => true
  | _ => false

theorem Statement.isImport_of_isInterface {s : Statement} (h : s.isInterface = true) :
    s.isImport = false := by
  cases s with
  | imports i => cases h
  | exports d => rfl

/-- Interfaces have validators, and nothing else has one. -/
theorem Validator.ne_empty_iff {s : Statement} {t : String} (h : statementText s = .ok t) :
    t ≠ "" ↔ s.isInterface = true := by
  rcases s with i | (⟨name, body⟩ | ⟨name, ps⟩)
  · rw [← Except.ok.inj h]
    exact ⟨fun h => absurd rfl h, fun h => (by cases h)⟩
  · rw [← Except.ok.inj h]
    exact ⟨fun h => absurd rfl h, fun h => (by cases h)⟩
  · exact ⟨fun _ => rfl, fun _ => ne_empty_of_interface h⟩

namespace Module

open StaticType (Options importText)

/-- No empty line stands between the statements. -/
def together (a b : Statement) : Bool := a.isImport && b.isImport

/-- The statements in their order; imports that follow each other are together, and every
export is on its own. -/
def runs (ss : List Statement) : List (List Statement) := ss.splitBy together

/-- The statements with these texts, to be put together to a module. -/
def pieces (w : Statement → String) (ss : List Statement) : List Piece :=
  ss.map fun s => ⟨s.isImport, w s⟩

/-- The texts of a run, one below the other. -/
def runText (w : Statement → String) (run : List Statement) : String :=
  "\n".intercalate (run.map w)

theorem runText_singleton (w : Statement → String) (s : Statement) : runText w [s] = w s :=
  String.intercalate_singleton

theorem runText_cons_cons (w : Statement → String) (s s' : Statement) (run : List Statement) :
    runText w (s :: s' :: run) = w s ++ "\n" ++ runText w (s' :: run) :=
  String.intercalate_cons_cons

/-! ## Joining runs -/

theorem joinAfter_pieces (w : Statement → String) (s s' : Statement) (ss : List Statement) :
    joinAfter s.isImport (pieces w (s' :: ss))
      = (if together s s' then "\n" else "\n\n") ++ join (pieces w (s' :: ss)) :=
  String.append_assoc

theorem join_run (w : Statement → String) {run : List Statement} (hne : run ≠ [])
    (hchain : run.IsChain fun a b => together a b = true) (rest : List Statement) :
    join (pieces w (run ++ rest))
      = runText w run ++ joinAfter (run.getLast hne).isImport (pieces w rest) := by
  match run with
  | [s] =>
    rw [runText_singleton]
    rfl
  | s :: s' :: run =>
    obtain ⟨htogether, htail⟩ := List.isChain_cons_cons.mp hchain
    have hrest := join_run w (List.cons_ne_nil s' run) htail rest
    have hfirst : join (pieces w (s :: s' :: run ++ rest))
        = w s ++ joinAfter s.isImport (pieces w (s' :: run ++ rest)) := rfl
    rw [hfirst, List.cons_append, joinAfter_pieces, if_pos htogether, ← List.cons_append, hrest,
      runText_cons_cons, List.getLast_cons (List.cons_ne_nil s' run)]
    simp only [String.append_assoc]

/-- What separates the runs are empty lines. -/
theorem join_flatten (w : Statement → String) {groups : List (List Statement)} (hne : groups ≠ [])
    (hnil : [] ∉ groups)
    (hwithin : ∀ run ∈ groups, run.IsChain fun a b => together a b = true)
    (hbetween : groups.IsChain fun a b => ∃ ha hb, together (a.getLast ha) (b.head hb) = false) :
    join (pieces w groups.flatten) = separated (groups.map (runText w)) ++ "\n" := by
  match groups with
  | [run] =>
    have hrun : run ≠ [] := Ne.symm (List.ne_of_not_mem_cons hnil)
    have hjoin := join_run w hrun (hwithin run List.mem_cons_self) []
    rw [List.flatten_cons, List.flatten_nil, hjoin, List.map_singleton, separated_singleton]
    rfl
  | run :: run' :: groups =>
    obtain ⟨⟨hrun, hrun', hends⟩, htail⟩ := List.isChain_cons_cons.mp hbetween
    obtain ⟨hchain, hchains⟩ := List.forall_mem_cons.mp hwithin
    have hrest := join_flatten w (List.cons_ne_nil run' groups)
      (fun h => hnil (List.mem_cons_of_mem run h)) hchains htail
    obtain ⟨s, run', rfl⟩ := List.exists_cons_of_ne_nil hrun'
    rw [List.head_cons] at hends
    have hruns : separated ((run :: (s :: run') :: groups).map (runText w))
        = runText w run ++ "\n\n" ++ separated (((s :: run') :: groups).map (runText w)) :=
      separated_cons_cons _ _ _
    rw [List.flatten_cons, join_run w hrun hchain, List.flatten_cons, List.cons_append,
      joinAfter_pieces, hends, ← List.cons_append, ← List.flatten_cons, hrest, hruns]
    simp only [String.append_assoc]
    rfl

theorem join_pieces (w : Statement → String) {ss : List Statement} (hne : ss ≠ []) :
    join (pieces w ss) = separated ((runs ss).map (runText w)) ++ "\n" := by
  have hruns : runs ss ≠ [] := List.splitBy_ne_nil.mpr hne
  have hjoin := join_flatten w hruns (List.nil_notMem_splitBy together ss)
    (fun _ => List.isChain_of_mem_splitBy) (List.isChain_getLast_head_splitBy together ss)
  rw [runs, List.flatten_splitBy] at hjoin
  exact hjoin

/-- Without imports, each statement is set off from the next one. -/
theorem join_exports (w : Statement → String) {ss : List Statement} (hne : ss ≠ [])
    (h : ∀ s ∈ ss, s.isImport = false) : join (pieces w ss) = separated (ss.map w) ++ "\n" := by
  match ss with
  | [s] =>
    rw [List.map_singleton, separated_singleton]
    rfl
  | s :: s' :: ss =>
    obtain ⟨hs, htail⟩ := List.forall_mem_cons.mp h
    have hrest := join_exports w (List.cons_ne_nil s' ss) htail
    have hapart : together s s' = false := by rw [together, hs, Bool.false_and]
    have hfirst : join (pieces w (s :: s' :: ss))
        = w s ++ joinAfter s.isImport (pieces w (s' :: ss)) := rfl
    have hwords : separated ((s :: s' :: ss).map w)
        = w s ++ "\n\n" ++ separated ((s' :: ss).map w) := separated_cons_cons _ _ _
    rw [hfirst, joinAfter_pieces, hapart, hrest, hwords]
    simp only [String.append_assoc]
    rfl

/-! ## What is in a run -/

theorem together_iff {a b : Statement} :
    together a b = true ↔ a.isImport = true ∧ b.isImport = true := by
  rw [together, Bool.and_eq_true]

theorem eq_imports_of_isImport {s : Statement} (h : s.isImport = true) : ∃ i, s = .imports i := by
  cases s with
  | imports i => exact ⟨i, rfl⟩
  | exports d => cases h

/-- Of two statements or more that are together, each is an import. -/
theorem imports_of_isChain {s s' : Statement} {run : List Statement}
    (h : (s :: s' :: run).IsChain fun a b => together a b = true) :
    ∃ is : List Import, s :: s' :: run = is.map .imports := by
  obtain ⟨htogether, htail⟩ := List.isChain_cons_cons.mp h
  obtain ⟨hs, hs'⟩ := together_iff.mp htogether
  obtain ⟨i, rfl⟩ := eq_imports_of_isImport hs
  cases run with
  | nil =>
    obtain ⟨i', rfl⟩ := eq_imports_of_isImport hs'
    exact ⟨[i, i'], rfl⟩
  | cons s'' run =>
    obtain ⟨is, his⟩ := imports_of_isChain htail
    exact ⟨i :: is, by rw [his, List.map_cons]⟩

/-- A run is of imports, or it is one export. -/
theorem eq_of_mem_runs {ss run : List Statement} (h : run ∈ runs ss) :
    (∃ is : List Import, run = is.map .imports) ∨ ∃ d, run = [.exports d] := by
  have hchain := List.isChain_of_mem_splitBy h
  have hne := List.ne_nil_of_mem_splitBy h
  match run with
  | [.imports i] => exact .inl ⟨[i], rfl⟩
  | [.exports d] => exact .inr ⟨d, rfl⟩
  | s :: s' :: run => exact .inl (imports_of_isChain hchain)

/-! ## Statements and their texts -/

/-- What the statements of a run are written as; `written` says it of an export. -/
inductive Paragraph (options : Options) (written : Declaration → String → Prop) :
    List Statement → String → Prop
  /-- Every import has a line. -/
  | imports {is : List Import} {ts : List String}
      (h : List.Forall₂ (fun i t => importText options i = .ok t) is ts)
      (hline : ∀ t ∈ ts, OneLine t) :
      Paragraph options written (is.map .imports) ("\n".intercalate ts)
  | exported {d : Declaration} {t : String} (h : written d t) :
      Paragraph options written [.exports d] t

/-- The text is the static type of what is declared. -/
def StaticForm (options : Options) (d : Declaration) (t : String) : Prop :=
  StaticType.statementText options (.exports d) = .ok t

/-- The text is that of an alias, or the validator of an interface and below it its static
type. -/
inductive BothForms (options : Options) : Declaration → String → Prop
  | typeAlias {name : String} {body : AliasBody} {t : String}
      (h : StaticForm options (.typeAlias name body) t) : BothForms options (.typeAlias name body) t
  | interface {name : String} {ps : List Property} {static validator : String}
      (hstatic : StaticForm options (.interface name ps) static)
      (hvalidator : Validator.statementText (.exports (.interface name ps)) = .ok validator) :
      BothForms options (.interface name ps) (validator ++ "\n" ++ static)

variable {options : Options} {written : Declaration → String → Prop} {w : Statement → String}
  {ss : List Statement}

/-- The texts of statements that have no empty lines are the paragraphs of the module. -/
theorem divided_join (hne : ss ≠ []) (hsolid : ∀ s ∈ ss, Solid (w s))
    (himports : ∀ i, .imports i ∈ ss →
      importText options i = .ok (w (.imports i)) ∧ OneLine (w (.imports i)))
    (hexports : ∀ d, .exports d ∈ ss → written d (w (.exports d))) :
    ∃ ps, Divided (join (pieces w ss)) ps
      ∧ List.Forall₂ (Paragraph options written) (runs ss) ps := by
  have hmem : ∀ run ∈ runs ss, ∀ s ∈ run, s ∈ ss := by
    intro run hrun s hs
    rw [← List.flatten_splitBy together ss]
    exact List.mem_flatten_of_mem hrun hs
  refine ⟨(runs ss).map (runText w), ?_, ?_⟩
  · rw [join_pieces w hne]
    refine divided_separated ?_ (List.forall_mem_map.mpr fun run hrun => ?_)
    · rw [Ne, List.map_eq_nil_iff]
      exact List.splitBy_ne_nil.mpr hne
    · refine Solid.intercalate ?_ (List.forall_mem_map.mpr fun s hs => ?_)
      · rw [Ne, List.map_eq_nil_iff]
        exact List.ne_nil_of_mem_splitBy hrun
      · exact hsolid s (hmem run hrun s hs)
  · rw [List.forall₂_map_right_iff, List.forall₂_same]
    intro run hrun
    rcases eq_of_mem_runs hrun with ⟨is, rfl⟩ | ⟨d, rfl⟩
    · have hi : ∀ i ∈ is, .imports i ∈ ss := fun i hi => hmem _ hrun _ (List.mem_map_of_mem hi)
      rw [runText, List.map_map]
      refine .imports ?_ (List.forall_mem_map.mpr fun i h => (himports i (hi i h)).2)
      rw [List.forall₂_map_right_iff, List.forall₂_same]
      exact fun i h => (himports i (hi i h)).1
    · rw [runText_singleton]
      exact .exported (hexports d (hmem _ hrun _ List.mem_cons_self))

/-! ## Modules -/

theorem bothForms_imports {i : Import} {p : Piece} (h : bothForms options (.imports i) = .ok p) :
    p.isImport = true ∧ importText options i = .ok p.text := by
  rw [bothForms, bind_eq_ok_iff] at h
  obtain ⟨t, ht, h⟩ := h
  rw [← Except.ok.inj h]
  exact ⟨rfl, ht⟩

theorem bothForms_exports {d : Declaration} {p : Piece}
    (h : bothForms options (.exports d) = .ok p) :
    p.isImport = false ∧ BothForms options d p.text := by
  rw [bothForms, bind_eq_ok_iff] at h
  obtain ⟨static, hstatic, h⟩ := h
  cases d with
  | typeAlias name body =>
    rw [← Except.ok.inj h]
    exact ⟨rfl, .typeAlias hstatic⟩
  | interface name ps =>
    obtain ⟨validator, hvalidator, hp⟩ := bind_return_eq_ok_iff.mp h
    rw [hp, if_neg (Validator.ne_empty_of_interface hvalidator)]
    exact ⟨rfl, .interface hstatic hvalidator⟩

theorem BothForms.solid {d : Declaration} {t : String} (h : BothForms options d t)
    (hline : (Statement.exports d).OneLine) : Solid t := by
  cases h with
  | typeAlias h => exact StaticType.solid_statementText hline h
  | interface hstatic hvalidator =>
    have hvalid := Validator.solid_statementText hline hvalidator
      (Validator.ne_empty_of_interface hvalidator)
    exact hvalid.below (StaticType.solid_statementText hline hstatic)

/-- The statements that were written have texts, and these are put together. -/
theorem exists_texts {t : String} (h : text options ss = .ok t) :
    ∃ w, (∀ s ∈ ss, bothForms options s = .ok ⟨s.isImport, w s⟩) ∧ t = join (pieces w ss) := by
  rw [text, bind_return_eq_ok_iff] at h
  obtain ⟨ps, hps, rfl⟩ := h
  have hok : ∀ s ∈ ss, ∃ t, bothForms options s = .ok ⟨s.isImport, t⟩ := by
    intro s hs
    obtain ⟨⟨isImport, t⟩, _, hp⟩ := exists_of_collect_eq_ok hps s hs
    have himport : isImport = s.isImport := by
      cases s with
      | imports i => exact (bothForms_imports hp).1
      | exports d => exact (bothForms_exports hp).1
    rw [himport] at hp
    exact ⟨t, hp⟩
  choose! w hw using hok
  rw [collect_map_of_ok hw] at hps
  rw [← Except.ok.inj hps]
  exact ⟨w, hw, rfl⟩

theorem filterMap_pieces (w : Statement → String) (ss : List Statement) :
    ss.filterMap (fun s => if w s = "" then none else some (⟨s.isImport, w s⟩ : Piece))
      = pieces w (ss.filter fun s => w s ≠ "") := by
  induction ss with
  | nil => rfl
  | cons s ss ih =>
    by_cases hs : w s = ""
    · rw [List.filter_cons_of_neg (by simp [hs]), ← ih]
      simp [hs]
    · rw [List.filter_cons_of_pos (by simp [hs]), pieces, List.map_cons, ← pieces, ← ih]
      simp [hs]

/-- In one form, the statements that have a text in this form are put together. -/
theorem exists_texts_inForm {form : Statement → Rendered String} {t : String}
    (h : textInForm form ss = .ok t) :
    ∃ w, (∀ s ∈ ss, form s = .ok (w s)) ∧
      t = join (pieces w (ss.filter fun s => w s ≠ "")) := by
  rw [textInForm, bind_return_eq_ok_iff] at h
  obtain ⟨ps, hps, rfl⟩ := h
  have hok : ∀ s ∈ ss, ∃ t, form s = .ok t := by
    intro s hs
    obtain ⟨p, _, hp⟩ := exists_of_collect_eq_ok hps s hs
    obtain ⟨t, ht, _⟩ := bind_return_eq_ok_iff.mp hp
    exact ⟨t, ht⟩
  choose! w hw using hok
  have hpiece : ∀ s ∈ ss, oneForm form s
      = .ok (if w s = "" then none else some ⟨s.isImport, w s⟩) := by
    intro s hs
    rw [oneForm, hw s hs]
    rfl
  rw [collect_map_of_ok hpiece] at hps
  refine ⟨w, hw, ?_⟩
  rw [← Except.ok.inj hps, List.filterMap_map, ← filterMap_pieces]
  rfl

theorem divided_text {t : String} (hne : ss ≠ []) (hline : ∀ s ∈ ss, s.OneLine)
    (h : text options ss = .ok t) :
    ∃ ps, Divided t ps ∧ List.Forall₂ (Paragraph options (BothForms options)) (runs ss) ps := by
  obtain ⟨w, hw, rfl⟩ := exists_texts h
  have himport : ∀ i, .imports i ∈ ss → importText options i = .ok (w (.imports i)) :=
    fun i hi => (bothForms_imports (hw _ hi)).2
  have hexport : ∀ d, .exports d ∈ ss → BothForms options d (w (.exports d)) :=
    fun d hd => (bothForms_exports (hw _ hd)).2
  refine divided_join hne (fun s hs => ?_)
    (fun i hi => ⟨himport i hi, (StaticType.oneLine_importText (hline _ hi) (himport i hi)).1⟩)
    hexport
  cases s with
  | imports i => exact StaticType.solid_statementText (hline _ hs) (himport i hs)
  | exports d => exact (hexport d hs).solid (hline _ hs)

theorem divided_types {t : String} (hne : ss ≠ []) (hline : ∀ s ∈ ss, s.OneLine)
    (h : types options ss = .ok t) :
    ∃ ps, Divided t ps ∧ List.Forall₂ (Paragraph options (StaticForm options)) (runs ss) ps := by
  obtain ⟨w, hw, rfl⟩ := exists_texts_inForm h
  have hsolid : ∀ s ∈ ss, Solid (w s) := fun s hs =>
    StaticType.solid_statementText (hline s hs) (hw s hs)
  have hall : (ss.filter fun s => w s ≠ "") = ss :=
    List.filter_eq_self.mpr fun s hs => decide_eq_true (hsolid s hs).ne_empty
  rw [hall]
  refine divided_join hne hsolid (fun i hi => ?_) (fun d hd => hw _ hd)
  exact ⟨hw _ hi, (StaticType.oneLine_importText (hline _ hi) (hw _ hi)).1⟩

theorem divided_validators {t : String} (hline : ∀ s ∈ ss, s.OneLine)
    (hinterface : ∃ s ∈ ss, s.isInterface) (h : validators ss = .ok t) :
    ∃ ps, Divided t ps ∧ List.Forall₂ (fun s p => Validator.statementText s = .ok p)
      (ss.filter Statement.isInterface) ps := by
  obtain ⟨w, hw, rfl⟩ := exists_texts_inForm h
  have hsome : (ss.filter fun s => w s ≠ "") = ss.filter Statement.isInterface := by
    refine List.filter_congr fun s hs => ?_
    rw [Bool.eq_iff_iff, decide_eq_true_iff]
    exact Validator.ne_empty_iff (hw s hs)
  obtain ⟨s, hs, hinterface⟩ := hinterface
  have hne : ss.filter Statement.isInterface ≠ [] :=
    List.ne_nil_of_mem (List.mem_filter.mpr ⟨hs, hinterface⟩)
  have hmem : ∀ s ∈ ss.filter Statement.isInterface, s ∈ ss ∧ s.isInterface = true :=
    fun s hs => List.mem_filter.mp hs
  rw [hsome, join_exports w hne fun s hs => Statement.isImport_of_isInterface (hmem s hs).2]
  refine ⟨_, divided_separated (fun hnil => hne (List.map_eq_nil_iff.mp hnil))
    (List.forall_mem_map.mpr fun s hs => ?_), ?_⟩
  · obtain ⟨hs, hinterface⟩ := hmem s hs
    exact Validator.solid_statementText (hline s hs) (hw s hs)
      ((Validator.ne_empty_iff (hw s hs)).mpr hinterface)
  · rw [List.forall₂_map_right_iff, List.forall₂_same]
    exact fun s hs => hw s (hmem s hs).1

/-- **A module can be cut back into its statements.** If no name and no description has a
newline, the paragraphs of a module with both forms are its runs; so are those of the
static types, and those of the validators are the interfaces, if there are any. -/
theorem divided {t : String} (hne : ss ≠ []) (hline : ∀ s ∈ ss, s.OneLine)
    (h : text options ss = .ok t) :
    (∃ ps, Divided t ps ∧ List.Forall₂ (Paragraph options (BothForms options)) (runs ss) ps) ∧
    ∃ b, blocks options ss = .ok b ∧
      (∃ ps, Divided b.types ps
        ∧ List.Forall₂ (Paragraph options (StaticForm options)) (runs ss) ps) ∧
      ((∃ s ∈ ss, s.isInterface) → ∃ ps, Divided b.validators ps ∧
        List.Forall₂ (fun s p => Validator.statementText s = .ok p)
          (ss.filter Statement.isInterface) ps) := by
  refine ⟨divided_text hne hline h, ?_⟩
  obtain ⟨b, hb⟩ := exists_blocks_iff.mpr ⟨t, h⟩
  obtain ⟨types, htypes, hrest⟩ := bind_eq_ok_iff.mp hb
  obtain ⟨validators, hvalidators, rfl⟩ := bind_return_eq_ok_iff.mp hrest
  exact ⟨_, hb, divided_types hne hline htypes,
    fun hinterface => divided_validators hline hinterface hvalidators⟩

/-- Two imports, an alias, and a row with a comment. -/
def postModule : List Statement :=
  [.imports ⟨"zod", [⟨"z", none⟩]⟩, .imports ⟨"kysely", [⟨"Generated", some "G"⟩]⟩,
   .exportAlias "Id" (.plain (.named "number")),
   .exportInterface "Post" [⟨"id", .reference "Id", some " given by the database "⟩]]

/-- The imports share a paragraph, and the alias and the row have one each. -/
theorem divided_postModule :
    ∃ t ps, text {} postModule = .ok t ∧ Divided t ps ∧ ps.length = 3 := by
  have hline : ∀ s ∈ postModule, s.OneLine := by
    simp only [postModule, List.forall_mem_cons]
    refine ⟨?_, ?_, ⟨by decide, by decide, ?_⟩, ⟨by decide, ?_⟩, by simp⟩
    · simp [Statement.OneLine, OneLine]
    · simp [Statement.OneLine, OneLine]
    · exact Expression.oneLine_iff.mpr ⟨by decide, fun p hp => (by cases hp)⟩
    · refine Expression.oneLine_iff.mpr ⟨by decide, List.forall_mem_singleton.mpr ?_⟩
      exact Expression.oneLine_iff.mpr ⟨by decide, fun p hp => (by cases hp)⟩
  have hformed : ∀ s ∈ postModule, s.WellFormed := by
    simp [postModule, Statement.WellFormed, AliasBody.WellFormed, Statement.exportAlias,
      Statement.exportInterface]
  obtain ⟨t, ht⟩ := text_ok_of_wellFormed {} hformed
  obtain ⟨⟨ps, hps, hparagraphs⟩, _⟩ := divided (List.cons_ne_nil _ _) hline ht
  exact ⟨t, ps, ht, hps, hparagraphs.length_eq.symm⟩

end Module

end SchemaTypes
