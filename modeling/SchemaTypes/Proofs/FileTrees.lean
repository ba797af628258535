import SchemaTypes.Files.System
import SchemaTypes.Proofs.Lists

/-!
# What operations do to a file tree

A path is followed through directories only, so it leads to the same place as long as
these stay (`KeepsDirectories`). A directory is made where nothing stood before, and a
text is written where there was no directory; neither changes anything at another place:

> `Growing.makeDirectories`: making directories changes nothing but that there are new ones
> on the path, whether or not it fails.
>
> `writeText_eq_ok_iff`, `readText_of_writeText`: a text that is written can be read at the same
> path.
-/

namespace SchemaTypes.Files.Tree

variable {t t' : Tree} {p : Path} {place other : Place}

/-! ## Places -/

/-- The content of the file that stands at a place. -/
def content? (t : Tree) (place : Place) : Option ByteArray :=
  match t.at? place with
  | some (.file content) => some content
  | _ => none

/-- The path leads to the place, where something stands or could be made. -/
def LeadsTo (t : Tree) (p : Path) (place : Place) : Prop :=
  ∃ named, t.target p = .ok (place, named)

theorem at?_root (t : Tree) : t.at? [] = some .directory := if_pos rfl

theorem lookup_filter_ne {entries : List (Place × Entry)} (h : other ≠ place) :
    (entries.filter fun e => e.1 != place).lookup other = entries.lookup other := by
  induction entries with
  | nil => rfl
  | cons entry entries ih =>
    obtain ⟨standing, e⟩ := entry
    by_cases hstanding : standing = place
    · subst hstanding
      rw [List.filter_cons_of_neg (by simp), List.lookup_cons, beq_eq_false_iff_ne.mpr h, ih]
    · rw [List.filter_cons_of_pos (by simp [hstanding]), List.lookup_cons, List.lookup_cons, ih]

theorem at?_put_self (entry : Entry) (hne : place ≠ []) :
    (t.put place entry).at? place = some entry := by
  rw [at?, if_neg hne, put, List.lookup_cons, beq_self_eq_true]

theorem at?_put_of_ne (entry : Entry) (hne : other ≠ place) :
    (t.put place entry).at? other = t.at? other := by
  rw [at?, at?, put, List.lookup_cons, beq_eq_false_iff_ne.mpr hne, lookup_filter_ne hne]

/-! ## Following a path -/

/-- Every directory stays, and paths start where they started. -/
structure KeepsDirectories (t t' : Tree) : Prop where
  workingDirectory : t'.workingDirectory = t.workingDirectory
  directories : ∀ place, t.at? place = some .directory → t'.at? place = some .directory

theorem directory_of_step {part : String} {next : Place} (h : t.step place part = .ok next) :
    t.at? place = some .directory := by
  unfold step at h
  split at h
  · cases h
  · cases h
  · assumption

theorem step_of_directory {part : String} (h : t.at? place = some .directory)
    (h' : t'.at? place = some .directory) : t'.step place part = t.step place part := by
  rw [step, step, h, h']

theorem KeepsDirectories.walk (h : KeepsDirectories t t') {parts : List String} :
    ∀ {place last : Place}, t.walk place parts = .ok last → t'.walk place parts = .ok last := by
  induction parts with
  | nil => exact fun hwalk => hwalk
  | cons part parts ih =>
    intro place last hwalk
    rw [Tree.walk, List.foldlM_cons, bind_eq_ok_iff] at hwalk ⊢
    obtain ⟨next, hstep, hrest⟩ := hwalk
    have hdirectory := directory_of_step hstep
    refine ⟨next, ?_, ih hrest⟩
    rw [step_of_directory hdirectory (h.directories _ hdirectory), hstep]

theorem KeepsDirectories.start (h : KeepsDirectories t t') : t'.start p = t.start p := by
  rw [Tree.start, Tree.start, h.workingDirectory]

/-- The parts of a path that lead to its target, without slashes at the end. -/
def targetParts (p : Path) : List String := (p.parts.reverse.dropWhile (· == "")).reverse

theorem target_eq_ok_iff {r : Place × Bool} :
    t.target p = .ok r ↔ ∃ first, t.start p = .ok first ∧ t.walk first (targetParts p) = .ok r.1
      ∧ r.2 = ((targetParts p).getLast?.map isName).getD false := by
  obtain ⟨place, named⟩ := r
  simp only [target, bind_eq_ok_iff, targetParts]
  constructor
  · intro h
    obtain ⟨first, hfirst, last, hlast, hok⟩ := h
    obtain ⟨rfl, rfl⟩ := Prod.mk.inj (Except.ok.inj hok)
    exact ⟨first, hfirst, hlast, rfl⟩
  · intro h
    obtain ⟨first, hfirst, hlast, rfl⟩ := h
    exact ⟨first, hfirst, place, hlast, rfl⟩

theorem KeepsDirectories.target (h : KeepsDirectories t t') {r : Place × Bool}
    (htarget : t.target p = .ok r) : t'.target p = .ok r := by
  rw [target_eq_ok_iff] at htarget ⊢
  obtain ⟨first, hfirst, hlast, hnamed⟩ := htarget
  exact ⟨first, by rw [h.start, hfirst], h.walk hlast, hnamed⟩

theorem KeepsDirectories.leadsTo (h : KeepsDirectories t t') (hplace : t.LeadsTo p place) :
    t'.LeadsTo p place := by
  obtain ⟨named, htarget⟩ := hplace
  exact ⟨named, h.target htarget⟩

/-- Something is put where no directory stood. -/
theorem keepsDirectories_put (entry : Entry) (h : t.at? place ≠ some .directory) :
    KeepsDirectories t (t.put place entry) where
  workingDirectory := rfl
  directories other hother := by
    have hne : other ≠ place := by
      rintro rfl
      exact h hother
    rw [at?_put_of_ne entry hne, hother]

/-! ## Making directories -/

theorem makeDirectory_eq_ok_iff :
    t.makeDirectory p = .ok t' ↔ ∃ place, t.target p = .ok (place, true) ∧ t.at? place = none
      ∧ t' = t.put place .directory := by
  simp only [makeDirectory, bind_eq_ok_iff]
  constructor
  · intro h
    obtain ⟨⟨place, named⟩, htarget, hok⟩ := h
    split at hok
    · next hnew =>
      rw [Bool.and_eq_true, Option.isNone_iff_eq_none] at hnew
      obtain ⟨rfl, hnone⟩ := hnew
      exact ⟨place, htarget, hnone, (Except.ok.inj hok).symm⟩
    · cases hok
  · intro h
    obtain ⟨place, htarget, hnone, rfl⟩ := h
    refine ⟨(place, true), htarget, ?_⟩
    rw [hnone]
    rfl

/-- The trees are the same, but for new directories in the second one, each of which one
of the paths leads to. -/
structure Grows (paths : List Path) (t t' : Tree) : Prop where
  workingDirectory : t'.workingDirectory = t.workingDirectory
  entries : ∀ place, t'.at? place = t.at? place ∨
    (t.at? place = none ∧ t'.at? place = some .directory ∧ ∃ p ∈ paths, t'.LeadsTo p place)

namespace Grows

variable {paths paths' : List Path}

theorem refl (paths : List Path) (t : Tree) : Grows paths t t where
  workingDirectory := rfl
  entries _ := .inl rfl

theorem keepsDirectories (h : Grows paths t t') : KeepsDirectories t t' where
  workingDirectory := h.workingDirectory
  directories place hplace := by
    rcases h.entries place with hsame | ⟨hnone, _⟩
    · rw [hsame, hplace]
    · rw [hnone] at hplace
      cases hplace

theorem trans {t'' : Tree} (h : Grows paths t t') (h' : Grows paths t' t'') :
    Grows paths t t'' where
  workingDirectory := h'.workingDirectory.trans h.workingDirectory
  entries place := by
    rcases h'.entries place with hsame | ⟨hnone, hdirectory, hpath⟩
    · rw [hsame]
      rcases h.entries place with hsame' | ⟨hnone, hdirectory, p, hp, hleads⟩
      · exact .inl hsame'
      · exact .inr ⟨hnone, hdirectory, p, hp, h'.keepsDirectories.leadsTo hleads⟩
    · rcases h.entries place with hsame' | ⟨_, hdirectory', _⟩
      · exact .inr ⟨by rw [← hsame', hnone], hdirectory, hpath⟩
      · rw [hnone] at hdirectory'
        cases hdirectory'

theorem mono (h : Grows paths t t') (hsubset : ∀ p ∈ paths, p ∈ paths') : Grows paths' t t' where
  workingDirectory := h.workingDirectory
  entries place := by
    rcases h.entries place with hsame | ⟨hnone, hdirectory, p, hp, hleads⟩
    · exact .inl hsame
    · exact .inr ⟨hnone, hdirectory, p, hsubset p hp, hleads⟩

/-- No file is there that was not there before, and none is changed or gone. -/
theorem content?_eq (h : Grows paths t t') (place : Place) : t'.content? place = t.content? place := by
  rcases h.entries place with hsame | ⟨hnone, hdirectory, _⟩
  · rw [content?, content?, hsame]
  · rw [content?, content?, hnone, hdirectory]

end Grows

theorem ne_root_of_at?_ne (h : t.at? place ≠ some .directory) : place ≠ [] := by
  rintro rfl
  exact h (at?_root t)

theorem grows_makeDirectory (h : t.makeDirectory p = .ok t') : Grows [p] t t' := by
  obtain ⟨place, htarget, hnone, rfl⟩ := makeDirectory_eq_ok_iff.mp h
  have habsent : t.at? place ≠ some .directory := by
    rw [hnone]
    simp
  refine ⟨rfl, fun other => ?_⟩
  by_cases hother : other = place
  · subst hother
    have hleads := (keepsDirectories_put .directory habsent).leadsTo ⟨true, htarget⟩
    exact .inr ⟨hnone, at?_put_self _ (ne_root_of_at?_ne habsent), p, List.mem_cons_self, hleads⟩
  · exact .inl (at?_put_of_ne _ hother)

/-- Whatever it starts from, the computation does nothing but make directories on these
paths. -/
def Growing {α : Type} (paths : List Path) (x : OnTree α) : Prop :=
  ∀ t, Grows paths t (x.run t).2

namespace Growing

variable {α β : Type} {paths paths' : List Path}

theorem pure (a : α) : Growing paths (Pure.pure a : OnTree α) := fun t => .refl paths t

theorem bind {x : OnTree α} {f : α → OnTree β} (hx : Growing paths x)
    (hf : ∀ a, Growing paths (f a)) : Growing paths (x >>= f) := fun t =>
  (hx t).trans (hf (x.run t).1 (x.run t).2)

theorem isDirectory (p : Path) : Growing paths (System.isDirectory p : OnTree Bool) :=
  fun t => .refl paths t

theorem makeDirectory (hp : p ∈ paths) :
    Growing paths (System.makeDirectory p : OnTree (Except Fault Unit)) := by
  intro t
  show Grows paths t (OnTree.change (fun t => t.makeDirectory p) t).2
  unfold OnTree.change
  split
  · next h => exact (grows_makeDirectory h).mono (List.forall_mem_singleton.mpr hp)
  · exact .refl paths t

theorem settle (p : Path) (result : Except Fault Unit) :
    Growing paths (makeDirectories.settle p result : OnTree (Except Fault Unit)) := by
  cases result with
  | ok _ => exact pure _
  | error fault => exact (isDirectory p).bind fun _ => pure _

/-- Whether or not all of the directories can be made. -/
theorem makeDirectories (hpaths : ∀ p ∈ paths, p ∈ paths') :
    Growing paths' (Files.makeDirectories paths : OnTree (Except Fault Unit)) := by
  induction paths with
  | nil => exact pure _
  | cons p outer ih =>
    obtain ⟨hp, houter⟩ := List.forall_mem_cons.mp hpaths
    rw [Files.makeDirectories]
    refine (makeDirectory hp).bind fun first => ?_
    split
    · exact pure _
    · -- the directories around it are made first
      refine (ih houter).bind fun around => ?_
      split
      · exact pure _
      · exact (makeDirectory hp).bind fun again => settle p again
    · exact settle p _

end Growing

/-! ## Writing -/

theorem hasDirectory_iff : t.hasDirectory place = true ↔ t.at? place = some .directory := by
  unfold hasDirectory
  split
  · next h => simp [h]
  · next h => simpa using h

theorem writeText_eq_ok_iff {text : String} :
    t.writeText p text = .ok t' ↔ ∃ place, t.target p = .ok (place, true)
      ∧ p.parts.getLast? ≠ some "" ∧ t.at? place ≠ some .directory
      ∧ t' = t.put place (.file text.toUTF8) := by
  simp only [writeText, bind_eq_ok_iff]
  constructor
  · intro h
    obtain ⟨⟨place, named⟩, htarget, hok⟩ := h
    split at hok
    · cases hok
    · next hfile =>
      simp only [Bool.or_eq_true, not_or, hasDirectory_iff, Bool.not_eq_true',
        Bool.not_eq_false, beq_iff_eq] at hfile
      obtain ⟨⟨rfl, hlast⟩, hdirectory⟩ := hfile
      exact ⟨place, htarget, hlast, hdirectory, (Except.ok.inj hok).symm⟩
  · intro h
    obtain ⟨place, htarget, hlast, hdirectory, rfl⟩ := h
    refine ⟨(place, true), htarget, if_neg ?_⟩
    simp [hasDirectory_iff, hlast, hdirectory]

theorem targetParts_eq (h : p.parts.getLast? ≠ some "") : targetParts p = p.parts := by
  rw [List.getLast?_eq_head?_reverse] at h
  have hdrop : p.parts.reverse.dropWhile (· == "") = p.parts.reverse := by
    cases hparts : p.parts.reverse with
    | nil => rfl
    | cons part before =>
      rw [hparts, List.head?_cons] at h
      refine List.dropWhile_cons_of_neg fun hempty => h ?_
      rw [beq_iff_eq.mp hempty]
  rw [targetParts, hdrop, List.reverse_reverse]

theorem find_eq_ok {first : Place} {entry : Entry} (hfirst : t.start p = .ok first)
    (hwalk : t.walk first p.parts = .ok place) (hentry : t.at? place = some entry) :
    t.find p = .ok entry := by
  simp only [find, bind_eq_ok_iff]
  refine ⟨first, hfirst, place, hwalk, ?_⟩
  rw [hentry]
  rfl

theorem fromUTF8?_toUTF8 (text : String) : String.fromUTF8? text.toUTF8 = some text :=
  dif_pos text.isValidUTF8

theorem readText_of_find {text : String} (h : t.find p = .ok (.file text.toUTF8)) :
    t.readText p = .ok text := by
  simp only [readText, h, bind, Except.bind, fromUTF8?_toUTF8]
  rfl

/-- A text that was written can be read at the same path, and at no other place there is a
file that was not there before, nor is one changed or gone. -/
theorem readText_of_writeText {text : String} (h : t.writeText p text = .ok t') :
    t'.readText p = .ok text ∧ ∃ place, t'.LeadsTo p place
      ∧ t'.content? place = some text.toUTF8
      ∧ ∀ other, other ≠ place → t'.at? other = t.at? other := by
  obtain ⟨place, htarget, hlast, hdirectory, rfl⟩ := writeText_eq_ok_iff.mp h
  have htarget' := (keepsDirectories_put (.file text.toUTF8) hdirectory).target htarget
  have hfile := at?_put_self (t := t) (.file text.toUTF8) (ne_root_of_at?_ne hdirectory)
  refine ⟨?_, place, ⟨true, htarget'⟩, ?_, fun other hother => at?_put_of_ne _ hother⟩
  · obtain ⟨first, hfirst, hwalk, _⟩ := target_eq_ok_iff.mp htarget'
    rw [targetParts_eq hlast] at hwalk
    exact readText_of_find (find_eq_ok hfirst hwalk hfile)
  · rw [content?, hfile]

end SchemaTypes.Files.Tree
