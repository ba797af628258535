import SchemaTypes.CommandLine.Run
import SchemaTypes.Proofs.FileTrees
import SchemaTypes.Proofs.GeneratedModules

/-!
# What a run does to the files

A request to generate a module is carried out in stages, each of which finds what the
ones before it left: settings are loaded and merged, a description is read, the module is
generated, directories are made and the text is written. `FailsAt` tells which stage
fails from the tree as it was before the run.

Nothing but directories is made before the text is written, and nothing is read after
that. So it does not matter whether the paths of the description, of the settings and of
the output lead to the same file.

> `run_writes_all_or_nothing`: a run prints or writes the text for the description as it
> was, all of it, or it fails and no file is created or changed.
-/

namespace SchemaTypes.CommandLine

open Files (Path Place Tree OnTree System)
open Files.Tree (Grows Growing)

/-! ## Computations that may fail -/

section

variable {α β : Type}

/-- What a computation yields or why it fails, and the tree that it leaves. -/
def resultOn (x : ExceptT Failure OnTree α) (t : Tree) : Except Failure α × Tree :=
  StateT.run x.run t

theorem resultOn_bind (x : ExceptT Failure OnTree α) (f : α → ExceptT Failure OnTree β) (t : Tree) :
    resultOn (x >>= f) t =
      match resultOn x t with
      | (.ok a, t') => resultOn (f a) t'
      | (.error failure, t') => (.error failure, t') := by
  have hbind : resultOn (x >>= f) t
      = resultOn (ExceptT.mk (ExceptT.bindCont f (resultOn x t).1)) (resultOn x t).2 := rfl
  rw [hbind]
  obtain ⟨result, t'⟩ := resultOn x t
  cases result <;> rfl

theorem resultOn_attempt (operation : OnTree (Except Files.Fault α)) (failure : Files.Fault → Failure)
    (t : Tree) :
    resultOn (attempt operation failure) t
      = ((StateT.run operation t).1.mapError failure, (StateT.run operation t).2) := rfl

theorem resultOn_readText (path : Path) (failure : Files.Fault → Failure) (t : Tree) :
    resultOn (attempt (System.readText path) failure) t = ((t.readText path).mapError failure, t) :=
  rfl

end

/-! ## Settings -/

variable {request : GenerateRequest} {t : Tree}

/-- The file that holds the settings: the one that is named, or else the one that has the
usual name, if it is there. -/
def configFile? (request : GenerateRequest) (t : Tree) : Option Path :=
  let usual := (⟨true, t.workingDirectory⟩ : Path).append Config.defaultFile
  request.config.or (if t.isPresent usual then some usual else none)

/-- These settings are in the file; none are set if there is no such file. -/
inductive Loads (request : GenerateRequest) (t : Tree) : Config → Prop
  | absent (hfile : configFile? request t = none) : Loads request t {}
  | present {path : Path} {text : String} {config : Config}
      (hfile : configFile? request t = some path) (hread : t.readText path = .ok text)
      (hconfig : Config.ofText? text = some config) : Loads request t config

/-- These are the settings of the run. -/
def Settles (request : GenerateRequest) (t : Tree) (settings : Settings) : Prop :=
  ∃ config, Loads request t config ∧ Settings.merge? request config = some settings

/-- This is the text that is generated, with these settings, from the input as it is in the
tree. -/
def Generates (request : GenerateRequest) (t : Tree) (settings : Settings) (text : String) :
    Prop :=
  Settles request t settings ∧ ∃ description, t.readText request.input = .ok description
    ∧ generateFromText settings.options settings.dialect description = .ok text

theorem resultOn_loadConfig (request : GenerateRequest) (t : Tree) :
    resultOn (loadConfig request.config ⟨true, t.workingDirectory⟩) t =
      match configFile? request t with
      | some path => resultOn (readConfig path) t
      | none => (.ok {}, t) := by
  cases hconfig : request.config with
  | some path =>
    rw [configFile?, hconfig]
    rfl
  | none =>
    rw [configFile?, hconfig, loadConfig, resultOn_bind]
    have hpresent : resultOn (ExceptT.lift (System.isPresent
        ((⟨true, t.workingDirectory⟩ : Path).append Config.defaultFile))) t
        = (.ok (t.isPresent ((⟨true, t.workingDirectory⟩ : Path).append Config.defaultFile)), t) :=
      rfl
    rw [hpresent]
    cases t.isPresent ((⟨true, t.workingDirectory⟩ : Path).append Config.defaultFile) <;> rfl

theorem resultOn_readConfig (path : Path) (t : Tree) :
    resultOn (readConfig path) t =
      match (t.readText path).mapError (.configUnread path) with
      | .error failure => (.error failure, t)
      | .ok text =>
        match Config.ofText? text with
        | some config => (.ok config, t)
        | none => (.error (.configMalformed path), t) := by
  rw [readConfig, resultOn_bind, resultOn_readText]
  cases (t.readText path).mapError (Failure.configUnread path) with
  | error failure => rfl
  | ok text =>
    dsimp only
    cases Config.ofText? text <;> rfl

theorem Loads.loaded {config : Config} (h : Loads request t config) :
    resultOn (loadConfig request.config ⟨true, t.workingDirectory⟩) t = (.ok config, t) := by
  cases h with
  | absent hfile => simp only [resultOn_loadConfig, hfile]
  | present hfile hread hconfig =>
    simp only [resultOn_loadConfig, hfile, resultOn_readConfig, hread, Except.mapError, hconfig]

/-! ## The run behind the settings -/

theorem resultOn_generate_of_failed {failure : Failure}
    (h : resultOn (loadConfig request.config ⟨true, t.workingDirectory⟩) t = (.error failure, t)) :
    resultOn (generate request) t = (.error failure, t) := by
  have hdirectory : resultOn (attempt System.workingDirectory .noWorkingDirectory) t
      = (.ok ⟨true, t.workingDirectory⟩, t) := rfl
  simp only [generate, resultOn_bind, hdirectory, h]

/-- With the settings loaded, the result is that of the first stage that fails, or of the
last one. -/
theorem resultOn_generate_of_loads {config : Config} (h : Loads request t config) :
    resultOn (generate request) t =
      match Settings.merge? request config with
      | none => (.error .noDialect, t)
      | some settings =>
        match t.readText request.input with
        | .error fault => (.error (.inputUnread request.input fault), t)
        | .ok description =>
          match generateFromText settings.options settings.dialect description with
          | .error error => (.error (.notGenerated error), t)
          | .ok text =>
            match settings.out with
            | none => (.ok text, t)
            | some path =>
              match resultOn (writeOutput path text) t with
              | (.ok _, after) => (.ok ("Generated " ++ path.text ++ "\n"), after)
              | (.error failure, after) => (.error failure, after) := by
  have hdirectory : resultOn (attempt System.workingDirectory .noWorkingDirectory) t
      = (.ok ⟨true, t.workingDirectory⟩, t) := rfl
  simp only [generate, resultOn_bind, hdirectory, h.loaded]
  cases hsettings : Settings.merge? request config with
  | none => rfl
  | some settings =>
    simp only [resultOn_bind, resultOn_readText]
    cases hread : t.readText request.input with
    | error fault => rfl
    | ok description =>
      simp only [Except.mapError]
      cases hgenerated : generateFromText settings.options settings.dialect description with
      | error error => rfl
      | ok text =>
        cases hout : settings.out with
        | none => rfl
        | some path =>
          simp only [resultOn_bind]
          cases resultOn (writeOutput path text) t with
          | mk result after => cases result <;> rfl

/-! ## Writing -/

/-- What making the directories of a path comes to. -/
def madeFor (path : Path) (t : Tree) : Except Files.Fault Unit × Tree :=
  StateT.run (Files.makeDirectories path.directories : OnTree _) t

theorem resultOn_writeOutput_of_error {path nearest : Path} {outer : List Path} {text : String}
    {fault : Files.Fault} {made : Tree} (hpath : path.directories = nearest :: outer)
    (h : madeFor path t = (.error fault, made)) :
    resultOn (writeOutput path text) t = (.error (.directoryNotMade nearest fault), made) := by
  rw [madeFor, hpath] at h
  rw [writeOutput, hpath]
  dsimp only
  rw [resultOn_bind, resultOn_attempt, h]
  rfl

theorem resultOn_writeText (path : Path) (text : String) (t : Tree) :
    resultOn (attempt (System.writeText path text) (.notWritten path)) t =
      match t.writeText path text with
      | .ok after => (.ok (), after)
      | .error fault => (.error (.notWritten path fault), t) := by
  have hchange : StateT.run (System.writeText path text : OnTree (Except Files.Fault Unit)) t
      = match t.writeText path text with
        | .ok after => (.ok (), after)
        | .error fault => (.error fault, t) := rfl
  rw [resultOn_attempt, hchange]
  cases t.writeText path text <;> rfl

theorem resultOn_writeOutput_of_made {path : Path} {text : String} {made : Tree}
    (h : madeFor path t = (.ok (), made)) :
    resultOn (writeOutput path text) t =
      match made.writeText path text with
      | .ok after => (.ok (), after)
      | .error fault => (.error (.notWritten path fault), made) := by
  rw [← resultOn_writeText, writeOutput]
  cases hpath : path.directories with
  | nil =>
    rw [madeFor, hpath] at h
    obtain ⟨_, rfl⟩ := Prod.mk.inj h
    rfl
  | cons nearest outer =>
    rw [madeFor, hpath] at h
    dsimp only
    rw [resultOn_bind, resultOn_attempt, h]
    rfl

/-! ## Whole runs -/

/-- Why the request fails: the first of its stages that does. -/
inductive FailsAt (request : GenerateRequest) (t : Tree) : Failure → Prop
  | configUnread {path : Path} {fault : Files.Fault} (hfile : configFile? request t = some path)
      (h : t.readText path = .error fault) : FailsAt request t (.configUnread path fault)
  | configMalformed {path : Path} {text : String} (hfile : configFile? request t = some path)
      (hread : t.readText path = .ok text) (h : Config.ofText? text = none) :
      FailsAt request t (.configMalformed path)
  | noDialect {config : Config} (hconfig : Loads request t config)
      (h : Settings.merge? request config = none) : FailsAt request t .noDialect
  | inputUnread {settings : Settings} {fault : Files.Fault} (hsettings : Settles request t settings)
      (h : t.readText request.input = .error fault) :
      FailsAt request t (.inputUnread request.input fault)
  | notGenerated {settings : Settings} {description : String} {error : GenerateError}
      (hsettings : Settles request t settings) (hread : t.readText request.input = .ok description)
      (h : generateFromText settings.options settings.dialect description = .error error) :
      FailsAt request t (.notGenerated error)
  | directoryNotMade {settings : Settings} {text : String} {path nearest : Path}
      {outer : List Path} {fault : Files.Fault} {made : Tree}
      (htext : Generates request t settings text) (hout : settings.out = some path)
      (hpath : path.directories = nearest :: outer) (h : madeFor path t = (.error fault, made)) :
      FailsAt request t (.directoryNotMade nearest fault)
  | notWritten {settings : Settings} {text : String} {path : Path} {fault : Files.Fault}
      {made : Tree} (htext : Generates request t settings text) (hout : settings.out = some path)
      (hmade : madeFor path t = (.ok (), made)) (h : made.writeText path text = .error fault) :
      FailsAt request t (.notWritten path fault)

/-- Nothing is different but that there may be new directories on the way to the output. -/
def KeepsFiles (request : GenerateRequest) (t after : Tree) : Prop :=
  (∀ place, after.content? place = t.content? place) ∧
  ∃ paths, Grows paths t after ∧ ∀ p ∈ paths, ∃ settings path,
    Settles request t settings ∧ settings.out = some path ∧ p ∈ path.directories

theorem keepsFiles_refl (request : GenerateRequest) (t : Tree) : KeepsFiles request t t :=
  ⟨fun _ => rfl, [], .refl [] t, by simp⟩

theorem grows_madeFor {path : Path} {made : Tree} {result : Except Files.Fault Unit}
    (h : madeFor path t = (result, made)) : Grows path.directories t made := by
  have hmade : made = (madeFor path t).2 := by rw [h]
  rw [hmade]
  exact Growing.makeDirectories (fun _ hp => hp) t

theorem keepsFiles_madeFor {settings : Settings} {path : Path} {made : Tree}
    {result : Except Files.Fault Unit} (hsettings : Settles request t settings)
    (hout : settings.out = some path) (h : madeFor path t = (result, made)) :
    KeepsFiles request t made := by
  have hgrows := grows_madeFor h
  exact ⟨hgrows.content?_eq, _, hgrows, fun p hp => ⟨settings, path, hsettings, hout, hp⟩⟩

theorem Generates.result {settings : Settings} {text : String}
    (h : Generates request t settings text) :
    resultOn (generate request) t =
      match settings.out with
      | none => (.ok text, t)
      | some path =>
        match resultOn (writeOutput path text) t with
        | (.ok _, after) => (.ok ("Generated " ++ path.text ++ "\n"), after)
        | (.error failure, after) => (.error failure, after) := by
  obtain ⟨⟨config, hconfig, hmerge⟩, description, hread, hgenerated⟩ := h
  simp only [resultOn_generate_of_loads hconfig, hmerge, hread, hgenerated]

/-- A request that fails does so with the failure of this stage, and does nothing to
files. -/
theorem FailsAt.result {failure : Failure} (h : FailsAt request t failure) :
    ∃ after, resultOn (generate request) t = (.error failure, after)
      ∧ KeepsFiles request t after := by
  have hkeeps := keepsFiles_refl request t
  cases h with
  | configUnread hfile h =>
    refine ⟨t, resultOn_generate_of_failed ?_, hkeeps⟩
    simp only [resultOn_loadConfig, hfile, resultOn_readConfig, h, Except.mapError]
  | configMalformed hfile hread h =>
    refine ⟨t, resultOn_generate_of_failed ?_, hkeeps⟩
    simp only [resultOn_loadConfig, hfile, resultOn_readConfig, hread, Except.mapError, h]
  | noDialect hconfig h => exact ⟨t, by simp only [resultOn_generate_of_loads hconfig, h], hkeeps⟩
  | inputUnread hsettings h =>
    obtain ⟨config, hconfig, hmerge⟩ := hsettings
    exact ⟨t, by simp only [resultOn_generate_of_loads hconfig, hmerge, h], hkeeps⟩
  | notGenerated hsettings hread h =>
    obtain ⟨config, hconfig, hmerge⟩ := hsettings
    exact ⟨t, by simp only [resultOn_generate_of_loads hconfig, hmerge, hread, h], hkeeps⟩
  | directoryNotMade htext hout hpath h =>
    refine ⟨_, ?_, keepsFiles_madeFor htext.1 hout h⟩
    simp only [htext.result, hout, resultOn_writeOutput_of_error hpath h]
  | notWritten htext hout hmade h =>
    refine ⟨_, ?_, keepsFiles_madeFor htext.1 hout hmade⟩
    simp only [htext.result, hout, resultOn_writeOutput_of_made hmade, h]

/-- A request fails at no stage if its text can be written. -/
theorem Generates.not_failsAt {settings : Settings} {text : String} {path : Path}
    {made after : Tree} (h : Generates request t settings text) (hout : settings.out = some path)
    (hmade : madeFor path t = (.ok (), made)) (hwrite : made.writeText path text = .ok after)
    (failure : Failure) : ¬FailsAt request t failure := by
  intro hfails
  obtain ⟨_, herror, _⟩ := hfails.result
  simp only [h.result, hout, resultOn_writeOutput_of_made hmade, hwrite] at herror
  cases herror

/-- If no stage fails then there is a text, and it is written if there is a place for it. -/
theorem generates_of_not_failsAt (h : ∀ failure, ¬FailsAt request t failure) :
    ∃ settings text, Generates request t settings text ∧ ∀ path, settings.out = some path →
      ∃ made after, madeFor path t = (.ok (), made) ∧ made.writeText path text = .ok after := by
  obtain ⟨config, hconfig⟩ : ∃ config, Loads request t config := by
    cases hfile : configFile? request t with
    | none => exact ⟨_, .absent hfile⟩
    | some path =>
      cases hread : t.readText path with
      | error fault => exact absurd (.configUnread hfile hread) (h _)
      | ok text =>
        cases hparsed : Config.ofText? text with
        | none => exact absurd (.configMalformed hfile hread hparsed) (h _)
        | some config => exact ⟨config, .present hfile hread hparsed⟩
  obtain ⟨settings, hsettings⟩ : ∃ settings, Settles request t settings := by
    cases hmerge : Settings.merge? request config with
    | none => exact absurd (.noDialect hconfig hmerge) (h _)
    | some settings => exact ⟨settings, config, hconfig, hmerge⟩
  obtain ⟨text, htext⟩ : ∃ text, Generates request t settings text := by
    cases hread : t.readText request.input with
    | error fault => exact absurd (.inputUnread hsettings hread) (h _)
    | ok description =>
      cases hgenerated : generateFromText settings.options settings.dialect description with
      | error error => exact absurd (.notGenerated hsettings hread hgenerated) (h _)
      | ok text => exact ⟨text, hsettings, description, hread, hgenerated⟩
  refine ⟨settings, text, htext, fun path hout => ?_⟩
  cases hmade : madeFor path t with
  | mk result made =>
    cases result with
    | error fault =>
      -- there must be directories to make for one of them not to be made
      cases hpath : path.directories with
      | nil =>
        rw [madeFor, hpath] at hmade
        cases hmade
      | cons nearest outer => exact absurd (.directoryNotMade htext hout hpath hmade) (h _)
    | ok _ =>
      cases hwrite : made.writeText path text with
      | error fault => exact absurd (.notWritten htext hout hmade hwrite) (h _)
      | ok after => exact ⟨made, after, rfl, hwrite⟩

/-- The text is in the file that the path leads to, and no other file is different. -/
structure Wrote (path : Path) (text : String) (t after : Tree) : Prop where
  reads : after.readText path = .ok text
  only : ∃ place, after.LeadsTo path place ∧ after.content? place = some text.toUTF8
    ∧ ∀ other, other ≠ place → after.content? other = t.content? other

theorem wrote {path : Path} {text : String} {made after : Tree}
    (hmade : madeFor path t = (.ok (), made)) (hwrite : made.writeText path text = .ok after) :
    Wrote path text t after := by
  obtain ⟨hreads, place, hleads, hplace, hothers⟩ := Files.Tree.readText_of_writeText hwrite
  refine ⟨hreads, place, hleads, hplace, fun other hother => ?_⟩
  rw [← (grows_madeFor hmade).content?_eq other, Files.Tree.content?, Files.Tree.content?,
    hothers other hother]

theorem run_of_generate {arguments : List String}
    (h : Request.ofArguments? arguments = some (.generate request)) (t : Tree) :
    StateT.run (run arguments : OnTree Outcome) t =
      match resultOn (generate request) t with
      | (.ok output, after) => ({ output }, after)
      | (.error failure, after) =>
        ({ code := 1, errors := failure.message ++ "\n" }, after) := by
  rw [run, h]
  show StateT.run ((generate request).run >>= _ : OnTree Outcome) t = _
  have hresult : StateT.run ((generate request).run : OnTree (Except Failure String)) t
      = resultOn (generate request) t := rfl
  rw [StateT.run_bind, hresult]
  obtain ⟨result, after⟩ := resultOn (generate request) t
  cases result <;> rfl

/-- **All or nothing.** A request to generate a module fails if one of its stages does:
then it ends with code 1, prints nothing but the reason, and no file is created or
changed. Otherwise it ends with code 0, and the text that is generated from the input as
it was is printed, with nothing different in the tree, or it is in the file that the path
of the output leads to, and no other file is different. -/
theorem run_writes_all_or_nothing {arguments : List String}
    (harguments : Request.ofArguments? arguments = some (.generate request)) (t : Tree) :
    (∀ failure, FailsAt request t failure → ∃ after,
      StateT.run (run arguments : OnTree Outcome) t
          = ({ code := 1, output := "", errors := failure.message ++ "\n" }, after)
        ∧ KeepsFiles request t after) ∧
    ((∀ failure, ¬FailsAt request t failure) →
      ∃ settings text, Generates request t settings text ∧
        ((settings.out = none ∧ StateT.run (run arguments : OnTree Outcome) t
            = ({ code := 0, output := text, errors := "" }, t)) ∨
          ∃ path after, settings.out = some path ∧ StateT.run (run arguments : OnTree Outcome) t
              = ({ code := 0, output := "Generated " ++ path.text ++ "\n", errors := "" }, after)
            ∧ Wrote path text t after)) := by
  rw [run_of_generate harguments]
  constructor
  · intro failure h
    obtain ⟨after, hresult, hkeeps⟩ := h.result
    exact ⟨after, by rw [hresult], hkeeps⟩
  · intro h
    obtain ⟨settings, text, htext, hwritten⟩ := generates_of_not_failsAt h
    refine ⟨settings, text, htext, ?_⟩
    cases hout : settings.out with
    | none => exact .inl ⟨rfl, by simp only [htext.result, hout]⟩
    | some path =>
      obtain ⟨made, after, hmade, hwrite⟩ := hwritten path hout
      refine .inr ⟨path, after, rfl, ?_, wrote hmade hwrite⟩
      simp only [htext.result, hout, resultOn_writeOutput_of_made hmade, hwrite]

/-- A description of no tables. -/
def noTables : String := Text.openBrace ++ "\"tables\":[]" ++ Text.closeBrace

/-- The description is in the file that its module is to be written to. -/
def overwritten : Tree where
  entries := [(["db.json"], .file noTables.toUTF8)]

/-- The file is both read and written. -/
def overwriting : GenerateRequest where
  input := ⟨false, ["db.json"]⟩
  dialect := some .bigQuery
  out := some ⟨false, ["db.json"]⟩

theorem readText_overwritten :
    overwritten.readText ⟨false, ["db.json"]⟩ = .ok noTables :=
  Files.Tree.readText_of_find rfl

/-- Nothing can clash in a description of no tables. -/
theorem generateFromText_of_no_tables (options : StaticType.Options) (d : Dialect) :
    ∃ text, generateFromText options d noTables = .ok text := by
  obtain ⟨c, hcatalog, hwell⟩ := d.exists_catalog
  have hassemble : Assembly.assemble c { tables := [] } = .ok (Assembly.assembled c _) :=
    Assembly.assemble_eq_ok_iff.mpr ⟨by rw [Assembly.clash?, Assembly.ordered_nil]; rfl, rfl⟩
  obtain ⟨text, htext⟩ :=
    Module.text_ok_of_wellFormed options (Assembly.assembled_wellFormed hwell { tables := [] })
  have hread : Database.read noTables = .ok { tables := [] } := by decide +kernel
  refine ⟨text, ?_⟩
  rw [generateFromText, hread]
  show SchemaTypes.generate options d { tables := [] } = _
  rw [SchemaTypes.generate, hcatalog]
  show (do
    let statements ← (Assembly.assemble c { tables := [] }).mapError GenerateError.build
    (Module.text options statements).mapError .render) = _
  rw [hassemble]
  show (Module.text options _).mapError GenerateError.render = _
  rw [htext]
  rfl

theorem generates_overwriting :
    ∃ text, Generates overwriting overwritten ⟨.bigQuery, {}, some ⟨false, ["db.json"]⟩⟩ text := by
  obtain ⟨text, htext⟩ := generateFromText_of_no_tables {} .bigQuery
  have hfile : configFile? overwriting overwritten = none := by decide
  exact ⟨text, ⟨{}, .absent hfile, rfl⟩, _, readText_overwritten, htext⟩

theorem not_failsAt_overwriting (failure : Failure) :
    ¬FailsAt overwriting overwritten failure := by
  obtain ⟨text, htext⟩ := generates_overwriting
  have hwrite : overwritten.writeText ⟨false, ["db.json"]⟩ text
      = .ok (overwritten.put ["db.json"] (.file text.toUTF8)) :=
    Files.Tree.writeText_eq_ok_iff.mpr
      ⟨["db.json"], rfl, by decide, by simp [overwritten, Tree.at?], rfl⟩
  exact htext.not_failsAt rfl rfl hwrite failure

theorem run_writes_all_or_nothing_overwriting :
    Request.ofArguments? ["generate", "-i", "db.json", "-d", "bigquery", "-o", "db.json"]
        = some (.generate overwriting) ∧
      (∀ failure, ¬FailsAt overwriting overwritten failure) ∧
      ∃ settings text path after, Generates overwriting overwritten settings text ∧
        StateT.run (run ["generate", "-i", "db.json", "-d", "bigquery", "-o", "db.json"]
            : OnTree Outcome) overwritten
          = ({ output := "Generated " ++ path.text ++ "\n" }, after) ∧
        Wrote path text overwritten after := by
  have harguments : Request.ofArguments?
      ["generate", "-i", "db.json", "-d", "bigquery", "-o", "db.json"]
        = some (.generate overwriting) := by decide
  refine ⟨harguments, not_failsAt_overwriting, ?_⟩
  obtain ⟨settings, text, htext, ⟨hout, _⟩ | ⟨path, after, _, hrun, hwrote⟩⟩ :=
    (run_writes_all_or_nothing harguments overwritten).2 not_failsAt_overwriting
  · obtain ⟨config, _, hmerge⟩ := htext.1
    cases hmerge
    cases hout
  · exact ⟨settings, text, path, after, htext, hrun, hwrote⟩

end SchemaTypes.CommandLine
