import SchemaTypes.CommandLine.Failure
import SchemaTypes.CommandLine.Request
import SchemaTypes.Config
import SchemaTypes.Files.System

/-!
# Running the program

A request to generate a module is carried out in five steps: the settings are loaded
and merged with the arguments, the description is read, the module is generated, and it
is written to a file or printed. The first step that fails ends the run, and nothing is
written before the last. An argument goes before a setting of the file, but either of them is
enough to ask for imports of types only (`Settings.merge?_eq_some_iff`).

What a run prints is part of its outcome and is only printed at its end. A run keeps no log
of what it does.
-/

namespace SchemaTypes.CommandLine

open Files (Path System)

/-- What a run prints, and the code that it ends with. -/
structure Outcome where
  code : UInt8 := 0
  output : String := ""
  errors : String := ""
  deriving DecidableEq, Repr

/-- The settings of a run: those of the arguments, and those of the file where the
arguments have none. -/
structure Settings where
  dialect : Dialect
  options : StaticType.Options
  out : Option Path

/-- The settings of a request and a file; none if neither names a dialect. -/
def Settings.merge? (request : GenerateRequest) (config : Config) : Option Settings :=
  (request.dialect.or config.dialect).map fun dialect => {
    dialect
    options := {
      typeOnlyImports := request.typeOnlyImports || config.typeOnlyImports.getD false }
    out := request.out.or (config.outFile.map Path.ofText) }

namespace Settings

variable {request : GenerateRequest} {config : Config}

/-- Where the settings come from: the arguments decide before the file, except that either
of them can ask for imports of types only. -/
theorem merge?_eq_some_iff {settings : Settings} :
    merge? request config = some settings ↔
      (request.dialect = some settings.dialect
        ∨ request.dialect = none ∧ config.dialect = some settings.dialect)
      ∧ (settings.options.typeOnlyImports ↔
        request.typeOnlyImports ∨ config.typeOnlyImports = some true)
      ∧ (∀ path, settings.out = some path ↔
        request.out = some path
          ∨ request.out = none ∧ ∃ text, config.outFile = some text ∧ Path.ofText text = path) := by
  obtain ⟨dialect, ⟨typeOnlyImports⟩, out⟩ := settings
  have hdialect : request.dialect.or config.dialect = some dialect ↔
      request.dialect = some dialect ∨ request.dialect = none ∧ config.dialect = some dialect :=
    Option.or_eq_some_iff
  have htypes : (request.typeOnlyImports || config.typeOnlyImports.getD false) = true ↔
      request.typeOnlyImports ∨ config.typeOnlyImports = some true := by
    rw [Bool.or_eq_true]
    cases config.typeOnlyImports <;> simp
  have hout : ∀ path, request.out.or (config.outFile.map Path.ofText) = some path ↔
      request.out = some path
        ∨ request.out = none ∧ ∃ text, config.outFile = some text ∧ Path.ofText text = path := by
    intro path
    rw [Option.or_eq_some_iff, Option.map_eq_some_iff]
  rw [merge?, Option.map_eq_some_iff]
  simp only [Settings.mk.injEq, StaticType.Options.mk.injEq]
  constructor
  · intro h
    obtain ⟨d, hd, rfl, rfl, rfl⟩ := h
    exact ⟨hdialect.mp hd, htypes, hout⟩
  · intro h
    obtain ⟨hd, htypes', hout'⟩ := h
    exact ⟨dialect, hdialect.mpr hd, rfl, Bool.eq_iff_iff.mpr (htypes.trans htypes'.symm),
      Option.ext fun path => (hout path).trans (hout' path).symm⟩

/-- There are no settings exactly if no dialect is named. -/
theorem merge?_eq_none_iff :
    merge? request config = none ↔ request.dialect = none ∧ config.dialect = none := by
  rw [merge?, Option.map_eq_none_iff, Option.or_eq_none_iff]

end Settings

variable {m : Type → Type} [Monad m] [System m]

/-- Does something with files, and fails as it fails. -/
def attempt {α : Type} (operation : m (Except Files.Fault α)) (failure : Files.Fault → Failure) :
    ExceptT Failure m α :=
  ExceptT.mk do return (← operation).mapError failure

/-- The settings in a file. -/
def readConfig (path : Path) : ExceptT Failure m Config := do
  let text ← attempt (System.readText path) (.configUnread path)
  match Config.ofText? text with
  | some config => return config
  | none => throw (.configMalformed path)

/-- The settings in the file that is named, or else in the one in this directory that
has the usual name; none are set if there is no such file. -/
def loadConfig (named : Option Path) (directory : Path) : ExceptT Failure m Config := do
  match named with
  | some path => readConfig path
  | none =>
    let path := directory.append Config.defaultFile
    if ← ExceptT.lift (System.isPresent path) then readConfig path else return {}

/-- Writes a text to a file, in directories that are made if need be. -/
def writeOutput (path : Path) (text : String) : ExceptT Failure m Unit := do
  match path.directories with
  | [] => pure ()
  | nearest :: outer =>
    attempt (Files.makeDirectories (nearest :: outer)) (.directoryNotMade nearest)
  attempt (System.writeText path text) (.notWritten path)

/-- Carries out a request to generate a module, and says what is to be printed. -/
def generate (request : GenerateRequest) : ExceptT Failure m String := do
  let directory ← attempt System.workingDirectory .noWorkingDirectory
  let config ← loadConfig request.config directory
  let some settings := Settings.merge? request config
    | throw .noDialect
  let description ← attempt (System.readText request.input) (.inputUnread request.input)
  match generateFromText settings.options settings.dialect description, settings.out with
  | .error error, _ => throw (.notGenerated error)
  | .ok text, none => return text
  | .ok text, some path =>
    writeOutput path text
    return "Generated " ++ path.text ++ "\n"

/-- What is said of arguments that are not in order. -/
def usageErrors : String :=
  "error: invalid arguments\n\n" ++ Page.program.usage
    ++ "\n\nFor more information, try '--help'.\n"

/-- Runs the program with these arguments. -/
def run (arguments : List String) : m Outcome := do
  match Request.ofArguments? arguments with
  | none => return { code := 2, errors := usageErrors }
  | some .nothing => return { output := Page.program.text ++ "\n" }
  | some (.help page) => return { output := page.text }
  | some .version => return { output := versionText }
  | some .dialects => return { output := String.join (Dialect.all.map fun d => d.name ++ "\n") }
  | some (.generate request) =>
    match ← (generate request).run with
    | .ok output => return { output }
    | .error failure => return { code := 1, errors := failure.message ++ "\n" }

end SchemaTypes.CommandLine
