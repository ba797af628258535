import SchemaTypes.CommandLine.Help
import SchemaTypes.Dialect
import SchemaTypes.Files.Path

/-!
# Requests

What the arguments of the program ask for. Arguments are read from the left, and the
first one that asks for help or is out of place decides. The value of an option is the
rest of its argument, behind an equals sign or, for the short form, directly, or else
the next argument, which then may not look like an option.
-/

namespace SchemaTypes.CommandLine

/-- What the arguments of `generate` say. -/
structure GenerateRequest where
  input : Files.Path
  dialect : Option Dialect := none
  out : Option Files.Path := none
  config : Option Files.Path := none
  typeOnlyImports : Bool := false
  deriving DecidableEq, Repr

/-- What the program is asked for. -/
inductive Request
  /-- Nothing: it introduces itself. -/
  | nothing
  | help (page : Page)
  | version
  | dialects
  | generate (request : GenerateRequest)
  deriving DecidableEq, Repr

/-! ## Options -/

/-- An option of `generate` that takes a value. -/
inductive Setting
  | input
  | dialect
  | out
  | config
  deriving DecidableEq, Repr

namespace Setting

/-- The options and their long names. -/
def longNames : List (List Char × Setting) :=
  [("input".toList, input), ("dialect".toList, dialect), ("out".toList, out),
   ("config".toList, config)]

/-- The options and their short names. -/
def shortNames : List (Char × Setting) :=
  [('i', input), ('d', dialect), ('o', out), ('c', config)]

/-- The option that an argument names, and the value that is attached to it. -/
def ofArgument? (argument : String) : Option (Setting × Option String) :=
  match argument.toList with
  | '-' :: '-' :: cs =>
    (longNames.lookup (cs.takeWhile (· != '='))).map fun s =>
      (s, match cs.dropWhile (· != '=') with
        | [] => none
        | _ :: value => some (String.ofList value))
  | '-' :: c :: cs =>
    (shortNames.lookup c).map fun s =>
      (s, match cs with
        | [] => none
        | '=' :: value => some (String.ofList value)
        | value => some (String.ofList value))
  | _ => none

end Setting

/-- Whether an argument asks for help. -/
def asksForHelp (argument : String) : Bool :=
  argument == "--help" || ['-', 'h'].isPrefixOf argument.toList

/-- Whether an argument asks for the version. -/
def asksForVersion (argument : String) : Bool :=
  argument == "--version" || ['-', 'V'].isPrefixOf argument.toList

/-- Whether an argument can be the value of the option before it: all can that do not
start with a dash, and a dash alone. -/
def isValue (argument : String) : Bool :=
  match argument.toList with
  | '-' :: _ :: _ => false
  | _ => true

/-! ## The arguments of `generate` -/

/-- What the arguments of `generate` have said so far. -/
structure Draft where
  input : Option Files.Path := none
  dialect : Option Dialect := none
  out : Option Files.Path := none
  config : Option Files.Path := none
  typeOnlyImports : Bool := false

namespace Draft

/-- The draft with the value of an option; none if the option has one already or cannot
have this one. -/
def assign (d : Draft) (s : Setting) (value : String) : Option Draft :=
  if value = "" then none
  else match s with
    | .input => if d.input.isSome then none else some { d with input := some (.ofText value) }
    | .dialect =>
      if d.dialect.isSome then none
      else (Dialect.ofName? value).map fun dialect => { d with dialect := some dialect }
    | .out => if d.out.isSome then none else some { d with out := some (.ofText value) }
    | .config => if d.config.isSome then none else some { d with config := some (.ofText value) }

/-- The request, if nothing is missing. -/
def finish (d : Draft) : Option Request :=
  d.input.map fun input =>
    .generate { d with input }

/-- The request of these arguments, behind those of the draft. -/
def read (d : Draft) : List String → Option Request
  | [] => d.finish
  | ["--"] => d.finish
  | argument :: rest =>
    if asksForHelp argument then some (.help .generate)
    else if argument = "--type-only-imports" then
      if d.typeOnlyImports then none else read { d with typeOnlyImports := true } rest
    else match Setting.ofArgument? argument, rest with
      | some (s, some value), rest => (d.assign s value).bind fun d => d.read rest
      | some (s, none), value :: rest =>
        if isValue value then (d.assign s value).bind fun d => d.read rest else none
      | _, _ => none

end Draft

/-! ## All arguments -/

namespace Request

/-- The page that `help` shows. -/
def helpOn : List String → Option Request
  | [] => some (.help .program)
  | ["generate"] => some (.help .generate)
  | ["dialects"] => some (.help .dialects)
  | ["help"] => some (.help .help)
  | _ => none

/-- The request of the arguments behind `dialects`. -/
def listing : List String → Option Request
  | [] => some .dialects
  | ["--"] => some .dialects
  | argument :: _ => if asksForHelp argument then some (.help .dialects) else none

/-- What the arguments ask for, if they are in order. -/
def ofArguments? : List String → Option Request
  | [] => some .nothing
  | ["--"] => some .nothing
  | "help" :: rest => helpOn rest
  | "dialects" :: rest => listing rest
  | "generate" :: rest => Draft.read {} rest
  | argument :: _ =>
    if asksForHelp argument then some (.help .program)
    else if asksForVersion argument then some .version
    else none

end Request

end SchemaTypes.CommandLine
