import SchemaTypes.CommandLine.Run

/-!
# The program

Runs the command line on the files of the operating system.
-/

namespace SchemaTypes

namespace Files

/-- The fault with this number, which may be negated, and this description. -/
def Fault.ofNumber (number : UInt32) (description : String) : Fault :=
  let number := min number (-number)
  if number = 2 then .notFound
  else if number = 17 then .alreadyExists
  else if number = 20 then .notDirectory
  else if number = 21 then .isDirectory
  else if number = 36 then .nameTooLong
  else .other (description ++ " (os error " ++ toString number ++ ")")

/-- The fault that the operating system reports. -/
def Fault.ofError : IO.Error → Fault
  | .noFileOrDirectory _ number description
  | .interrupted _ number description
  | .alreadyExists _ number description
  | .invalidArgument _ number description
  | .permissionDenied _ number description
  | .resourceExhausted _ number description
  | .inappropriateType _ number description
  | .noSuchThing _ number description
  | .otherError number description
  | .resourceBusy number description
  | .resourceVanished number description
  | .unsupportedOperation number description
  | .hardwareFault number description
  | .unsatisfiedConstraints number description
  | .illegalOperation number description
  | .protocolError number description
  | .timeExpired number description => .ofNumber number description
  | .unexpectedEof => .other "unexpected end of file"
  | .userError description => .other description

/-- Does something at a path, and reports how it fails. -/
def performAt {α : Type} (p : Path) (act : IO (Except Fault α)) : IO (Except Fault α) := do
  if p.hasNul then return .error .badName
  try act catch e => return .error (.ofError e)

instance : System IO where
  workingDirectory := do
    try return .ok (.ofText (← IO.currentDir).toString)
    catch e => return .error (.ofError e)
  isPresent p := do
    if p.isEmpty || p.hasNul then return false
    ((← IO.currentDir) / p.text).pathExists
  isDirectory p := do
    if p.isEmpty || p.hasNul then return false
    ((← IO.currentDir) / p.text).isDir
  readText p := performAt p do
    match String.fromUTF8? (← IO.FS.readBinFile p.text) with
    | some text => return .ok text
    | none => return .error .notText
  makeDirectory p := performAt p do
    IO.FS.createDir p.text
    return .ok ()
  writeText p text := performAt p do
    IO.FS.writeFile p.text text
    return .ok ()

end Files

end SchemaTypes

/-- Runs the program. -/
def main (arguments : List String) : IO UInt32 := do
  let outcome : SchemaTypes.CommandLine.Outcome ← SchemaTypes.CommandLine.run arguments
  (← IO.getStdout).putStr outcome.output
  (← IO.getStderr).putStr outcome.errors
  return outcome.code.toUInt32
