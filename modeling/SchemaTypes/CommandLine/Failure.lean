import SchemaTypes.Files.Fault
import SchemaTypes.Files.Path
import SchemaTypes.Generation

/-!
# Failures of the program

Why a request to generate a module was not carried out.
-/

namespace SchemaTypes.CommandLine

/-- Why a module was not generated. -/
inductive Failure
  | noWorkingDirectory (fault : Files.Fault)
  | configUnread (path : Files.Path) (fault : Files.Fault)
  | configMalformed (path : Files.Path)
  | noDialect
  | inputUnread (path : Files.Path) (fault : Files.Fault)
  | notGenerated (error : GenerateError)
  | directoryNotMade (path : Files.Path) (fault : Files.Fault)
  | notWritten (path : Files.Path) (fault : Files.Fault)
  deriving DecidableEq, Repr

/-- The failure, in words. -/
def Failure.message : Failure → String
  | .noWorkingDirectory fault => "Failed to determine working directory: " ++ fault.message
  | .configUnread path fault => "Failed to read config " ++ path.text ++ ": " ++ fault.message
  | .configMalformed path => "Failed to parse config " ++ path.text
  | .noDialect => "No dialect given. Pass --dialect or set `dialect` in typegen.toml"
  | .inputUnread path fault => "Failed to read " ++ path.text ++ ": " ++ fault.message
  | .notGenerated error => "Failed to generate types: " ++ error.message
  | .directoryNotMade path fault => "Failed to create " ++ path.text ++ ": " ++ fault.message
  | .notWritten path fault => "Failed to write " ++ path.text ++ ": " ++ fault.message

end SchemaTypes.CommandLine
