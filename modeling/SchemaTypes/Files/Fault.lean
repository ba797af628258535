/-!
# Faults of a file system

Why a file or directory was not read, made or written.
-/

namespace SchemaTypes.Files

/-- Why an operation on a file system failed. -/
inductive Fault
  | notFound
  | alreadyExists
  /-- A part of the path leads through a file. -/
  | notDirectory
  | isDirectory
  /-- The content of the file is not UTF-8. -/
  | notText
  | nameTooLong
  /-- No file can have this name. -/
  | badName
  /-- Any other reason, in words. -/
  | other (message : String)
  deriving DecidableEq, Repr

/-- The fault, in words. -/
def Fault.message : Fault → String
  | .notFound => "No such file or directory (os error 2)"
  | .alreadyExists => "File exists (os error 17)"
  | .notDirectory => "Not a directory (os error 20)"
  | .isDirectory => "Is a directory (os error 21)"
  | .nameTooLong => "File name too long (os error 36)"
  | .notText => "stream did not contain valid UTF-8"
  | .badName => "file name contained an unexpected NUL byte"
  | .other message => message

end SchemaTypes.Files
