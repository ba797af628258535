/-!
# Paths

A path names a file or a directory by the parts between its slashes. It starts at the
root if a slash stands in front of it, and in the working directory otherwise. The
parts are kept as they were written, so that a path can be shown again, though empty
parts and single dots lead nowhere else.
-/

namespace SchemaTypes.Files

/-- A path, by the parts between its slashes. -/
structure Path where
  rooted : Bool
  parts : List String
  deriving DecidableEq, Repr

namespace Path

/-- The characters before the first slash, and the parts between and behind the
slashes. -/
def split : List Char → List Char × List (List Char)
  | [] => ([], [])
  | c :: cs =>
    let (first, others) := split cs
    if c = '/' then ([], first :: others) else (c :: first, others)

/-- The path that is written so. -/
def ofText (text : String) : Path :=
  match split text.toList with
  | ([], first :: others) => ⟨true, (first :: others).map String.ofList⟩
  | (first, others) => ⟨false, (first :: others).map String.ofList⟩

/-- The path as it was written. -/
def text (p : Path) : String :=
  (if p.rooted then "/" else "") ++ "/".intercalate p.parts

/-- Whether nothing is written. -/
def isEmpty (p : Path) : Bool :=
  !p.rooted && p.parts.all (· == "")

/-- Whether the path takes more bytes than a system call does. -/
def isTooLong (p : Path) : Bool :=
  4095 < p.text.utf8ByteSize

/-- Whether the path has a character that no name can have. -/
def hasNul (p : Path) : Bool :=
  p.parts.any fun part => part.toList.contains '\x00'

/-- The path of a name in a directory; in the one with the empty path it is the name
alone. -/
def append (p : Path) (name : String) : Path :=
  if p.isEmpty then ⟨false, [name]⟩
  else if p.parts.getLast? = some "" then ⟨p.rooted, p.parts.dropLast ++ [name]⟩
  else ⟨p.rooted, p.parts ++ [name]⟩

/-! ## Ancestors -/

/-- Whether a part leads nowhere else: an empty one does not, nor does a dot, except
for one that opens a path from the working directory. -/
def isIdle (rooted : Bool) (part : String) (before : List String) : Bool :=
  part == "" || (part == "." && (rooted || !before.isEmpty))

/-- The path with these parts, from the last to the first, and the paths of the
directories that it lies in, from the nearest to the farthest. -/
def lineage (rooted : Bool) : List String → List Path
  | [] => []
  | part :: before =>
    if isIdle rooted part before then lineage rooted before
    else ⟨rooted, (part :: before).reverse⟩ :: lineage rooted before

/-- The directories on a path to a file, from the nearest to the farthest; the root is
left out, and so is the working directory unless a dot is written for it. -/
def directories (p : Path) : List Path :=
  (lineage p.rooted p.parts.reverse).tail

end Path

end SchemaTypes.Files
