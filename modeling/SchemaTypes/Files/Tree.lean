import SchemaTypes.Files.Fault
import SchemaTypes.Files.Path

/-!
# File trees

A file tree says what stands at each place: a file with its content, or a directory.
A place is the list of names on the way from the root. Paths are followed part by
part: every part but the last has to lead to a directory, `..` leads one directory up,
and the root lies in itself.
-/

namespace SchemaTypes.Files

/-- The names on the way from the root. -/
abbrev Place : Type := List String

/-- What stands at a place. -/
inductive Entry
  | file (content : ByteArray)
  | directory

/-- What stands at each place, and the place from which paths start. -/
structure Tree where
  entries : List (Place × Entry) := []
  workingDirectory : Place := []

namespace Tree

/-- What stands at a place; the root is a directory. -/
def at? (t : Tree) (place : Place) : Option Entry :=
  if place = [] then some .directory else t.entries.lookup place

/-- Whether a directory stands at a place. -/
def hasDirectory (t : Tree) (place : Place) : Bool :=
  match t.at? place with
  | some .directory => true
  | _ => false

/-- The tree with something put at a place, where it replaces what stood there. -/
def put (t : Tree) (place : Place) (entry : Entry) : Tree :=
  { t with entries := (place, entry) :: t.entries.filter fun e => e.1 != place }

/-- The number of bytes that a name may have. -/
def longestName : Nat := 255

/-- The place to which a part of a path leads; nothing need stand there. -/
def step (t : Tree) (place : Place) (part : String) : Except Fault Place :=
  match t.at? place with
  | none => .error .notFound
  | some (.file _) => .error .notDirectory
  | some .directory =>
    if part = "" ∨ part = "." then .ok place
    else if part = ".." then .ok place.dropLast
    else if longestName < part.utf8ByteSize then .error .nameTooLong
    else .ok (place ++ [part])

/-- The place to which the parts of a path lead. -/
def walk (t : Tree) (place : Place) (parts : List String) : Except Fault Place :=
  parts.foldlM t.step place

/-- The place where a path starts. -/
def start (t : Tree) (p : Path) : Except Fault Place :=
  if p.isEmpty then .error .notFound
  else if p.hasNul then .error .badName
  else if p.isTooLong then .error .nameTooLong
  else .ok (if p.rooted then [] else t.workingDirectory)

/-- What stands at a path. -/
def find (t : Tree) (p : Path) : Except Fault Entry := do
  match t.at? (← t.walk (← t.start p) p.parts) with
  | some entry => return entry
  | none => throw .notFound

/-- The last part of a path can be the name of something new. -/
def isName (part : String) : Bool := part != "." && part != ".."

/-- The place to which a path leads, whatever slashes it ends with, and whether its last
part is a name. -/
def target (t : Tree) (p : Path) : Except Fault (Place × Bool) := do
  let parts := (p.parts.reverse.dropWhile (· == "")).reverse
  return (← t.walk (← t.start p) parts, (parts.getLast?.map isName).getD false)

/-! ## Operations -/

/-- Whether something stands at a path. -/
def isPresent (t : Tree) (p : Path) : Bool :=
  match t.find p with
  | .ok _ => true
  | .error _ => false

/-- Whether a directory stands at a path. -/
def isDirectory (t : Tree) (p : Path) : Bool :=
  match t.find p with
  | .ok .directory => true
  | _ => false

/-- The text of the file at a path. -/
def readText (t : Tree) (p : Path) : Except Fault String := do
  match ← t.find p with
  | .directory => throw .isDirectory
  | .file content =>
    match String.fromUTF8? content with
    | some text => return text
    | none => throw .notText

/-- The tree with a new directory at a path. -/
def makeDirectory (t : Tree) (p : Path) : Except Fault Tree := do
  let (place, named) ← t.target p
  if named && (t.at? place).isNone then return t.put place .directory
  else throw .alreadyExists

/-- The tree with this text in the file at a path, be it a new one or not. -/
def writeText (t : Tree) (p : Path) (text : String) : Except Fault Tree := do
  let (place, named) ← t.target p
  if !named || p.parts.getLast? == some "" || t.hasDirectory place then
    throw .isDirectory
  else return t.put place (.file text.toUTF8)

end Tree

end SchemaTypes.Files
