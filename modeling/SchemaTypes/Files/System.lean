import SchemaTypes.Files.Tree

/-!
# File systems

What a program can do with files, in any monad: the state of a file tree gives the
operations their meaning, and the operating system carries them out. There are only the
operations that a run needs. Who may read a file, links between files and what other programs
do to them in the meantime are left out.
-/

namespace SchemaTypes.Files

/-- The operations on files in a monad. -/
class System (m : Type → Type) where
  /-- The path of the directory from which paths start. -/
  workingDirectory : m (Except Fault Path)
  /-- Whether something stands at a path. -/
  isPresent : Path → m Bool
  /-- Whether a directory stands at a path. -/
  isDirectory : Path → m Bool
  /-- The text of a file. -/
  readText : Path → m (Except Fault String)
  /-- Makes one directory. -/
  makeDirectory : Path → m (Except Fault Unit)
  /-- Makes or replaces the text of a file. -/
  writeText : Path → String → m (Except Fault Unit)

/-- Makes the first of these directories, and before it those of the others that it
lies in and that do not stand yet. -/
def makeDirectories {m : Type → Type} [Monad m] [System m] : List Path → m (Except Fault Unit)
  | [] => return .ok ()
  | path :: outer => do
    match ← System.makeDirectory path with
    | .ok () => return .ok ()
    | .error .notFound =>
      match ← makeDirectories outer with
      | .error fault => return .error fault
      | .ok () => settle path (← System.makeDirectory path)
    | .error fault => settle path (.error fault)
where
  /-- A directory that stands already needs not be made. -/
  settle (path : Path) (result : Except Fault Unit) : m (Except Fault Unit) := do
    match result with
    | .ok () => return .ok ()
    | .error fault => return if ← System.isDirectory path then .ok () else .error fault

/-! ## The operations on a tree -/

/-- A computation on a file tree. -/
abbrev OnTree : Type → Type := StateM Tree

/-- Changes the tree, unless that fails. -/
def OnTree.change (f : Tree → Except Fault Tree) : OnTree (Except Fault Unit) := fun t =>
  match f t with
  | .ok t => (.ok (), t)
  | .error fault => (.error fault, t)

instance : System OnTree where
  workingDirectory := fun t => (.ok ⟨true, t.workingDirectory⟩, t)
  isPresent p := fun t => (t.isPresent p, t)
  isDirectory p := fun t => (t.isDirectory p, t)
  readText p := fun t => (t.readText p, t)
  makeDirectory p := OnTree.change fun t => t.makeDirectory p
  writeText p text := OnTree.change fun t => t.writeText p text

end SchemaTypes.Files
