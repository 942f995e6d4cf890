import MeshLens.FileEntry

/-!
# File systems

What a run asks of a file system. The effects are those of a monad that is left open, so that a run
is the same over the disk and over a tree of files in memory. A directory is made together with
those above it that are missing.
-/

namespace MeshLens

/-- What can be asked of a file system. -/
structure FileSystem (m : Type → Type) where
  /-- The working directory. -/
  here : m Path
  /-- Digits that tell the files of one run from those of another. -/
  stamp : m Text
  /-- What is found at a path that files can have. -/
  look : Text → m FileEntry
  /-- Makes one directory, at a path that files can have. -/
  makeDirectory : Text → m (Except FileError Unit)

namespace FileSystem

variable {m : Type → Type} [Monad m] (fs : FileSystem m)

/-- What is found at a path. -/
def find (path : Text) : m FileEntry :=
  match NameFault.of? path with
  | some fault => pure (.unnameable fault)
  | none => fs.look path

/-- Makes one directory. -/
def make (path : Path) : m (Except FileError Unit) :=
  match NameFault.of? path.text with
  | some fault => pure (.error (.unnameable fault))
  | none => fs.makeDirectory path.text

/-- What it means that a directory was not made: nothing when there is one already. -/
def excuse (path : Path) (error : FileError) : m (Except FileFault Unit) := do
  match ← fs.find path.text with
  | .directory => return .ok ()
  | _ => return .error ⟨path, error⟩

/-- Makes one directory that may be there already. -/
def ensure (path : Path) : m (Except FileFault Unit) := do
  match ← fs.make path with
  | .ok () => return .ok ()
  | .error e => fs.excuse path e

/-- Makes a directory with so many of those above it at most, from the names of its path, the last
one first. -/
def ensureWithin (root : Text) : Nat → List Text → m (Except FileFault Unit)
  | _, [] => fs.ensure { root }
  | limit, name :: above => do
    let path : Path := { root, parts := (name :: above).reverse }
    match ← fs.make path with
    | .ok () => return .ok ()
    | .error .absent =>
      match limit with
      | 0 => return .error ⟨path, .tooDeep⟩
      | limit + 1 =>
        match ← ensureWithin root limit above with
        | .error fault => return .error fault
        | .ok () => fs.ensure path
    | .error e => fs.excuse path e

/-- The most directories that are made at once. -/
def depthLimit : Nat := 978

/-- Makes a directory with all those above it. -/
def ensureAll (path : Path) : m (Except FileFault Unit) :=
  fs.ensureWithin path.root depthLimit path.parts.reverse

end FileSystem

end MeshLens
