import MeshLens.Entries
import MeshLens.FileSystem
import MeshLens.Text.Basic

/-!
# Trees of files

A file system in memory. A path is walked name by name from the working directory or, when it
begins with a slash, from the root; a step up from the root stays there. Main statement: what is
put into a tree is found at its names.
-/

namespace MeshLens

/-- A file or a directory. -/
inductive FileNode
  | file (text : Text)
  | directory (entries : List (Text × FileNode))

namespace FileNode

/-- The entries of a directory; a file has none. -/
def entries : FileNode → List (Text × FileNode)
  | file _ => []
  | directory entries => entries

/-- Puts a node under names, from the outermost on. Directories that are missing on the way are
made, also in the place of a file. -/
def put (node : FileNode) (names : List Text) (value : FileNode) : FileNode :=
  match names with
  | [] => value
  | name :: names =>
    let inner := (Entries.get? node.entries name).getD (directory [])
    directory (Entries.set node.entries name (inner.put names value))

/-- The node under names. -/
def under? (node : FileNode) (names : List Text) : Option FileNode :=
  match names with
  | [] => some node
  | name :: names => (Entries.get? node.entries name).bind fun inner => inner.under? names

end FileNode

/-- Where a walk has come to. -/
inductive FilePlace
  /-- A directory, with the names on the way to it and the directories on the way, both from the
  last one on. -/
  | directory (names : List Text) (entries : List (Text × FileNode)) (above : List FileNode)
  | file (text : Text)
  | nowhere (error : FileError)

/-- A tree of files with a working directory, given by the names on the way to it. -/
structure FileTree where
  here : List Text := []
  root : FileNode := .directory []

namespace FileTree

/-- The most bytes that a name may have. -/
def nameLimit : Nat := 255

/-- The count of bytes from which on a path is too long. -/
def pathLimit : Nat := 4096

/-- The place of a node under a name in a directory. -/
def placeOf (names : List Text) (above : List FileNode) : FileNode → FilePlace
  | .file text => .file text
  | .directory entries => .directory names entries above

/-- Follows one name of a path. -/
def step (place : FilePlace) (name : Text) : FilePlace :=
  match place with
  | .nowhere error => .nowhere error
  | .file _ => .nowhere .beyondFile
  | .directory names entries above =>
    if name = [] ∨ name = "." then place
    else if name = ".." then
      match above with
      | [] => place
      | node :: above => placeOf (names.drop 1) above node
    else if nameLimit < (FileName.bytes name).length then .nowhere .nameTooLong
    else
      match Entries.get? entries name with
      | none => .nowhere .absent
      | some node => placeOf (name :: names) (.directory entries :: above) node

/-- The place of the root. -/
def start (t : FileTree) : FilePlace :=
  placeOf [] [] t.root

/-- Follows the names of a path that has a spelling of its own. -/
def walk (t : FileTree) (path : Text) (names : List Text) : FilePlace :=
  let start := if path.head? = some (.char '/') then t.start else t.here.foldl step t.start
  names.foldl step start

/-- Why a path is refused before any name of it is followed. -/
def refusal? (path : Text) : Option FileError :=
  if path = [] then some .absent
  else if pathLimit ≤ (FileName.bytes path).length then some .nameTooLong
  else none

/-- Where a path leads. -/
def place (t : FileTree) (path : Text) : FilePlace :=
  match refusal? path with
  | some error => .nowhere error
  | none =>
    let path := FileName.respell path
    t.walk path (Text.splitOn "/" path)

/-- What is found at a path. -/
def look (t : FileTree) (path : Text) : FileEntry :=
  match t.place path with
  | .directory .. => .directory
  | .file text => .file text
  | .nowhere .beyondFile => .beyondFile
  | .nowhere .nameTooLong => .nameTooLong
  | .nowhere _ => .absent

/-- Makes one directory. -/
def makeDirectory (t : FileTree) (path : Text) : Except FileError FileTree :=
  match refusal? path with
  | some error => .error error
  | none =>
    let path := FileName.respell path
    let names := (Text.splitOn "/" path).filter (· ≠ [])
    match t.walk path names.dropLast, names.getLast? with
    | .nowhere error, _ => .error error
    | .file _, _ => .error .beyondFile
    | .directory .., none => .error .taken
    | .directory above entries nodes, some name =>
      match step (.directory above entries nodes) name with
      | .nowhere .absent =>
        .ok { t with root := t.root.put (name :: above).reverse (.directory []) }
      | .nowhere error => .error error
      | _ => .error .taken

/-- Puts a file under names from the root on. -/
def putFile (t : FileTree) (names : List Text) (text : Text) : FileTree :=
  { t with root := t.root.put names (.file text) }

/-- Puts an empty directory under names from the root on. -/
def putDirectory (t : FileTree) (names : List Text) : FileTree :=
  { t with root := t.root.put names (.directory []) }

/-- The tree as a file system. All its runs have the same stamp. -/
def system : FileSystem (StateM FileTree) where
  here := return { root := "/", parts := (← get).here }
  stamp := return List.replicate 10 '0'
  look path := return (← get).look path
  makeDirectory path := do
    match (← get).makeDirectory path with
    | .ok t => set t; return .ok ()
    | .error e => return .error e

end FileTree

end MeshLens
