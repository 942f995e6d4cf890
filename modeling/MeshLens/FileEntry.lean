import MeshLens.FileName
import MeshLens.Path

/-!
# Files

What can be found at a path, and why a file cannot be read or a directory not be made there.
-/

namespace MeshLens

/-- What is found at a path. -/
inductive FileEntry
  | absent
  /-- The path goes on after a file. -/
  | beyondFile
  | directory
  | file (text : Text)
  | nameTooLong
  | unnameable (fault : NameFault)
  deriving DecidableEq, Repr

/-- Why a file cannot be read, or a directory not be made. -/
inductive FileError
  | absent
  | beyondFile
  | isDirectory
  /-- There is something of that name already. -/
  | taken
  | nameTooLong
  /-- Too many directories above are missing. -/
  | tooDeep
  | unnameable (fault : NameFault)
  deriving DecidableEq, Repr

namespace FileError

/-- The message of a fault at a path. -/
def message (e : FileError) (path : Path) : Text :=
  let here (description : Text) :=
    description ++ ": " ++ Text.quoted path.text
  match e with
  | absent => here "[Errno 2] No such file or directory"
  | beyondFile => here "[Errno 20] Not a directory"
  | isDirectory => here "[Errno 21] Is a directory"
  | taken => here "[Errno 17] File exists"
  | nameTooLong => here "[Errno 36] File name too long"
  | tooDeep => here "Too many directories to make"
  | unnameable fault => fault.message

end FileError

/-- A fault and the path where it is met. -/
structure FileFault where
  path : Path
  error : FileError
  deriving DecidableEq, Repr

/-- The message of a fault. -/
def FileFault.message (fault : FileFault) : Text :=
  fault.error.message fault.path

/-- The text of a file that is read. -/
def FileEntry.read : FileEntry → Except FileError Text
  | absent => .error .absent
  | beyondFile => .error .beyondFile
  | directory => .error .isDirectory
  | file text => .ok text
  | nameTooLong => .error .nameTooLong
  | unnameable fault => .error (.unnameable fault)

end MeshLens
