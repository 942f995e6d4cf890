import MeshLens.CommandLine.Run

/-!
# The program

Runs a command line over the disk and the environment. Notices go to standard error, and into a
file of their own when a log is kept.
-/

namespace MeshLens.CommandLine

/-- What is found on disk at a path. -/
def lookOnDisk (path : Text) : IO FileEntry := do
  match ← (IO.FS.readFile path.string).toBaseIO with
  | .ok text => return .file text
  | .error (.noFileOrDirectory ..) => return .absent
  | .error (.inappropriateType _ code _) =>
    return if code = 21 then .directory else .beyondFile
  | .error e => throw e

/-- Makes a directory on disk. -/
def makeOnDisk (path : Text) : IO (Except FileError Unit) := do
  match ← (IO.FS.createDir path.string).toBaseIO with
  | .ok () => return .ok ()
  | .error (.alreadyExists ..) => return .error .taken
  | .error (.noFileOrDirectory ..) => return .error .absent
  | .error (.inappropriateType ..) => return .error .beyondFile
  | .error e => throw e

/-- The disk. -/
def disk : FileSystem IO where
  here := return .ofText (.ofString (← IO.currentDir).toString)
  stamp := return Text.digits 10 (← IO.monoMsNow)
  look := lookOnDisk
  makeDirectory := makeOnDisk

/-- The settings in the environment. -/
def readEnvironment : IO Environment := do
  return {
    level := .ofString ((← IO.getEnv "GRAPHFIND_LOG_LEVEL").getD "")
    graphPath := .ofString ((← IO.getEnv "GRAPHFIND_GRAPH").getD "") }

/-- Keeps a log in a file. -/
def keepLog (file : Path) (lines : List Text) : IO Unit :=
  IO.FS.writeFile file.text.string (String.join (lines.map fun line => line.string ++ "\n"))

end MeshLens.CommandLine

open MeshLens.CommandLine in
/-- Runs the program. -/
def main (args : List String) : IO UInt32 := do
  let outcome ← run disk (← readEnvironment) (args.map .ofString)
  outcome.log?.forM fun (file, lines) => keepLog file lines
  outcome.complaints.forM fun line => IO.eprintln line.string
  outcome.output.forM fun line => IO.println line.string
  return outcome.exitCode.toUInt32
