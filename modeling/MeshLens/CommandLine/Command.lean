import MeshLens.Channel
import MeshLens.CommandLine.Arguments
import MeshLens.FileEntry
import MeshLens.Number.Integer

/-!
# Commands

What can be asked for on the command line, and how it is read from arguments.
-/

namespace MeshLens.CommandLine

/-- The kinds of commands. -/
inductive CommandName
  | compile | find | hide | complete | options
  deriving DecidableEq, Repr

namespace CommandName

/-- All kinds of commands. -/
def all : List CommandName :=
  [compile, find, hide, complete, options]

/-- The word for a command. -/
def word : CommandName → Text
  | compile => "compile"
  | find => "find"
  | hide => "hide"
  | complete => "complete"
  | options => "options"

/-- The word for a command at the beginning of a message. -/
def title : CommandName → Text
  | compile => "Compile"
  | find => "Find"
  | hide => "Hide"
  | complete => "Complete"
  | options => "Options"

/-- The command of a word. -/
def ofWord? (s : Text) : Option CommandName :=
  all.find? fun name => name.word = s

/-- The option that names a snapshot. -/
def graphOption : Text := "--graph"

/-- The options of a command, apart from that for help. -/
def optionTable : CommandName → OptionTable
  | compile | options => [("--hide", .flag)]
  | find => [(graphOption, .value), ("--url", .value)]
  | hide =>
    [(graphOption, .value), ("--url", .value), ("--compress", .flag), ("--no-compress", .flag)]
  | complete => [("--count", .value)]

end CommandName

/-- Where a command finds its snapshot, and the URL that it keeps its parameters in. -/
structure SnapshotChoice where
  graph : Option Text
  url : Option Text
  deriving DecidableEq, Repr

/-- A command. -/
inductive Command
  /-- Shows the selector of an expression. -/
  | compile (channel : Channel) (expression : Text)
  /-- Marks the elements of a snapshot that match an expression. -/
  | find (expression : Text) (choice : SnapshotChoice)
  /-- Hides the elements of a snapshot that match an expression, in a mode if one is given. -/
  | hide (expression : Text) (choice : SnapshotChoice) (compress : Option Bool)
  /-- Completes the last word of a text several times. -/
  | complete (text : Text) (count : Nat)
  /-- Lists the presets of an input. -/
  | options (channel : Channel)
  deriving DecidableEq, Repr

/-- Why a command line is refused. -/
inductive UsageError
  | argument (error : ArgumentError)
  | missingCommand
  | unknownCommand (word : Text)
  | missingOperand
  | needlessOperand (operand : Text)
  | notACount (value : Text)
  | unusableFile (option path : Text) (error : FileError)
  /-- There is no snapshot to work on. -/
  | missingGraph
  deriving DecidableEq, Repr

namespace UsageError

/-- The message of an error. -/
def message : UsageError → Text
  | argument (.unknownOption name) => "No such option: " ++ name
  | argument (.missingValue option) => "Option '" ++ option ++ "' requires an argument."
  | argument (.needlessValue option) => "Option '" ++ option ++ "' does not take a value."
  | missingCommand => "Missing command."
  | unknownCommand word => "No such command '" ++ word ++ "'."
  | missingOperand => "Missing argument."
  | needlessOperand operand => "Got unexpected extra argument (" ++ operand ++ ")"
  | notACount value => "Invalid value for '--count': '" ++ value ++ "' is not a positive integer."
  | unusableFile option path error =>
    "Invalid value for '" ++ option ++ "': " ++ error.message (Path.ofText path)
  | missingGraph => "Missing option '--graph' and no graph.path configured."

end UsageError

namespace Command

/-- The kind of a command. -/
def name : Command → CommandName
  | compile .. => .compile
  | find .. => .find
  | hide .. => .hide
  | complete .. => .complete
  | options .. => .options

/-- The snapshot that a command asks for, when it works on one. -/
def choice? : Command → Option SnapshotChoice
  | find _ choice | hide _ choice _ => some choice
  | _ => none

/-- The only operand. -/
def operand (a : Arguments) : Except UsageError Text :=
  match a.operands with
  | [] => .error .missingOperand
  | [operand] => .ok operand
  | _ :: extra :: _ => .error (.needlessOperand extra)

/-- The input that a flag chooses. -/
def channelOf (a : Arguments) : Channel :=
  if a.has "--hide" then .hide else .find

/-- The snapshot that the options choose. -/
def choiceOf (a : Arguments) : SnapshotChoice :=
  { graph := a.last? CommandName.graphOption, url := a.last? "--url" }

/-- The mode of hiding that is given last. -/
def compressOf (a : Arguments) : Option Bool :=
  a.options.reverse.findSome? fun (name, _) =>
    if name = "--compress" then some true
    else if name = "--no-compress" then some false
    else none

/-- How many completions are asked for: one unless a positive number is given. -/
def countOf (a : Arguments) : Except UsageError Nat :=
  match a.last? "--count" with
  | none => .ok 1
  | some value =>
    match integerOfText? value with
    | some n => if 1 ≤ n then .ok n.toNat else .error (.notACount value)
    | none => .error (.notACount value)

/-- The command that arguments ask for. -/
def ofArguments (name : CommandName) (a : Arguments) : Except UsageError Command :=
  match name with
  | .compile => (operand a).map (.compile (channelOf a))
  | .find => (operand a).map fun expression => .find expression (choiceOf a)
  | .hide => (operand a).map fun expression => .hide expression (choiceOf a) (compressOf a)
  | .complete => do
    let count ← countOf a
    return .complete (← operand a) count
  | .options =>
    match a.operands with
    | [] => .ok (.options (channelOf a))
    | operand :: _ => .error (.needlessOperand operand)

end Command

end MeshLens.CommandLine
