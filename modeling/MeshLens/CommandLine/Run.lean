import MeshLens.CommandLine.Help
import MeshLens.CommandLine.Report
import MeshLens.Config.Defaults
import MeshLens.Config.Document
import MeshLens.FileSystem
import MeshLens.Text.ControlSequence

/-!
# Running a command line

The options in front of the command choose the configuration. It is read before the arguments of
the command are, so a fault in it wins over a fault in these. The paths that options give are looked
up in the order of the options, before anything is said about missing or needless operands.
-/

namespace MeshLens.CommandLine

/-- What a command line comes to. -/
inductive Outcome
  /-- Help was asked for. -/
  | helped (lines : List Text)
  | refused (error : UsageError)
  | unconfigured (error : ConfigError)
  /-- No log can be kept. -/
  | unlogged (fault : FileFault)
  /-- An option names a file by what can be no name. -/
  | unnameable (fault : NameFault)
  /-- A command was run; its notices are kept in a file if there is one. -/
  | ran (threshold : Threshold) (name : CommandName) (report : Report) (logFile : Option Path)

namespace Outcome

/-- The lines to be printed. What a line takes from its data must not steer a terminal. -/
def lines : Outcome → List Text
  | ran _ _ report _ =>
    report.lines.map fun line => Text.withoutSequences line
  | helped lines => lines
  | _ => []

/-- Whether a line can be printed. -/
def isPrintable (line : Text) : Bool :=
  !Text.hasHalf line

/-- The lines printed: those before the first one that cannot be. -/
def output (o : Outcome) : List Text :=
  o.lines.takeWhile isPrintable

/-- Whether printing broke off. -/
def isBrokenOff (o : Outcome) : Bool :=
  !o.lines.all isPrintable

/-- A notice as a line of a log. -/
def logLine (notice : Notice) : Text :=
  notice.level.mark ++ " " ++ notice.text

/-- The line that follows the notice of a failure. -/
def abortedLine : Text := "Aborted!"

/-- What is noticed and what failed. -/
def remarks : Outcome → List Text
  | helped _ => []
  | refused error => ["Error: " ++ error.message]
  | unconfigured error => ["Error: " ++ error.message]
  | unlogged fault => ["Error: " ++ fault.message]
  | unnameable fault => ["Error: " ++ fault.message]
  | ran threshold name report _ =>
    ((report.allNotices name).filter fun notice => threshold.shows notice.level).map
      logLine ++ report.failure?.toList.map fun _ => abortedLine

/-- The lines printed about what was noticed and what failed. -/
def complaints (o : Outcome) : List Text :=
  o.remarks.map fun line => Text.withHalvesEscaped line

/-- The log to be kept, and its file. It holds all notices, whatever is shown. -/
def log? : Outcome → Option (Path × List Text)
  | ran _ name report (some file) => some (file, (report.allNotices name).map logLine)
  | _ => none

/-- The exit code. -/
def exitCode (o : Outcome) : Nat :=
  match o with
  | helped _ => 0
  | refused _ => 2
  | unconfigured _ | unlogged _ | unnameable _ => 1
  | ran _ _ report _ => if report.failure?.isSome || o.isBrokenOff then 1 else 0

end Outcome

/-- The options in front of the command, apart from that for help. -/
def optionTable : OptionTable :=
  [("--config", .value), ("--defaults", .value)]

/-- Reads arguments, among which help may be asked for: that wins over everything that these
arguments say. -/
def readArguments (known : OptionTable) (mixed : Bool) (args help : List Text) :
    Except Outcome Arguments :=
  match Arguments.read ((helpOption, .flag) :: known) mixed args with
  | .error e => .error (.refused (.argument e))
  | .ok a => if a.has helpOption then .error (.helped help) else .ok a

variable {m : Type → Type} [Monad m] (fs : FileSystem m)

/-! ## Configurations -/

/-- The path that an option gives for a configuration file. -/
def configPath (a : Arguments) (option : Text) : Text :=
  (a.last? option).getD Config.defaultPath

/-- Why the paths of configuration files are refused, if so: the first that names a directory, or
that can be no name. -/
def configRefusal? (a : Arguments) : List Text → m (Option Outcome)
  | [] => return none
  | option :: options => do
    let path := configPath a option
    match ← fs.find path with
    | .directory => return some (.refused (.unusableFile option path .isDirectory))
    | .unnameable fault => return some (.unnameable fault)
    | _ => configRefusal? a options

/-- Reads the arguments in front of a command, and those behind it as they are. -/
def readProgramArguments (args : List Text) : m (Except Outcome Arguments) := do
  match readArguments optionTable false args programHelp with
  | .error outcome => return .error outcome
  | .ok a =>
    match ← configRefusal? fs a (a.inOrder (optionTable.map (·.1))) with
    | some outcome => return .error outcome
    | none => return .ok a

/-- The fields of the configuration file at a path. -/
def loadFields (path : Path) : m (Except ConfigError (Entries Value)) := do
  match (← fs.find path.text).read with
  | .error e => return .error (.unopened path e)
  | .ok text => return Config.fieldsOf text

/-- Reads the configuration in a file, merged over that in a file of defaults. -/
def loadConfig (env : Environment) (path defaults : Path) : m (Except ConfigError Config) := do
  match ← loadFields fs defaults with
  | .error e => return .error e
  | .ok base =>
    if path = defaults then return Config.ofFields base env
    else
      match ← loadFields fs path with
      | .error e => return .error e
      | .ok override => return Config.ofFields (Config.merge base override) env

/-! ## Commands -/

/-- Why the path that is given for a snapshot is refused, if so: it has to be that of a file. -/
def graphRefusal? (a : Arguments) : m (Option Outcome) := do
  match a.last? CommandName.graphOption with
  | none => return none
  | some path =>
    match (← fs.find path).read with
    | .error (.unnameable fault) => return some (.unnameable fault)
    | .error e => return some (.refused (.unusableFile CommandName.graphOption path e))
    | .ok _ => return none

/-- The command of a word with its arguments. -/
def readCommand (name : CommandName) (args : List Text) : m (Except Outcome Command) := do
  match readArguments name.optionTable true args name.help with
  | .error outcome => return .error outcome
  | .ok a =>
    match ← graphRefusal? fs a with
    | some outcome => return .error outcome
    | none => return (Command.ofArguments name a).mapError .refused

/-- The path of the snapshot that a command works on: the one that is given, or else the configured
one. -/
def graphPath (config : Config) (choice : SnapshotChoice) : Except UsageError Path :=
  match choice.graph with
  | some path => .ok (.ofText path)
  | none =>
    if config.runtime.graphPath = [] then .error .missingGraph
    else .ok (.ofText config.runtime.graphPath)

/-- The directory of the logs of a command. -/
def logDirectory (runtime : RuntimeConfig) (name : CommandName) : Path :=
  (Path.ofText runtime.directory).child name.word

/-- Makes room for the log of a run, if one is to be kept, and gives its file. The name of the file
is followed from the root on, and must not be too long. -/
def openLog (runtime : RuntimeConfig) (name : CommandName) :
    m (Except FileFault (Option Path)) := do
  if runtime.toFile then
    let directory := logDirectory runtime name
    match ← fs.ensureAll directory with
    | .error fault => return .error fault
    | .ok () =>
      let file := (directory.resolve (← fs.here)).child (name.word ++ "_" ++ (← fs.stamp) ++ ".log")
      match ← fs.find file.text with
      | .nameTooLong => return .error ⟨file, .nameTooLong⟩
      | _ => return .ok (some file)
  else return .ok none

/-- Runs a command, on the snapshot at a path if it works on one, unless its log cannot be kept. -/
def execute (config : Config) (command : Command) (path : Path) : m Outcome := do
  match ← openLog fs config.runtime command.name with
  | .error fault => return .unlogged fault
  | .ok logFile =>
    let entry ← if command.choice?.isSome then fs.find path.text else pure .absent
    return .ran config.runtime.threshold command.name (command.report config path entry) logFile

/-- Runs the command of a word with its arguments. -/
def runCommand (config : Config) (name : CommandName) (args : List Text) : m Outcome := do
  match ← readCommand fs name args with
  | .error outcome => return outcome
  | .ok command =>
    match command.choice? with
    | none => execute fs config command {}
    | some choice =>
      match graphPath config choice with
      | .error e => return .refused e
      | .ok path => execute fs config command path

/-! ## The whole command line -/

/-- What comes of a word that is no command. If it looks like an option, which it can behind two
dashes, it is read as one first. -/
def refuseWord (word : Text) (rest : List Text) : m Outcome := do
  if Arguments.isOption word then
    match ← readProgramArguments fs (word :: rest) with
    | .error outcome => return outcome
    | .ok _ => return .refused (.unknownCommand word)
  else return .refused (.unknownCommand word)

/-- Runs a command line. -/
def run (env : Environment) (args : List Text) : m Outcome := do
  match ← readProgramArguments fs args with
  | .error outcome => return outcome
  | .ok a =>
    match a.operands with
    | [] => return .refused .missingCommand
    | word :: rest =>
      match CommandName.ofWord? word with
      | none => refuseWord fs word rest
      | some name =>
        let path := Path.ofText (configPath a "--config")
        match ← loadConfig fs env path (.ofText (configPath a "--defaults")) with
        | .error e => return .unconfigured e
        | .ok config => runCommand fs config name rest

end MeshLens.CommandLine
