import MeshLens.CommandLine.Command
import MeshLens.Config.Basic
import MeshLens.Value.Json

/-!
# Reports

What a command comes to: the lines that it prints or the reason why it failed, and what was noticed
on the way. A command that works on a snapshot opens a session as configured, attaches the snapshot
and then confirms the expression in it.
-/

namespace MeshLens.CommandLine

/-- Why a command failed. -/
inductive Failure
  | query (error : QueryError)
  /-- The expression holds a number that cannot be read. -/
  | number (fault : UnreadableNumber)
  /-- An input shows a message after the expression was confirmed in it. -/
  | badInput (message : Text)
  | url (error : Url.UrlError)
  | file (path : Path) (error : FileError)
  /-- The text of a snapshot is not JSON. -/
  | notJson (text : Text) (error : Json.Error)
  | definition (error : DefinitionError)
  | session (error : SessionError)
  /-- The URL cannot be written out, because of a parameter. -/
  | unwritable (run : Text.HalfRun)

namespace Failure

/-- The reason given for a failure. -/
def reason : Failure → Text
  | query e => e.message
  | number fault => fault.message
  | badInput message => message
  | url e => e.message
  | file path e => e.message path
  | notJson text e => e.message text
  | definition e => e.message
  | session e => e.message
  | unwritable run => run.message

end Failure

/-- What a command comes to. -/
structure Report where
  notices : List Notice := []
  result : Except Failure (List Text)

namespace Report

/-- A report without notices. -/
def ofResult (result : Except Failure (List Text)) : Report :=
  { result }

/-- What is printed: nothing when the command failed. -/
def lines (r : Report) : List Text :=
  match r.result with
  | .ok lines => lines
  | .error _ => []

/-- The failure, if the command failed. -/
def failure? (r : Report) : Option Failure :=
  match r.result with
  | .ok _ => none
  | .error failure => some failure

/-- The notices of a command, the last of which says that it failed if it did. -/
def allNotices (r : Report) (name : CommandName) : List Notice :=
  r.notices ++ r.failure?.toList.map fun failure => .failed name.title failure.reason

/-! ## Words alone -/

/-- A line of named fields. -/
def row (fields : List Text) : Text :=
  Text.join "\t" fields

/-- The selector of each clause of a query and of the whole, and the settings that it asks for. -/
def queryLines (query : CompiledQuery) (requests : List OptionRequest) : List Text :=
  query.clauses.map (fun clause => row [clause.target.word, clause.render]) ++
    row ["selector", query.render] :: requests.map fun request => row ["requires", request.option]

/-- The report on a compiled expression. -/
def ofCompilation (channel : Channel) (expression : Text) (c : Compilation) : Report where
  notices := c.notices channel expression ++
    c.requests.map fun request => .requires request.label
  result :=
    match c.result with
    | .error e => .error (.query e)
    | .ok none => .ok ["(empty)"]
    | .ok (some query) => .ok (queryLines query c.requests)

/-- Compiles an expression. -/
def compile (config : Config) (channel : Channel) (expression : Text) : Report :=
  match MeshLens.compile expression config.display.flags with
  | .error fault => .ofResult (.error (.number fault))
  | .ok compilation => ofCompilation channel expression compilation

/-- The next completions, so many of them. -/
def completions (c : Completion) : Nat → List Text
  | 0 => []
  | count + 1 =>
    match c.next with
    | (none, _) => []
    | (some line, c) => line :: completions c count

/-- Completes the last word of a text. -/
def complete (text : Text) (count : Nat) : Report :=
  let completion := (Completion.ofWords Query.completions).setInput text
  { notices := if completion.candidates = [] then [.noCompletion text] else []
    result := .ok (completions completion count) }

/-- Lists the presets of an input. -/
def presets (config : Config) (channel : Channel) : Report :=
  let query := match channel with
    | .find => config.find
    | .hide => config.hide
  .ofResult <| .ok <| query.presets.zipIdx.map fun (preset, index) =>
    row [toString index, preset.description, preset.expression]

/-! ## Snapshots -/

/-- The snapshot in what is found at a path. -/
def loadGraph (path : Path) (entry : FileEntry) : Except Failure Graph :=
  match entry.read with
  | .error e => .error (.file path e)
  | .ok text =>
    match Json.parse text with
    | .error e => .error (.notJson text e)
    | .ok payload => (Graph.ofValue payload).mapError .definition

/-- The parameters of a session: those of a URL if there is one. -/
def openParams (url : Option Text) : Except Failure Params :=
  match url with
  | none => .ok {}
  | some url => (Params.ofUrl url).mapError .url

/-- Opens a session on the snapshot at a path. Nothing is attached yet. -/
def openSession (config : Config) (choice : SnapshotChoice) (path : Path) (entry : FileEntry) :
    Except Failure Session := do
  let params ← openParams choice.url
  let g ← loadGraph path entry
  let session := config.startSession params { graphs := [(path.text, g)] }
  return session.report [.loaded path.text g.liveIds.length]

/-- Attaches the snapshot at a path and confirms an expression. -/
def evaluate (session : Session) (path : Path) (channel : Channel) (expression : Text) :
    Session.Step Unit :=
  match session.attach path.text none with
  | (session, .error e) => (session, .error e)
  | (session, .ok ()) => session.setValue channel expression

/-- The URL of a session, if its parameters are kept in one. -/
def urlLines (session : Session) : Except Failure (List Text) :=
  match session.params.url? with
  | none => .ok []
  | some url =>
    match session.params.halfRun? with
    | some run => .error (.unwritable run)
    | none => .ok [row ["url", url]]

/-- The report on an evaluation: it failed when the input shows a message, and otherwise says what
is noticed and printed at the end, with the URL behind it. -/
def ofEvaluation (step : Session.Step Unit) (channel : Channel)
    (outcome : Session → List Notice × List Text) : Report :=
  let (session, result) := step
  match result with
  | .error e => { notices := session.notices, result := .error (.session e) }
  | .ok () =>
    match session.compiler.message channel with
    | some message => { notices := session.notices, result := .error (.badInput message) }
    | none =>
      let (notices, lines) := outcome session
      { notices := session.notices ++ notices
        result := (urlLines session).map (lines ++ ·) }

/-- What is said about found elements. -/
def findOutcome (session : Session) : List Notice × List Text :=
  let found := session.lastFind.getD []
  ([.foundCount found.length], found.map fun id => row ["found", id])

/-- What is said about hidden elements; nothing if nothing was evaluated. -/
def hideOutcome (session : Session) : List Notice × List Text :=
  match session.lastHide with
  | none => ([], [])
  | some o =>
    ([.hideCounts o.hidden.length o.removed.length],
      o.hidden.map (fun id => row ["hidden", id]) ++
        o.removed.map (fun id => row ["removed", id]) ++
        [row ["layout", if o.layoutRequested then "yes" else "no"]])

/-- Finds elements of the snapshot at a path. -/
def find (config : Config) (expression : Text) (choice : SnapshotChoice) (path : Path)
    (entry : FileEntry) : Report :=
  match openSession config choice path entry with
  | .error failure => .ofResult (.error failure)
  | .ok session => ofEvaluation (evaluate session path .find expression) .find findOutcome

/-- The configuration with the mode of hiding that is chosen. -/
def withCompress (config : Config) (compress : Option Bool) : Config :=
  match compress with
  | none => config
  | some compress => { config with display := { config.display with compressOnHide := compress } }

/-- Hides elements of the snapshot at a path. -/
def hide (config : Config) (expression : Text) (choice : SnapshotChoice)
    (compress : Option Bool) (path : Path) (entry : FileEntry) : Report :=
  match openSession (withCompress config compress) choice path entry with
  | .error failure => .ofResult (.error failure)
  | .ok session => ofEvaluation (evaluate session path .hide expression) .hide hideOutcome

end Report

/-- What a command comes to, given what is found at the path of its snapshot. -/
def Command.report (command : Command) (config : Config) (path : Path) (entry : FileEntry) :
    Report :=
  match command with
  | .compile channel expression => .compile config channel expression
  | .find expression choice => .find config expression choice path entry
  | .hide expression choice compress => .hide config expression choice compress path entry
  | .complete text count => .complete text count
  | .options channel => .presets config channel

end MeshLens.CommandLine
