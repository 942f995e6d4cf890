import MeshLens.Config.Basic

/-!
# Reading configurations

A configuration is read from an object in two passes: the first takes every value out and checks
its type, the second checks what the values say. The first fault found ends the reading.
-/

namespace MeshLens.Config

/-! ## Values of a type -/

/-- The object in a section; a section that is null counts as missing. -/
def section? (raw : Entries Value) (key : Text) :
    Except ConfigError (Option (Entries Value)) :=
  match raw.get? key with
  | none | some .null => .ok none
  | some (.object fields) => .ok (some fields)
  | some _ => .error (.notAnObject key)

/-- The object in a section that may be missing. -/
def optionalSection (raw : Entries Value) (key : Text) : Except ConfigError (Entries Value) :=
  (section? raw key).map fun fields => fields.getD []

/-- The object in a section that has to be there. -/
def requiredSection (raw : Entries Value) (key : Text) : Except ConfigError (Entries Value) :=
  match section? raw key with
  | .error e => .error e
  | .ok none => .error (.missing key)
  | .ok (some fields) => .ok fields

/-- A value that has to be there, in a section or an item of the given name. -/
def required (fields : Entries Value) (place key : Text) : Except ConfigError Value :=
  match fields.get? key with
  | some value => .ok value
  | none => .error (.missing (place ++ "." ++ key))

/-- A text. -/
def text (value : Value) (key : Text) : Except ConfigError Text :=
  match value with
  | .text s => .ok s
  | _ => .error (.notAText key)

/-- A truth value. -/
def bool (value : Value) (key : Text) : Except ConfigError Bool :=
  match value with
  | .bool b => .ok b
  | _ => .error (.notABool key)

/-- The name of an item of a list. -/
def itemKey (key : Text) (index : Nat) : Text :=
  key ++ "[" ++ toString index ++ "]"

/-- Reads the items of a list in order, counting from an index. -/
def items {α : Type} (read : Text → Value → Except ConfigError α) (key : Text) (index : Nat) :
    List Value → Except ConfigError (List α)
  | [] => .ok []
  | value :: values =>
    match read (itemKey key index) value with
    | .error e => .error e
    | .ok a => (items read key (index + 1) values).map (a :: ·)

/-- A list, read item by item. -/
def list {α : Type} (read : Text → Value → Except ConfigError α) (value : Value) (key : Text) :
    Except ConfigError (List α) :=
  match value with
  | .list values => items read key 0 values
  | _ => .error (.notAList key)

/-- A text that has to be there. -/
def requiredText (fields : Entries Value) (place key : Text) : Except ConfigError Text :=
  match required fields place key with
  | .error e => .error e
  | .ok value => text value (place ++ "." ++ key)

/-- A truth value that has to be there. -/
def requiredBool (fields : Entries Value) (place key : Text) : Except ConfigError Bool :=
  match required fields place key with
  | .error e => .error e
  | .ok value => bool value (place ++ "." ++ key)

/-- A text that may be missing. -/
def optionalText (fields : Entries Value) (place key default : Text) :
    Except ConfigError Text :=
  text ((fields.get? key).getD (.text default)) (place ++ "." ++ key)

/-- A truth value that may be missing. -/
def optionalBool (fields : Entries Value) (place key : Text) : Except ConfigError Bool :=
  bool ((fields.get? key).getD (.bool false)) (place ++ "." ++ key)

/-- A list that may be missing. -/
def optionalList {α : Type} (read : Text → Value → Except ConfigError α)
    (fields : Entries Value) (place key : Text) : Except ConfigError (List α) :=
  list read ((fields.get? key).getD (.list [])) (place ++ "." ++ key)

/-! ## The first pass -/

/-- The runtime settings as they are written, before the level is looked up. -/
structure RawRuntime where
  level : Text
  toFile : Bool
  directory : Text
  graphPath : Text

/-- A text without white space around it. -/
def trimmed (s : Text) : Text :=
  Text.trim s

/-- A setting of the environment where it is not blank, and otherwise that of the file. -/
def orElse (environment file : Text) : Text :=
  if trimmed environment = [] then file else trimmed environment

/-- Takes the runtime settings out. -/
def loadRuntime (raw : Entries Value) (env : Environment) : Except ConfigError RawRuntime := do
  let log ← requiredSection raw "log"
  let graph ← optionalSection raw "graph"
  let level ← requiredText log "log" "level"
  let graphPath ← optionalText graph "graph" "path" []
  let toFile ← requiredBool log "log" "to_file"
  let directory ← requiredText log "log" "dir"
  return {
    level := orElse env.level level
    toFile
    directory
    graphPath := orElse env.graphPath (trimmed graphPath) }

/-- Takes the display settings out. -/
def loadDisplay (raw : Entries Value) : Except ConfigError DisplayOptions := do
  let display ← optionalSection raw "display"
  let showRank ← optionalBool display "display" "show_rank"
  let showSecurity ← optionalBool display "display" "show_security"
  let showIdleNodes ← optionalBool display "display" "show_idle_nodes"
  let edgeLabels ← optionalList (fun key value => text value key) display "display" "edge_labels"
  let compressOnHide ← optionalBool display "display" "compress_on_hide"
  let layout ← optionalText display "display" "layout" "dagre"
  return { showRank, showSecurity, showIdleNodes, edgeLabels, compressOnHide, layout }

/-- Reads a preset. -/
def loadPreset (key : Text) (value : Value) : Except ConfigError Preset :=
  match value with
  | .object fields => do
    let description ← requiredText fields key "description"
    let expression ← requiredText fields key "expression"
    return { description, expression }
  | _ => .error (.notAnObject key)

/-- Takes the settings of an input out. -/
def loadQuery (raw : Entries Value) (channel : Channel) : Except ConfigError QueryConfig := do
  let place := channel.sectionName
  let query ← optionalSection raw place
  let value ← optionalText query place "value" []
  let presets ← optionalList loadPreset query place "options"
  return { value := trimmed value, presets }

/-! ## The second pass -/

/-- Whether a text is blank. -/
def isBlank (s : Text) : Bool :=
  Text.isBlankText s

/-- Whether a path names a JSON file. -/
def isJsonPath (path : Text) : Bool :=
  Text.endsWith ".json" (Text.lower path)

/-- Checks the runtime settings. -/
def checkRuntime (raw : RawRuntime) : Except ConfigError RuntimeConfig :=
  match Threshold.ofName? raw.level with
  | none => .error .unknownLevel
  | some threshold =>
    if isBlank raw.directory then .error (.empty "log.dir")
    else if raw.graphPath ≠ [] ∧ !isJsonPath raw.graphPath then .error .notAGraphFile
    else .ok {
      threshold
      toFile := raw.toFile
      directory := raw.directory
      graphPath := raw.graphPath }

/-- Finds the first item that fails a check, counting from an index. -/
def firstBad? {α : Type} (good : α → Bool) (index : Nat) : List α → Option Nat
  | [] => none
  | a :: as => if good a then firstBad? good (index + 1) as else some index

/-- Checks the display settings. -/
def checkDisplay (o : DisplayOptions) : Except ConfigError Unit :=
  match firstBad? (· ∈ Query.edgeLabelModes) 0 o.edgeLabels with
  | some index => .error (.unknownEdgeLabel (itemKey "display.edge_labels" index))
  | none => if isBlank o.layout then .error (.empty "display.layout") else .ok ()

/-- Checks the settings of an input. -/
def checkQuery (q : QueryConfig) (channel : Channel) : Except ConfigError Unit :=
  match firstBad? (fun p : Preset => !isBlank p.expression) 0 q.presets with
  | some index =>
    .error (.empty (itemKey (channel.sectionName ++ ".options") index ++ ".expression"))
  | none => .ok ()

/-- Reads a configuration from an object. -/
def ofFields (raw : Entries Value) (env : Environment) : Except ConfigError Config := do
  let rawRuntime ← loadRuntime raw env
  let display ← loadDisplay raw
  let find ← loadQuery raw .find
  let hide ← loadQuery raw .hide
  let runtime ← checkRuntime rawRuntime
  checkDisplay display
  checkQuery find .find
  checkQuery hide .hide
  return { runtime, display, find, hide }

end MeshLens.Config
