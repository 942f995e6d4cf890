import MeshLens.FileEntry
import MeshLens.Session
import MeshLens.Yaml.Error

/-!
# Configurations

What a configuration holds once it has been read and checked, and what can be wrong with it.
-/

namespace MeshLens

/-- The level from which on notices are shown. -/
inductive Threshold
  | debug | info | warning | error | critical
  deriving DecidableEq, Repr

namespace Threshold

/-- The name of a threshold. -/
def name : Threshold → Text
  | debug => "DEBUG"
  | info => "INFO"
  | warning => "WARNING"
  | error => "ERROR"
  | critical => "CRITICAL"

/-- The thresholds in the alphabetical order of their names. -/
def all : List Threshold :=
  [critical, debug, error, info, warning]

/-- A letter as a capital. Of the letters beyond ASCII only the dotless i has a capital that comes
up in the name of a threshold. -/
def capital (c : CodePoint) : CodePoint :=
  if 'a' ≤ c ∧ c ≤ 'z' then CodePoint.ofNat (c.toNat - 32) else if c = 'ı' then 'I' else c

/-- The threshold of a name in any case. -/
def ofName? (name : Text) : Option Threshold :=
  all.find? fun t => t.name = name.map capital

/-- Whether a notice of a level is shown. -/
def shows (t : Threshold) (level : Level) : Bool :=
  match t with
  | debug => true
  | info => Level.info.rank ≤ level.rank
  | warning => Level.warning.rank ≤ level.rank
  | error => Level.error.rank ≤ level.rank
  | critical => false

end Threshold

/-- Where notices go, and the snapshot to work on when none is given. -/
structure RuntimeConfig where
  threshold : Threshold
  /-- Also write every notice to a file. -/
  toFile : Bool
  /-- The directory of these files. -/
  directory : Text
  /-- The path of the snapshot, empty for none. -/
  graphPath : Text := []
  deriving DecidableEq, Repr

/-- The first text and the presets of an input. -/
structure QueryConfig where
  value : Text := []
  presets : List Preset := []
  deriving DecidableEq, Repr

/-- A configuration. -/
structure Config where
  runtime : RuntimeConfig
  display : DisplayOptions
  find : QueryConfig
  hide : QueryConfig
  deriving DecidableEq, Repr

/-- The settings of the environment that win over those of the files; empty where unset. -/
structure Environment where
  level : Text := []
  graphPath : Text := []
  deriving DecidableEq, Repr

/-- What is wrong with a configuration. -/
inductive ConfigError
  | missing (key : Text)
  | notAnObject (key : Text)
  | notAText (key : Text)
  | notABool (key : Text)
  | notAList (key : Text)
  | unknownLevel
  | unknownEdgeLabel (key : Text)
  | empty (key : Text)
  | notAGraphFile
  | rootNotAnObject
  /-- The text of a file is no document. -/
  | unreadable (error : Yaml.YamlError)
  | unopened (path : Path) (error : FileError)
  deriving DecidableEq, Repr

namespace ConfigError

/-- Names listed in a message. -/
def listed (names : List Text) : Text :=
  (Value.list (names.map .text)).plain

/-- The message of an error. -/
def message : ConfigError → Text
  | missing key => "Missing required config: " ++ key
  | notAnObject key => key ++ " must be an object"
  | notAText key => key ++ " must be a string"
  | notABool key => key ++ " must be a boolean"
  | notAList key => key ++ " must be a list"
  | unknownLevel => "log.level must be one of " ++ listed (Threshold.all.map (·.name))
  | unknownEdgeLabel key => key ++ " must be one of " ++ listed Query.edgeLabelModes
  | empty key => key ++ " must not be empty"
  | notAGraphFile => "graph.path must point to a Cytoscape JSON file (.json)"
  | rootNotAnObject => "Config root must be a mapping/object"
  | unreadable _ => "Config cannot be read as YAML"
  | unopened path error => error.message path

/-- Whether an error is about the type of a value. -/
def isAboutType : ConfigError → Bool
  | notAnObject _ | notAText _ | notABool _ | notAList _ => true
  | _ => false

end ConfigError

namespace Config

/-- A session that starts as configured. -/
def startSession (c : Config) (params : Params) (workspace : Workspace) : Session :=
  .start c.display params ⟨c.find.value, c.hide.value⟩ ⟨c.find.presets, c.hide.presets⟩ workspace

end Config

end MeshLens
