import MeshLens.Hide.Mode
import MeshLens.Query.Basic
import MeshLens.Text.Quoted

/-!
# Notices

What is reported while queries are compiled and applied. A notice is a fact; its level and its
text follow from it.
-/

namespace MeshLens

/-- How important a notice is. -/
inductive Level
  | debug | info | warning | error
  deriving DecidableEq, Repr

namespace Level

/-- Levels in rising order. -/
def rank : Level → Nat
  | debug => 10
  | info => 20
  | warning => 30
  | error => 40

/-- The name of a level. -/
def name : Level → Text
  | debug => "DEBUG"
  | info => "INFO"
  | warning => "WARNING"
  | error => "ERROR"

/-- The mark of a level in front of a log line. -/
def mark : Level → Text
  | debug => "[DEBG]"
  | info => "[INFO]"
  | warning => "[WARN]"
  | error => "[ERRO]"

end Level

/-- Something worth reporting. -/
inductive Notice
  /-- A query could not be compiled. -/
  | rejected (channel : Channel) (value : Text) (error : QueryError)
  /-- A query was compiled to a selector. -/
  | compiled (channel : Channel) (selector : Text)
  /-- A display setting was turned on for a query. -/
  | enabling (label : Text)
  /-- The message of an input whose text does not compile. -/
  | badInput (message : Text)
  | removed (count : Nat)
  /-- An edge was left out of a restoration. -/
  | endMissing (edge : Text)
  | layoutRequested (layout : Text)
  | marked (count : Nat)
  /-- What was hidden in a previous snapshot is forgotten. -/
  | staleHandle (mode : HideMode)
  | hid (mode : HideMode) (count : Nat)
  | loaded (path : Text) (count : Nat)
  /-- A query makes sense only with a display setting. -/
  | requires (label : Text)
  | foundCount (count : Nat)
  | hideCounts (invisible gone : Nat)
  | noCompletion (input : Text)
  /-- A command ended with an error. -/
  | failed (command reason : Text)
  deriving DecidableEq, Repr

namespace Notice

/-- The level of a notice. -/
def level : Notice → Level
  | rejected .. | compiled .. | removed _ | layoutRequested _ | marked _ | staleHandle _ | hid ..
  | loaded .. => .debug
  | enabling _ | requires _ | foundCount _ | hideCounts .. | noCompletion _ => .info
  | badInput _ | endMissing _ => .warning
  | failed .. => .error

/-- A text in its quoted form. -/
def quote (s : Text) : Text :=
  Text.quoted s

/-- The text of a notice. -/
def text : Notice → Text
  | rejected channel value error =>
    channel.label ++ " expression rejected: value=" ++ quote value ++ " error=" ++ error.message
  | compiled channel selector => channel.label ++ " selector=[" ++ selector ++ "]"
  | enabling label => "Enabling " ++ label ++ " for graph find/hide expression"
  | badInput message => message
  | removed count => "Removed " ++ toString count ++ " elements"
  | endMissing edge => "Cannot restore edge " ++ edge ++ ": endpoint missing"
  | layoutRequested layout => "Layout requested: " ++ layout
  | marked count => "Find marked " ++ toString count ++ " elements"
  | staleHandle mode => "Dropping " ++ mode.word ++ " handle from a previous snapshot"
  | hid mode count => "Hide " ++ mode.word ++ " " ++ toString count ++ " elements"
  | loaded path count => "Loaded graph " ++ path ++ ": " ++ toString count ++ " elements"
  | requires label => "Expression requires " ++ label
  | foundCount count => "Find matched " ++ toString count ++ " elements"
  | hideCounts invisible gone =>
    "Hide hid " ++ toString invisible ++ " and removed " ++ toString gone ++ " elements"
  | noCompletion input => "No operand starts with " ++ quote input
  | failed command reason => command ++ " failed: " ++ reason

end Notice

end MeshLens
