import MeshLens.Config.Merge
import MeshLens.Config.Reader
import MeshLens.Yaml.Document

/-!
# Configurations from documents

A configuration is written as a YAML document, and merged over a document of defaults.
-/

namespace MeshLens.Config

/-- The fields of a document; an empty one has none. -/
def fieldsOf (text : Text) : Except ConfigError (Entries Value) :=
  match Yaml.read text with
  | .error e => .error (.unreadable e)
  | .ok (.object fields) => .ok fields
  | .ok value => if value.truthy then .error .rootNotAnObject else .ok []

/-- Reads the configuration in a document of defaults, with another one merged over it if there is
one. -/
def ofDocuments (base : Text) (override : Option Text) (env : Environment) :
    Except ConfigError Config := do
  let fields ← fieldsOf base
  match override with
  | none => ofFields fields env
  | some text => do ofFields (merge fields (← fieldsOf text)) env

end MeshLens.Config
