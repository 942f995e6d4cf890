import MeshLens.Text.CodePoint

/-!
# The default configuration
-/

namespace MeshLens.Config

/-- The path of the default configuration. -/
def defaultPath : Text := "config/default.yml"

/-- The configuration that others are merged over when no other is given. -/
def defaultText : Text :=
"log:
  level: INFO
  to_file: false
  dir: log

graph:
  path: \"\"

display:
  show_rank: false
  show_security: false
  show_idle_nodes: false
  edge_labels: []
  compress_on_hide: false
  layout: dagre

find:
  value: \"\"
  options:
    - description: \"Find: slow edges (> 1s)\"
      expression: \"rt > 1000\"
    - description: \"Find: unhealthy nodes\"
      expression: \"! healthy\"
    - description: \"Find: unknown nodes\"
      expression: \"name = unknown\"
    - description: \"Find: nodes with the 2 highest rankings\"
      expression: \"rank <= 2\"

hide:
  value: \"\"
  options:
    - description: \"Hide: healthy nodes\"
      expression: \"healthy\"
    - description: \"Hide: unknown nodes\"
      expression: \"name = unknown\"
    - description: \"Hide: nodes ranked lower than the 2 highest rankings\"
      expression: \"rank > 2\"
"

end MeshLens.Config
