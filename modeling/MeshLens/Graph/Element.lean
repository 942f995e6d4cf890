import MeshLens.Graph.Kind
import MeshLens.Value.Basic

/-!
# Graph elements

A node or an edge of a service graph, with its data and its shown state. Edges say in their data
which nodes they join, and nodes may name the box that holds them.
-/

namespace MeshLens

/-- A node or an edge. -/
structure Element where
  id : Text
  kind : Kind
  data : Entries Value
  /-- The style classes, each once. -/
  classes : List Text := []
  /-- Members of a class list that are no text: kept, but no class filter can name them. -/
  otherClasses : List Value := []
  /-- Cleared while the element is hidden. -/
  visible : Bool := true
  /-- Set while the element is taken out of the graph. -/
  removed : Bool := false

namespace Element

/-- Whether an element is in the graph. -/
def live (e : Element) : Bool :=
  !e.removed

/-- Whether an element is a node. -/
def isNode (e : Element) : Bool :=
  e.kind = .node

/-- Whether an element is an edge. -/
def isEdge (e : Element) : Bool :=
  e.kind = .edge

/-- A group box: a node that holds other nodes. -/
def isBox (e : Element) : Bool :=
  e.isNode && ((e.data.get? "isBox").map Value.truthy).getD false

/-- A field of the data, null when it is missing. -/
def field (e : Element) (name : Text) : Value :=
  (e.data.get? name).getD .null

/-- The node an edge comes from, as its data gives it. -/
def source (e : Element) : Value :=
  e.field "source"

/-- The node an edge goes to, as its data gives it. -/
def target (e : Element) : Value :=
  e.field "target"

/-- The box that holds a node, as its data gives it. -/
def parent (e : Element) : Value :=
  e.field "parent"

/-- The ids under which an edge is listed as incident: the texts of its ends, the second one only
when the ends differ. -/
def anchors (e : Element) : List Text :=
  if e.isEdge then
    if e.target.comparesEqual e.source then [e.source.plain]
    else [e.source.plain, e.target.plain]
  else []

/-- The id of the box under which a node is listed as a child. -/
def holder? (e : Element) : Option Text :=
  if e.isNode && e.parent.truthy then some e.parent.plain else none

/-- Puts a style class on an element. -/
def addClass (name : Text) (e : Element) : Element :=
  if name ∈ e.classes then e else { e with classes := e.classes ++ [name] }

/-- Takes a style class off an element. -/
def dropClass (name : Text) (e : Element) : Element :=
  { e with classes := e.classes.filter (· ≠ name) }

/-- The short text that names an element. -/
def caption (e : Element) : Text :=
  "Element(" ++ e.kind.word ++ " " ++ Text.quoted e.id ++ ")"

end Element

end MeshLens
