import MeshLens.Text.CodePoint

/-!
# The two kinds of graph elements
-/

namespace MeshLens

/-- An element of a service graph is a node or an edge. -/
inductive Kind
  | node | edge
  deriving DecidableEq, Repr

namespace Kind

/-- The word for one element of a kind. -/
def word : Kind → Text
  | node => "node"
  | edge => "edge"

/-- The word for the group of all elements of a kind. -/
def groupName : Kind → Text
  | node => "nodes"
  | edge => "edges"

/-- The kind of the group of a name. -/
def ofGroupName? (name : Text) : Option Kind :=
  [node, edge].find? fun kind => kind.groupName = name

end Kind

end MeshLens
