import MeshLens.Graph.Traversal
import MeshLens.Search

/-!
# Taking elements out and putting them back

With a node go its edges and the nodes it holds, and so on. What was taken out can be put back:
nodes first, and then those edges whose ends are in the graph.
-/

namespace MeshLens.Graph

/-- The live elements that go with an element: for a node its edges and the nodes it holds. -/
def dependents (g : Graph) (id : Text) : List Text :=
  if (g.element? id).any (·.isNode) then
    (g.incidentEdges id).map (·.id) ++ (g.childrenOf id).map (·.id)
  else []

/-- The live elements that go when the given ones are taken out, in the order of going. -/
def cascade (g : Graph) (ids : List Text) : List Text :=
  Search.reach g.liveIds g.dependents (ids.filter (· ∈ g.liveIds))

/-- The given ids in the order of the graph. -/
def inOrder (g : Graph) (ids : List Text) : List Text :=
  g.ids.filter (· ∈ ids)

/-- Takes elements out with all that goes with them; gives what was taken out, in the order of the
graph. -/
def remove (g : Graph) (ids : List Text) : Graph × List Text :=
  let gone := g.cascade ids
  (((g.modify gone fun e => { e with removed := true }).touch).note (.removed gone.length),
    g.inOrder gone)

/-- Whether both ends of an edge are in the graph. -/
def endsLive (g : Graph) (e : Element) : Bool :=
  [e.source, e.target].all fun v => (g.element? v.plain).any (·.live)

/-- Puts elements back one by one, leaving out edges with an end that is not in the graph. -/
def putBack (g : Graph) : List Element → Graph × List Text
  | [] => (g, [])
  | e :: es =>
    if e.isEdge && !g.endsLive e then putBack (g.note (.endMissing e.id)) es
    else
      let (g, restored) := putBack (g.modify [e.id] fun e => { e with removed := false }) es
      (g, e.id :: restored)

/-- Puts elements back, nodes before edges; gives what was put back, in that order. -/
def restore (g : Graph) (ids : List Text) : Graph × List Text :=
  let members := g.elements.filter fun e => e.removed && e.id ∈ ids
  let (g, restored) := g.putBack (members.filter (·.isNode) ++ members.filter (·.isEdge))
  (g.touch, restored)

end MeshLens.Graph
