import MeshLens.Graph.Removal

/-!
# Taking out one by one

Elements leave a graph one by one. What is in the graph at an element or in it when it leaves is looked
at next, and what has left by the time that it is looked at is passed over.
-/

namespace MeshLens

/-- Elements being taken out of a graph. -/
structure Takeout where
  graph : Graph
  /-- The ids still to look at, the next one first. -/
  waiting : List Text := []
  /-- The ids of what was taken out, the latest one first. -/
  taken : List Text := []

namespace Takeout

/-- Starts with the elements asked for that are in the graph. The last of them is looked at first. -/
def start (g : Graph) (ids : List Text) : Takeout :=
  { graph := g, waiting := (ids.filter (· ∈ g.liveIds)).reverse }

/-- Looks at the next id. An element that is still in the graph is taken out, and what then is in the
graph at it or in it goes in front of what waits. -/
def step (t : Takeout) : Takeout :=
  match t.waiting with
  | [] => t
  | id :: waiting =>
    if id ∈ t.graph.liveIds then
      let graph := t.graph.modify [id] fun e => { e with removed := true }
      { graph, waiting := (graph.dependents id).reverse ++ waiting, taken := id :: t.taken }
    else { t with waiting }

end Takeout

end MeshLens
