import MeshLens.Graph.Basic
import MeshLens.Selector.Matching

/-!
# Finding elements of a graph

Selections and the ways from nodes to edges and back. Collections are lists of ids without
repetition, in the order in which their members were found.
-/

namespace MeshLens

/-- The ids of a list, each at its first place. -/
def distinct (ids : List Text) : List Text :=
  ids.foldl (fun kept id => if id ∈ kept then kept else kept ++ [id]) []

namespace Element

/-- The elements of a list that match a selector; the first failure ends it. -/
def matching (s : Selector) : List Element → Except EvaluationError (List Element)
  | [] => .ok []
  | e :: es =>
    match s.accepts e with
    | .error fault => .error fault
    | .ok accepted => (matching s es).map fun rest => if accepted then e :: rest else rest

end Element

namespace Graph

/-- The live elements that match a selector, as read from its text. -/
def select (g : Graph) (text : Text) : Except EvaluationError (List Element) :=
  match Selector.parse text with
  | .error e => .error (.malformed e)
  | .ok s => Element.matching s g.live

/-- The live edges at a node, in the order in which they were added. An edge whose two ends differ
as values but have the same text is listed twice. -/
def incidentEdges (g : Graph) (id : Text) : List Element :=
  g.elements.flatMap fun e => if e.live then (e.anchors.filter (· = id)).map fun _ => e else []

/-- The live nodes that a box holds, in the order in which they were added. -/
def childrenOf (g : Graph) (id : Text) : List Element :=
  g.elements.filter fun e => e.live && e.holder? = some id

/-- The live edges at any of several nodes. -/
def edgesAt (g : Graph) (nodes : List Text) : List Text :=
  distinct (nodes.flatMap fun id => (g.incidentEdges id).map (·.id))

/-- The element that an edge names as an end. Only a text can name one, and a list or an object
cannot be looked up at all. -/
def endOf? (g : Graph) (v : Value) : Except EvaluationError (Option Element) :=
  if v.truthy then
    match v with
    | .text id => .ok (g.element? id)
    | .list _ | .object _ => .error (.misuse (.asKey v.form))
    | _ => .ok none
  else .ok none

/-- The live elements that several ends name, in order. -/
def liveEnds (g : Graph) : List Value → Except EvaluationError (List Element)
  | [] => .ok []
  | v :: vs =>
    match g.endOf? v with
    | .error fault => .error fault
    | .ok found =>
      (g.liveEnds vs).map fun rest => (found.filter (·.live)).toList ++ rest

/-- The live elements at the ends of several edges. -/
def endsOf (g : Graph) (edges : List Element) : Except EvaluationError (List Text) :=
  (g.liveEnds (edges.flatMap fun e => [e.source, e.target])).map fun es =>
    distinct (es.map (·.id))

end Graph

end MeshLens
