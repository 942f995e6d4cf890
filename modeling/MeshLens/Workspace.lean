import MeshLens.Graph.Definition
import MeshLens.Graph.Removal

/-!
# Collections over several snapshots

A workspace holds snapshots by name. A collection belongs to one snapshot and has one member of
each id, but its members may come from other snapshots: changing a member changes it where it
lives, while the rendering is asked of the snapshot that makes the change.
-/

namespace MeshLens

/-- An element of a named snapshot. -/
structure ElementRef where
  graph : Text
  id : Text
  deriving DecidableEq, Repr

/-- A collection of elements: the snapshot that it belongs to, and its members, one of each id. -/
structure ElementSet where
  graph : Text
  members : List ElementRef := []
  deriving DecidableEq, Repr

namespace ElementSet

/-- The collection of a list of elements; of several with one id the first counts. -/
def ofRefs (graph : Text) (refs : List ElementRef) : ElementSet where
  graph := graph
  members := refs.foldl
    (fun kept r => if kept.any (·.id = r.id) then kept else kept ++ [r]) []

/-- The collection of elements of one snapshot. -/
def ofIds (graph : Text) (ids : List Text) : ElementSet :=
  ofRefs graph (ids.map fun id => ⟨graph, id⟩)

/-- The ids of the members, in order. -/
def ids (s : ElementSet) : List Text :=
  s.members.map (·.id)

/-- Adds the members of another collection at the end, as far as their ids are new. -/
def union (s t : ElementSet) : ElementSet :=
  ofRefs s.graph (s.members ++ t.members)

/-- Leaves out the members whose ids another collection has. -/
def difference (s t : ElementSet) : ElementSet :=
  { s with members := s.members.filter fun r => r.id ∉ t.ids }

/-- The text that shows a collection. -/
def caption (s : ElementSet) : Text :=
  "ElementSet(" ++ (Value.list (s.ids.map .text)).plain ++ ")"

end ElementSet

/-- Snapshots by name. -/
structure Workspace where
  graphs : Entries Graph := []

namespace Workspace

/-- The snapshot of a name. -/
def graph? (w : Workspace) (name : Text) : Option Graph :=
  w.graphs.get? name

/-- The snapshot of a name, empty when there is none. -/
def graphAt (w : Workspace) (name : Text) : Graph :=
  (w.graph? name).getD {}

/-- Replaces a snapshot. -/
def put (w : Workspace) (name : Text) (g : Graph) : Workspace :=
  { w with graphs := w.graphs.set name g }

/-- The element that a reference names. -/
def element? (w : Workspace) (r : ElementRef) : Option Element :=
  (w.graph? r.graph).bind (·.element? r.id)

/-- The members of a collection with their elements. -/
def membersOf (w : Workspace) (s : ElementSet) : List (ElementRef × Element) :=
  s.members.filterMap fun r => (w.element? r).map fun e => (r, e)

/-- Applies a change to elements wherever they live. -/
def modify (w : Workspace) (refs : List ElementRef) (change : Element → Element) : Workspace where
  graphs := w.graphs.map fun (name, g) =>
    (name, g.modify ((refs.filter (·.graph = name)).map (·.id)) change)

/-- Lets a snapshot record a change. -/
def touch (w : Workspace) (name : Text) : Workspace :=
  w.put name (w.graphAt name).touch

/-! ## Parts of collections -/

/-- The members of one kind. -/
def ofKind (w : Workspace) (s : ElementSet) (kind : Kind) : ElementSet :=
  { s with members := ((w.membersOf s).filter fun (_, e) => e.kind = kind).map (·.1) }

/-- The members that match a selector; the first failure ends it. -/
def matching (s : Selector) : List (ElementRef × Element) →
    Except EvaluationError (List ElementRef)
  | [] => .ok []
  | (r, e) :: rest =>
    match s.accepts e with
    | .error fault => .error fault
    | .ok accepted => (matching s rest).map fun refs => if accepted then r :: refs else refs

/-- The members of a collection that match a selector. -/
def filter (w : Workspace) (s : ElementSet) (selector : Text) :
    Except EvaluationError ElementSet :=
  match Selector.parse selector with
  | .error e => .error (.malformed e)
  | .ok parsed => (matching parsed (w.membersOf s)).map fun refs => { s with members := refs }

/-- The elements of a snapshot, with or without those taken out. -/
def all (w : Workspace) (name : Text) (withRemoved : Bool) : ElementSet :=
  let g := w.graphAt name
  .ofIds name (if withRemoved then g.ids else g.liveIds)

/-- The elements of its snapshot that a collection has not. -/
def complement (w : Workspace) (s : ElementSet) : ElementSet :=
  (w.all s.graph false).difference s

/-- The edges of its snapshot at the nodes of a collection. -/
def connectedEdges (w : Workspace) (s : ElementSet) : ElementSet :=
  .ofIds s.graph ((w.graphAt s.graph).edgesAt (w.ofKind s .node).ids)

/-- The elements of its snapshot at the ends of the edges of a collection. -/
def connectedNodes (w : Workspace) (s : ElementSet) : Except EvaluationError ElementSet :=
  let edges := ((w.membersOf s).map (·.2)).filter (·.isEdge)
  ((w.graphAt s.graph).endsOf edges).map (.ofIds s.graph)

/-! ## Changes -/

/-- Adds a style class to elements and takes another one off, on behalf of a snapshot. -/
def updateClasses (w : Workspace) (name : Text) (refs : List ElementRef) (add drop : Text) :
    Workspace :=
  (w.modify refs fun e =>
    let e := if add = [] then e else e.addClass add
    if drop = [] then e else e.dropClass drop).touch name

/-- Shows or hides elements on behalf of a snapshot. -/
def setVisible (w : Workspace) (name : Text) (refs : List ElementRef) (visible : Bool) :
    Workspace :=
  (w.modify refs fun e => { e with visible }).touch name

/-- The live elements of all snapshots. -/
def liveRefs (w : Workspace) : List ElementRef :=
  w.graphs.flatMap fun (name, g) => g.liveIds.map fun id => ⟨name, id⟩

/-- What goes with an element that a snapshot takes out, the element itself being of this or of
another snapshot. -/
def dependents (w : Workspace) (name : Text) (r : ElementRef) : List ElementRef :=
  if (w.element? r).any (·.isNode) then
    let g := w.graphAt name
    ((g.incidentEdges r.id).map (·.id) ++ (g.childrenOf r.id).map (·.id)).map fun id => ⟨name, id⟩
  else []

/-- Lets a snapshot take elements out with all that goes with them. What was taken out is given in
the order of that snapshot; there is no such order, and no result, when an id is not its own. -/
def remove (w : Workspace) (name : Text) (refs : List ElementRef) :
    Workspace × Option ElementSet :=
  let live := w.liveRefs
  let gone := Search.reach live (w.dependents name) (refs.filter (· ∈ live))
  let w := (w.modify gone fun e => { e with removed := true }).touch name
  let g := (w.graphAt name).note (.removed gone.length)
  let ids := g.ids
  (w.put name g,
    if gone.all (·.id ∈ ids) then
      some (.ofRefs name (ids.flatMap fun id => gone.filter (·.id = id)))
    else none)

/-- Lets a snapshot put its own elements of a collection back. -/
def restore (w : Workspace) (name : Text) (refs : List ElementRef) : Workspace × ElementSet :=
  let (g, restored) :=
    (w.graphAt name).restore ((refs.filter (·.graph = name)).map (·.id))
  (w.put name g, .ofIds name restored)

/-! ## Comparing snapshots -/

/-- Whether a snapshot has other elements than a previous one, counting those taken out. -/
def compositionChanged (previous : Option Graph) (current : Graph) : Bool :=
  match previous with
  | none => true
  | some p => !(p.ids.all (· ∈ current.ids) && current.ids.all (· ∈ p.ids))

end Workspace

end MeshLens
