import MeshLens.Graph.Definition

/-!
# How a graph is kept

A graph is kept with the places of its elements in the row, and with two tables in which what is at a
node and in a box can be looked up. A new element is written to all of these, one after the other. An
edge is entered in the row of the text of its source and, where its ends do not compare as equal, in
the row of the text of its target; a node is entered in the row of the text of its parent. Nothing else
writes the tables: taking out and putting back decides only which members of a row are passed over.
-/

namespace MeshLens

/-! ## Tables of neighbours -/

/-- The neighbours of each id. -/
structure Adjacency where
  /-- For the text of an end, the edges with this end. -/
  edges : Entries (List Text) := []
  /-- For the text of a parent, the nodes with this parent. -/
  children : Entries (List Text) := []

namespace Adjacency

/-- The row of an id, empty when there is none. -/
def row (table : Entries (List Text)) (id : Text) : List Text :=
  (table.get? id).getD []

/-- Writes a member at the end of a row. -/
def write (table : Entries (List Text)) (id member : Text) : Entries (List Text) :=
  table.set id (row table id ++ [member])

/-- Enters a new element. -/
def enter (a : Adjacency) (e : Element) : Adjacency :=
  if e.isEdge then
    let edges := write a.edges e.source.plain e.id
    if e.target.comparesEqual e.source then { a with edges }
    else { a with edges := write edges e.target.plain e.id }
  else if e.parent.truthy then { a with children := write a.children e.parent.plain e.id }
  else a

end Adjacency

/-- A graph with the tables of its neighbours. -/
structure IndexedGraph where
  graph : Graph := {}
  adjacency : Adjacency := {}

namespace IndexedGraph

open Adjacency (row)

/-- The members of a row that are in the graph. -/
def members (s : IndexedGraph) (ids : List Text) : List Element :=
  (ids.filterMap s.graph.element?).filter (·.live)

/-- The live edges that are listed at an id. -/
def incidentEdges (s : IndexedGraph) (id : Text) : List Element :=
  s.members (row s.adjacency.edges id)

/-- The live nodes that are listed in what has an id. -/
def childrenOf (s : IndexedGraph) (id : Text) : List Element :=
  s.members (row s.adjacency.children id)

end IndexedGraph

/-! ## Adding an element -/

/-- A graph with the tables of its neighbours and the positions of its elements. -/
structure Store extends IndexedGraph where
  /-- For each id, which place its element has in the row. -/
  positions : Entries Nat := []

namespace Store

/-- A reading that may be refused. -/
def check {α : Type} (reading : Except DefinitionError α) : EStateM DefinitionError Store α :=
  match reading with
  | .ok a => pure a
  | .error fault => throw fault

/-- Writes an edge at an id. -/
def enterEdge (id member : Text) (s : Store) : Store :=
  { s with adjacency := { s.adjacency with edges := Adjacency.write s.adjacency.edges id member } }

/-- Writes a node below an id. -/
def enterChild (id member : Text) (s : Store) : Store :=
  { s with adjacency := { s.adjacency with children := Adjacency.write s.adjacency.children id member } }

/-- Writes a new element to all places. None of the writes can fail: the text that a row of a table goes
by is there for every value of data, whose whole numbers are those that can be written. -/
def record (e : Element) : EStateM DefinitionError Store Unit := do
  modify fun s => { s with positions := s.positions.set e.id s.positions.length }
  modify fun s => { s with graph := { s.graph with elements := s.graph.elements ++ [e] } }
  if e.isEdge then
    modify (enterEdge e.source.plain e.id)
    if !e.target.comparesEqual e.source then modify (enterEdge e.target.plain e.id)
  else if e.parent.truthy then modify (enterChild e.parent.plain e.id)

/-- Enters the element that a definition describes, reading and writing one thing after the other. What was
written before a refusal stays written. -/
def enter (definition : Value) : EStateM DefinitionError Store Element := do
  let .object fields := definition | throw .notAnObject
  let some (.object data) := Entries.get? fields "data" | throw .noData
  let kind ← check (Graph.kindOf ((Entries.get? fields "group").getD .null) data)
  let data ← check (Graph.completeData kind data)
  let id ← check (Graph.idOf data)
  if id ∈ (← get).graph.ids then throw (.duplicateId id)
  let (classes, otherClasses) ← check (Graph.classesOf ((Entries.get? fields "classes").getD .null))
  let e : Element := { id, kind, data, classes, otherClasses }
  record e
  return e

end Store

end MeshLens
