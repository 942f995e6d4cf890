import MeshLens.Graph.Basic
import MeshLens.Text.Basic
import MeshLens.Value.Form

/-!
# Building graphs from data

A definition describes one element: its data, and perhaps its group and its style classes. A
definition is either refused for a stated reason, or adds exactly one element at the end. A graph
is given as a list of definitions, or as two lists of nodes and of edges.
-/

namespace MeshLens

/-- Why a definition or a graph is refused. -/
inductive DefinitionError
  | notAnObject
  | noData
  | unknownGroup (group : Value)
  | missingEnds (data : Entries Value)
  | missingId (data : Entries Value)
  | duplicateId (id : Text)
  | notAGraph
  /-- The style classes are no text and no list of plain values, or the nodes or the edges are no
  list of objects. -/
  | misuse (fault : Misuse)

namespace DefinitionError

/-- The message of an error. -/
def message : DefinitionError → Text
  | notAnObject => "Graph element must be an object"
  | noData => "Graph element must have a 'data' object"
  | unknownGroup group => "Unknown element group: " ++ group.plain
  | missingEnds data => "Edge must have source and target: " ++ (Value.object data).written
  | missingId data => "Node must have an id: " ++ (Value.object data).written
  | duplicateId id => "Duplicate element id: " ++ id
  | notAGraph => "Graph JSON must be a list of elements or an object with 'elements'"
  | misuse fault => fault.message

/-- Whether an error is about the form of the data rather than what it says. -/
def isAboutForm : DefinitionError → Bool
  | unknownGroup _ | missingEnds _ | missingId _ | duplicateId _ => false
  | _ => true

end DefinitionError

namespace Graph

/-- The text of a value that is one. -/
def text? : Value → Option Text
  | .text s => some s
  | _ => none

/-- The kind of element that a definition is about: what its group says or, without one, an edge
when its data has a source. -/
def kindOf (group : Value) (data : Entries Value) : Except DefinitionError Kind :=
  if group.truthy then
    match (text? group).bind Kind.ofGroupName? with
    | some kind => .ok kind
    | none => .error (.unknownGroup group)
  else .ok (if (data.get? "source").isSome then .edge else .node)

/-- The data of a new element. An edge needs two ends, and has the id `source->target` when its
data gives none. -/
def completeData (kind : Kind) (data : Entries Value) : Except DefinitionError (Entries Value) :=
  match kind with
  | .node => .ok data
  | .edge =>
    let source := (data.get? "source").getD .null
    let target := (data.get? "target").getD .null
    if source.truthy && target.truthy then
      if (data.get? "id").isSome then .ok data
      else .ok (data.set "id" (.text (source.plain ++ "->" ++ target.plain)))
    else .error (.missingEnds data)

/-- The id that data gives. -/
def idOf (data : Entries Value) : Except DefinitionError Text :=
  let id := (data.get? "id").getD .null
  if id.truthy then .ok id.plain else .error (.missingId data)

/-- Whether a value is a list or an object, which cannot be a member of a class list. -/
def isNested : Value → Bool
  | .list _ | .object _ => true
  | _ => false

/-- The style classes of a definition: the words of a text, or the members of a list. Texts are
told from other members, of which equal ones count once. -/
def classesOf (classes : Value) : Except DefinitionError (List Text × List Value) :=
  if classes.truthy then
    match classes with
    | .text s => .ok ((Text.words s).eraseDups, [])
    | .list items =>
      match items.find? isNested with
      | some item => .error (.misuse (.asKey item.form))
      | none =>
        .ok ((items.filterMap text?).eraseDups,
          (items.filter fun v => (text? v).isNone).foldl
            (fun kept v => if kept.any v.equal then kept else kept ++ [v]) [])
    | .object fields => .ok ((Entries.names fields).eraseDups, [])
    | other => .error (.misuse (.asItems other.form))
  else .ok ([], [])

/-- The element that a definition describes, new to a graph. -/
def define (g : Graph) (definition : Value) : Except DefinitionError Element :=
  match definition with
  | .object fields =>
    match Entries.get? fields "data" with
    | some (.object data) => do
      let kind ← kindOf ((Entries.get? fields "group").getD .null) data
      let data ← completeData kind data
      let id ← idOf data
      if id ∈ g.ids then throw (.duplicateId id)
      let (classes, otherClasses) ← classesOf ((Entries.get? fields "classes").getD .null)
      return { id, kind, data, classes, otherClasses }
    | _ => .error .noData
  | _ => .error .notAnObject

/-- Adds the element that a definition describes. -/
def add (g : Graph) (definition : Value) : Except DefinitionError (Graph × Element) :=
  (g.define definition).map fun e => ({ g with elements := g.elements ++ [e] }, e)

/-- Adds several elements in order. -/
def addAll (g : Graph) : List Value → Except DefinitionError Graph
  | [] => .ok g
  | definition :: definitions =>
    match g.add definition with
    | .error e => .error e
    | .ok (g, _) => g.addAll definitions

/-- The definitions in one of the two lists of a graph, with their group set. The members of a text
or an object are texts, and so no definitions. -/
def grouped (group : Text) (items : Value) : Except DefinitionError (List Value) :=
  if items.truthy then
    match items with
    | .list items =>
      items.mapM fun
        | .object fields => .ok (.object (Entries.set fields "group" (.text group)))
        | other => .error (.misuse (.asFields other.form))
    | .text _ | .object _ => .error (.misuse (.asFields .text))
    | other => .error (.misuse (.asItems other.form))
  else .ok []

/-- The definitions that a graph is given by. -/
def definitionsOf (payload : Value) : Except DefinitionError (List Value) :=
  let payload := match payload with
    | .object fields => (Entries.get? fields "elements").getD payload
    | other => other
  match payload with
  | .object fields => do
    let nodes ← grouped Kind.node.groupName ((Entries.get? fields "nodes").getD .null)
    let edges ← grouped Kind.edge.groupName ((Entries.get? fields "edges").getD .null)
    return nodes ++ edges
  | .list definitions => .ok definitions
  | _ => .error .notAGraph

/-- Builds a graph from its data. -/
def ofValue (payload : Value) : Except DefinitionError Graph := do
  ({} : Graph).addAll (← definitionsOf payload)

end Graph

end MeshLens
