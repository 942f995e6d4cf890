import MeshLens.Graph.Element
import MeshLens.Notice

/-!
# Graph snapshots

A snapshot of a service graph keeps its elements in the order in which they were added and never
forgets one: an element that is taken out is marked, so that it can be put back as it was. The
snapshot also does the bookkeeping of drawing: it asks for a rendering after each change, or once
at the end of a batch of changes.
-/

namespace MeshLens

/-- What a listener was told. -/
structure Emission where
  /-- The tag that the listener was registered with. -/
  tag : Text
  args : List Value

/-- A snapshot of a service graph. -/
structure Graph where
  /-- All elements, also those taken out, in the order in which they were added. -/
  elements : List Element := []
  /-- How many batches are open. -/
  openBatches : Nat := 0
  /-- Whether something changed since the last rendering. -/
  stale : Bool := false
  /-- How often a rendering was asked for. -/
  renders : Nat := 0
  /-- The layouts asked for. -/
  layouts : List Text := []
  /-- The listeners: event and tag of each. -/
  listeners : List (Text × Text) := []
  /-- What the listeners were told. -/
  emissions : List Emission := []
  /-- What was reported. -/
  notices : List Notice := []

namespace Graph

/-! ## Elements -/

/-- The element of an id, also when it is taken out. -/
def element? (g : Graph) (id : Text) : Option Element :=
  g.elements.find? (·.id = id)

/-- The elements in the graph. -/
def live (g : Graph) : List Element :=
  g.elements.filter (·.live)

/-- The ids of the elements in the graph. -/
def liveIds (g : Graph) : List Text :=
  g.live.map (·.id)

/-- The ids of all elements, in order. -/
def ids (g : Graph) : List Text :=
  g.elements.map (·.id)

/-- Applies a change to the elements of given ids. -/
def modify (g : Graph) (ids : List Text) (change : Element → Element) : Graph :=
  { g with elements := g.elements.map fun e => if e.id ∈ ids then change e else e }

/-- Adds a notice to what was reported. -/
def note (g : Graph) (notice : Notice) : Graph :=
  { g with notices := g.notices ++ [notice] }

/-! ## Events and batches -/

/-- Registers a listener. -/
def listen (g : Graph) (event tag : Text) : Graph :=
  { g with listeners := g.listeners ++ [(event, tag)] }

/-- Tells the listeners of an event, in the order in which they were registered. -/
def emit (g : Graph) (event : Text) (args : List Value) : Graph :=
  let told := g.listeners.filter fun listener => listener.1 = event
  { g with emissions := g.emissions ++ told.map fun listener => ⟨listener.2, args⟩ }

/-- The event of a rendering. -/
def renderEvent : Text := "render"

/-- The event of a layout. -/
def layoutEvent : Text := "layoutstart"

/-- Asks for a rendering. -/
def render (g : Graph) : Graph :=
  ({ g with stale := false, renders := g.renders + 1 } : Graph).emit renderEvent []

/-- Records a change: it is rendered at once, or at the end of the batch. -/
def touch (g : Graph) : Graph :=
  let g := { g with stale := true }
  if g.openBatches = 0 then g.render else g

/-- Opens a batch. -/
def startBatch (g : Graph) : Graph :=
  { g with openBatches := g.openBatches + 1 }

/-- Closes a batch; the outermost one is rendered if something changed. There is no result when no
batch is open. -/
def endBatch? (g : Graph) : Option Graph :=
  match g.openBatches with
  | 0 => none
  | n + 1 =>
    let g := { g with openBatches := n }
    some (if n = 0 ∧ g.stale then g.render else g)

/-- Runs a step within a batch of its own. -/
def batch {α : Type} (g : Graph) (step : Graph → Graph × α) : Graph × α :=
  let (g, a) := step g.startBatch
  ((g.endBatch?).getD g, a)

/-- Asks for a layout. -/
def runLayout (g : Graph) (name : Text) : Graph :=
  let g := g.note (.layoutRequested name)
  ({ g with layouts := g.layouts ++ [name] } : Graph).emit layoutEvent [.text name]

/-! ## Style classes and visibility -/

/-- Adds a style class to elements and takes another one off; the empty name stands for none. -/
def updateClasses (g : Graph) (ids : List Text) (add drop : Text) : Graph :=
  (g.modify ids fun e =>
    let e := if add = [] then e else e.addClass add
    if drop = [] then e else e.dropClass drop).touch

/-- Shows or hides elements. -/
def setVisible (g : Graph) (ids : List Text) (visible : Bool) : Graph :=
  (g.modify ids fun e => { e with visible }).touch

end Graph

end MeshLens
