import MeshLens.Hide.Closure

/-!
# Hiding

Hiding is undone before it is done again: a hider remembers what it hid last in a handle, and each
evaluation first shows or puts back what the handle holds. A handle on another snapshot than the
one at hand is dropped, and that snapshot stays as it is.
-/

namespace MeshLens

/-- What was hidden by one evaluation, and on which snapshot. -/
structure HideHandle where
  /-- The name of the snapshot. -/
  graph : Text
  mode : HideMode
  elements : List Text
  deriving DecidableEq, Repr

/-- The outcome of one evaluation. -/
structure HideOutcome where
  /-- What was made invisible. -/
  hidden : List Text := []
  /-- What was taken out. -/
  removed : List Text := []
  layoutRequested : Bool := false
  deriving DecidableEq, Repr

/-- The circumstances of an evaluation. -/
structure HideOccasion where
  /-- The snapshot is not the one of the last evaluation. -/
  graphChanged : Bool := false
  /-- Take elements out instead of making them invisible. -/
  compress : Bool := false
  compressChanged : Bool := false
  hideChanged : Bool := false
  elementsChanged : Bool := false
  /-- The layout to run where one is needed, instead of the hider's own. -/
  layout : Text := []
  deriving DecidableEq, Repr

/-- Hides elements, and remembers what it hid last. -/
structure Hider where
  layout : Text := "dagre"
  handle : Option HideHandle := none
  deriving DecidableEq, Repr

namespace Graph

/-- The event that keeps a view from zooming on the next layout. -/
def zoomIgnoreEvent : Text := "zoomignore"

/-- Undoes what a handle holds, unless it is on another snapshot or the snapshot is new. -/
def release (g : Graph) (name : Text) (handle : Option HideHandle) (graphChanged : Bool) :
    Graph :=
  match handle with
  | none => g
  | some h =>
    if graphChanged ∨ h.graph ≠ name then g.note (.staleHandle h.mode)
    else
      match h.mode with
      | .hidden => g.setVisible h.elements true
      | .removed => (g.restore h.elements).1

/-- Hides a closed selection in one of the two ways; gives what was hidden. -/
def conceal (g : Graph) (mode : HideMode) (ids : List Text) : Graph × List Text :=
  match mode with
  | .hidden => g.obscure ids
  | .removed => g.compress ids

/-- Undoes a handle and hides what a selector selects; gives the new handle. -/
def rehide (g : Graph) (name : Text) (handle : Option HideHandle) (selector : Option Text)
    (occasion : HideOccasion) : Graph × Except EvaluationError (Option HideHandle) :=
  let g := g.release name handle occasion.graphChanged
  match selector with
  | none => (g, .ok none)
  | some text =>
    match g.hideClosure text with
    | .error e => (g, .error e)
    | .ok ids =>
      let mode := if occasion.compress then HideMode.removed else .hidden
      let (g, elements) := g.conceal mode ids
      (g, .ok (some { graph := name, mode, elements }))

end Graph

namespace HideHandle

/-- The outcome that a handle stands for. -/
def outcome (handle : Option HideHandle) (layoutRequested : Bool) : HideOutcome :=
  match handle with
  | none => { layoutRequested }
  | some h =>
    match h.mode with
    | .hidden => { hidden := h.elements, layoutRequested }
    | .removed => { removed := h.elements, layoutRequested }

/-- Whether a handle holds elements that were taken out. -/
def hasRemoved (handle : Option HideHandle) : Bool :=
  handle.any fun h => h.mode = .removed && !h.elements.isEmpty

end HideHandle

namespace Hider

/-- Forgets what was hidden last without touching any snapshot. -/
def forget (hider : Hider) : Hider :=
  { hider with handle := none }

/-- Whether an evaluation changes the shape of the graph so that it has to be laid out anew. -/
def needsLayout (occasion : HideOccasion) (selector : Option Text)
    (handle : Option HideHandle) : Bool :=
  occasion.hideChanged || (occasion.compressChanged && selector.isSome) ||
    (HideHandle.hasRemoved handle && occasion.elementsChanged)

/-- What is left to do once a batch of undoing and hiding is over: a layout where one is needed, and
the new handle to be remembered, or none after a failure. -/
def conclude (hider : Hider) (selector : Option Text) (occasion : HideOccasion) (g : Graph)
    (result : Except EvaluationError (Option HideHandle)) :
    Hider × Graph × Except EvaluationError HideOutcome :=
  match result with
  | .error e => (hider.forget, g, .error e)
  | .ok handle =>
    let layoutRequested := needsLayout occasion selector handle
    let g :=
      if layoutRequested then
        (g.emit Graph.zoomIgnoreEvent [.bool true]).runLayout
          (if occasion.layout = [] then hider.layout else occasion.layout)
      else g
    let g := match handle with
      | none => g
      | some h => g.note (.hid h.mode h.elements.length)
    ({ hider with handle }, g, .ok (HideHandle.outcome handle layoutRequested))

/-- Undoes what was hidden last and hides what a selector selects, as one batch, on the snapshot of
the given name. When the selector cannot be evaluated nothing stays hidden. -/
def apply (hider : Hider) (name : Text) (g : Graph) (selector : Option Text)
    (occasion : HideOccasion) : Hider × Graph × Except EvaluationError HideOutcome :=
  let (g, result) := g.batch fun g => g.rehide name hider.handle selector occasion
  hider.conclude selector occasion g result

end Hider

end MeshLens
