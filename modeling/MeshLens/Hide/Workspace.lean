import MeshLens.Hide
import MeshLens.Workspace

/-!
# Hiding over several snapshots

What a handle holds are elements of the snapshot that it was made on, and undoing it changes them
where they live, on behalf of the snapshot at hand. Looked at over all snapshots, hiding changes every
member of a handle in the snapshot that it belongs to.
-/

namespace MeshLens

/-- The elements that a handle holds, where they live. -/
def HideHandle.refs (handle : HideHandle) : List ElementRef :=
  handle.elements.map fun id => ⟨handle.graph, id⟩

namespace Workspace

variable (w : Workspace) (name : Text)

/-- Undoes what a handle holds, on behalf of a snapshot: every member is changed where it lives. -/
def release (handle : Option HideHandle) (graphChanged : Bool) : Workspace :=
  match handle with
  | none => w
  | some h =>
    if graphChanged ∨ h.graph ≠ name then w.put name ((w.graphAt name).note (.staleHandle h.mode))
    else
      match h.mode with
      | .hidden => w.setVisible h.graph h.refs true
      | .removed => (w.restore h.graph h.refs).1

/-- Undoes what was hidden last and hides what a selector selects, on behalf of a snapshot: every member
of the handle is changed where it lives. -/
def hide (hider : Hider) (selector : Option Text) (occasion : HideOccasion) :
    Hider × Workspace × Except EvaluationError HideOutcome :=
  let w := w.put name (w.graphAt name).startBatch
  let w := w.release name hider.handle occasion.graphChanged
  let (g, result) := (w.graphAt name).rehide name none selector occasion
  let (hider, g, result) := hider.conclude selector occasion (g.endBatch?.getD g) result
  (hider, w.put name g, result)

end Workspace

end MeshLens
