import MeshLens.Graph.Traversal

/-!
# Finding

Found elements are marked with a style class. Marking is for show only: nothing is hidden or taken
out, and what a marked node is joined to is not marked.
-/

namespace MeshLens

namespace Graph

/-- The style class that marks found elements. -/
def findMarker : Text := "find"

/-- Takes old marks off, also off elements that are taken out, and marks the live elements that
match a selector; no selector marks nothing. When the selector cannot be evaluated the old marks
are gone all the same. -/
def remark (g : Graph) (marker : Text) (selector : Option Text) :
    Graph × Except EvaluationError (List Text) :=
  match Selector.parse ("." ++ marker) with
  | .error e => (g, .error (.malformed e))
  | .ok marked =>
    match Element.matching marked g.elements with
    | .error e => (g, .error e)
    | .ok old =>
      let g := g.updateClasses (old.map (·.id)) [] marker
      match selector with
      | none => (g, .ok [])
      | some text =>
        match g.select text with
        | .error e => (g, .error e)
        | .ok hits =>
          let ids := hits.map (·.id)
          (if ids = [] then g else g.updateClasses ids marker [], .ok ids)

/-- Marks the elements that match a selector in place of those marked before, as one batch. Gives
the ids of the marked elements in the order of the graph. -/
def applyFind (g : Graph) (marker : Text) (selector : Option Text) :
    Graph × Except EvaluationError (List Text) :=
  let (g, result) := g.batch fun g => g.remark marker selector
  match result with
  | .error e => (g, .error e)
  | .ok ids => (g.note (.marked ids.length), .ok ids)

end Graph

end MeshLens
