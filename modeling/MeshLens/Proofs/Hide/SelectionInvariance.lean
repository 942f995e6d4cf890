import MeshLens.Hide.Closure
import MeshLens.Proofs.Find.MarkingEffect

/-!
# What selecting overlooks

What is selected in a graph, and what is hidden with it, follows from the kinds and the data of the
elements and from which of them are taken out. Marking elements and making them visible or invisible
makes no difference to it, as long as the selector asks for no style class.

## Key results

- `Graph.hideClosure_mapped`: what is hidden with a selection does not depend on what is drawn
-/

namespace MeshLens

namespace Element

/-- `List.filter` of changed elements: those are chosen that were chosen before, if the test does
not see the change. -/
theorem filter_map_eq {f : Element → Element} {p : Element → Bool} (hp : ∀ e, p (f e) = p e)
    (es : List Element) : (es.map f).filter p = (es.filter p).map f := by
  rw [List.filter_map]
  exact congrArg (List.map f) (List.filter_congr fun e _ => hp e)

/-- Whether a change of elements touches only what is drawn of them: their style classes, and
whether they are visible. -/
structure Overlooked (f : Element → Element) : Prop where
  id : ∀ e, (f e).id = e.id
  kind : ∀ e, (f e).kind = e.kind
  data : ∀ e, (f e).data = e.data
  removed : ∀ e, (f e).removed = e.removed

namespace Overlooked

variable {f : Element → Element} (hf : Overlooked f) (e : Element)

include hf

/-- `Overlooked` changes keep an element in the graph or out of it. -/
theorem live : (f e).live = e.live :=
  congrArg (!·) (hf.removed e)

/-- `Overlooked` changes make no node of an edge. -/
theorem isNode : (f e).isNode = e.isNode :=
  congrArg (fun kind => decide (kind = Kind.node)) (hf.kind e)

/-- `Overlooked` changes make no edge of a node. -/
theorem isEdge : (f e).isEdge = e.isEdge :=
  congrArg (fun kind => decide (kind = Kind.edge)) (hf.kind e)

/-- `Overlooked` changes make no box, and unmake none. -/
theorem isBox : (f e).isBox = e.isBox := by
  rw [Element.isBox, Element.isBox, hf.isNode, hf.data]

/-- `Overlooked` changes keep a node busy or idle. -/
theorem isBusy : Graph.isBusy (f e) = Graph.isBusy e := by
  rw [Graph.isBusy, Graph.isBusy, hf.data]

/-- `Overlooked` changes keep every field of the data. -/
theorem field (name : Text) : (f e).field name = e.field name := by
  rw [Element.field, Element.field, hf.data]

/-- `Overlooked` changes keep the source. -/
theorem source : (f e).source = e.source :=
  hf.field e "source"

/-- `Overlooked` changes keep the target. -/
theorem target : (f e).target = e.target :=
  hf.field e "target"

/-- `Overlooked` changes keep the parent. -/
theorem parent : (f e).parent = e.parent :=
  hf.field e "parent"

/-- `Overlooked` changes keep the `anchors` of an edge. -/
theorem anchors : (f e).anchors = e.anchors := by
  rw [Element.anchors, Element.anchors, hf.isEdge, hf.source, hf.target]

/-- `Overlooked` changes keep the `holder?` of a node. -/
theorem holder? : (f e).holder? = e.holder? := by
  rw [Element.holder?, Element.holder?, hf.isNode, hf.parent]

/-- `Overlooked` changes keep the row of ids. -/
theorem map_id (es : List Element) : (es.map f).map (·.id) = es.map (·.id) := by
  rw [List.map_map]
  exact List.map_congr_left fun e _ => hf.id e

end Overlooked

end Element

namespace Graph

/-- A `Graph` whose elements have been changed. -/
def mapped (g : Graph) (f : Element → Element) : Graph :=
  { g with elements := g.elements.map f }

variable {f : Element → Element} (hf : Element.Overlooked f) (g : Graph)

include hf

/-! ## Reading a graph -/

/-- `ids` after an overlooked change. -/
theorem ids_mapped : (g.mapped f).ids = g.ids :=
  hf.map_id g.elements

/-- `live` elements after an overlooked change. -/
theorem live_mapped : (g.mapped f).live = g.live.map f :=
  Element.filter_map_eq hf.live g.elements

/-- `liveIds` after an overlooked change. -/
theorem liveIds_mapped : (g.mapped f).liveIds = g.liveIds := by
  rw [liveIds, live_mapped hf, hf.map_id]
  rfl

/-- `element?` after an overlooked change finds the changed element. -/
theorem element?_mapped (id : Text) : (g.mapped f).element? id = (g.element? id).map f := by
  rw [element?, element?, mapped, List.find?_map]
  simp only [Function.comp_def, hf.id]

/-- `incidentEdges` after an overlooked change are the changed edges. -/
theorem incidentEdges_mapped (id : Text) :
    (g.mapped f).incidentEdges id = (g.incidentEdges id).map f := by
  rw [incidentEdges, incidentEdges, mapped, List.flatMap_map, List.map_flatMap]
  refine congrArg (fun f => List.flatMap f g.elements) (funext fun e => ?_)
  rw [hf.live, hf.anchors]
  split
  · rw [List.map_map]
    rfl
  · rfl

/-- `childrenOf` after an overlooked change are the changed nodes. -/
theorem childrenOf_mapped (id : Text) : (g.mapped f).childrenOf id = (g.childrenOf id).map f :=
  Element.filter_map_eq (fun e => by rw [hf.live, hf.holder?]) g.elements

/-- `edgesAt` nodes after an overlooked change are the same. -/
theorem edgesAt_mapped (nodes : List Text) : (g.mapped f).edgesAt nodes = g.edgesAt nodes := by
  simp only [edgesAt, incidentEdges_mapped hf, hf.map_id]

/-- `liveEnds` after an overlooked change are the changed elements. -/
theorem liveEnds_mapped (ends : List Value) :
    (g.mapped f).liveEnds ends = (g.liveEnds ends).map (List.map f) := by
  -- induction on the ends, each of which is looked up
  induction ends with
  | nil => rfl
  | cons v ends ih =>
    have hend : (g.mapped f).endOf? v = (g.endOf? v).map (Option.map f) := by
      unfold endOf?
      split
      · split
        · rw [element?_mapped hf]
          rfl
        · rfl
        · rfl
        · rfl
      · rfl
    simp only [liveEnds, hend, ih]
    cases g.endOf? v with
    | error fault => rfl
    | ok found =>
      cases g.liveEnds ends with
      | error fault => rfl
      | ok rest =>
        cases found with
        | none => rfl
        | some e => cases hsome : e.live <;> simp [Except.map, Option.filter, hsome, hf.live]

/-- `endsOf` edges after an overlooked change are the same. -/
theorem endsOf_mapped (edges : List Element) :
    (g.mapped f).endsOf (edges.map f) = g.endsOf edges := by
  have hends : (edges.map f).flatMap (fun e => [e.source, e.target]) =
      edges.flatMap fun e => [e.source, e.target] := by
    rw [List.flatMap_map]
    simp only [hf.source, hf.target]
  rw [endsOf, endsOf, hends, liveEnds_mapped hf]
  cases g.liveEnds (edges.flatMap fun e => [e.source, e.target]) with
  | error fault => rfl
  | ok es => simp only [Except.map, hf.map_id]

/-! ## What is hidden with a selection -/

/-- `closureOf` changed hits is the closure of the hits. -/
theorem closureOf_mapped (hits : List Element) :
    (g.mapped f).closureOf (hits.map f) = g.closureOf hits := by
  have hnodes : ((hits.map f).filter (·.isNode)).map (·.id) = (hits.filter (·.isNode)).map (·.id) := by
    rw [Element.filter_map_eq hf.isNode, hf.map_id]
  have hbox (id : Text) : ((g.mapped f).element? id).any (·.isBox) = (g.element? id).any (·.isBox) := by
    rw [element?_mapped hf, Option.any_map]
    exact congrArg (fun p => Option.any p (g.element? id)) (funext hf.isBox)
  -- what remains are the same elements, drawn in another way
  have horphans (joined : List Text) (es : List Element) :
      ((es.map f).filter fun e => e.isNode && isBusy e && e.id ∉ joined).map (·.id) =
        (es.filter fun e => e.isNode && isBusy e && e.id ∉ joined).map (·.id) := by
    rw [Element.filter_map_eq (fun e => by rw [hf.isNode, hf.isBusy, hf.id]), hf.map_id]
  simp only [closureOf, hf.map_id, hnodes, edgesAt_mapped hf, live_mapped hf, hbox]
  rw [Element.filter_map_eq (fun e => by rw [hf.id]), Element.filter_map_eq hf.isEdge, endsOf_mapped hf]
  simp only [horphans]

/-- `select` after an overlooked change gives the changed elements, for a plain selector. -/
theorem select_mapped {text : Text} (hplain : Selector.PlainText (some text)) :
    (g.mapped f).select text = (g.select text).map (List.map f) :=
  select_congr (fun e => ⟨hf.id e, hf.kind e, hf.data e, hf.removed e⟩) rfl hplain

/-- `hideClosure` does not depend on what is drawn, for a plain selector. -/
theorem hideClosure_mapped {text : Text} (hplain : Selector.PlainText (some text)) :
    (g.mapped f).hideClosure text = g.hideClosure text := by
  rw [hideClosure, hideClosure, select_mapped hf g hplain]
  cases g.select text with
  | error fault => rfl
  | ok hits => exact closureOf_mapped hf g hits

end Graph

end MeshLens
