import MeshLens.Proofs.Hide.SelectionInvariance
import MeshLens.Proofs.Hide.HistoryIndependence

/-!
# Hiding does not look at style classes

What is hidden with a selection, and in which rounds, follows from the kinds, the data and the two
flags of the elements. So marking found elements before hiding, or between two calls of a hider, makes
no difference to what is hidden, as long as the selector asks for no style class.

## Key results

- `Graph.hideClosure_unmarked`: what is hidden with a selection does not depend on style classes
- `Graph.conceal_unmarked`: and neither does what the rounds of hiding answer
- `Graph.hideClosure_congr_unmarked`, `Graph.conceal_congr_unmarked`: the same for two graphs that differ
  in style classes
-/

namespace MeshLens

namespace Element

/-- An `Element` without its style classes. -/
def unmarked (e : Element) : Element :=
  { e with classes := [] }

/-- `unmarked` keeps the id. -/
@[simp] theorem unmarked_id (e : Element) : e.unmarked.id = e.id :=
  rfl

/-- `unmarked` touches only what is drawn of an element. -/
theorem overlooked_unmarked : Overlooked unmarked :=
  ⟨fun _ => rfl, fun _ => rfl, fun _ => rfl, fun _ => rfl⟩

/-- `unmarked` of two elements is the same only if all but their style classes is. -/
theorem eq_of_unmarked_eq {d e : Element} (h : d.unmarked = e.unmarked) :
    d.id = e.id ∧ d.kind = e.kind ∧ d.data = e.data ∧ d.visible = e.visible ∧
      d.removed = e.removed := by
  simp only [unmarked, Element.mk.injEq] at h
  exact ⟨h.1, h.2.1, h.2.2.1, h.2.2.2.2.2⟩

/-- `unmarked` lists that are the same: their elements are found in pairs. -/
theorem exists_mem_of_unmarked {es ds : List Element} (h : es.map unmarked = ds.map unmarked)
    {e : Element} (he : e ∈ es) : ∃ d ∈ ds, d.unmarked = e.unmarked := by
  have hmem : e.unmarked ∈ ds.map unmarked := h ▸ List.mem_map_of_mem he
  exact List.mem_map.1 hmem

/-- `withVisible` of an element without its style classes. -/
theorem withVisible_unmarked (visible : Bool) (e : Element) :
    e.unmarked.withVisible visible = (e.withVisible visible).unmarked :=
  rfl

/-- `withRemoved` of an element without its style classes. -/
theorem withRemoved_unmarked (removed : Bool) (e : Element) :
    e.unmarked.withRemoved removed = (e.withRemoved removed).unmarked :=
  rfl

/-- `unmarked` after `addClass` is as before. -/
theorem unmarked_addClass (name : Text) (e : Element) : (e.addClass name).unmarked = e.unmarked := by
  unfold addClass
  split <;> rfl

/-- `unmarked` after `withMark` is as before. -/
theorem unmarked_withMark (marker : Text) (marked : Bool) (e : Element) :
    (e.withMark marker marked).unmarked = e.unmarked := by
  cases marked with
  | false => rfl
  | true => exact unmarked_addClass marker (e.dropClass marker)

/-- `changed` can be made before or after style classes are taken off, if the change does not touch
them. -/
theorem changed_map_unmarked {change : Element → Element}
    (h : ∀ e : Element, change e.unmarked = (change e).unmarked) (es : List Element)
    (ids : List Text) :
    changed (es.map unmarked) ids change = (changed es ids change).map unmarked := by
  rw [changed, changed, List.map_map, List.map_map]
  refine List.map_congr_left fun e _ => ?_
  show (if e.id ∈ ids then change e.unmarked else e.unmarked) =
    (if e.id ∈ ids then change e else e).unmarked
  by_cases hid : e.id ∈ ids
  · rw [if_pos hid, if_pos hid, h]
  · rw [if_neg hid, if_neg hid]

end Element

namespace HideMode

/-- `conceal` of an element without its style classes. -/
theorem conceal_unmarked (mode : HideMode) (e : Element) :
    mode.conceal e.unmarked = (mode.conceal e).unmarked := by
  cases mode <;> rfl

/-- `conceal` of an element that is marked: the mark can be put on before or after. -/
theorem conceal_withMark (mode : HideMode) (marker : Text) (marked : Bool) (e : Element) :
    mode.conceal (e.withMark marker marked) = (mode.conceal e).withMark marker marked := by
  cases marked with
  | false => cases mode <;> rfl
  | true =>
    have hadd (e : Element) : mode.conceal (e.addClass marker) = (mode.conceal e).addClass marker := by
      have hclasses : (mode.conceal e).classes = e.classes := by cases mode <;> rfl
      unfold Element.addClass
      rw [hclasses]
      split
      · rfl
      · cases mode <;> rfl
    have hdrop : mode.conceal (e.dropClass marker) = (mode.conceal e).dropClass marker := by
      cases mode <;> rfl
    simp only [Element.withMark, if_true, hadd, hdrop]

end HideMode

namespace Graph

/-- A `Graph` whose elements have lost their style classes. -/
def unmarked (g : Graph) : Graph :=
  { g with elements := g.elements.map Element.unmarked }

/-- `elements` of a graph that has lost its style classes. -/
@[simp] theorem unmarked_elements (g : Graph) :
    g.unmarked.elements = g.elements.map Element.unmarked :=
  rfl

/-! ## Reading a graph -/

/-- `ids` do not depend on style classes. -/
theorem ids_unmarked (g : Graph) : g.unmarked.ids = g.ids :=
  ids_mapped Element.overlooked_unmarked g

/-- `live` elements do not depend on style classes. -/
theorem live_unmarked (g : Graph) : g.unmarked.live = g.live.map Element.unmarked :=
  live_mapped Element.overlooked_unmarked g

/-- `liveIds` do not depend on style classes. -/
theorem liveIds_unmarked (g : Graph) : g.unmarked.liveIds = g.liveIds :=
  liveIds_mapped Element.overlooked_unmarked g

/-- `element?` does not depend on style classes. -/
theorem element?_unmarked (g : Graph) (id : Text) :
    g.unmarked.element? id = (g.element? id).map Element.unmarked :=
  element?_mapped Element.overlooked_unmarked g id

/-- `incidentEdges` do not depend on style classes. -/
theorem incidentEdges_unmarked (g : Graph) (id : Text) :
    g.unmarked.incidentEdges id = (g.incidentEdges id).map Element.unmarked :=
  incidentEdges_mapped Element.overlooked_unmarked g id

/-- `childrenOf` does not depend on style classes. -/
theorem childrenOf_unmarked (g : Graph) (id : Text) :
    g.unmarked.childrenOf id = (g.childrenOf id).map Element.unmarked :=
  childrenOf_mapped Element.overlooked_unmarked g id

/-- `hideClosure` does not depend on style classes, for a plain selector. -/
theorem hideClosure_unmarked (g : Graph) {text : Text} (hplain : Selector.PlainText (some text)) :
    g.unmarked.hideClosure text = g.hideClosure text :=
  hideClosure_mapped Element.overlooked_unmarked g hplain

/-! ## Hiding in rounds -/

/-- `dependents` do not depend on style classes. -/
theorem dependents_unmarked (g : Graph) (id : Text) : g.unmarked.dependents id = g.dependents id := by
  have hnode : (g.unmarked.element? id).any (·.isNode) = (g.element? id).any (·.isNode) := by
    rw [element?_unmarked, Option.any_map]
    rfl
  rw [dependents, dependents, hnode, incidentEdges_unmarked, childrenOf_unmarked, List.map_map,
    List.map_map]
  rfl

/-- `remove` answers the same whatever the style classes are. -/
theorem remove_unmarked (g : Graph) (ids : List Text) : (g.unmarked.remove ids).2 = (g.remove ids).2 := by
  have hdependents : g.unmarked.dependents = g.dependents := funext g.dependents_unmarked
  have hcascade : g.unmarked.cascade ids = g.cascade ids := by
    rw [cascade, cascade, liveIds_unmarked, hdependents]
  show g.unmarked.inOrder (g.unmarked.cascade ids) = g.inOrder (g.cascade ids)
  rw [inOrder, inOrder, ids_unmarked, hcascade]

/-- `emptyBoxes` do not depend on style classes. -/
theorem emptyBoxes_unmarked (g : Graph) : g.unmarked.emptyBoxes = g.emptyBoxes := by
  have hholders : holdersOf g.unmarked.live = holdersOf g.live := by
    rw [live_unmarked, holdersOf, holdersOf, List.filterMap_map]
    rfl
  show (g.unmarked.live.filter fun e => e.isBox && e.id ∉ holdersOf g.unmarked.live).map (·.id) = _
  rw [hholders, live_unmarked, List.filter_map, List.map_map]
  rfl

/-- `blankBoxes` do not depend on style classes. -/
theorem blankBoxes_unmarked (g : Graph) : g.unmarked.blankBoxes = g.blankBoxes := by
  have hholders : holdersOf (g.unmarked.live.filter (·.visible)) =
      holdersOf (g.live.filter (·.visible)) := by
    rw [live_unmarked, List.filter_map, holdersOf, holdersOf, List.filterMap_map]
    rfl
  show (g.unmarked.live.filter fun e => e.isBox && e.visible &&
    e.id ∉ holdersOf (g.unmarked.live.filter (·.visible))).map (·.id) = _
  rw [hholders, live_unmarked, List.filter_map, List.map_map]
  rfl

/-- `removeEmptyBoxes` answers the same whatever the style classes are, by induction on the rounds.
-/
theorem removeEmptyBoxes_unmarked (g : Graph) (removed : List Text) :
    (g.unmarked.removeEmptyBoxes removed).2 = (g.removeEmptyBoxes removed).2 := by
  have hsame := g.emptyBoxes_unmarked
  by_cases hboxes : g.emptyBoxes = []
  · have hboxes' : g.unmarked.emptyBoxes = [] := by rw [hsame, hboxes]
    rw [removeEmptyBoxes_of_nil hboxes, removeEmptyBoxes_of_nil hboxes']
  · have hboxes' : g.unmarked.emptyBoxes ≠ [] := by rw [hsame]; exact hboxes
    have hlt := emptyBoxes_liveCount_lt hboxes
    rw [removeEmptyBoxes_of_ne_nil hboxes, removeEmptyBoxes_of_ne_nil hboxes', hsame, remove_unmarked]
    refine (removeEmptyBoxes_congr ?_ _).trans (removeEmptyBoxes_unmarked _ _)
    rw [remove_elements, remove_unmarked, unmarked_elements, unmarked_elements, remove_elements]
    exact Element.changed_map_unmarked (Element.withRemoved_unmarked true) _ _
termination_by g.liveCount

/-- `hideBlankBoxes` answers the same whatever the style classes are, by induction on the rounds. -/
theorem hideBlankBoxes_unmarked (g : Graph) (hidden : List Text) :
    (g.unmarked.hideBlankBoxes hidden).2 = (g.hideBlankBoxes hidden).2 := by
  have hsame := g.blankBoxes_unmarked
  by_cases hboxes : g.blankBoxes = []
  · have hboxes' : g.unmarked.blankBoxes = [] := by rw [hsame, hboxes]
    rw [hideBlankBoxes_of_nil hboxes, hideBlankBoxes_of_nil hboxes']
  · have hboxes' : g.unmarked.blankBoxes ≠ [] := by rw [hsame]; exact hboxes
    have hlt := blankBoxes_visibleCount_lt hboxes
    rw [hideBlankBoxes_of_ne_nil hboxes, hideBlankBoxes_of_ne_nil hboxes', hsame]
    refine (hideBlankBoxes_congr ?_ _).trans (hideBlankBoxes_unmarked _ _)
    rw [setVisible_elements, unmarked_elements, unmarked_elements, setVisible_elements]
    exact Element.changed_map_unmarked (Element.withVisible_unmarked false) _ _
termination_by g.visibleCount

/-- `conceal` of a closed selection answers the same whatever the style classes are. -/
theorem conceal_unmarked (g : Graph) (mode : HideMode) (ids : List Text) :
    (g.unmarked.conceal mode ids).2 = (g.conceal mode ids).2 := by
  cases mode with
  | hidden =>
    refine (hideBlankBoxes_congr ?_ ids).trans (hideBlankBoxes_unmarked (g.setVisible ids false) ids)
    rw [setVisible_elements, unmarked_elements, unmarked_elements, setVisible_elements]
    exact Element.changed_map_unmarked (Element.withVisible_unmarked false) _ _
  | removed =>
    show ((g.unmarked.remove ids).1.removeEmptyBoxes (g.unmarked.remove ids).2).2 =
      ((g.remove ids).1.removeEmptyBoxes (g.remove ids).2).2
    rw [remove_unmarked]
    refine (removeEmptyBoxes_congr ?_ _).trans (removeEmptyBoxes_unmarked (g.remove ids).1 _)
    rw [remove_elements, remove_unmarked, unmarked_elements, unmarked_elements, remove_elements]
    exact Element.changed_map_unmarked (Element.withRemoved_unmarked true) _ _

/-! ## Graphs that differ in style classes -/

section Differ

variable {g g' : Graph} (h : g.elements.map Element.unmarked = g'.elements.map Element.unmarked)

include h

/-- `hideClosure` is the same in two graphs that differ in style classes. -/
theorem hideClosure_congr_unmarked {text : Text} (hplain : Selector.PlainText (some text)) :
    g.hideClosure text = g'.hideClosure text := by
  have hsame : g.unmarked.elements = g'.unmarked.elements := h
  rw [← hideClosure_unmarked g hplain, hideClosure_congr hsame, hideClosure_unmarked g' hplain]

/-- `conceal` answers the same in two graphs that differ in style classes. -/
theorem conceal_congr_unmarked (mode : HideMode) (ids : List Text) :
    (g.conceal mode ids).2 = (g'.conceal mode ids).2 := by
  have hsame : g.unmarked.elements = g'.unmarked.elements := h
  rw [← conceal_unmarked g, conceal_congr hsame, conceal_unmarked g']

end Differ

end Graph

end MeshLens
