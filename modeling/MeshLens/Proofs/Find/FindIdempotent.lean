import MeshLens.Proofs.Hide.SelectionInvariance

/-!
# Finding again

What is found does not depend on the marks, nor on what is visible. So marking what is found a second
time marks the same elements, also when some of them were made invisible in between.

## Key results

- `Graph.applyFind_result`: what finding answers
- `Graph.Marked`, `Graph.marked_applyFind`: the state that finding leaves behind
- `Graph.Marked.applyFind_elements`: finding again in this state changes nothing
-/

namespace MeshLens

namespace Element

/-- Taking a class off twice with `dropClass` is taking it off once. -/
theorem dropClass_dropClass (name : Text) (e : Element) :
    (e.dropClass name).dropClass name = e.dropClass name :=
  dropClass_eq_self fun h => (mem_classes_dropClass.1 h).2 rfl

/-- `dropClass` of a class that was just put on gives the element without it. -/
theorem dropClass_addClass (name : Text) (e : Element) :
    (e.addClass name).dropClass name = e.dropClass name := by
  unfold addClass
  split
  · rfl
  · simp [dropClass]

/-- Marking twice in the same way with `withMark` is marking once. -/
theorem withMark_withMark (marker : Text) (marked : Bool) (e : Element) :
    (e.withMark marker marked).withMark marker marked = e.withMark marker marked := by
  cases marked with
  | false => exact e.dropClass_dropClass marker
  | true =>
    show (((e.dropClass marker).addClass marker).dropClass marker).addClass marker = _
    rw [dropClass_addClass, dropClass_dropClass]
    rfl

/-- `withMark` and `withVisible` commute. -/
theorem withMark_withVisible (marker : Text) (marked visible : Bool) (e : Element) :
    (e.withVisible visible).withMark marker marked = (e.withMark marker marked).withVisible visible := by
  cases marked with
  | false => rfl
  | true =>
    have hnot : marker ∉ (e.dropClass marker).classes := fun h => (mem_classes_dropClass.1 h).2 rfl
    show ((e.dropClass marker).withVisible visible).addClass marker =
      ((e.dropClass marker).addClass marker).withVisible visible
    rw [addClass, addClass, if_neg hnot]
    exact if_neg hnot

/-- `withMark` is overlooked by a selection that asks for no style class. -/
theorem overlooked_withMark (marker : Text) (marked : Element → Bool) :
    Overlooked fun e => e.withMark marker (marked e) where
  id e := (withMark_frame marker (marked e) e).1
  kind e := (withMark_frame marker (marked e) e).2.1
  data e := (withMark_frame marker (marked e) e).2.2.1
  removed e := (withMark_frame marker (marked e) e).2.2.2.1

/-- `withVisible` is overlooked by a selection. -/
theorem overlooked_withVisible (visible : Element → Bool) :
    Overlooked fun e => e.withVisible (visible e) :=
  ⟨fun _ => rfl, fun _ => rfl, fun _ => rfl, fun _ => rfl⟩

end Element

namespace Graph

variable {g g' : Graph} {f : Element → Element} {selector : Option Text}

/-! ## What finding answers -/

/-- `hits` does not depend on what is drawn. -/
theorem hits_congr (hf : Element.Overlooked f) (h : g'.elements = g.elements.map f)
    (hplain : Selector.PlainText selector) : g'.hits selector = g.hits selector := by
  cases selector with
  | none => rfl
  | some text =>
    have hselect := select_congr (fun e => ⟨hf.id e, hf.kind e, hf.data e, hf.removed e⟩) h hplain
    rw [hits, hits, hselect]
    cases g.select text with
    | error fault => rfl
    | ok hits => exact congrArg Except.ok (hf.map_id hits)

/-- `applyFind` with any marker answers `hits`. -/
theorem applyFind_hits {marker : Text} (hmarker : Selector.isClassName marker = true) (g : Graph)
    (hplain : Selector.PlainText selector) : (g.applyFind marker selector).2 = g.hits selector := by
  obtain ⟨cleared, hcleared, hresult, -⟩ := exists_remark_eq hmarker g.startBatch selector
  have hoverlooked : Element.Overlooked (Element.dropClass marker) :=
    ⟨fun _ => rfl, fun _ => rfl, fun _ => rfl, fun _ => rfl⟩
  rw [(applyFind_eq g marker selector).2, hresult]
  exact hits_congr hoverlooked hcleared hplain

/-- `applyFind` leaves `hits` as it is. -/
theorem hits_applyFind {marker : Text} (hmarker : Selector.isClassName marker = true) (g : Graph)
    (hplain : Selector.PlainText selector) :
    (g.applyFind marker selector).1.hits selector = g.hits selector :=
  hits_congr (Element.overlooked_withMark marker _) (applyFind_elements hmarker g hplain) hplain

/-- `applyFind` with the marker of the finder answers `hits`. -/
theorem applyFind_result (g : Graph) (hplain : Selector.PlainText selector) :
    (g.applyFind findMarker selector).2 = g.hits selector :=
  applyFind_hits (by decide) g hplain

/-! ## The state that finding leaves behind -/

/-- Whether finding what a selector selects would find the marks as it would leave them. -/
def Marked (g : Graph) (selector : Option Text) : Prop :=
  ∀ e ∈ g.elements, e.withMark findMarker (e.id ∈ g.found selector) = e

/-- `applyFind` with any marker leaves the marks as they would be left again. -/
theorem withMark_found_applyFind {marker : Text} (hmarker : Selector.isClassName marker = true)
    (hplain : Selector.PlainText selector) :
    ∀ e ∈ (g.applyFind marker selector).1.elements,
      e.withMark marker (e.id ∈ (g.applyFind marker selector).1.found selector) = e := by
  have hfound : (g.applyFind marker selector).1.found selector = g.found selector := by
    rw [found_eq, found_eq, hits_applyFind hmarker g hplain]
  intro x hx
  rw [applyFind_elements hmarker g hplain] at hx
  obtain ⟨e, -, rfl⟩ := List.mem_map.1 hx
  rw [(Element.withMark_frame _ _ e).1, hfound]
  exact e.withMark_withMark marker _

/-- `applyFind` leaves the graph `Marked`. -/
theorem marked_applyFind (g : Graph) (hplain : Selector.PlainText selector) :
    (g.applyFind findMarker selector).1.Marked selector :=
  withMark_found_applyFind (by decide) hplain

/-- On a graph that is `Marked`, `applyFind` changes no element. -/
theorem Marked.applyFind_elements (h : g.Marked selector) (hplain : Selector.PlainText selector) :
    (g.applyFind findMarker selector).1.elements = g.elements := by
  rw [g.applyFind_findMarker hplain]
  exact (List.map_congr_left h).trans (List.map_id _)

/-- `Marked` survives making elements visible or invisible. -/
theorem Marked.of_visible {visible : Element → Bool} (h : g.Marked selector)
    (hplain : Selector.PlainText selector)
    (hg' : g'.elements = g.elements.map fun e => e.withVisible (visible e)) :
    g'.Marked selector := by
  have hfound : g'.found selector = g.found selector := by
    rw [found_eq, found_eq, hits_congr (Element.overlooked_withVisible visible) hg' hplain]
  intro x hx
  rw [hg'] at hx
  obtain ⟨e, he, rfl⟩ := List.mem_map.1 hx
  rw [Element.withVisible_id, hfound, Element.withMark_withVisible, h e he]

end Graph

end MeshLens
