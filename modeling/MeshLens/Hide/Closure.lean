import MeshLens.Graph.Removal

/-!
# What is hidden with a selection

Hiding a node hides its edges, and a node that is left with hidden edges only goes too, unless it
is idle and shown on purpose. Group boxes are never hidden by a selection: they go in rounds, each
taking the boxes that have become empty, until none is left.
-/

namespace MeshLens.Graph

/-! ## The closure of a selection -/

/-- Whether an element says nothing about being idle. -/
def isBusy (e : Element) : Bool :=
  (Value.present? e.data "isIdle").isNone

/-- The elements that are hidden with some live elements: these, the edges at the nodes among them,
and the busy nodes that no remaining edge ends at; but no group box. -/
def closureOf (g : Graph) (hits : List Element) : Except EvaluationError (List Text) :=
  let chosen := hits.map (·.id)
  let chosen := distinct (chosen ++ g.edgesAt ((hits.filter (·.isNode)).map (·.id)))
  let remaining := g.live.filter fun e => e.id ∉ chosen
  (g.endsOf (remaining.filter (·.isEdge))).map fun joined =>
    let orphans := remaining.filter fun e => e.isNode && isBusy e && e.id ∉ joined
    (distinct (chosen ++ orphans.map (·.id))).filter fun id =>
      !(g.element? id).any (·.isBox)

/-- The elements that are hidden with a selection. -/
def hideClosure (g : Graph) (selector : Text) : Except EvaluationError (List Text) :=
  match g.select selector with
  | .error e => .error e
  | .ok hits => g.closureOf hits

/-! ## Boxes and what they hold -/

/-- The ids of the boxes that hold any of some elements. -/
def holdersOf (es : List Element) : List Text :=
  es.filterMap (·.holder?)

/-- A box is no holder when it holds none of the elements. -/
theorem notMem_holdersOf_iff {es : List Element} {id : Text} :
    id ∉ holdersOf es ↔ ∀ e ∈ es, e.holder? ≠ some id := by
  simp [holdersOf]

/-! ## Taking out in rounds -/

/-- The live boxes that hold no live node. -/
def emptyBoxes (g : Graph) : List Text :=
  let holders := holdersOf g.live
  (g.live.filter fun e => e.isBox && e.id ∉ holders).map (·.id)

/-- How many elements are in the graph. -/
def liveCount (g : Graph) : Nat :=
  g.elements.countP (·.live)

theorem countP_map_lt {es : List Element} {p : Element → Bool} {f : Element → Element}
    (mono : ∀ e, p (f e) → p e) {e : Element} (he : e ∈ es) (hp : p e) (hf : p (f e) = false) :
    (es.map f).countP p < es.countP p := by
  rw [List.countP_map]
  induction es with
  | nil => simp at he
  | cons a es ih =>
    have le : es.countP (p ∘ f) ≤ es.countP p := List.countP_mono_left fun x _ h => mono x h
    simp only [List.countP_cons, Function.comp_apply]
    rcases List.mem_cons.1 he with rfl | he
    · simp [hp, hf]; omega
    · have := ih he
      by_cases ha : p (f a)
      · simp [ha, mono a ha]; omega
      · by_cases hb : p a <;> simp [ha, hb] <;> omega

theorem touch_elements (g : Graph) : g.touch.elements = g.elements := by
  simp only [touch]; split <;> rfl

theorem mem_live {g : Graph} {e : Element} : e ∈ g.live ↔ e ∈ g.elements ∧ e.live := by
  simp [live]

theorem mem_liveIds {g : Graph} {e : Element} (h : e ∈ g.live) : e.id ∈ g.liveIds :=
  List.mem_map_of_mem h

/-- Live elements that are asked to go do go. -/
theorem mem_cascade {g : Graph} {ids : List Text} {e : Element} (he : e ∈ g.live)
    (h : e.id ∈ ids) : e.id ∈ g.cascade ids :=
  Search.mem_reach_of_mem (by simp [h, mem_liveIds he]) (mem_liveIds he)

/-- Taking a live element out leaves fewer live elements. -/
theorem liveCount_remove_lt {g : Graph} {ids : List Text} {e : Element} (he : e ∈ g.live)
    (h : e.id ∈ ids) : (g.remove ids).1.liveCount < g.liveCount := by
  have gone := mem_cascade he h
  simp only [remove, note, liveCount, touch_elements, modify]
  refine countP_map_lt ?_ (mem_live.1 he).1 (mem_live.1 he).2 (by simp [gone, Element.live])
  intro x; split <;> simp [Element.live]

/-- Takes empty boxes out, round after round; gives what was taken out. -/
def removeEmptyBoxes (g : Graph) (removed : List Text) : Graph × List Text :=
  match found : g.emptyBoxes with
  | [] => (g, removed)
  | id :: ids =>
    have : (g.remove (id :: ids)).1.liveCount < g.liveCount := by
      have : id ∈ g.emptyBoxes := by simp [found]
      simp only [emptyBoxes, List.mem_map, List.mem_filter] at this
      obtain ⟨e, ⟨he, _⟩, rfl⟩ := this
      exact liveCount_remove_lt he (by simp)
    let step := g.remove (id :: ids)
    removeEmptyBoxes step.1 (distinct (removed ++ step.2))
termination_by g.liveCount

/-- Takes elements out, and then the boxes that become empty. -/
def compress (g : Graph) (ids : List Text) : Graph × List Text :=
  let (g, removed) := g.remove ids
  g.removeEmptyBoxes removed

/-! ## Making invisible in rounds -/

/-- The live visible boxes that hold no live visible node. -/
def blankBoxes (g : Graph) : List Text :=
  let holders := holdersOf (g.live.filter (·.visible))
  (g.live.filter fun e => e.isBox && e.visible && e.id ∉ holders).map (·.id)

/-- How many elements are visible. -/
def visibleCount (g : Graph) : Nat :=
  g.elements.countP (·.visible)

/-- Hiding a visible element leaves fewer visible elements. -/
theorem visibleCount_setVisible_lt {g : Graph} {ids : List Text} {e : Element}
    (he : e ∈ g.elements) (hv : e.visible) (h : e.id ∈ ids) :
    (g.setVisible ids false).visibleCount < g.visibleCount := by
  simp only [setVisible, visibleCount, touch_elements, modify]
  refine countP_map_lt ?_ he hv (by simp [h])
  intro x; split <;> simp

/-- Hides blank boxes, round after round; gives what was hidden. -/
def hideBlankBoxes (g : Graph) (hidden : List Text) : Graph × List Text :=
  match found : g.blankBoxes with
  | [] => (g, hidden)
  | id :: ids =>
    have : (g.setVisible (id :: ids) false).visibleCount < g.visibleCount := by
      have : id ∈ g.blankBoxes := by simp [found]
      simp only [blankBoxes, List.mem_map, List.mem_filter] at this
      obtain ⟨e, ⟨he, hb⟩, rfl⟩ := this
      refine visibleCount_setVisible_lt (mem_live.1 he).1 ?_ (by simp)
      simp only [Bool.and_eq_true] at hb
      exact hb.1.2
    hideBlankBoxes (g.setVisible (id :: ids) false) (distinct (hidden ++ id :: ids))
termination_by g.visibleCount

/-- Hides elements, and then the boxes that become blank. -/
def obscure (g : Graph) (ids : List Text) : Graph × List Text :=
  (g.setVisible ids false).hideBlankBoxes ids

end MeshLens.Graph
