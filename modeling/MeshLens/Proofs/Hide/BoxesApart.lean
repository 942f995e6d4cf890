import MeshLens.Proofs.Graph.BuiltInvariant
import MeshLens.Proofs.Hide.HideFrame
import MeshLens.Proofs.Hide.HistoryIndependence

/-!
# Boxes apart

Where no edge ends at a box and only boxes hold nodes, taking elements out adds little: nothing goes
with what is hidden with a selection, and nothing goes with boxes that are empty.

## Key results

- `Graph.Apart`: elements of which no edge ends at a box and only boxes hold others
- `Graph.Apart.mem_of_mem_cascade`: nothing goes with a closure
- `Graph.Apart.mem_emptyBoxes_of_mem_cascade`: nothing goes with the empty boxes
-/

namespace MeshLens

/-- `EndsAt` depends on the `bare` elements only. -/
theorem Element.endsAt_congr {d m x y : Element} (hd : d.bare = x.bare) (hm : m.bare = y.bare) :
    d.EndsAt m ↔ x.EndsAt y := by
  show d.bare.EndsAt m.bare ↔ x.bare.EndsAt y.bare
  rw [hd, hm]

namespace Graph

/-- Whether the edges among some elements name their ends as texts, none of them a box, and no node
but a box holds others. -/
structure Apart (es : List Element) : Prop where
  named : ∀ e ∈ es, e.isEdge = true →
    (text? e.source).isSome = true ∧ (text? e.target).isSome = true
  ends : ∀ e ∈ es, ∀ n ∈ es, e.EndsAt n → n.isBox = false
  holders : ∀ c ∈ es, ∀ b ∈ es, c.holder? = some b.id → b.isNode = true → b.isBox = true

variable {g : Graph}

/-- `Apart`: an edge is at those that it names only. -/
theorem Apart.endsAt {es : List Element} (h : Apart es) {e n : Element} (he : e ∈ es)
    (hat : n.id ∈ e.anchors) : e.EndsAt n := by
  obtain ⟨hsource, htarget⟩ := h.named e he (Element.isEdge_of_mem_anchors hat)
  exact Element.endsAt_of_mem_anchors hsource htarget hat

/-- `Apart` depends on the `bare` elements only, not on what is hidden. -/
theorem Apart.of_bare {es es' : List Element} (h : Apart es)
    (hbare : es'.map Element.bare = es.map Element.bare) : Apart es' := by
  -- each part speaks of elements that are found in pairs
  constructor
  · intro x hx hedge
    obtain ⟨d, hd, hsame⟩ := Element.exists_bare_eq hbare hx
    have hnamed := h.named d hd ((congrArg Element.isEdge hsame).trans hedge)
    exact ⟨(congrArg (fun e => (text? e.source).isSome) hsame).symm.trans hnamed.1,
      (congrArg (fun e => (text? e.target).isSome) hsame).symm.trans hnamed.2⟩
  · intro x hx y hy hat
    obtain ⟨d, hd, hsame⟩ := Element.exists_bare_eq hbare hx
    obtain ⟨m, hm, hsame'⟩ := Element.exists_bare_eq hbare hy
    exact (congrArg Element.isBox hsame').symm.trans
      (h.ends d hd m hm ((Element.endsAt_congr hsame hsame').2 hat))
  · intro x hx y hy hholder hnode
    obtain ⟨d, hd, hsame⟩ := Element.exists_bare_eq hbare hx
    obtain ⟨m, hm, hsame'⟩ := Element.exists_bare_eq hbare hy
    have hid : m.bare.id = y.bare.id := congrArg Element.id hsame'
    have hholder' : d.holder? = some m.id :=
      (congrArg Element.holder? hsame).trans (hholder.trans (congrArg some hid.symm))
    exact (congrArg Element.isBox hsame').symm.trans
      (h.holders d hd m hm hholder' ((congrArg Element.isNode hsame').trans hnode))

/-- `emptyBoxes` are the live boxes that hold none of the live elements. -/
theorem mem_emptyBoxes {id : Text} :
    id ∈ g.emptyBoxes ↔
      ∃ b ∈ g.live, b.isBox = true ∧ (∀ c ∈ g.live, c.holder? ≠ some b.id) ∧ b.id = id := by
  simp only [emptyBoxes, List.mem_map, List.mem_filter, Bool.and_eq_true, decide_eq_true_eq,
    notMem_holdersOf_iff, and_assoc]

/-- `cascade` of the empty boxes: nothing goes with them, where boxes are apart. -/
theorem Apart.mem_emptyBoxes_of_mem_cascade (hapart : Apart g.elements) (hnodup : g.ids.Nodup) :
    ∀ id ∈ g.cascade g.emptyBoxes, id ∈ g.emptyBoxes := by
  refine cascade_subset (fun _ h => h) fun id hid id' hid' => ?_
  obtain ⟨b, hb, hbox, hempty, rfl⟩ := mem_emptyBoxes.1 hid
  have hmem := (mem_live.1 hb).1
  obtain ⟨-, e, he, -, hat | hholder⟩ := (mem_dependents hnodup hmem).1 hid'
  · -- no edge is at a box
    have hend := hapart.ends e (mem_live.1 he).1 b hmem (hapart.endsAt (mem_live.1 he).1 hat)
    rw [hbox] at hend
    cases hend
  · exact absurd hholder (hempty e he)

/-- `cascade` of a closure: nothing goes with it, where boxes are apart. -/
theorem Apart.mem_of_mem_cascade (hapart : Apart g.elements) (hg : g.Untouched)
    (hends : ∀ e ∈ g.elements, e.isEdge = true →
      e.source.truthy = true ∧ e.target.truthy = true)
    {selector : Text} {ids : List Text} (h : g.hideClosure selector = .ok ids) :
    ∀ id ∈ g.cascade ids, id ∈ ids := by
  refine cascade_subset (fun _ h => h) fun id hid id' hid' => ?_
  obtain ⟨n, hn, rfl⟩ := List.mem_map.1 (mem_hideClosure h id hid)
  obtain ⟨hnode, e, he, rfl, hat | hholder⟩ := (mem_dependents hg.nodup hn).1 hid'
  · -- an edge that is left is not at a node of the closure
    have hedge := Element.isEdge_of_mem_anchors hat
    have hmem := (Graph.mem_live.1 he).1
    exact Decidable.byContradiction fun hleft =>
      notMem_hideClosure_of_endsAt hg.nodup h (hends e hmem hedge) he hleft (hg.mem_live hn) hnode
        (hapart.endsAt hmem hat) hid
  · -- only boxes hold others, and none is in the closure
    have hbox := hapart.holders e (Graph.mem_live.1 he).1 n hn hholder hnode
    exact absurd hid (notMem_hideClosure_of_isBox hg.nodup h (hg.mem_live hn) hbox)

end Graph

end MeshLens
