import MeshLens.Proofs.Graph.RestoreUndoesRemove

/-!
# Edges whose nodes are out

Elements are taken out and put back in any order, and what is put back need not be what was taken out
last: it may be a part of it, an edge without its nodes, or an element that is in the graph anyway. Taking
a node out takes along the edges at it, and an edge is put back only when both its ends are in the graph.
So in no state that is reached does an edge in the graph name a node that is out.

## Key results

- `Graph.endsLive_of_mem_putBack`: an edge that is put back has its ends in the graph in the end
- `Graph.Severed.restore`, `Graph.Severed.alter`: what one step leaves of a graph without such edges
- `Graph.restore_takes_back`: putting back changes only what it is given
- `Graph.alterAll_severed`: no such edge is met, in whatever order steps come
-/

namespace MeshLens

/-- A step that takes elements out of a `Graph` or puts some back. -/
inductive Alteration
  | remove (ids : List Text)
  | restore (ids : List Text)

namespace Element

/-- `anchors` are texts of the two ends. -/
theorem exists_end_of_mem_anchors {e : Element} {id : Text} (h : id ∈ e.anchors) :
    ∃ v ∈ [e.source, e.target], v.plain = id := by
  rw [anchors, if_pos (isEdge_of_mem_anchors h)] at h
  split at h
  · obtain rfl := List.mem_singleton.1 h
    exact ⟨e.source, List.mem_cons_self, rfl⟩
  · simpa [eq_comm] using h

end Element

namespace Graph

variable {g : Graph} {ids : List Text}

/-- The graph after an `Alteration`. -/
def alter (g : Graph) : Alteration → Graph
  | .remove ids => (g.remove ids).1
  | .restore ids => (g.restore ids).1

/-- The graph after several steps: `alter` one after the other. -/
def alterAll (g : Graph) (steps : List Alteration) : Graph :=
  steps.foldl alter g

/-! ## Putting back -/

/-- `endsLive` depends on the elements of the graph only. -/
theorem endsLive_congr {g' : Graph} (h : g'.elements = g.elements) (e : Element) :
    g'.endsLive e = g.endsLive e := by
  rw [endsLive, endsLive]
  simp only [element?, h]

/-- `endsLive` is preserved while elements are put back. -/
theorem endsLive_putBack_of_endsLive (es : List Element) {e : Element} (h : g.endsLive e = true) :
    (g.putBack es).1.endsLive e = true := by
  obtain ⟨-, -, -, helements, -⟩ := g.putBack_spec es
  have hsame : (g.putBack es).1.elements =
      (g.modify (g.putBack es).2 (Element.withRemoved false)).elements := helements
  rw [endsLive_congr hsame]
  exact endsLive_modify _ h

/-- `endsLive` holds of an edge that `putBack` puts back, when all is done. -/
theorem endsLive_of_mem_putBack (es : List Element) {id : Text} (h : id ∈ (g.putBack es).2) :
    ∃ e ∈ es, e.id = id ∧ (e.isEdge = true → (g.putBack es).1.endsLive e = true) := by
  -- induction on the elements, as in `putBack`
  induction es generalizing g with
  | nil => cases h
  | cons e es ih =>
    by_cases hends : e.isEdge = true → g.endsLive e = true
    · rw [putBack_cons_of_endsLive hends] at h ⊢
      rcases List.mem_cons.1 h with rfl | h
      · -- what comes after the edge leaves its ends in the graph
        refine ⟨e, List.mem_cons_self, rfl, fun hedge => ?_⟩
        exact endsLive_putBack_of_endsLive es (endsLive_modify [e.id] (hends hedge))
      · obtain ⟨d, hd, hid, hlive⟩ := ih h
        exact ⟨d, List.mem_cons_of_mem _ hd, hid, hlive⟩
    · obtain ⟨-, hstay⟩ := putBack_cons_of_not_endsLive hends es
      rw [hstay] at h ⊢
      obtain ⟨d, hd, hid, hlive⟩ := ih h
      exact ⟨d, List.mem_cons_of_mem _ hd, hid, hlive⟩

/-- `restore` changes only what it is given and was out, and only in that it is in the graph again.
-/
theorem restore_takes_back (g : Graph) (ids : List Text) :
    (g.restore ids).1.elements =
        Element.changed g.elements (g.restore ids).2 (Element.withRemoved false) ∧
      ∀ id ∈ (g.restore ids).2, id ∈ ids ∧ ∃ e ∈ g.elements, e.id = id ∧ e.removed = true := by
  rw [restore_eq]
  constructor
  · obtain ⟨-, -, -, helements, -⟩ := g.putBack_spec (g.returning ids)
    exact (touch_elements _).trans helements
  · intro id hid
    obtain ⟨e, he, rfl, -⟩ := endsLive_of_mem_putBack _ hid
    rw [(g.perm_returning ids).mem_iff, List.mem_filter, Bool.and_eq_true, decide_eq_true_eq] at he
    exact ⟨he.2.2, e, he.1, rfl, he.2.1⟩

/-! ## One step -/

/-- `Severed` is preserved by `restore`: putting elements back leaves no edge at a node that is out.
-/
theorem Severed.restore (hnodup : g.ids.Nodup) (h : g.Severed) (ids : List Text) :
    (g.restore ids).1.Severed := by
  have helements := (g.restore_takes_back ids).1
  have hnodup' : (g.restore ids).1.ids.Nodup := by
    rwa [ids_of_bare (bare_restore g ids)]
  intro x hx y hy hnode hat
  obtain ⟨hx, hlive⟩ := mem_live.1 hx
  rw [helements] at hx
  obtain ⟨e, he, rfl⟩ := List.mem_map.1 hx
  by_cases hback : e.id ∈ (g.restore ids).2
  · -- an edge that is put back has its ends in the graph, and the node is one of them
    rw [if_pos hback] at hat
    have hedge : e.isEdge = true := Element.isEdge_of_mem_anchors hat
    obtain ⟨d, hd, hid, hends⟩ := endsLive_of_mem_putBack (g.returning ids) hback
    have hd : d ∈ g.elements := (List.mem_filter.1 ((g.perm_returning ids).mem_iff.1 hd)).1
    obtain rfl := eq_of_id_eq hnodup hd he hid
    have hends : (g.restore ids).1.endsLive d = true :=
      (endsLive_congr (touch_elements _) d).trans (hends hedge)
    obtain ⟨v, hv, hplain⟩ := Element.exists_end_of_mem_anchors hat
    obtain ⟨m, hm, hmid⟩ := (endsLive_iff hnodup').1 hends v hv
    obtain rfl := eq_of_id_eq hnodup' (mem_live.1 hm).1 hy (hmid.trans hplain)
    exact (mem_live.1 hm).2
  · -- an edge that was in the graph had its nodes there, and they are not taken out
    rw [if_neg hback] at hat hlive
    rw [helements] at hy
    obtain ⟨n, hn, rfl⟩ := List.mem_map.1 hy
    split at hnode
    · rename_i hnback
      rw [if_pos hnback]
      rfl
    · rename_i hnback
      rw [if_neg hnback] at hat ⊢
      exact h e (mem_live.2 ⟨he, hlive⟩) n hn hnode hat

/-- `bare` elements stay the same in `alter`. -/
theorem bare_alter (g : Graph) (step : Alteration) : (g.alter step).bare = g.bare := by
  cases step with
  | remove ids => exact bare_remove g ids
  | restore ids => exact bare_restore g ids

/-- `Severed` is preserved by `alter`. -/
theorem Severed.alter (hnodup : g.ids.Nodup) (h : g.Severed) (step : Alteration) :
    (g.alter step).Severed := by
  cases step with
  | remove ids => exact h.remove hnodup ids
  | restore ids => exact h.restore hnodup ids

/-! ## Any number of steps -/

/-- `Severed` is preserved by `alterAll`. -/
theorem Severed.alterAll (hnodup : g.ids.Nodup) (h : g.Severed) (steps : List Alteration) :
    (g.alterAll steps).Severed := by
  induction steps generalizing g with
  | nil => exact h
  | cons step steps ih =>
    have hids : (g.alter step).ids = g.ids := ids_of_bare (bare_alter g step)
    exact ih (hids.symm ▸ hnodup) (h.alter hnodup step)

/-- `alterAll` of a new graph, in any order of taking elements out and putting elements back, leads
to states where no edge in the graph names a node that is out as one of its ends. Whatever is put
back next, only elements that are asked for and are out change, and only in that they are in the
graph again. -/
theorem alterAll_severed {payload : Value} {g : Graph} (hbuilt : ofValue payload = .ok g)
    (steps : List Alteration) :
    let reached := g.alterAll steps
    (∀ e ∈ reached.live, e.isEdge = true → ∀ n ∈ reached.elements, n.isNode = true →
        n.removed = true → e.source ≠ .text n.id ∧ e.target ≠ .text n.id) ∧
      ∀ ids : List Text,
        (reached.restore ids).1.elements = reached.elements.map (fun e =>
          if e.id ∈ (reached.restore ids).2 then { e with removed := false } else e) ∧
        ∀ id ∈ (reached.restore ids).2,
          id ∈ ids ∧ ∃ e ∈ reached.elements, e.id = id ∧ e.removed = true := by
  intro reached
  have hg := ofValue_untouched hbuilt
  have hsevered : reached.Severed := hg.severed.alterAll hg.nodup steps
  refine ⟨fun e he hedge n hn hnode hremoved => ?_, fun ids => reached.restore_takes_back ids⟩
  -- a live edge at a node that is out would contradict that the graph is severed
  have hnot : ¬e.EndsAt n := fun hat => by
    have hlive := hsevered e he n hn hnode hat.mem_anchors
    rw [Element.live, hremoved] at hlive
    cases hlive
  constructor
  · exact fun hsource => hnot ⟨hedge, .inl (Element.text?_eq_some_iff.2 hsource)⟩
  · exact fun htarget => hnot ⟨hedge, .inr (Element.text?_eq_some_iff.2 htarget)⟩

/-- Steps from `joinedPayload`: an edge is asked for without its node, then with it, and at last
without the node at its other end. -/
def joinedSteps : List Alteration :=
  [.remove ["box"], .restore ["a->b", "c"], .restore ["a->b", "a"], .remove ["b"],
    .restore ["a->b", "box"]]

/-- `alterAll_severed` after `joinedSteps`: the edge is in the graph only while both its nodes are.
-/
theorem alterAll_severed_joined :
    ∃ g, ofValue joinedPayload = .ok g ∧
      (g.alterAll (joinedSteps.take 2)).liveIds = (["b", "c"] : List Text) ∧
      (g.alterAll (joinedSteps.take 3)).liveIds = (["a", "a->b", "b", "c"] : List Text) ∧
      (g.alterAll joinedSteps).liveIds = (["box", "a", "c"] : List Text) ∧
      ∀ e ∈ (g.alterAll joinedSteps).live, e.isEdge = true → ∀ n ∈ (g.alterAll joinedSteps).elements,
        n.isNode = true → n.removed = true → e.source ≠ .text n.id ∧ e.target ≠ .text n.id := by
  have hbuilt : ∃ g, ofValue joinedPayload = .ok g ∧
      (g.alterAll (joinedSteps.take 2)).liveIds = (["b", "c"] : List Text) ∧
      (g.alterAll (joinedSteps.take 3)).liveIds = (["a", "a->b", "b", "c"] : List Text) ∧
      (g.alterAll joinedSteps).liveIds = (["box", "a", "c"] : List Text) :=
    ⟨_, rfl, by decide +kernel, by decide +kernel, by decide +kernel⟩
  obtain ⟨g, hg, halone, htogether, hparted⟩ := hbuilt
  exact ⟨g, hg, halone, htogether, hparted, (alterAll_severed hg joinedSteps).1⟩

end Graph

end MeshLens
