import MeshLens.Proofs.Graph.RemoveCorrect
import MeshLens.Proofs.Hide.ClosureExact
import MeshLens.Workspace

/-!
# From nodes to edges and back

The edges at nodes are found by the texts of their ends, whatever values these are. What edges end at is
looked up by the values themselves, so only a text finds anything, and it may find an edge. The way back
therefore leads to nothing that the way there did not pass, but it may miss a node whose id an edge gives
as a number, it may lead to edges, and it cannot be taken at all where an end is a list or an object.

## Key results

- `Graph.mem_endsOf_iff`: what edges end at are the live elements that they name
- `Workspace.mem_connectedEdges_iff`, `Workspace.mem_connectedNodes_iff`: what either way finds
- `Workspace.connected_converse_iff`: when the two ways are converse, and when one leads to nodes only
-/

namespace MeshLens

/-! ## Members -/

namespace ElementSet

/-- `ofRefs` collects the ids of the references, each once. -/
theorem ids_ofRefs (graph : Text) (refs : List ElementRef) :
    (ofRefs graph refs).ids = distinct (refs.map (·.id)) := by
  rw [distinct, List.foldl_map]
  show List.map _ (List.foldl _ [] refs) = List.foldl _ (List.map (fun r : ElementRef => r.id) []) refs
  refine Eq.symm (List.foldl_hom _ fun kept r => ?_)
  rw [apply_ite (List.map _), List.map_append]
  refine if_congr ?_ rfl rfl
  simp

/-- `ofIds` collects just the given ids. -/
theorem mem_ids_ofIds {graph : Text} {ids : List Text} {id : Text} :
    id ∈ (ofIds graph ids).ids ↔ id ∈ ids := by
  rw [ofIds, ids_ofRefs, mem_distinct, List.map_map]
  exact iff_of_eq (congrArg (id ∈ ·) (List.map_id ids))

end ElementSet

namespace Graph

variable {g : Graph}

/-- `endsOf` gives the ids of the live elements that the edges name. -/
theorem mem_endsOf_iff (hnodup : g.ids.Nodup) {edges : List Element} {ids : List Text}
    (h : g.endsOf edges = .ok ids) (hedges : ∀ e ∈ edges, e.isEdge = true)
    (hends : ∀ e ∈ edges, e.source.truthy = true ∧ e.target.truthy = true) {id : Text} :
    id ∈ ids ↔ ∃ e ∈ edges, ∃ d ∈ g.live, e.EndsAt d ∧ d.id = id := by
  constructor
  · intro hid
    obtain ⟨-, -, v, -, d, hfound, hlive, rfl⟩ := (mem_endsOf h).1 hid
    obtain ⟨-, s, -, hfound⟩ := endOf?_eq_some_iff.1 hfound
    obtain ⟨e, he, hat⟩ := exists_endsAt_of_mem_endsOf h hedges hid
    exact ⟨e, he, d, mem_live.2 ⟨List.mem_of_find?_eq_some hfound, hlive⟩, hat, rfl⟩
  · rintro ⟨e, he, d, hd, hat, rfl⟩
    exact mem_endsOf_of_endsAt hnodup h he (hends e he) hd hat

end Graph

namespace Workspace

variable {w : Workspace} {name : Text} {g : Graph} {s nodes : ElementSet}

/-- Whether each snapshot of a `Workspace` was built from its data, in whatever state it is now. -/
def Built (w : Workspace) : Prop :=
  ∀ name g, w.graph? name = some g →
    ∃ payload g₀, Graph.ofValue payload = .ok g₀ ∧ g.IsStateOf g₀

/-- `graphAt` gives the snapshot that `graph?` finds. -/
theorem graphAt_of_graph? (h : w.graph? name = some g) : w.graphAt name = g := by
  rw [graphAt, h]
  rfl

/-- `Built`: no snapshot repeats an id. -/
theorem Built.nodup (h : w.Built) (hg : w.graph? name = some g) : g.ids.Nodup := by
  obtain ⟨payload, g₀, hbuilt, hstate⟩ := h name g hg
  exact hstate.ids ▸ (Graph.ofValue_untouched hbuilt).nodup

/-- `Built`: edges name two ends, in whichever snapshot they are. -/
theorem Built.ends (h : w.Built) {m : ElementRef × Element} (hm : m ∈ w.membersOf s)
    (hedge : m.2.isEdge = true) : m.2.source.truthy = true ∧ m.2.target.truthy = true := by
  obtain ⟨r, -, hr⟩ := List.mem_filterMap.1 hm
  obtain ⟨e, he, rfl⟩ := Option.map_eq_some_iff.1 hr
  obtain ⟨g, hg, hfound⟩ := Option.bind_eq_some_iff.1 he
  obtain ⟨payload, g₀, hbuilt, hstate⟩ := h _ g hg
  exact hstate.forall_core (P := fun e => e.isEdge = true →
    e.source.truthy = true ∧ e.target.truthy = true) (Graph.ends_of_ofValue hbuilt) e
      (List.mem_of_find?_eq_some hfound) hedge

/-- `membersOf` a collection of one element has one member. -/
theorem membersOf_ofIds_singleton (hnodup : g.ids.Nodup) (hg : w.graph? name = some g) {e : Element}
    (he : e ∈ g.live) : w.membersOf (.ofIds name [e.id]) = [(⟨name, e.id⟩, e)] := by
  have hfound : w.element? ⟨name, e.id⟩ = some e := by
    rw [element?, hg]
    exact Graph.element?_of_mem hnodup (Graph.mem_live.1 he).1
  show ([⟨name, e.id⟩].filterMap fun r => (w.element? r).map fun e => (r, e)) = _
  rw [List.filterMap_cons, hfound]
  rfl

/-! ## What either way finds -/

/-- `connectedEdges` finds an edge from a node just when it is at the node. -/
theorem mem_connectedEdges_iff (h : w.Built) (hg : w.graph? name = some g) {n e : Element}
    (hn : n ∈ g.live) (hnode : n.isNode = true) (he : e ∈ g.live) :
    e.id ∈ (w.connectedEdges (.ofIds name [n.id])).ids ↔ e.IsAt n := by
  have hnodup := h.nodup hg
  have hids : (w.ofKind (.ofIds name [n.id]) .node).ids = [n.id] := by
    have hkind : n.kind = .node := of_decide_eq_true hnode
    rw [ofKind, membersOf_ofIds_singleton hnodup hg hn]
    simp [ElementSet.ids, hkind]
  have hgraph : w.graphAt (ElementSet.ofIds name [n.id]).graph = g := graphAt_of_graph? hg
  rw [connectedEdges, ElementSet.mem_ids_ofIds, hids, hgraph, Graph.mem_edgesAt]
  constructor
  · rintro ⟨id, hid, d, hd, hat, hsame⟩
    obtain rfl := List.mem_singleton.1 hid
    obtain rfl := Graph.live_eq_of_id_eq hnodup hd he hsame
    exact Element.mem_anchors_iff_isAt.1 hat
  · intro hat
    exact ⟨n.id, List.mem_singleton_self _, e, he, Element.mem_anchors_iff_isAt.2 hat, rfl⟩

/-- `connectedNodes` finds from a collection the live elements of its snapshot that edges in it
name. -/
theorem mem_connectedNodes_iff (h : w.Built) (hg : w.graph? s.graph = some g)
    (hnodes : w.connectedNodes s = .ok nodes) {id : Text} :
    id ∈ nodes.ids ↔ ∃ m ∈ w.membersOf s, ∃ d ∈ g.live, m.2.EndsAt d ∧ d.id = id := by
  obtain ⟨ids, hids, rfl⟩ := Except.map_eq_ok hnodes
  rw [graphAt_of_graph? hg] at hids
  have hmember {e : Element} (he : e ∈ ((w.membersOf s).map (·.2)).filter (·.isEdge)) :
      e.isEdge = true ∧ ∃ m ∈ w.membersOf s, m.2 = e := by
    obtain ⟨he, hedge⟩ := List.mem_filter.1 he
    exact ⟨hedge, List.mem_map.1 he⟩
  rw [ElementSet.mem_ids_ofIds, Graph.mem_endsOf_iff (h.nodup hg) hids (fun e he => (hmember he).1)]
  · constructor
    · rintro ⟨e, he, hnamed⟩
      obtain ⟨-, m, hm, rfl⟩ := hmember he
      exact ⟨m, hm, hnamed⟩
    · rintro ⟨m, hm, d, hd, hat, hid⟩
      exact ⟨m.2, List.mem_filter.2 ⟨List.mem_map_of_mem hm, hat.1⟩, d, hd, hat, hid⟩
  · intro e he
    obtain ⟨hedge, m, hm, rfl⟩ := hmember he
    exact h.ends hm hedge

/-- `connectedNodes` finds a node from an edge just when the edge names it. -/
theorem mem_connectedNodes_singleton_iff (h : w.Built) (hg : w.graph? name = some g) {n e : Element}
    (hn : n ∈ g.live) (he : e ∈ g.live)
    (hnodes : w.connectedNodes (.ofIds name [e.id]) = .ok nodes) : n.id ∈ nodes.ids ↔ e.EndsAt n := by
  have hnodup := h.nodup hg
  rw [mem_connectedNodes_iff h hg hnodes, membersOf_ofIds_singleton hnodup hg he]
  constructor
  · rintro ⟨m, hm, d, hd, hat, hsame⟩
    obtain rfl := List.mem_singleton.1 hm
    obtain rfl := Graph.live_eq_of_id_eq hnodup hd hn hsame
    exact hat
  · exact fun hat => ⟨_, List.mem_singleton_self _, n, hn, hat, rfl⟩

/-- `connectedNodes` succeeds unless one of the ends of the edges is a list or an object. -/
theorem connectedNodes_ok_iff (h : w.Built) : (∃ nodes, w.connectedNodes s = .ok nodes) ↔
    ∀ m ∈ w.membersOf s, m.2.isEdge = true →
      Graph.isNested m.2.source = false ∧ Graph.isNested m.2.target = false := by
  have hmap : (∃ nodes, w.connectedNodes s = .ok nodes) ↔ ∃ ids,
      (w.graphAt s.graph).endsOf (((w.membersOf s).map (·.2)).filter (·.isEdge)) = .ok ids := by
    rw [connectedNodes]
    cases (w.graphAt s.graph).endsOf _ <;> simp [Except.map]
  rw [hmap, Graph.endsOf_ok_iff]
  constructor
  · intro hall m hm hedge
    -- in a snapshot that was built no end is missing
    obtain ⟨hsource, htarget⟩ := h.ends hm hedge
    exact (hall m.2 (List.mem_filter.2 ⟨List.mem_map_of_mem hm, hedge⟩)).imp (· hsource) (· htarget)
  · intro hall e he
    obtain ⟨he, hedge⟩ := List.mem_filter.1 he
    obtain ⟨m, hm, rfl⟩ := List.mem_map.1 he
    exact (hall m hm hedge).imp (fun hsource _ => hsource) (fun htarget _ => htarget)

/-! ## There and back -/

/-- `connectedEdges` and `connectedNodes` are converse under one condition. In any state of
snapshots that were built from data, an edge is found from a live node when the text of one of its
ends is the id of the node, and the node from the edge when an end is that text. So the two ways are
converse for a node and an edge just when no end of the edge is a list or an object, and the edge
names the node by a text if it is at it. From any collection whose edges have no such end are found
the live elements that its edges name, so nodes only just when its edges name nodes only. -/
theorem connected_converse_iff (h : w.Built) (hg : w.graph? name = some g) :
    (∀ n ∈ g.live, n.isNode = true → ∀ e ∈ g.live, e.isEdge = true →
      let edges := w.connectedEdges (.ofIds name [n.id])
      (e.id ∈ edges.ids ↔ e.IsAt n) ∧
        (∀ nodes, w.connectedNodes (.ofIds name [e.id]) = .ok nodes →
          (n.id ∈ nodes.ids ↔ e.EndsAt n)) ∧
        ((∃ nodes, w.connectedNodes (.ofIds name [e.id]) = .ok nodes ∧
            (e.id ∈ edges.ids ↔ n.id ∈ nodes.ids)) ↔
          Graph.isNested e.source = false ∧ Graph.isNested e.target = false ∧
            (e.IsAt n → e.EndsAt n))) ∧
      ∀ s : ElementSet, s.graph = name →
        ((∃ nodes, w.connectedNodes s = .ok nodes) ↔ ∀ m ∈ w.membersOf s, m.2.isEdge = true →
          Graph.isNested m.2.source = false ∧ Graph.isNested m.2.target = false) ∧
        ∀ nodes, w.connectedNodes s = .ok nodes →
          (∀ id, id ∈ nodes.ids ↔ ∃ m ∈ w.membersOf s, ∃ d ∈ g.live, m.2.EndsAt d ∧ d.id = id) ∧
            ((∀ d ∈ g.live, d.id ∈ nodes.ids → d.isNode = true) ↔
              ∀ m ∈ w.membersOf s, ∀ d ∈ g.live, m.2.EndsAt d → d.isNode = true) := by
  constructor
  · intro n hn hnode e he hedge edges
    have hforth := mem_connectedEdges_iff h hg hn hnode he
    have hback {nodes : ElementSet} (hnodes : w.connectedNodes (.ofIds name [e.id]) = .ok nodes) :=
      mem_connectedNodes_singleton_iff h hg hn he hnodes
    -- the way back finds what the edge names, and so needs ends that can be looked up
    have hok : (∃ nodes, w.connectedNodes (.ofIds name [e.id]) = .ok nodes) ↔
        Graph.isNested e.source = false ∧ Graph.isNested e.target = false := by
      rw [connectedNodes_ok_iff h, membersOf_ofIds_singleton (h.nodup hg) hg he]
      simp [hedge]
    -- what is named is always passed on the way there
    have hat (hends : e.EndsAt n) : e.IsAt n := Element.mem_anchors_iff_isAt.1 hends.mem_anchors
    refine ⟨hforth, fun nodes hnodes => hback hnodes, ?_⟩
    rw [← and_assoc, ← hok]
    constructor
    · rintro ⟨nodes, hnodes, hsame⟩
      rw [hforth, hback hnodes] at hsame
      exact ⟨⟨nodes, hnodes⟩, hsame.1⟩
    · rintro ⟨⟨nodes, hnodes⟩, hends⟩
      refine ⟨nodes, hnodes, ?_⟩
      rw [hforth, hback hnodes]
      exact ⟨hends, hat⟩
  · rintro s rfl
    refine ⟨connectedNodes_ok_iff h, fun nodes hnodes => ?_⟩
    have hfound (id : Text) : id ∈ nodes.ids ↔
        ∃ m ∈ w.membersOf s, ∃ d ∈ g.live, m.2.EndsAt d ∧ d.id = id :=
      mem_connectedNodes_iff h hg hnodes
    refine ⟨hfound, fun hall m hm d hd hends => ?_, fun hall d hd hid => ?_⟩
    · exact hall d hd ((hfound d.id).2 ⟨m, hm, d, hd, hends, rfl⟩)
    · obtain ⟨m, hm, d', hd', hends, hsame⟩ := (hfound d.id).1 hid
      obtain rfl := Graph.live_eq_of_id_eq (h.nodup hg) hd' hd hsame
      exact hall m hm d' hd' hends

/-- A chain of two edges with an edge to itself at its end, an edge that leads nowhere, and an edge
to a node that will be taken out, as the JSON data that `Graph.ofValue` reads. -/
def chainPayload : Value :=
  .list [
    .object [("data", .object [("id", .text "a")])],
    .object [("data", .object [("id", .text "b")])],
    .object [("data", .object [("id", .text "c")])],
    .object [("data", .object [("id", .text "out")])],
    .object [("data", .object [("source", .text "a"), ("target", .text "b")])],
    .object [("data", .object [("source", .text "b"), ("target", .text "c")])],
    .object [("data", .object [("source", .text "c"), ("target", .text "c")])],
    .object [("data", .object [("source", .text "c"), ("target", .text "nowhere")])],
    .object [("data", .object [("source", .text "c"), ("target", .text "out")])]]

/-- `connected_converse_iff` in a chain: all ends of edges are texts, and the two ways are converse
for every node and every edge. -/
theorem connected_converse_iff_chain :
    ∃ g₀, Graph.ofValue chainPayload = .ok g₀ ∧
      let g := (g₀.remove ["out"]).1
      let w : Workspace := ⟨[("g", g)]⟩
      w.Built ∧ (g.live.map (·.id)) = (["a", "b", "c", "a->b", "b->c", "c->c", "c->nowhere"] : List Text) ∧
        ∀ n ∈ g.live, n.isNode = true → ∀ e ∈ g.live, e.isEdge = true →
          ∃ nodes, w.connectedNodes (.ofIds "g" [e.id]) = .ok nodes ∧
            (e.id ∈ (w.connectedEdges (.ofIds "g" [n.id])).ids ↔ n.id ∈ nodes.ids) := by
  -- the conditions of the general theorem are evaluated on the graph that is read
  have hbuilt : ∃ g₀, Graph.ofValue chainPayload = .ok g₀ ∧
      let g := (g₀.remove ["out"]).1
      (g.live.map (·.id)) = (["a", "b", "c", "a->b", "b->c", "c->c", "c->nowhere"] : List Text) ∧
        ∀ n ∈ g.live, ∀ e ∈ g.live, e.isEdge = true → Graph.isNested e.source = false ∧
          Graph.isNested e.target = false ∧ (e.IsAt n → e.EndsAt n) :=
    ⟨_, rfl, by decide +kernel⟩
  obtain ⟨g₀, hg₀, hlive, hends⟩ := hbuilt
  refine ⟨g₀, hg₀, ?_⟩
  intro g w
  have hw : w.Built := by
    intro name g' hg'
    obtain ⟨-, rfl⟩ : "g" = name ∧ g = g' := by simpa [w, graph?, Entries.get?_cons] using hg'
    exact ⟨chainPayload, g₀, hg₀, .of_bare (Graph.bare_remove _ _)⟩
  obtain ⟨hconverse, -⟩ := connected_converse_iff hw (show w.graph? "g" = some g from rfl)
  exact ⟨hw, hlive, fun n hn hnode e he hedge =>
    (hconverse n hn hnode e he hedge).2.2.2 (hends n hn e he hedge)⟩

/-- A node whose id is a number, an edge from it, and an edge to that edge, as the JSON data that
`Graph.ofValue` reads. -/
def convertedPayload : Value :=
  .list [
    .object [("data", .object [("id", .int 5)])],
    .object [("data", .object [("id", .text "b")])],
    .object [("data", .object [("id", .text "e"), ("source", .int 5), ("target", .text "b")])],
    .object [("data", .object [("id", .text "f"), ("source", .text "b"), ("target", .text "e")])]]

/-- `connectedEdges` and `connectedNodes` are not converse where an id is a number: the edge is
found from the node, but the node not from the edge. From the other edge an edge is found. -/
theorem connected_not_converse_converted :
    ∃ g, Graph.ofValue convertedPayload = .ok g ∧
      let w : Workspace := ⟨[("g", g)]⟩
      (g.live.filter (·.isNode)).map (·.id) = (["5", "b"] : List Text) ∧
        (g.live.filter (·.isEdge)).map (·.id) = (["e", "f"] : List Text) ∧
        (w.connectedEdges (.ofIds "g" ["5"])).ids = ["e"] ∧
        (w.connectedNodes (.ofIds "g" ["e"])).toOption.map (·.ids) = some (["b"] : List Text) ∧
        (w.connectedNodes (.ofIds "g" ["f"])).toOption.map (·.ids) =
          some (["b", "e"] : List Text) :=
  ⟨_, rfl, by decide +kernel⟩

end Workspace

end MeshLens
