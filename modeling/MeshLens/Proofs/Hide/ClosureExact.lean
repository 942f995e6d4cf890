import MeshLens.Proofs.Graph.BuiltInvariant
import MeshLens.Proofs.Hide.ClosureRemainder
import MeshLens.Proofs.Hide.ReapplySucceeds

/-!
# What is hidden with a selection, exactly

With a selection go the edges at the nodes that it selects, and the busy nodes all of whose edges go.
Nothing else does, and a group box does not go even when it is selected. This is so in any state of a
graph: elements that are out of it count for nothing, an edge to a node that is not there counts as an
edge, and a node without any edge loses its last one trivially.

## Key results

- `Graph.GoesAlong`: the elements that go with a selection at once
- `Graph.mem_withEdges_iff`: these are what is chosen first
- `Graph.mem_hideClosure_exact`: what is hidden with a selection
-/

namespace MeshLens

namespace Graph

/-- Whether an element goes with a selection at once: it matches itself, or it is an edge at a live
node that does. -/
def GoesAlong (g : Graph) (selector : Text) (e : Element) : Prop :=
  e.Matches (some selector) ∨
    ∃ n ∈ g.live, n.isNode = true ∧ n.Matches (some selector) ∧ e.EndsAt n

/-- `GoesAlong` can be decided on the finite list of live elements. -/
instance (g : Graph) (selector : Text) (e : Element) : Decidable (g.GoesAlong selector e) :=
  inferInstanceAs (Decidable (_ ∨ ∃ n ∈ g.live, _))

/-- `isBusy` holds of a node unless it says that it is idle, or anything else in that place. -/
theorem isBusy_iff {e : Element} : isBusy e = true ↔ e.field "isIdle" = .null := by
  unfold isBusy Value.present? Element.field
  cases e.data.get? "isIdle" with
  | none => simp
  | some v => cases v <;> simp

/-- Whether the edges among some elements name both their ends, as texts that are not empty. -/
def EndsNamed (es : List Element) : Prop :=
  ∀ e ∈ es, e.isEdge = true → ((text? e.source).isSome = true ∧ (text? e.target).isSome = true) ∧
    e.source.truthy = true ∧ e.target.truthy = true

variable {g g₀ : Graph} {selector : Text} {hits : List Element}

/-- `IsStateOf` holds of graphs with the same `bare` elements, as hiding and undoing it leave. -/
theorem IsStateOf.of_bare (h : g.bare = g₀.bare) : g.IsStateOf g₀ := by
  have hcore := congrArg (List.map Element.core) h
  rwa [bare, bare, List.map_map, List.map_map] at hcore

/-- `EndsNamed` holds in any state of a graph, if it holds in one. -/
theorem EndsNamed.of_state (h : EndsNamed g₀.elements) (hstate : g.IsStateOf g₀) :
    EndsNamed g.elements :=
  hstate.forall_core (P := fun e => e.isEdge = true →
    ((text? e.source).isSome = true ∧ (text? e.target).isSome = true) ∧
      e.source.truthy = true ∧ e.target.truthy = true) h

/-- `withEdges` of what is selected is what `GoesAlong` with the selector. -/
theorem mem_withEdges_iff (hnodup : g.ids.Nodup) (hnamed : EndsNamed g.elements)
    (hselect : g.select selector = .ok hits) {e : Element} (he : e ∈ g.live) :
    e.id ∈ g.withEdges hits ↔ g.GoesAlong selector e := by
  have hsame {d : Element} (hd : d ∈ g.live) (hid : d.id = e.id) : d = e :=
    live_eq_of_id_eq hnodup hd he hid
  rw [withEdges, mem_distinct, List.mem_append]
  -- an element is selected itself, or an edge at a node that is
  refine or_congr ?_ ?_
  · rw [List.mem_map]
    constructor
    · rintro ⟨d, hd, hid⟩
      obtain ⟨hlive, hmatches⟩ := (mem_select hselect).1 hd
      exact hsame hlive hid ▸ hmatches
    · intro hmatches
      exact ⟨e, (mem_select hselect).2 ⟨he, hmatches⟩, rfl⟩
  · rw [mem_edgesAt]
    constructor
    · rintro ⟨id, hid, d, hd, hat, hde⟩
      obtain rfl := hsame hd hde
      obtain ⟨n, hn, rfl⟩ := List.mem_map.1 hid
      obtain ⟨hn, hnode⟩ := List.mem_filter.1 hn
      obtain ⟨hlive, hmatches⟩ := (mem_select hselect).1 hn
      obtain ⟨⟨hsource, htarget⟩, -⟩ :=
        hnamed d (mem_live.1 hd).1 (Element.isEdge_of_mem_anchors hat)
      exact ⟨n, hlive, hnode, hmatches, Element.endsAt_of_mem_anchors hsource htarget hat⟩
    · rintro ⟨n, hlive, hnode, hmatches, hat⟩
      have hn : n ∈ hits.filter (·.isNode) :=
        List.mem_filter.2 ⟨(mem_select hselect).2 ⟨hlive, hmatches⟩, hnode⟩
      exact ⟨n.id, List.mem_map_of_mem hn, e, he, hat.mem_anchors, rfl⟩

/-- `endsOf` the edges that are left does not hold a node just when all its live edges go along with
the selection. -/
theorem notMem_endsOf_iff (hnodup : g.ids.Nodup) (hnamed : EndsNamed g.elements)
    (hselect : g.select selector = .ok hits) {joined : List Text}
    (hjoined : g.endsOf ((g.live.filter fun e => e.id ∉ g.withEdges hits).filter (·.isEdge)) =
      .ok joined) {n : Element} (hn : n ∈ g.live) :
    n.id ∉ joined ↔ ∀ d ∈ g.live, d.EndsAt n → g.GoesAlong selector d := by
  have hleft {d : Element} (hd : d ∈ g.live) :=
    not_congr (mem_withEdges_iff hnodup hnamed hselect hd)
  constructor
  · intro hlonely d hd hat
    -- an edge that stays would keep the node
    refine Decidable.byContradiction fun hstays => hlonely ?_
    refine mem_endsOf_of_endsAt hnodup hjoined (e := d) ?_ (hnamed d (mem_live.1 hd).1 hat.1).2 hn hat
    exact List.mem_filter.2 ⟨List.mem_filter.2 ⟨hd, decide_eq_true ((hleft hd).2 hstays)⟩, hat.1⟩
  · intro hall hkept
    obtain ⟨d, hd, hat⟩ :=
      exists_endsAt_of_mem_endsOf hjoined (fun d hd => (List.mem_filter.1 hd).2) hkept
    obtain ⟨hd, hstays⟩ := List.mem_filter.1 (List.mem_filter.1 hd).1
    exact (hleft hd).1 (of_decide_eq_true hstays) (hall d hd hat)

/-- `Findable` holds of texts. -/
theorem findable_of_text? {v : Value} (h : (text? v).isSome = true) : Findable v := by
  obtain ⟨s, hs⟩ := Option.isSome_iff_exists.1 h
  rw [Element.text?_eq_some_iff.1 hs]
  exact fun _ => rfl

/-- `hideClosure` can be computed where a selection can be made. It is what goes along with the
selection, and the busy nodes of which every live edge does, but no group box. The graph is one that
was built with texts at both ends of each edge, in any state. -/
theorem mem_hideClosure_exact {payload : Value} (hbuilt : ofValue payload = .ok g₀)
    (hnamed : ∀ e ∈ g₀.elements, e.isEdge = true →
      (text? e.source).isSome = true ∧ (text? e.target).isSome = true)
    (hstate : g.IsStateOf g₀) (hselect : g.select selector = .ok hits) :
    ∃ ids, g.hideClosure selector = .ok ids ∧ ∀ id, id ∈ ids ↔
      ∃ e ∈ g.live, e.id = id ∧ e.isBox = false ∧
        (g.GoesAlong selector e ∨
          e.isNode = true ∧ e.field "isIdle" = .null ∧
            ∀ d ∈ g.live, d.EndsAt e → g.GoesAlong selector d) := by
  have hnodup : g.ids.Nodup := hstate.ids ▸ (ofValue_untouched hbuilt).nodup
  have hnamed₀ : EndsNamed g₀.elements :=
    fun e he hedge => ⟨hnamed e he hedge, ends_of_ofValue hbuilt e he hedge⟩
  have hnamed : EndsNamed g.elements := hnamed₀.of_state hstate
  obtain ⟨ids, hids⟩ : ∃ ids, g.hideClosure selector = .ok ids := by
    refine hideClosure_ok_iff.2 ⟨hits, hselect, fun e he hedge _ => ?_⟩
    obtain ⟨⟨hsource, htarget⟩, -⟩ := hnamed e (mem_live.1 he).1 hedge
    exact ⟨findable_of_text? hsource, findable_of_text? htarget⟩
  obtain ⟨hits', joined, hselect', hjoined, hmem⟩ := mem_hideClosure_iff hnodup hids
  obtain rfl : hits' = hits := Except.ok.inj (hselect'.symm.trans hselect)
  -- of a live element, what the closure asks is what is claimed
  have hexact {e : Element} (he : e ∈ g.live) : e.id ∈ ids ↔ e.isBox = false ∧
      (g.GoesAlong selector e ∨
        e.isNode = true ∧ e.field "isIdle" = .null ∧
          ∀ d ∈ g.live, d.EndsAt e → g.GoesAlong selector d) := by
    rw [hmem e he, mem_withEdges_iff hnodup hnamed hselect he, isBusy_iff,
      notMem_endsOf_iff hnodup hnamed hselect hjoined he]
  refine ⟨ids, hids, fun id => ⟨fun hid => ?_, ?_⟩⟩
  · obtain ⟨e, he, rfl⟩ := List.mem_map.1 (mem_liveIds_of_mem_hideClosure hids id hid)
    exact ⟨e, he, rfl, (hexact he).1 hid⟩
  · rintro ⟨e, he, rfl, hgoes⟩
    exact (hexact he).2 hgoes

/-- Nodes of which two are matched, one of them a box and one in it; a node that is idle, one whose
only live edge leads to a matched node, one joined to itself, one joined to nothing that is there,
and one on its own; and a node that will be taken out, with an edge of its own. This is JSON data
that `ofValue` reads. -/
def scatteredPayload : Value :=
  .list [
    .object [("data", .object [("id", .text "box"), ("isBox", .bool true), ("app", .text "x")])],
    .object [("data", .object [("id", .text "a"), ("parent", .text "box"), ("app", .text "x")])],
    .object [("data", .object [("id", .text "idle"), ("isIdle", .bool true)])],
    .object [("data", .object [("id", .text "b")])],
    .object [("data", .object [("id", .text "loop")])],
    .object [("data", .object [("id", .text "loose")])],
    .object [("data", .object [("id", .text "lone"), ("isIdle", .null)])],
    .object [("data", .object [("id", .text "out")])],
    .object [("data", .object [("source", .text "box"), ("target", .text "idle")])],
    .object [("data", .object [("source", .text "a"), ("target", .text "b")])],
    .object [("data", .object [("source", .text "loop"), ("target", .text "loop")])],
    .object [("data", .object [("source", .text "loose"), ("target", .text "nowhere")])],
    .object [("data", .object [("source", .text "out"), ("target", .text "b")])]]

/-- `mem_hideClosure_exact` once that node is out and another one is invisible: what goes with what
is matched. -/
theorem mem_hideClosure_exact_scattered :
    ∃ g₀, ofValue scatteredPayload = .ok g₀ ∧
      let g := (g₀.remove ["out"]).1.setVisible ["b"] false
      g.IsStateOf g₀ ∧ ∀ id, id ∈ (["a", "box->idle", "a->b", "b", "lone"] : List Text) ↔
        ∃ e ∈ g.live, e.id = id ∧ e.isBox = false ∧
          (g.GoesAlong "[app = \"x\"]" e ∨
            e.isNode = true ∧ e.field "isIdle" = .null ∧
              ∀ d ∈ g.live, d.EndsAt e → g.GoesAlong "[app = \"x\"]" d) := by
  have hbuilt : ∃ g₀, ofValue scatteredPayload = .ok g₀ ∧
      (∀ e ∈ g₀.elements, e.isEdge = true →
        (text? e.source).isSome = true ∧ (text? e.target).isSome = true) ∧
      let g := (g₀.remove ["out"]).1.setVisible ["b"] false
      (g.select "[app = \"x\"]").toOption.isSome = true ∧
        (g.hideClosure "[app = \"x\"]").toOption =
          some (["a", "box->idle", "a->b", "b", "lone"] : List Text) :=
    ⟨_, rfl, by decide +kernel⟩
  obtain ⟨g₀, hg₀, hnamed, hselect, hclosure⟩ := hbuilt
  refine ⟨g₀, hg₀, ?_⟩
  intro g
  -- the state is reached by a removal and a change of what is seen
  have hstate : g.IsStateOf g₀ := .of_bare ((bare_setVisible _ _ _).trans (bare_remove _ _))
  obtain ⟨hits, hhits⟩ := Except.exists_eq_ok_of_isSome hselect
  obtain ⟨ids, hids, hmem⟩ := mem_hideClosure_exact hg₀ hnamed hstate hhits
  rw [hids] at hclosure
  exact ⟨hstate, Option.some.inj hclosure ▸ hmem⟩

end Graph

end MeshLens
