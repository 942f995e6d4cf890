import MeshLens.Graph.Definition
import MeshLens.Proofs.Graph.CascadeLeast
import MeshLens.Proofs.Graph.SelectSpec
import MeshLens.Proofs.Hide.ConcealEffect

/-!
# What a closure leaves over

A closure takes the edges at the nodes it takes, and the busy nodes that no other edge ends at. So an
edge that is left ends at no node of the closure, a busy node that is left is the end of an edge that
is left, and group boxes are all left.

## Key results

- `Graph.mem_hideClosure_iff`: what a closure holds
- `Graph.notMem_hideClosure_of_endsAt`: the ends of an edge that is left
- `Graph.exists_endsAt_of_notMem_hideClosure`: the edge of a busy node that is left
-/

namespace MeshLens

namespace Element

/-- Whether an edge names an `Element` as one of its ends. -/
def EndsAt (e n : Element) : Prop :=
  e.isEdge = true ∧ (Graph.text? e.source = some n.id ∨ Graph.text? e.target = some n.id)

/-- `EndsAt` can be decided. -/
instance (e n : Element) : Decidable (e.EndsAt n) :=
  inferInstanceAs (Decidable (_ ∧ _))

/-- `text?` reads texts only. -/
theorem text?_eq_some_iff {v : Value} {s : Text} : Graph.text? v = some s ↔ v = .text s := by
  cases v <;> simp [Graph.text?]

/-- `EndsAt`: one of the two ends is the id. -/
theorem EndsAt.mem_ends {e n : Element} (h : e.EndsAt n) :
    e.source = .text n.id ∨ e.target = .text n.id :=
  h.2.imp text?_eq_some_iff.1 text?_eq_some_iff.1

/-- `isBox` fails of an edge. -/
theorem isBox_of_isEdge {e : Element} (h : e.isEdge = true) : e.isBox = false := by
  simp [isBox, isEdge_iff_not_isNode.1 h]

/-- `comparesEqual` holds of a text and itself only. -/
theorem eq_of_text_comparesEqual {s : Text} {v : Value}
    (h : Value.comparesEqual (.text s) v = true) : v = .text s := by
  cases v <;> simp_all [Value.comparesEqual, Value.equal, Value.size?]

/-- `anchors` of an edge hold the ids of the elements that it names. -/
theorem EndsAt.mem_anchors {e n : Element} (h : e.EndsAt n) : n.id ∈ e.anchors := by
  rw [anchors, if_pos h.1]
  rcases h.mem_ends with hsource | htarget
  · rw [hsource]
    split <;> exact List.mem_cons_self
  · rw [htarget]
    split
    · -- the two ends are the same text
      rename_i hsame
      rw [eq_of_text_comparesEqual hsame]
      exact List.mem_cons_self
    · exact List.mem_cons_of_mem _ List.mem_cons_self

/-- `anchors` of a node are empty. -/
theorem isEdge_of_mem_anchors {e : Element} {id : Text} (h : id ∈ e.anchors) : e.isEdge = true := by
  rw [anchors] at h
  split at h
  · assumption
  · cases h

/-- `anchors` of an edge that names its ends as texts hold the ids of those that it names only. -/
theorem endsAt_of_mem_anchors {e n : Element} (hsource : (Graph.text? e.source).isSome = true)
    (htarget : (Graph.text? e.target).isSome = true) (h : n.id ∈ e.anchors) : e.EndsAt n := by
  have hedge := isEdge_of_mem_anchors h
  obtain ⟨s, hs⟩ := Option.isSome_iff_exists.1 hsource
  obtain ⟨t, ht⟩ := Option.isSome_iff_exists.1 htarget
  have hplain : n.id = s ∨ n.id = t := by
    rw [anchors, if_pos hedge, text?_eq_some_iff.1 hs, text?_eq_some_iff.1 ht] at h
    split at h
    · exact .inl (List.mem_singleton.1 h)
    · simpa [Value.plain] using h
  refine ⟨hedge, ?_⟩
  rw [hs, ht]
  exact hplain.imp (congrArg some ·.symm) (congrArg some ·.symm)

end Element

namespace Graph

variable {g : Graph}

/-- `edgesAt` lists the live edges that have one of the nodes among their `anchors`. -/
theorem mem_edgesAt {nodes : List Text} {id : Text} :
    id ∈ g.edgesAt nodes ↔ ∃ n ∈ nodes, ∃ e ∈ g.live, n ∈ e.anchors ∧ e.id = id := by
  simp only [edgesAt, mem_distinct, List.mem_flatMap, List.mem_map, mem_incidentEdges, and_assoc]

/-- `endOf?` finds the element of a text, if the text counts as true. -/
theorem endOf?_eq_some_iff {v : Value} {n : Element} :
    g.endOf? v = .ok (some n) ↔ v.truthy = true ∧ ∃ s, v = .text s ∧ g.element? s = some n := by
  unfold endOf?
  constructor
  · intro h
    split at h
    · rename_i htruthy
      split at h
      · exact ⟨htruthy, _, rfl, Except.ok.inj h⟩
      all_goals cases h
    · cases h
  · rintro ⟨htruthy, s, rfl, h⟩
    rw [if_pos htruthy]
    exact congrArg _ h

/-- `liveEnds` are the live elements that are found. -/
theorem mem_liveEnds {ends : List Value} {es : List Element} (h : g.liveEnds ends = .ok es)
    {n : Element} : n ∈ es ↔ ∃ v ∈ ends, g.endOf? v = .ok (some n) ∧ n.live = true := by
  induction ends generalizing es with
  | nil =>
    cases h
    simp
  | cons v ends ih =>
    simp only [liveEnds] at h
    split at h
    · cases h
    · rename_i found hfound
      obtain ⟨rest, hrest, rfl⟩ := Except.map_eq_ok h
      rw [List.mem_append, ih hrest]
      simp [hfound, Option.filter_eq_some_iff]

/-- `endsOf` edges are the ids of the live elements that are found at one of their ends. -/
theorem mem_endsOf {edges : List Element} {ids : List Text} (h : g.endsOf edges = .ok ids)
    {id : Text} : id ∈ ids ↔ ∃ e ∈ edges, ∃ v ∈ [e.source, e.target], ∃ n,
      g.endOf? v = .ok (some n) ∧ n.live = true ∧ n.id = id := by
  obtain ⟨es, hes, rfl⟩ := Except.map_eq_ok h
  simp only [mem_distinct, List.mem_map, mem_liveEnds hes, List.mem_flatMap]
  constructor
  · rintro ⟨n, ⟨v, ⟨e, he, hv⟩, hend, hlive⟩, rfl⟩
    exact ⟨e, he, v, hv, n, hend, hlive, rfl⟩
  · rintro ⟨e, he, v, hv, n, hend, hlive, rfl⟩
    exact ⟨n, ⟨v, ⟨e, he, hv⟩, hend, hlive⟩, rfl⟩

/-- `endsOf` edges hold what an edge names. -/
theorem mem_endsOf_of_endsAt (hnodup : g.ids.Nodup) {edges : List Element} {ids : List Text}
    (h : g.endsOf edges = .ok ids) {e n : Element} (he : e ∈ edges)
    (htruthy : e.source.truthy = true ∧ e.target.truthy = true) (hn : n ∈ g.live)
    (hat : e.EndsAt n) : n.id ∈ ids := by
  have hfound := element?_of_mem hnodup (mem_live.1 hn).1
  refine (mem_endsOf h).2 ⟨e, he, .text n.id, ?_, n, ?_, (mem_live.1 hn).2, rfl⟩
  · rcases hat.mem_ends with hsource | htarget
    · simp [hsource]
    · simp [htarget]
  · refine endOf?_eq_some_iff.2 ⟨?_, n.id, rfl, hfound⟩
    rcases hat.mem_ends with hsource | htarget
    · exact hsource ▸ htruthy.1
    · exact htarget ▸ htruthy.2

/-- `endsOf` edges are named by one of them. -/
theorem exists_endsAt_of_mem_endsOf {edges : List Element} {ids : List Text}
    (h : g.endsOf edges = .ok ids) (hedges : ∀ e ∈ edges, e.isEdge = true) {n : Element}
    (hid : n.id ∈ ids) : ∃ e ∈ edges, e.EndsAt n := by
  obtain ⟨e, he, v, hv, m, hend, -, hsame⟩ := (mem_endsOf h).1 hid
  obtain ⟨-, s, rfl, hfound⟩ := endOf?_eq_some_iff.1 hend
  -- the element that was found has the id that the edge gives
  have hm : m.id = s := by simpa using List.find?_some hfound
  refine ⟨e, he, hedges e he, ?_⟩
  rw [Element.text?_eq_some_iff, Element.text?_eq_some_iff, ← hsame, hm]
  simpa [eq_comm] using hv

/-! ## What a closure holds -/

/-- Live elements with the edges at the nodes among them, as `closureOf` begins with. -/
def withEdges (g : Graph) (hits : List Element) : List Text :=
  distinct (hits.map (·.id) ++ g.edgesAt ((hits.filter (·.isNode)).map (·.id)))

/-- `hideClosure` holds no box. It holds the elements that are selected, the edges at nodes among
these, and busy nodes that no other edge names. -/
theorem mem_hideClosure_iff (hnodup : g.ids.Nodup) {selector : Text} {ids : List Text}
    (h : g.hideClosure selector = .ok ids) :
    ∃ hits joined, g.select selector = .ok hits ∧
      g.endsOf ((g.live.filter fun e => e.id ∉ g.withEdges hits).filter (·.isEdge)) = .ok joined ∧
      ∀ e ∈ g.live, e.id ∈ ids ↔ e.isBox = false ∧
        (e.id ∈ g.withEdges hits ∨ e.isNode = true ∧ isBusy e = true ∧ e.id ∉ joined) := by
  unfold hideClosure at h
  split at h
  · cases h
  rename_i hits hhits
  unfold closureOf at h
  obtain ⟨joined, hjoined, rfl⟩ := Except.map_eq_ok h
  refine ⟨hits, joined, hhits, hjoined, fun e he => ?_⟩
  have hfound := element?_of_mem hnodup (mem_live.1 he).1
  rw [List.mem_filter, mem_distinct, List.mem_append, hfound, and_comm]
  refine and_congr (by simp) ?_
  show e.id ∈ g.withEdges hits ∨ _ ↔ _
  -- cases: the element is chosen with the selection, or it may be an orphan
  by_cases hchosen : e.id ∈ g.withEdges hits
  · exact iff_of_true (.inl hchosen) (.inl hchosen)
  · refine or_congr Iff.rfl ?_
    rw [List.mem_map]
    constructor
    · rintro ⟨d, hd, hid⟩
      obtain ⟨hd, horphan⟩ := List.mem_filter.1 hd
      obtain rfl := live_eq_of_id_eq hnodup (List.mem_filter.1 hd).1 he hid
      simpa [and_assoc] using horphan
    · intro horphan
      refine ⟨e, List.mem_filter.2 ⟨List.mem_filter.2 ⟨he, ?_⟩, ?_⟩, rfl⟩
      · exact decide_eq_true hchosen
      · simpa [and_assoc] using horphan

section Left

variable (hnodup : g.ids.Nodup) {selector : Text} {ids : List Text}
  (h : g.hideClosure selector = .ok ids) {e n : Element}

include hnodup h

/-- `hideClosure` holds no box. -/
theorem notMem_hideClosure_of_isBox (hn : n ∈ g.live) (hbox : n.isBox = true) : n.id ∉ ids := by
  obtain ⟨hits, joined, -, -, hmem⟩ := mem_hideClosure_iff hnodup h
  intro hid
  have hnot := ((hmem n hn).1 hid).1
  rw [hbox] at hnot
  cases hnot

/-- `hideClosure` holds no node that is named by an edge which it leaves. -/
theorem notMem_hideClosure_of_endsAt
    (htruthy : e.source.truthy = true ∧ e.target.truthy = true) (he : e ∈ g.live)
    (hleft : e.id ∉ ids) (hn : n ∈ g.live) (hnode : n.isNode = true) (hat : e.EndsAt n) :
    n.id ∉ ids := by
  obtain ⟨hits, joined, hhits, hjoined, hmem⟩ := mem_hideClosure_iff hnodup h
  intro hid
  have hchosen : e.id ∉ g.withEdges hits := fun hchosen =>
    hleft ((hmem e he).2 ⟨Element.isBox_of_isEdge hat.1, .inl hchosen⟩)
  rcases ((hmem n hn).1 hid).2 with hchosen' | ⟨-, -, hlonely⟩
  · rcases List.mem_append.1 (mem_distinct.1 hchosen') with hhit | hedge
    · -- with a node that is selected its edges are chosen
      obtain ⟨d, hd, hsame⟩ := List.mem_map.1 hhit
      obtain rfl := live_eq_of_id_eq hnodup ((mem_select hhits).1 hd).1 hn hsame
      refine hchosen (mem_distinct.2 (List.mem_append_right _ (mem_edgesAt.2 ?_)))
      exact ⟨d.id, List.mem_map_of_mem (List.mem_filter.2 ⟨hd, hnode⟩), e, he, hat.mem_anchors, rfl⟩
    · -- a node is no edge
      obtain ⟨_, -, d, hd, hanchor, hsame⟩ := mem_edgesAt.1 hedge
      obtain rfl := live_eq_of_id_eq hnodup hd hn hsame
      exact absurd hnode (Element.isEdge_iff_not_isNode.1 (Element.isEdge_of_mem_anchors hanchor))
  · -- the edge is one of those that keep their ends
    refine hlonely (mem_endsOf_of_endsAt hnodup hjoined ?_ htruthy hn hat)
    exact List.mem_filter.2 ⟨List.mem_filter.2 ⟨he, by simpa using hchosen⟩, hat.1⟩

/-- `hideClosure` leaves a busy node only with an edge that names it. -/
theorem exists_endsAt_of_notMem_hideClosure (hn : n ∈ g.live) (hnode : n.isNode = true)
    (hbox : n.isBox = false) (hbusy : isBusy n = true) (hleft : n.id ∉ ids) :
    ∃ e ∈ g.live, e.EndsAt n ∧ e.id ∉ ids := by
  obtain ⟨hits, joined, -, hjoined, hmem⟩ := mem_hideClosure_iff hnodup h
  have hkept : n.id ∈ joined := Decidable.byContradiction fun hlonely =>
    hleft ((hmem n hn).2 ⟨hbox, .inr ⟨hnode, hbusy, hlonely⟩⟩)
  obtain ⟨e, he, hat⟩ := exists_endsAt_of_mem_endsOf hjoined (fun e he => (List.mem_filter.1 he).2) hkept
  obtain ⟨he, hchosen⟩ := List.mem_filter.1 (List.mem_filter.1 he).1
  refine ⟨e, he, hat, fun hid => ?_⟩
  -- an edge is in a closure only when it is chosen
  rcases ((hmem e he).1 hid).2 with hchosen' | ⟨hnode, -⟩
  · simp [hchosen'] at hchosen
  · exact absurd hnode (Element.isEdge_iff_not_isNode.1 hat.1)

end Left

end Graph

end MeshLens
