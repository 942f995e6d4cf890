import MeshLens.Graph.Store
import MeshLens.Proofs.Graph.NoHangingEdges
import MeshLens.Proofs.Graph.RemoveCorrect

/-!
# Tables of neighbours

What is at a node and in a box can be looked up in two tables. They are written when an element is
added: an edge is entered in the row of the text of its source and, where its ends do not compare as
equal, in the row of the text of its target; a node is entered in the row of the text of its parent.
Nothing else writes them. Taking out and putting back decides only which members of a row are passed
over.

So the tables list what the elements say, in the order in which these were added. Each child is listed
once. So is each edge at an id, unless its target has the id as its text and the comparison of the ends
is at odds with their texts: ends of one text that do not compare as equal have the edge listed twice,
and ends of two texts that do have it missing at its target.

## Key results

- `Adjacency.row_enter_edges`, `Adjacency.row_enter_children`: what a new element adds to a row
- `IndexedGraph.Exact`, `IndexedGraph.Exact.edit`: the tables keep up with each step
- `IndexedGraph.exists_editAll_of_ofValue`: every graph that is built from data is reached in steps
- `IndexedGraph.Exact.incidentEdges_of_texts`: edges whose ends are texts are listed as these say
- `IndexedGraph.editAll_lists`: what is listed after any number of steps
-/

namespace MeshLens

namespace Graph

/-! ## Lists of elements -/

/-- `element?` finds elements again from the list of their ids. -/
theorem filterMap_element? {g : Graph} (hnodup : g.ids.Nodup) {es : List Element}
    (hes : ∀ e ∈ es, e ∈ g.elements) : (es.map (·.id)).filterMap g.element? = es := by
  induction es with
  | nil => rfl
  | cons e es ih =>
    rw [List.forall_mem_cons] at hes
    rw [List.map_cons, List.filterMap_cons, element?_of_mem hnodup hes.1, ih hes.2]

/-- `List.replicate` of elements in a row is the row filtered by a test, just when each element has
one copy or none as the test says. -/
theorem flatMap_replicate_eq_filter_iff {es : List Element} (hnodup : (es.map (·.id)).Nodup)
    {copies : Element → Nat} {p : Element → Prop} [DecidablePred p] :
    (es.flatMap fun e => List.replicate (copies e) e) = es.filter (fun e => p e) ↔
      ∀ e ∈ es, copies e = if p e then 1 else 0 := by
  -- induction on the elements
  induction es with
  | nil => simp
  | cons e es ih =>
    rw [List.map_cons, List.nodup_cons] at hnodup
    rw [List.forall_mem_cons, ← ih hnodup.2, List.flatMap_cons]
    have hfirst : (e :: es).filter (fun e => p e) =
        List.replicate (if p e then 1 else 0) e ++ es.filter (fun e => p e) := by
      by_cases h : p e <;> simp [h]
    rw [hfirst]
    constructor
    · intro hsame
      -- the first element is not among the others, so that all its copies are in front
      have hothers : ∀ d ∈ es, d.id ≠ e.id := fun d hd hid => hnodup.1 (hid ▸ List.mem_map_of_mem hd)
      have hcount := congrArg (List.countP (·.id = e.id)) hsame
      have hnone : (es.flatMap fun e => List.replicate (copies e) e).countP (·.id = e.id) = 0 := by
        refine List.countP_eq_zero.2 fun d hd => ?_
        obtain ⟨c, hc, hd⟩ := List.mem_flatMap.1 hd
        rw [(List.mem_replicate.1 hd).2]
        simpa using hothers c hc
      have hnone' : (es.filter fun e => p e).countP (·.id = e.id) = 0 :=
        List.countP_eq_zero.2 fun d hd => by simpa using hothers d (List.mem_filter.1 hd).1
      rw [List.countP_append, List.countP_append, hnone, hnone', List.countP_replicate,
        List.countP_replicate] at hcount
      have hcopies : copies e = if p e then 1 else 0 := by simpa using hcount
      rw [hcopies] at hsame
      exact ⟨hcopies, List.append_cancel_left hsame⟩
    · rintro ⟨hcopies, hrest⟩
      rw [hcopies, hrest]

end Graph

namespace Element

/-- `anchors` of an edge hold each of its ends once, and nothing else, unless its target has the id
as its text and the comparison of the ends is at odds with their texts. -/
theorem length_anchors_eq_iff (e : Element) (id : Text) :
    (e.anchors.filter (· = id)).length =
        (if e.isEdge = true ∧ (e.source.plain = id ∨ e.target.plain = id) then 1 else 0) ↔
      (e.isEdge = true → e.target.plain = id →
        (e.target.comparesEqual e.source = true ↔ e.source.plain = id)) := by
  unfold anchors
  cases e.isEdge with
  | false => simp
  | true =>
    cases e.target.comparesEqual e.source with
    | true => by_cases hs : e.source.plain = id <;> by_cases ht : e.target.plain = id <;> simp [hs, ht]
    | false => by_cases hs : e.source.plain = id <;> by_cases ht : e.target.plain = id <;> simp [hs, ht]

end Element

/-! ## The tables -/

namespace Adjacency

/-- `write` adds a member to one row of a table. -/
theorem row_write (table : Entries (List Text)) (id member other : Text) :
    row (write table id member) other = row table other ++ if id = other then [member] else [] := by
  rw [row, write, Entries.get?_set]
  by_cases h : id = other
  · rw [if_pos h, if_pos h, h]
    rfl
  · rw [if_neg h, if_neg h, List.append_nil]
    rfl

/-- `enter` writes a new edge into the rows of its `anchors`. -/
theorem row_enter_edges (a : Adjacency) (e : Element) (id : Text) :
    row (a.enter e).edges id = row a.edges id ++ (e.anchors.filter (· = id)).map fun _ => e.id := by
  unfold enter Element.anchors
  cases e.isEdge with
  | false =>
    simp only [Bool.false_eq_true, if_false, List.filter_nil, List.map_nil, List.append_nil]
    split <;> rfl
  | true =>
    cases e.target.comparesEqual e.source with
    | true =>
      simp only [if_true, row_write, List.filter_cons, decide_eq_true_eq, List.filter_nil]
      split <;> rfl
    | false =>
      simp only [if_true, Bool.false_eq_true, if_false, row_write, List.filter_cons,
        decide_eq_true_eq, List.filter_nil, List.append_assoc]
      split <;> split <;> rfl

/-- `enter` writes a new node into the row of its `holder?`. -/
theorem row_enter_children (a : Adjacency) (e : Element) (id : Text) :
    row (a.enter e).children id = row a.children id ++ if e.holder? = some id then [e.id] else [] := by
  unfold enter Element.holder?
  -- cases: the element is an edge, or a node that may have a parent
  cases hedge : e.isEdge with
  | true =>
    have hnode : e.isNode = false := by simpa using Element.isEdge_iff_not_isNode.1 hedge
    simp only [hnode, if_true, Bool.false_and, Bool.false_eq_true, if_false, reduceCtorEq,
      List.append_nil]
    split <;> rfl
  | false =>
    have hnode : e.isNode = true := by
      by_contra hnode
      exact Bool.false_ne_true (hedge.symm.trans (Element.isEdge_iff_not_isNode.2 hnode))
    cases e.parent.truthy with
    | true => simp only [hnode, Bool.false_eq_true, if_false, if_true, Bool.and_self, row_write,
        Option.some.injEq]
    | false => simp only [hnode, Bool.false_eq_true, if_false, Bool.and_false, reduceCtorEq,
        List.append_nil]

end Adjacency

/-- A step that adds an element to an `IndexedGraph`, takes some out or puts some back. -/
inductive Edit
  | add (definition : Value)
  | alter (step : Alteration)

namespace IndexedGraph

open Adjacency (row)

/-- The graph and its tables after an `Edit`. A definition that is refused changes nothing. -/
def edit (s : IndexedGraph) : Edit → IndexedGraph
  | .add definition =>
    match s.graph.add definition with
    | .ok (g, e) => ⟨g, s.adjacency.enter e⟩
    | .error _ => s
  | .alter step => { s with graph := s.graph.alter step }

/-- The graph and its tables after several steps: `edit` one after the other. -/
def editAll (s : IndexedGraph) (edits : List Edit) : IndexedGraph :=
  edits.foldl edit s

/-- The invariant of an `IndexedGraph`: the tables list what the elements say, and no two elements
have the same id. -/
structure Exact (s : IndexedGraph) : Prop where
  nodup : s.graph.ids.Nodup
  edges : ∀ id, row s.adjacency.edges id =
    (s.graph.elements.flatMap fun e => (e.anchors.filter (· = id)).map fun _ => e).map (·.id)
  children : ∀ id, row s.adjacency.children id =
    (s.graph.elements.filter fun e => e.holder? = some id).map (·.id)

variable {s : IndexedGraph}

/-! ## One step -/

/-- `Exact` is preserved when an element is added to the graph and entered in the tables. -/
theorem Exact.add (h : s.Exact) {definition : Value} {g : Graph} {e : Element}
    (hadd : s.graph.add definition = .ok (g, e)) : (⟨g, s.adjacency.enter e⟩ : IndexedGraph).Exact := by
  have hnodup := Graph.nodup_add h.nodup hadd
  obtain ⟨d, -, hadded⟩ := Except.map_eq_ok hadd
  cases hadded
  refine ⟨hnodup, fun id => ?_, fun id => ?_⟩
  · show row (s.adjacency.enter e).edges id = _
    rw [Adjacency.row_enter_edges, h.edges, List.flatMap_append, List.map_append, List.flatMap_cons,
      List.flatMap_nil, List.append_nil, List.map_map]
    rfl
  · show row (s.adjacency.enter e).children id = _
    rw [Adjacency.row_enter_children, h.children, List.filter_append, List.map_append]
    refine congrArg _ ?_
    by_cases hholder : e.holder? = some id
    · rw [if_pos hholder, List.filter_cons_of_pos (by simpa using hholder)]
      rfl
    · rw [if_neg hholder, List.filter_cons_of_neg (by simpa using hholder)]
      rfl

/-- `Exact` is preserved by an `Alteration`: the tables need not be written when elements are taken
out or put back. -/
theorem Exact.alter (h : s.Exact) (step : Alteration) : (s.edit (.alter step)).Exact := by
  have hbare : (s.graph.alter step).bare = s.graph.bare := s.graph.bare_alter step
  -- what a row lists does not depend on the two flags
  have hedges (g : Graph) (id : Text) :
      (g.elements.flatMap fun e => (e.anchors.filter (· = id)).map fun _ => e).map (·.id) =
        (g.bare.flatMap fun e => (e.anchors.filter (· = id)).map fun _ => e).map (·.id) := by
    rw [Graph.bare, List.flatMap_map, List.map_flatMap, List.map_flatMap]
    simp only [List.map_map]
    rfl
  have hchildren (g : Graph) (id : Text) :
      (g.elements.filter fun e => e.holder? = some id).map (·.id) =
        (g.bare.filter fun e => e.holder? = some id).map (·.id) := by
    rw [Graph.bare, List.filter_map, List.map_map]
    rfl
  refine ⟨(Graph.ids_of_bare hbare).symm ▸ h.nodup, fun id => ?_, fun id => ?_⟩
  · refine (h.edges id).trans ((hedges s.graph id).trans ?_)
    rw [← hbare]
    exact (hedges (s.graph.alter step) id).symm
  · refine (h.children id).trans ((hchildren s.graph id).trans ?_)
    rw [← hbare]
    exact (hchildren (s.graph.alter step) id).symm

/-- `Exact` is preserved by `edit`. -/
theorem Exact.edit (h : s.Exact) (step : Edit) : (s.edit step).Exact := by
  cases step with
  | add definition =>
    simp only [IndexedGraph.edit]
    split
    · rename_i hadd
      exact h.add hadd
    · exact h
  | alter step => exact h.alter step

/-! ## Any number of steps -/

/-- `Exact` is preserved by `editAll`. -/
theorem Exact.editAll (h : s.Exact) (edits : List Edit) : (s.editAll edits).Exact := by
  induction edits generalizing s with
  | nil => exact h
  | cons step edits ih => exact ih (h.edit step)

/-- `Exact` holds of the empty graph. -/
theorem exact_empty : ({} : IndexedGraph).Exact :=
  ⟨List.nodup_nil, fun _ => rfl, fun _ => rfl⟩

/-- `editAll` reaches every graph that is built from data, and what becomes of it when elements are
taken out and put back. -/
theorem exists_editAll_of_ofValue {payload : Value} {g : Graph} (h : Graph.ofValue payload = .ok g) :
    ∃ edits, ∀ steps : List Alteration,
      (({} : IndexedGraph).editAll (edits ++ steps.map .alter)).graph = g.alterAll steps := by
  -- first the elements are added, and then the graph is altered
  have haddAll : ∀ {definitions : List Value} {s : IndexedGraph} {g : Graph},
      s.graph.addAll definitions = .ok g → (s.editAll (definitions.map .add)).graph = g := by
    intro definitions
    induction definitions with
    | nil =>
      intro s g hg
      exact Except.ok.inj hg
    | cons definition definitions ih =>
      intro s g hg
      rw [Graph.addAll] at hg
      split at hg
      · cases hg
      · rename_i added e hadd
        have hstep : s.edit (.add definition) = ⟨added, s.adjacency.enter e⟩ := by
          rw [IndexedGraph.edit, hadd]
        show ((s.edit (.add definition)).editAll (definitions.map .add)).graph = g
        exact hstep ▸ ih hg
  have halterAll : ∀ {steps : List Alteration} {s : IndexedGraph},
      (s.editAll (steps.map .alter)).graph = s.graph.alterAll steps := by
    intro steps
    induction steps with
    | nil => exact rfl
    | cons step steps ih => exact fun {s} => ih (s := s.edit (.alter step))
  obtain ⟨definitions, -, h⟩ := Except.bind_eq_ok h
  refine ⟨definitions.map .add, fun steps => ?_⟩
  rw [IndexedGraph.editAll, List.foldl_append]
  exact halterAll.trans (congrArg (Graph.alterAll · steps) (haddAll h))

/-! ## What is listed -/

/-- `Exact` tables: looking up in them is looking at the elements. -/
theorem Exact.lookup (h : s.Exact) (id : Text) :
    s.incidentEdges id = s.graph.incidentEdges id ∧ s.childrenOf id = s.graph.childrenOf id := by
  constructor
  · rw [incidentEdges, members, h.edges, Graph.filterMap_element? h.nodup, List.filter_flatMap]
    · refine congrArg (fun f => List.flatMap f s.graph.elements) (funext fun e => ?_)
      cases hlive : e.live <;> simp [hlive]
    · intro e he
      obtain ⟨d, hd, hlisted⟩ := List.mem_flatMap.1 he
      obtain ⟨-, -, rfl⟩ := List.mem_map.1 hlisted
      exact hd
  · rw [childrenOf, members, h.children, Graph.filterMap_element? h.nodup, List.filter_filter]
    · rfl
    · exact fun e he => (List.mem_filter.1 he).1

/-- `Exact` tables list edges as their ends say just when comparing the ends says so. -/
theorem Exact.incidentEdges_eq_iff (h : s.Exact) (id : Text) :
    s.incidentEdges id = s.graph.live.filter (fun e =>
        e.isEdge = true ∧ (e.source.plain = id ∨ e.target.plain = id)) ↔
      ∀ e ∈ s.graph.live, e.isEdge = true → e.target.plain = id →
        (e.target.comparesEqual e.source = true ↔ e.source.plain = id) := by
  have hnodup : (s.graph.live.map (·.id)).Nodup := h.nodup.sublist (List.filter_sublist.map _)
  rw [(h.lookup id).1, Graph.incidentEdges_eq]
  simp only [List.map_const', Graph.flatMap_replicate_eq_filter_iff hnodup,
    Element.length_anchors_eq_iff]

/-- `Exact` tables list edges as their ends say when these are texts. -/
theorem Exact.incidentEdges_of_texts (h : s.Exact) (hnamed : ∀ e ∈ s.graph.live, e.isEdge = true →
      (Graph.text? e.source).isSome = true ∧ (Graph.text? e.target).isSome = true) (id : Text) :
    s.incidentEdges id = s.graph.live.filter fun e =>
      e.isEdge = true ∧ (e.source.plain = id ∨ e.target.plain = id) := by
  refine (h.incidentEdges_eq_iff id).2 fun e he hedge htarget => ?_
  obtain ⟨hs, ht⟩ := hnamed e he hedge
  obtain ⟨source, hsource⟩ := Option.isSome_iff_exists.1 hs
  obtain ⟨target, htarget'⟩ := Option.isSome_iff_exists.1 ht
  rw [Element.text?_eq_some_iff] at hsource htarget'
  rw [htarget'] at htarget ⊢
  rw [hsource]
  have hid : target = id := htarget
  show (target == source) = true ↔ source = id
  rw [beq_iff_eq, hid, eq_comm]

/-- `editAll` from an empty graph, with any steps, leaves no two elements with the same id, and
looking up in the tables is looking at the elements. At every id are listed, each once and in the
order in which they were added, the live nodes with a parent of this text. So are the live edges
with an end of this text, just when those with a target of this text have ends that compare as equal
where their source has the text as well, and ends that do not where it has another one. -/
theorem editAll_lists (edits : List Edit) :
    let s := ({} : IndexedGraph).editAll edits
    s.graph.ids.Nodup ∧
      (∀ id, s.incidentEdges id = s.graph.incidentEdges id ∧ s.childrenOf id = s.graph.childrenOf id) ∧
      (∀ id, s.childrenOf id = s.graph.live.filter fun e =>
        e.isNode = true ∧ e.parent.truthy = true ∧ e.parent.plain = id) ∧
      ∀ id, s.incidentEdges id = s.graph.live.filter (fun e =>
          e.isEdge = true ∧ (e.source.plain = id ∨ e.target.plain = id)) ↔
        ∀ e ∈ s.graph.live, e.isEdge = true → e.target.plain = id →
          (e.target.comparesEqual e.source = true ↔ e.source.plain = id) := by
  intro s
  have hexact : s.Exact := exact_empty.editAll edits
  refine ⟨hexact.nodup, hexact.lookup, fun id => ?_, hexact.incidentEdges_eq_iff⟩
  rw [(hexact.lookup id).2, Graph.childrenOf_eq]
  exact List.filter_congr fun e _ => decide_eq_decide.2 Element.holder?_eq_some_iff

/-- Two ids and two edges between them whose ends are texts and other values, to be added in an
`editAll`. -/
def mixedEdits : List Edit :=
  [.add (.object [("data", .object [("id", .text "1")])]),
    .add (.object [("data", .object [("id", .text "True")])]),
    .add (.object [("data", .object [("id", .text "twice"), ("source", .int 1), ("target", .text "1")])]),
    .add (.object [("data", .object [("id", .text "missing"), ("source", .int 1),
      ("target", .bool true)])])]

/-- `editAll_lists` where edges are not listed as their ends say. The one edge has two ends of one
text that are not equal, and is listed twice. The other one has equal ends of two texts, and is
missing at its target. -/
theorem editAll_lists_not_mixed :
    let s := ({} : IndexedGraph).editAll mixedEdits
    (s.incidentEdges "1").map (·.id) = (["twice", "twice", "missing"] : List Text) ∧
      (s.graph.live.filter fun e => e.isEdge = true ∧
        (e.source.plain = ("1" : Text) ∨ e.target.plain = ("1" : Text))).map (·.id) =
          (["twice", "missing"] : List Text) ∧
      (s.incidentEdges "True").map (·.id) = [] ∧
      (s.graph.live.filter fun e => e.isEdge = true ∧
        (e.source.plain = ("True" : Text) ∨ e.target.plain = ("True" : Text))).map (·.id) =
          (["missing"] : List Text) := by
  decide +kernel

end IndexedGraph

end MeshLens
