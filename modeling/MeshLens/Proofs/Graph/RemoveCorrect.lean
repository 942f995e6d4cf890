import Mathlib.Logic.Function.Iterate
import Mathlib.Order.Bounds.Defs
import MeshLens.Graph.Takeout
import MeshLens.Proofs.Graph.RestoreUndoesRemove

/-!
# What is taken out

Elements are taken out one by one: each leaves the graph at once, and what is in the graph at it or in
it by then is looked at next. What has left is not met again, so this ends, however nodes hold each
other and edges run back and forth. What is taken is what a search of the graph as it was reaches: the
least set that takes in what was asked for and, with a node, the edges at it and the nodes in it. So the
order in which elements are asked for makes no difference.

## Key results

- `Takeout.Follows.run`: taking out one by one keeps up with the search
- `Takeout.exists_finished`: it ends, with what the search reaches
- `Graph.remove_isLeast`: what goes is the least set that takes its dependents along
- `Graph.remove_takes_cascade`: what is taken out, what is answered, and that order does not matter
-/

namespace MeshLens

namespace Element

/-- Whether an edge is at an `Element`: one of its ends has the element's id as its text. An edge
from an element to itself is at its source; so is one whose ends compare as equal though their texts
differ. -/
def IsAt (e n : Element) : Prop :=
  e.isEdge = true ∧ (e.source.plain = n.id ∨
    e.target.plain = n.id ∧ e.target.comparesEqual e.source = false)

/-- `IsAt` can be decided. -/
instance (e n : Element) : Decidable (e.IsAt n) :=
  inferInstanceAs (Decidable (_ ∧ _))

/-- Whether a node names an `Element` as what holds it. -/
def IsIn (e n : Element) : Prop :=
  e.isNode = true ∧ e.parent.truthy = true ∧ e.parent.plain = n.id

variable {e n : Element}

/-- `anchors` of an edge are the ids of what it `IsAt`. -/
theorem mem_anchors_iff_isAt : n.id ∈ e.anchors ↔ e.IsAt n := by
  rw [anchors, IsAt, eq_comm (b := n.id), eq_comm (b := n.id)]
  cases hedge : e.isEdge with
  | false => simp
  | true =>
    cases hsame : e.target.comparesEqual e.source with
    | false => simp
    | true => simp

/-- `holder?` of a node is the text of its parent, if that counts as true. -/
theorem holder?_eq_some_iff {id : Text} : e.holder? = some id ↔
    e.isNode = true ∧ e.parent.truthy = true ∧ e.parent.plain = id := by
  rw [holder?, ← and_assoc, ← Bool.and_eq_true]
  split
  · rename_i hheld
    simp only [hheld, Option.some.injEq, true_and]
  · rename_i hfree
    simp only [hfree, reduceCtorEq, Bool.false_eq_true, false_and]

/-- `holder?` of a node is the id of what it `IsIn`. -/
theorem holder?_eq_some_iff_isIn : e.holder? = some n.id ↔ e.IsIn n :=
  holder?_eq_some_iff

end Element

namespace Graph

variable {g : Graph} {ids gone : List Text} {id : Text}

/-! ## What is left of a graph -/

/-- `live` after some elements are taken out: those that are left. -/
theorem live_modify_withRemoved (g : Graph) (gone : List Text) :
    (g.modify gone (Element.withRemoved true)).live = g.live.filter (·.id ∉ gone) := by
  rw [live, live, modify_elements, Element.changed]
  -- one element after the other: what is taken out is left out, and the others are as they were
  induction g.elements with
  | nil => rfl
  | cons e es ih =>
    by_cases hgone : e.id ∈ gone
    · have hout : (e.withRemoved true).live = false := rfl
      rw [List.map_cons, if_pos hgone, List.filter_cons_of_neg (by simp [hout]), ih]
      cases hlive : e.live with
      | false => rw [List.filter_cons_of_neg (by simp [hlive])]
      | true =>
        rw [List.filter_cons_of_pos hlive, List.filter_cons_of_neg (by simp [hgone])]
    · rw [List.map_cons, if_neg hgone]
      cases hlive : e.live with
      | false =>
        rw [List.filter_cons_of_neg (by simp [hlive]), List.filter_cons_of_neg (by simp [hlive]), ih]
      | true =>
        rw [List.filter_cons_of_pos hlive, List.filter_cons_of_pos hlive,
          List.filter_cons_of_pos (by simp [hgone]), ih]

/-- `liveIds` after some elements are taken out: those that are left. -/
theorem mem_liveIds_modify_withRemoved :
    id ∈ (g.modify gone (Element.withRemoved true)).liveIds ↔ id ∈ g.liveIds ∧ id ∉ gone := by
  simp only [liveIds, live_modify_withRemoved, List.mem_map, List.mem_filter, decide_eq_true_eq]
  constructor
  · rintro ⟨e, ⟨he, hleft⟩, rfl⟩
    exact ⟨⟨e, he, rfl⟩, hleft⟩
  · rintro ⟨⟨e, he, rfl⟩, hleft⟩
    exact ⟨e, ⟨he, hleft⟩, rfl⟩

/-- `incidentEdges` lists each edge as often as the id is among its `anchors`. -/
theorem incidentEdges_eq (g : Graph) (id : Text) : g.incidentEdges id =
    g.live.flatMap fun e => (e.anchors.filter (· = id)).map fun _ => e := by
  rw [incidentEdges, live]
  induction g.elements with
  | nil => rfl
  | cons e es ih =>
    rw [List.flatMap_cons, ih]
    cases hlive : e.live with
    | false => rw [List.filter_cons_of_neg (by simp [hlive])]; rfl
    | true => rw [List.filter_cons_of_pos hlive]; rfl

/-- `childrenOf` lists the nodes whose `holder?` is the id. -/
theorem childrenOf_eq (g : Graph) (id : Text) :
    g.childrenOf id = g.live.filter fun e => e.holder? = some id := by
  rw [childrenOf, live, List.filter_filter]
  exact List.filter_congr fun e _ => Bool.and_comm ..

/-- `incidentEdges` after some elements are taken out: those edges that are left. -/
theorem incidentEdges_modify_withRemoved (g : Graph) (gone : List Text) (id : Text) :
    (g.modify gone (Element.withRemoved true)).incidentEdges id =
      (g.incidentEdges id).filter (·.id ∉ gone) := by
  rw [incidentEdges_eq, incidentEdges_eq, live_modify_withRemoved]
  -- induction on the live elements; each of them is listed some number of times
  induction g.live with
  | nil => rfl
  | cons e es ih =>
    rw [List.flatMap_cons, List.filter_append, ← ih]
    -- however often an edge is listed, it stays or goes as one
    have hlisted : ∀ d ∈ (e.anchors.filter (· = id)).map fun _ => e, d = e := by
      intro d hd
      obtain ⟨-, -, rfl⟩ := List.mem_map.1 hd
      rfl
    by_cases hgone : e.id ∈ gone
    · have hnone : ((e.anchors.filter (· = id)).map fun _ => e).filter (fun d => d.id ∉ gone) = [] :=
        List.filter_eq_nil_iff.2 fun d hd => by simpa [hlisted d hd] using hgone
      rw [List.filter_cons_of_neg (by simpa using hgone), hnone, List.nil_append]
    · have hall : ((e.anchors.filter (· = id)).map fun _ => e).filter (fun d => d.id ∉ gone) = _ :=
        List.filter_eq_self.2 fun d hd => by simpa [hlisted d hd] using hgone
      rw [List.filter_cons_of_pos (by simpa using hgone), hall, List.flatMap_cons]

/-- `childrenOf` after some elements are taken out: those nodes that are left. -/
theorem childrenOf_modify_withRemoved (g : Graph) (gone : List Text) (id : Text) :
    (g.modify gone (Element.withRemoved true)).childrenOf id =
      (g.childrenOf id).filter (·.id ∉ gone) := by
  rw [childrenOf_eq, childrenOf_eq, live_modify_withRemoved, List.filter_filter, List.filter_filter]
  exact List.filter_congr fun e _ => Bool.and_comm ..

/-- `dependents` after some elements are taken out: what went with an element before, less those. -/
theorem dependents_modify_withRemoved (g : Graph) (gone : List Text) (id : Text) :
    (g.modify gone (Element.withRemoved true)).dependents id =
      (g.dependents id).filter (· ∉ gone) := by
  have hnode : ((g.modify gone (Element.withRemoved true)).element? id).any (·.isNode) =
      (g.element? id).any (·.isNode) := by
    rw [element?_modify g gone (Element.withRemoved_id true), Option.any_map]
    refine congrArg (Option.any · _) (funext fun e => ?_)
    show Element.isNode (if e.id ∈ gone then e.withRemoved true else e) = e.isNode
    split <;> rfl
  rw [dependents, dependents, hnode]
  split
  · rw [List.filter_append, List.filter_map, List.filter_map, incidentEdges_modify_withRemoved,
      childrenOf_modify_withRemoved]
    rfl
  · rfl

end Graph

/-! ## One by one -/

namespace Takeout

/-- Whether a `Takeout` stands where a search of the graph as it was stands. What waits may differ
from what is on the stack by what has left the graph. -/
structure Follows (g : Graph) (stack seen : List Text) (t : Takeout) : Prop where
  taken : t.taken = seen
  graph : t.graph = g.modify seen.reverse (Element.withRemoved true)
  waiting : t.waiting.filter (· ∈ t.graph.liveIds) = stack.filter (· ∈ t.graph.liveIds)

variable {g : Graph} {stack seen : List Text} {t : Takeout}

/-- `step` passes over what has left the graph. -/
theorem iterate_step_of_forall_notMem {passed waiting : List Text}
    (hpassed : ∀ id ∈ passed, id ∉ t.graph.liveIds) (hwaiting : t.waiting = passed ++ waiting) :
    step^[passed.length] t = { t with waiting } := by
  induction passed generalizing t with
  | nil =>
    rw [List.nil_append] at hwaiting
    rw [← hwaiting]
    rfl
  | cons id passed ih =>
    obtain ⟨hid, hpassed⟩ := List.forall_mem_cons.1 hpassed
    have hstep : t.step = { t with waiting := passed ++ waiting } := by
      rw [List.cons_append] at hwaiting
      simp only [step, hwaiting, if_neg hid]
    rw [List.length_cons, Function.iterate_succ_apply, hstep]
    exact ih hpassed rfl

/-- `Follows`: live is what was live at first, less what was seen. -/
theorem Follows.mem_liveIds (h : Follows g stack seen t) {id : Text} :
    id ∈ t.graph.liveIds ↔ id ∈ g.liveIds ∧ id ∉ seen := by
  rw [h.graph, Graph.mem_liveIds_modify_withRemoved, List.mem_reverse]

/-- `Follows` is preserved when the search passes over an id. -/
theorem Follows.pass {id : Text} (h : Follows g (id :: stack) seen t)
    (hid : ¬(id ∈ g.liveIds ∧ id ∉ seen)) : Follows g stack seen t := by
  have hout : id ∉ t.graph.liveIds := mt h.mem_liveIds.1 hid
  refine ⟨h.taken, h.graph, h.waiting.trans ?_⟩
  exact List.filter_cons_of_neg (by simpa using hout)

/-- `Follows` is preserved when the search visits an id: some steps pass over what has left the
graph, and the next one takes the element out. -/
theorem Follows.visit {id : Text} (h : Follows g (id :: stack) seen t)
    (hid : id ∈ g.liveIds ∧ id ∉ seen) :
    ∃ n, Follows g ((g.dependents id).reverse ++ stack) (id :: seen) (step^[n] t) := by
  have hlive : id ∈ t.graph.liveIds := h.mem_liveIds.2 hid
  have hnext := h.waiting
  rw [List.filter_cons_of_pos (by simpa using hlive)] at hnext
  -- the id waits behind some that have left the graph
  obtain ⟨passed, waiting, hsplit, hpassed, -, hwaiting⟩ := List.filter_eq_cons_iff.1 hnext
  have hskip := iterate_step_of_forall_notMem (by simpa using hpassed) hsplit
  let graph := t.graph.modify [id] (Element.withRemoved true)
  have hstep : step^[passed.length + 1] t =
      { graph, waiting := (graph.dependents id).reverse ++ waiting, taken := id :: t.taken } := by
    rw [Function.iterate_succ_apply', hskip]
    simp only [step, if_pos hlive]
    rfl
  have hgraph : graph = g.modify (id :: seen).reverse (Element.withRemoved true) := by
    rw [List.reverse_cons, ← Graph.modify_withRemoved_modify, ← h.graph]
  have hmem (i : Text) : i ∈ graph.liveIds ↔ i ∈ t.graph.liveIds ∧ i ≠ id := by
    rw [Graph.mem_liveIds_modify_withRemoved, List.mem_singleton]
  refine ⟨passed.length + 1, ?_⟩
  rw [hstep]
  refine ⟨congrArg (id :: ·) h.taken, hgraph, ?_⟩
  show List.filter (· ∈ graph.liveIds) _ = List.filter (· ∈ graph.liveIds) _
  rw [List.filter_append, List.filter_append]
  congr 1
  · -- of what goes with the element, what had gone before is no longer found
    rw [hgraph, Graph.dependents_modify_withRemoved, List.filter_reverse, List.filter_reverse,
      List.filter_filter]
    refine congrArg List.reverse (List.filter_congr fun i _ => ?_)
    rw [Bool.and_eq_left_iff_imp, decide_eq_true_eq, decide_eq_true_eq]
    exact fun hi => (Graph.mem_liveIds_modify_withRemoved.1 hi).2
  · have hrefine (l : List Text) : l.filter (· ∈ graph.liveIds) =
        (l.filter (· ∈ t.graph.liveIds)).filter (· ≠ id) := by
      rw [List.filter_filter]
      refine List.filter_congr fun i _ => ?_
      simp only [hmem, Bool.decide_and, Bool.and_comm]
    rw [hrefine, hrefine, hwaiting]

/-- `Follows` is preserved to the end of the search, after some number of steps. -/
theorem Follows.run (h : Follows g stack seen t) :
    ∃ n, Follows g [] (Search.visit g.liveIds g.dependents stack seen) (step^[n] t) := by
  fun_induction Search.visit g.liveIds g.dependents stack seen generalizing t with
  | case1 seen => exact ⟨0, h⟩
  | case2 seen id stack hid ih =>
    obtain ⟨m, hm⟩ := h.visit hid
    obtain ⟨n, hn⟩ := ih hm
    exact ⟨n + m, by rw [Function.iterate_add_apply]; exact hn⟩
  | case3 seen id stack hid ih => exact ih (h.pass hid)

/-- `step` again and again ends, and what was taken out is the `cascade` of what was asked for. -/
theorem exists_finished (g : Graph) (ids : List Text) :
    ∃ n, let last := step^[n] (start g ids)
      last.waiting = [] ∧ last.taken.reverse = g.cascade ids ∧
        last.graph.elements = (g.remove ids).1.elements := by
  have hstart : Follows g (ids.filter (· ∈ g.liveIds)).reverse [] (start g ids) :=
    ⟨rfl, (Graph.modify_nil g _).symm, rfl⟩
  obtain ⟨n, htaken, hgraph, hwaiting⟩ := hstart.run
  have hpassed : ∀ id ∈ (step^[n] (start g ids)).waiting,
      id ∉ (step^[n] (start g ids)).graph.liveIds := by
    simpa using List.filter_eq_nil_iff.1 hwaiting
  have hskip := iterate_step_of_forall_notMem hpassed (List.append_nil _).symm
  refine ⟨(step^[n] (start g ids)).waiting.length + n, ?_⟩
  rw [Function.iterate_add_apply, hskip]
  refine ⟨rfl, congrArg List.reverse htaken, ?_⟩
  show (step^[n] (start g ids)).graph.elements = _
  rw [hgraph]
  simp only [Graph.remove, Graph.note_elements, Graph.touch_elements, Graph.modify_elements]
  rfl

end Takeout

namespace Graph

/-! ## The least set -/

/-- Whether a set of elements holds, with each node in it, what is in the graph at the node or in
it. -/
def TakesAlong (g : Graph) (S : Set Element) : Prop :=
  ∀ n ∈ S, n.isNode = true → ∀ e ∈ g.live, e.IsAt n ∨ e.IsIn n → e ∈ S

variable {g : Graph} {ids : List Text} {id : Text}

/-- `cascade` grows with the ids that are asked for. -/
theorem mem_cascade_of_subset {ids' : List Text} (h : ∀ id ∈ ids, id ∈ ids')
    (hid : id ∈ g.cascade ids) : id ∈ g.cascade ids' := by
  refine Search.reach_subset (S := (· ∈ g.cascade ids')) (fun i hi => ?_)
    (fun i hi j hj hlive => Search.mem_reach_of_mem_next hi hj hlive) id hid
  obtain ⟨hi, hlive⟩ := List.mem_filter.1 hi
  have hlive := of_decide_eq_true hlive
  exact Search.mem_reach_of_mem (List.mem_filter.2 ⟨h i hi, decide_eq_true hlive⟩) hlive

/-- `remove` takes the least set out that holds what was asked for and takes along what goes with
it. -/
theorem remove_isLeast (hnodup : g.ids.Nodup) (ids : List Text) :
    IsLeast {S : Set Element | (∀ e ∈ g.live, e.id ∈ ids → e ∈ S) ∧ g.TakesAlong S}
      {e | e ∈ g.live ∧ e.id ∈ (g.remove ids).2} := by
  -- what goes with a node is told by the elements, in place of their ids
  have hdependents {n e : Element} (hn : n ∈ g.live) (he : e ∈ g.live) :
      e.id ∈ g.dependents n.id ↔ n.isNode = true ∧ (e.IsAt n ∨ e.IsIn n) := by
    rw [mem_dependents hnodup (mem_live.1 hn).1, and_congr_right_iff]
    intro _
    constructor
    · rintro ⟨d, hd, hid, hwith⟩
      obtain rfl := live_eq_of_id_eq hnodup hd he hid
      exact hwith.imp Element.mem_anchors_iff_isAt.1 Element.holder?_eq_some_iff_isIn.1
    · intro hwith
      exact ⟨e, he, rfl, hwith.imp Element.mem_anchors_iff_isAt.2 Element.holder?_eq_some_iff_isIn.2⟩
  refine ⟨⟨fun e he hid => ?_, fun n hn hnode e he hwith => ?_⟩, ?_⟩
  · exact ⟨he, mem_remove.2 (mem_cascade he hid)⟩
  · have hdependent := (hdependents hn.1 he).2 ⟨hnode, hwith⟩
    exact ⟨he, mem_remove.2 (Search.mem_reach_of_mem_next (mem_remove.1 hn.2) hdependent
      (mem_liveIds he))⟩
  · rintro S ⟨hids, halong⟩ e ⟨he, hgone⟩
    -- every id that is reached is that of an element of the set
    have hreached : ∀ id ∈ g.cascade ids, ∃ d ∈ g.live, d.id = id ∧ d ∈ S := by
      refine Search.reach_subset (fun id hid => ?_) fun id hid id' hid' hlive => ?_
      · obtain ⟨hid, hlive⟩ := List.mem_filter.1 hid
        obtain ⟨d, hd, rfl⟩ := List.mem_map.1 (of_decide_eq_true hlive)
        exact ⟨d, hd, rfl, hids d hd hid⟩
      · obtain ⟨n, hn, rfl, hnS⟩ := hid
        obtain ⟨d, hd, rfl⟩ := List.mem_map.1 hlive
        obtain ⟨hnode, hwith⟩ := (hdependents hn hd).1 hid'
        exact ⟨d, hd, rfl, halong n hnS hnode d hd hwith⟩
    obtain ⟨d, hd, hid, hdS⟩ := hreached e.id (mem_remove.1 hgone)
    obtain rfl := live_eq_of_id_eq hnodup hd he hid
    exact hdS

/-- `remove` answers the ids of what was in the graph and is taken out, in the order of the graph.
-/
theorem remove_result (hnodup : g.ids.Nodup) (ids : List Text) : (g.remove ids).2 =
    ((g.remove ids).1.elements.filter fun e => e.removed && e.id ∈ g.liveIds).map (·.id) := by
  have hanswer : (g.remove ids).2 = (g.elements.filter (·.id ∈ (g.remove ids).2)).map (·.id) := by
    show g.inOrder (g.cascade ids) = _
    rw [inOrder, Graph.ids, List.filter_map]
    refine congrArg (List.map _) (List.filter_congr fun e _ => ?_)
    exact decide_eq_decide.2 mem_remove.symm
  have hsame (e : Element) : (if e.id ∈ (g.remove ids).2 then e.withRemoved true else e).id = e.id := by
    split <;> rfl
  conv => lhs; rw [hanswer]
  rw [remove_elements, Element.map_id_filter_changed (Element.withRemoved_id true)]
  -- element by element, both lists keep the same ids
  simp only [hsame]
  refine congrArg (List.map _) (List.filter_congr fun e he => ?_)
  by_cases hgone : e.id ∈ (g.remove ids).2
  · have hlive : e.id ∈ g.liveIds := mem_liveIds (mem_live.2 ⟨he, live_of_mem_remove hnodup he hgone⟩)
    simp only [hgone, hlive, if_true, decide_true, Bool.and_true, Element.withRemoved]
  · -- an element that was out before is not among those that were in the graph
    simp only [hgone, if_false, decide_false]
    symm
    rw [Bool.and_eq_false_imp]
    intro hremoved
    refine decide_eq_false fun hlive => ?_
    obtain ⟨d, hd, hid⟩ := List.mem_map.1 hlive
    obtain rfl := eq_of_id_eq hnodup (mem_live.1 hd).1 he hid
    have hdlive := (mem_live.1 hd).2
    rw [Element.live, hremoved] at hdlive
    cases hdlive

/-- `remove`, in any state of a graph and for any ids, does what taking out one by one does, which
ends. What it takes out of the graph is the least set that holds what was asked for and was in the
graph and that takes along, with a node, what was in the graph at the node or in it; no element
changes otherwise. The answer lists what was taken out, each once, in the order of the graph, and it
does not matter in which order and how often the elements are asked for. -/
theorem remove_takes_cascade (hnodup : g.ids.Nodup) (ids : List Text) :
    (∃ n, let last := Takeout.step^[n] (Takeout.start g ids)
      last.waiting = [] ∧ last.graph.elements = (g.remove ids).1.elements ∧
        g.inOrder last.taken = (g.remove ids).2) ∧
      IsLeast {S : Set Element | (∀ e ∈ g.live, e.id ∈ ids → e ∈ S) ∧ g.TakesAlong S}
        {e | e ∈ g.live ∧ e.id ∈ (g.remove ids).2} ∧
      (g.remove ids).1.elements =
        g.elements.map (fun e => if e.id ∈ (g.remove ids).2 then { e with removed := true } else e) ∧
      (g.remove ids).2 =
        ((g.remove ids).1.elements.filter fun e => e.removed && e.id ∈ g.liveIds).map (·.id) ∧
      (g.remove ids).2.Nodup ∧
      ∀ ids' : List Text, (∀ id, id ∈ ids' ↔ id ∈ ids) →
        (g.remove ids').2 = (g.remove ids).2 ∧
          (g.remove ids').1.elements = (g.remove ids).1.elements := by
  refine ⟨?_, remove_isLeast hnodup ids, remove_elements g ids, remove_result hnodup ids,
    hnodup.filter _, fun ids' hsame => ?_⟩
  · -- the worklist ends, and in store order it took what `remove` answers
    obtain ⟨n, hwaiting, htaken, helements⟩ := Takeout.exists_finished g ids
    refine ⟨n, hwaiting, helements, ?_⟩
    refine List.filter_congr fun id _ => decide_eq_decide.2 ?_
    rw [← List.mem_reverse, htaken]
  · -- the start is read only by membership, so its order and its repeats make no difference
    have hanswer : (g.remove ids').2 = (g.remove ids).2 := by
      refine List.filter_congr fun id _ => decide_eq_decide.2 ?_
      exact ⟨mem_cascade_of_subset fun i => (hsame i).1, mem_cascade_of_subset fun i => (hsame i).2⟩
    exact ⟨hanswer, by rw [remove_elements, remove_elements, hanswer]⟩

/-- Two boxes that hold each other, an edge from one of them to itself, two edges to another node,
and a node with an edge to that one, as the JSON data that `ofValue` reads. -/
def tangledPayload : Value :=
  .list [
    .object [("data", .object [("id", .text "a"), ("parent", .text "b")])],
    .object [("data", .object [("id", .text "b"), ("parent", .text "a")])],
    .object [("data", .object [("id", .text "loop"), ("source", .text "a"), ("target", .text "a")])],
    .object [("data", .object [("id", .text "first"), ("source", .text "b"), ("target", .text "c")])],
    .object [("data", .object [("id", .text "next"), ("source", .text "b"), ("target", .text "c")])],
    .object [("data", .object [("id", .text "c")])],
    .object [("data", .object [("id", .text "d")])],
    .object [("data", .object [("source", .text "d"), ("target", .text "c")])]]

/-- `remove_takes_cascade` in a tangle: with one of the boxes the other goes, and the edges at
either; what went before is not met again. -/
theorem remove_takes_cascade_tangled :
    ∃ g, ofValue tangledPayload = .ok g ∧
      let before := (g.remove ["next"]).1
      before.ids.Nodup ∧
        (before.remove ["c", "a", "c"]).2 = (["a", "b", "loop", "first", "c", "d->c"] : List Text) ∧
        (before.remove ["a", "c"]).2 = (before.remove ["c", "a", "c"]).2 ∧
        ∃ n, (Takeout.step^[n] (Takeout.start before ["c", "a", "c"])).waiting = [] := by
  have hbuilt : ∃ g, ofValue tangledPayload = .ok g ∧ (g.remove ["next"]).1.ids.Nodup ∧
      ((g.remove ["next"]).1.remove ["c", "a", "c"]).2 =
        (["a", "b", "loop", "first", "c", "d->c"] : List Text) :=
    ⟨_, rfl, by decide +kernel, by decide +kernel⟩
  obtain ⟨g, hg, hnodup, htaken⟩ := hbuilt
  obtain ⟨⟨n, hn, -⟩, -, -, -, -, hsame⟩ := remove_takes_cascade hnodup ["c", "a", "c"]
  exact ⟨g, hg, hnodup, htaken, (hsame ["a", "c"] (by simp [or_comm])).1, n, hn⟩

end Graph

end MeshLens
