import MeshLens.Proofs.Hide.ViewConsistency

/-!
# Undoing what was taken out

What was taken out is put back one by one, nodes first and edges after them, each in the order of the
graph. All nodes come back. An edge stays out when one of its ends is not in the graph by then: the end
may be missing altogether, it may have been out before, or it may be an edge that comes later. Each
edge that stays out is reported, and nothing else differs from before.

## Key results

- `Graph.Undoable`: whether the ends of what was taken out let it be put back
- `Graph.restore_remove`: what comes of taking out and putting back
- `Graph.Severed.undoable`: edges can be put back where their ends are nodes that they name
- `Graph.restore_remove_iff`: in any state, all is as before if and only if it can be put back
-/

namespace MeshLens

namespace Element

/-- `withRemoved` puts an element back that is in the graph, and so changes nothing. -/
theorem withRemoved_of_live {e : Element} (h : e.live = true) : e.withRemoved false = e := by
  have hremoved : e.removed = false := by simpa [live] using h
  rw [withRemoved, ← hremoved]

/-- `changed` to take elements out and then to put some back leaves those out that are not put back.
-/
theorem changed_changed_withRemoved {es : List Element} {taken left back : List Text}
    (hlive : ∀ e ∈ es, e.id ∈ taken → e.live = true)
    (hmem : ∀ e ∈ es, e.id ∈ left ∨ e.id ∈ back ↔ e.id ∈ taken) (hdisjoint : ∀ id ∈ left, id ∉ back) :
    changed (changed es taken (withRemoved true)) back (withRemoved false) =
      changed es left (withRemoved true) := by
  refine List.map_map.trans (List.map_congr_left fun e he => ?_)
  simp only [Function.comp_apply]
  by_cases htaken : e.id ∈ taken
  · rw [if_pos htaken, withRemoved_id]
    rcases (hmem e he).2 htaken with hleft | hback
    · rw [if_pos hleft, if_neg (hdisjoint _ hleft)]
    · rw [if_neg (fun hleft => hdisjoint _ hleft hback), if_pos hback, withRemoved_withRemoved,
        withRemoved_of_live (hlive e he htaken)]
  · have hout := mt (hmem e he).1 htaken
    rw [not_or] at hout
    rw [if_neg htaken, if_neg hout.1, if_neg hout.2]

end Element

namespace Graph

variable {g : Graph} {ids : List Text}

/-! ## What can be put back -/

/-- Whether `endsLive` can hold of an edge when its turn comes: its ends are in the graph, and not
among what is taken out with it, unless they are nodes or come before it. -/
def FindsEnds (g : Graph) (taken : List Text) (e : Element) : Prop :=
  ∀ v ∈ [e.source, e.target], ∃ n ∈ g.live, n.id = v.plain ∧
    (n.isEdge = true → n.id ∈ taken → g.ids.idxOf n.id < g.ids.idxOf e.id)

/-- `FindsEnds` can be decided. -/
instance (g : Graph) (taken : List Text) (e : Element) : Decidable (g.FindsEnds taken e) :=
  inferInstanceAs (Decidable (∀ v ∈ [e.source, e.target], _))

/-- Whether what is taken out of a graph can all be put back: the edges among it satisfy
`FindsEnds`. -/
def Undoable (g : Graph) (taken : List Text) : Prop :=
  ∀ e ∈ g.elements, e.isEdge = true → e.id ∈ taken → g.FindsEnds taken e

/-- `Undoable` can be decided. -/
instance (g : Graph) (taken : List Text) : Decidable (g.Undoable taken) :=
  inferInstanceAs (Decidable (∀ e ∈ g.elements, _))

/-- `endsLive` says that the two ends name live elements. -/
theorem endsLive_iff (hnodup : g.ids.Nodup) {e : Element} :
    g.endsLive e = true ↔ ∀ v ∈ [e.source, e.target], ∃ n ∈ g.live, n.id = v.plain := by
  rw [endsLive, List.all_eq_true]
  refine forall₂_congr fun v _ => ⟨fun h => ?_, ?_⟩
  · obtain ⟨n, hfound, hlive⟩ := (Option.any_eq_true _ _).1 h
    exact ⟨n, mem_live.2 ⟨List.mem_of_find?_eq_some hfound, hlive⟩,
      by simpa using List.find?_some hfound⟩
  · rintro ⟨n, hn, hid⟩
    rw [← hid, element?_of_mem hnodup (mem_live.1 hn).1]
    exact (mem_live.1 hn).2

/-- `remove` takes out what was in the graph. -/
theorem exists_live_of_mem_remove {id : Text} (h : id ∈ (g.remove ids).2) :
    ∃ e ∈ g.live, e.id = id :=
  List.mem_map.1 (Search.mem_space_of_mem_reach (mem_remove.1 h))

/-- `remove` takes out elements that are live, if ids are not repeated. -/
theorem live_of_mem_remove (hnodup : g.ids.Nodup) {e : Element} (he : e ∈ g.elements)
    (h : e.id ∈ (g.remove ids).2) : e.live = true := by
  obtain ⟨d, hd, hid⟩ := exists_live_of_mem_remove h
  obtain rfl := eq_of_id_eq hnodup (mem_live.1 hd).1 he hid
  exact (mem_live.1 hd).2

/-- `live` after `remove` and putting some back: what was put back, and what was not taken out. -/
theorem exists_live_modify_remove {back : List Text} {id : Text} :
    (∃ n ∈ ((g.remove ids).1.modify back (Element.withRemoved false)).live, n.id = id) ↔
      ∃ n ∈ g.elements, n.id = id ∧
        (n.id ∈ back ∨ n.id ∉ (g.remove ids).2 ∧ n.live = true) := by
  simp only [mem_live, modify_elements, remove_elements, Element.changed, List.map_map, List.mem_map,
    Function.comp_apply]
  constructor
  · rintro ⟨x, ⟨⟨n, hn, rfl⟩, hlive⟩, hid⟩
    refine ⟨n, hn, ?_⟩
    by_cases htaken : n.id ∈ (g.remove ids).2 <;> by_cases hback : n.id ∈ back <;>
      simp_all [Element.withRemoved, Element.live]
  · rintro ⟨n, hn, hid, hlive⟩
    refine ⟨_, ⟨⟨n, hn, rfl⟩, ?_⟩, ?_⟩ <;>
      by_cases htaken : n.id ∈ (g.remove ids).2 <;> by_cases hback : n.id ∈ back <;>
        simp_all [Element.withRemoved, Element.live]

/-! ## The order of putting back -/

/-- What `restore` puts back of some elements, in order: nodes before edges. -/
def returning (g : Graph) (ids : List Text) : List Element :=
  let members := g.elements.filter fun e => e.removed && e.id ∈ ids
  members.filter (·.isNode) ++ members.filter (·.isEdge)

/-- `restore` is `putBack` of what is `returning`, and one touch. -/
theorem restore_eq (g : Graph) (ids : List Text) :
    g.restore ids = ((g.putBack (g.returning ids)).1.touch, (g.putBack (g.returning ids)).2) :=
  rfl

/-- `returning` lists the elements that were taken out and are asked for, in another order. -/
theorem perm_returning (g : Graph) (ids : List Text) :
    (g.returning ids).Perm (g.elements.filter fun e => e.removed && e.id ∈ ids) := by
  have hkind : Element.isEdge = fun e => !e.isNode := by
    funext e
    rw [Bool.eq_iff_iff, Element.isEdge_iff_not_isNode, Bool.not_eq_true']
    simp
  rw [returning, hkind]
  exact List.filter_append_perm _ _

/-- `returning` repeats no id. -/
theorem nodup_returning (hnodup : g.ids.Nodup) (ids : List Text) :
    ((g.returning ids).map (·.id)).Nodup :=
  ((g.perm_returning ids).map (·.id)).nodup_iff.2 (hnodup.sublist (List.filter_sublist.map Element.id))

/-- `returning` after `remove` lists all that was taken out. -/
theorem mem_returning {x : Element} : x ∈ (g.remove ids).1.returning (g.remove ids).2 ↔
    ∃ e ∈ g.elements, e.id ∈ (g.remove ids).2 ∧ x = e.withRemoved true := by
  rw [(perm_returning _ _).mem_iff, List.mem_filter, Bool.and_eq_true, decide_eq_true_eq]
  constructor
  · rintro ⟨hx, hremoved, htaken⟩
    obtain ⟨e, he, rfl⟩ := mem_elements_remove hx
    by_cases hid : e.id ∈ (g.remove ids).2
    · exact ⟨e, he, hid, if_pos hid⟩
    · rw [if_neg hid] at htaken
      exact absurd htaken hid
  · rintro ⟨e, he, htaken, rfl⟩
    refine ⟨?_, rfl, htaken⟩
    rw [remove_elements]
    exact List.mem_map.2 ⟨e, he, if_pos htaken⟩

/-- `elements` stand in a graph in the order of their places. -/
theorem pairwise_idxOf (hnodup : g.ids.Nodup) :
    g.elements.Pairwise fun a b => g.ids.idxOf a.id < g.ids.idxOf b.id := by
  rw [List.pairwise_iff_getElem]
  intro i j hi hj hij
  have hplace (k : Nat) (hk : k < g.elements.length) : g.ids.idxOf g.elements[k].id = k := by
    have hk' : k < g.ids.length := by rwa [ids, List.length_map]
    have hget : g.ids[k] = g.elements[k].id := List.getElem_map ..
    rw [← hget]
    exact hnodup.idxOf_getElem k hk'
  rw [hplace i hi, hplace j hj]
  exact hij

/-- `returning` lists only edges after an edge, and those stand after it. -/
theorem pairwise_returning (hnodup : g.ids.Nodup) (ids : List Text) :
    (g.returning ids).Pairwise fun a b =>
      a.isEdge = true → b.isEdge = true ∧ g.ids.idxOf a.id < g.ids.idxOf b.id := by
  have hsub (p : Element → Bool) :
      ((g.elements.filter fun e => e.removed && e.id ∈ ids).filter p).Sublist g.elements :=
    List.filter_sublist.trans List.filter_sublist
  have hnode {a : Element} (ha : a ∈ (g.elements.filter fun e => e.removed && e.id ∈ ids).filter
      (·.isNode)) : ¬a.isEdge = true :=
    fun hedge => Element.isEdge_iff_not_isNode.1 hedge (List.mem_filter.1 ha).2
  rw [returning, List.pairwise_append]
  refine ⟨?_, ?_, fun a ha b _ hedge => absurd hedge (hnode ha)⟩
  · exact ((pairwise_idxOf hnodup).sublist (hsub _)).imp_of_mem fun ha _ _ hedge =>
      absurd hedge (hnode ha)
  · exact ((pairwise_idxOf hnodup).sublist (hsub _)).imp_of_mem fun _ hb hlt _ =>
      ⟨(List.mem_filter.1 hb).2, hlt⟩

section Returning

variable (hnodup : g.ids.Nodup) {before after : List Element} {e : Element}
  (hsplit : (g.remove ids).1.returning (g.remove ids).2 = before ++ e.withRemoved true :: after)
  (hedge : e.isEdge = true)

include hnodup hsplit hedge

/-- `returning` lists before an edge all nodes, and the edges that stand before it. -/
theorem mem_before_iff {n : Element} (hn : n ∈ g.elements) : n.id ∈ before.map (·.id) ↔
    n.id ∈ (g.remove ids).2 ∧ (n.isEdge = true → g.ids.idxOf n.id < g.ids.idxOf e.id) := by
  have hids := ids_remove g ids
  have hplaces := pairwise_returning (hids ▸ hnodup) (g.remove ids).2
  rw [hsplit, List.pairwise_append, List.pairwise_cons, hids] at hplaces
  obtain ⟨-, ⟨hafter, -⟩, hbefore⟩ := hplaces
  constructor
  · intro hmem
    obtain ⟨y, hy, hyid⟩ := List.mem_map.1 hmem
    obtain ⟨m, hm, htaken, rfl⟩ := mem_returning.1 (hsplit ▸ List.mem_append_left _ hy)
    obtain rfl : m = n := eq_of_id_eq hnodup hm hn hyid
    exact ⟨htaken, fun hnedge => (hbefore _ hy _ List.mem_cons_self hnedge).2⟩
  · rintro ⟨htaken, hearlier⟩
    have hmem : n.withRemoved true ∈ before ++ e.withRemoved true :: after :=
      hsplit ▸ mem_returning.2 ⟨n, hn, htaken, rfl⟩
    rcases List.mem_append.1 hmem with hmem | hmem
    · exact List.mem_map.2 ⟨_, hmem, rfl⟩
    -- neither the edge itself nor what comes after it stands before it
    rcases List.mem_cons.1 hmem with hsame | hmem
    · have hid : n.id = e.id := (congrArg Element.id hsame : (n.withRemoved true).id = _)
      have hnedge : n.isEdge = true :=
        (congrArg Element.isEdge hsame : (n.withRemoved true).isEdge = _).trans hedge
      exact absurd (hearlier hnedge) (hid ▸ Nat.lt_irrefl _)
    · obtain ⟨hnedge, hlt⟩ := hafter _ hmem hedge
      exact absurd (hearlier hnedge) (Nat.lt_asymm hlt)

/-- `endsLive` holds of an edge when its turn comes just when it `FindsEnds`. -/
theorem endsLive_before_iff :
    ((g.remove ids).1.modify (before.map (·.id)) (Element.withRemoved false)).endsLive
        (e.withRemoved true) = true ↔ g.FindsEnds (g.remove ids).2 e := by
  have hnodup' : ((g.remove ids).1.modify (before.map (·.id)) (Element.withRemoved false)).ids.Nodup := by
    have hids : ((g.remove ids).1.modify (before.map (·.id)) (Element.withRemoved false)).ids = g.ids :=
      (Element.map_id_changed (Element.withRemoved_id false)).trans (ids_remove g ids)
    rwa [hids]
  rw [endsLive_iff hnodup']
  refine forall₂_congr fun v _ => exists_live_modify_remove.trans (exists_congr fun n => ?_)
  rw [mem_live, and_assoc, and_congr_right_iff]
  intro hn
  have hmem := mem_before_iff hnodup hsplit hedge hn
  have hlive : n.id ∈ (g.remove ids).2 → n.live = true := live_of_mem_remove hnodup hn
  rw [hmem]
  -- cases: the element at this end is taken out as well, or it stays
  by_cases htaken : n.id ∈ (g.remove ids).2
  · simp only [htaken, hlive htaken, true_and, not_true_eq_false, false_and, or_false, true_implies]
  · simp only [htaken, false_and, not_false_eq_true, true_and, false_or, false_implies, implies_true,
      and_comm]

end Returning

/-- `putBack` puts back all that was taken out just when it is `Undoable`. -/
theorem putBack_returning_iff (hnodup : g.ids.Nodup) (ids : List Text) :
    ((g.remove ids).1.putBack ((g.remove ids).1.returning (g.remove ids).2)).2 =
        ((g.remove ids).1.returning (g.remove ids).2).map (·.id) ↔
      g.Undoable (g.remove ids).2 := by
  rw [putBack_all_iff]
  constructor
  · intro hall e he hedge htaken
    obtain ⟨before, after, hsplit⟩ := List.append_of_mem (mem_returning.2 ⟨e, he, htaken, rfl⟩)
    exact (endsLive_before_iff hnodup hsplit hedge).1 (hall before _ after hsplit hedge)
  · intro hundoable before x after hsplit hedge
    obtain ⟨e, he, htaken, rfl⟩ := mem_returning.1 (hsplit ▸ List.mem_append_right _ List.mem_cons_self)
    exact (endsLive_before_iff hnodup hsplit hedge).2 (hundoable e he hedge htaken)

/-! ## Taking out and putting back -/

/-- `restore` after `remove`: all is as before, except for edges that cannot be put back. These are
reported. -/
theorem restore_remove (hnodup : g.ids.Nodup) (ids : List Text) : ∃ left : List Text,
    ((g.remove ids).1.restore (g.remove ids).2).1.notices =
        (g.remove ids).1.notices ++ left.map .endMissing ∧
      ((g.remove ids).1.restore (g.remove ids).2).1.elements =
        Element.changed g.elements left (Element.withRemoved true) ∧
      (∀ id ∈ left, ∃ e ∈ g.live, e.isEdge = true ∧ e.id = id) ∧
      (left = [] ↔ g.Undoable (g.remove ids).2) := by
  let taken := (g.remove ids).2
  let back := (g.remove ids).1.returning taken
  obtain ⟨left, hnotices, hperm, helements, hedges⟩ := (g.remove ids).1.putBack_spec back
  -- what was taken out either stays out or comes back, and nothing does both
  have hmem {e : Element} (he : e ∈ g.elements) :
      e.id ∈ left ∨ e.id ∈ ((g.remove ids).1.putBack back).2 ↔ e.id ∈ taken := by
    rw [← List.mem_append, hperm.mem_iff, List.mem_map]
    constructor
    · rintro ⟨x, hx, hid⟩
      obtain ⟨d, -, htaken, rfl⟩ := mem_returning.1 hx
      exact hid ▸ htaken
    · exact fun htaken => ⟨_, mem_returning.2 ⟨e, he, htaken, rfl⟩, rfl⟩
  have hdisjoint : ∀ id ∈ left, id ∉ ((g.remove ids).1.putBack back).2 := by
    have hback := nodup_returning ((ids_remove g ids).symm ▸ hnodup) taken
    exact fun id hleft hput => (List.nodup_append.1 (hperm.nodup_iff.2 hback)).2.2 id hleft id hput rfl
  refine ⟨left, ?_, ?_, fun id hid => ?_, ?_⟩
  · rw [restore_eq, ← hnotices]
    simp only [touch]
    split <;> rfl
  · rw [restore_eq, touch_elements, helements, remove_elements]
    exact Element.changed_changed_withRemoved (fun e he => live_of_mem_remove hnodup he)
      (fun e he => hmem he) hdisjoint
  · obtain ⟨x, hx, hedge, rfl⟩ := hedges id hid
    obtain ⟨e, he, htaken, rfl⟩ := mem_returning.1 hx
    exact ⟨e, mem_live.2 ⟨he, live_of_mem_remove hnodup he htaken⟩, hedge, rfl⟩
  · rw [← putBack_returning_iff hnodup]
    have hlength := hperm.length_eq
    rw [List.length_append] at hlength
    -- nothing stays out just when as many come back as went
    constructor
    · rintro rfl
      exact (putBack_sublist _ back).eq_of_length (by simpa using hlength)
    · intro hall
      have hback : ((g.remove ids).1.putBack back).2 = back.map (·.id) := hall
      rw [hback] at hlength
      exact List.eq_nil_of_length_eq_zero (by omega)

/-! ## In any state -/

/-- Takes one set of elements out after the other, by `remove`. -/
def removeAll (g : Graph) (sets : List (List Text)) : Graph :=
  sets.foldl (fun g ids => (g.remove ids).1) g

/-- `bare` elements stay the same in `removeAll`. -/
theorem bare_removeAll (g : Graph) (sets : List (List Text)) : (g.removeAll sets).bare = g.bare := by
  induction sets generalizing g with
  | nil => rfl
  | cons ids sets ih => exact (ih _).trans (bare_remove g ids)

/-- `Severed` is preserved by `removeAll`: edges stay severed, however much is taken out. -/
theorem Severed.removeAll {g : Graph} (hnodup : g.ids.Nodup) (h : g.Severed) (sets : List (List Text)) :
    (g.removeAll sets).Severed := by
  induction sets generalizing g with
  | nil => exact h
  | cons ids sets ih => exact ih ((ids_remove g ids).symm ▸ hnodup) (h.remove hnodup ids)

/-- Whether each edge names, as texts, two nodes among some elements. -/
def Tied (es : List Element) : Prop :=
  ∀ e ∈ es, e.isEdge = true → ∀ v ∈ [e.source, e.target],
    ∃ n ∈ es, n.isNode = true ∧ text? v = some n.id

/-- `Tied` depends on the `bare` elements only. -/
theorem Tied.of_bare {es es' : List Element} (h : Tied es)
    (hbare : es'.map Element.bare = es.map Element.bare) : Tied es' := by
  intro x hx hedge v hv
  obtain ⟨e, he, hsame⟩ := Element.exists_bare_eq hbare hx
  have hsource : e.source = x.source := (congrArg Element.source hsame : e.bare.source = x.bare.source)
  have htarget : e.target = x.target := (congrArg Element.target hsame : e.bare.target = x.bare.target)
  rw [← hsource, ← htarget] at hv
  obtain ⟨n, hn, hnode, hid⟩ := h e he ((congrArg Element.isEdge hsame).trans hedge) v hv
  obtain ⟨y, hy, hsame'⟩ := Element.exists_bare_eq hbare.symm hn
  have hyid : y.id = n.id := (congrArg Element.id hsame' : y.bare.id = n.bare.id)
  exact ⟨y, hy, (congrArg Element.isNode hsame').trans hnode, by rw [hid, hyid]⟩

/-- `Severed` edges that are tied to nodes can all be put back: an edge that is in the graph has
both its nodes there. -/
theorem Severed.undoable (hsevered : g.Severed) (hnodup : g.ids.Nodup) (htied : Tied g.elements)
    (ids : List Text) : g.Undoable (g.remove ids).2 := by
  intro e he hedge htaken v hv
  obtain ⟨n, hn, hnode, hid⟩ := htied e he hedge v hv
  have hat : e.EndsAt n := by
    -- a node is at an edge from either side
    simp only [List.mem_cons, List.not_mem_nil, or_false] at hv
    rcases hv with rfl | rfl
    · exact ⟨hedge, .inl hid⟩
    · exact ⟨hedge, .inr hid⟩
  have helive := mem_live.2 ⟨he, live_of_mem_remove hnodup he htaken⟩
  refine ⟨n, mem_live.2 ⟨hn, hsevered e helive n hn hnode hat.mem_anchors⟩, ?_, fun hnedge => ?_⟩
  · rw [Element.text?_eq_some_iff.1 hid, Value.plain]
  · exact absurd hnode (Element.isEdge_iff_not_isNode.1 hnedge)

/-- `restore` after `remove` leaves all as before, and reports nothing, if and only if the edges
that went find their ends; this in any state that is reached by taking elements out of a new graph.
What does not come back are edges, each of which is reported. -/
theorem restore_remove_iff {payload : Value} {g : Graph} (hbuilt : ofValue payload = .ok g)
    (earlier : List (List Text)) (ids : List Text) :
    let before := g.removeAll earlier
    let removal := before.remove ids
    let undone := (removal.1.restore removal.2).1
    (undone.elements = before.elements ↔ before.Undoable removal.2) ∧
      (undone.notices = removal.1.notices ↔ before.Undoable removal.2) ∧
      (∃ left : List Text, undone.notices = removal.1.notices ++ left.map .endMissing ∧
        undone.elements = Element.changed before.elements left (Element.withRemoved true) ∧
        ∀ id ∈ left, ∃ e ∈ before.live, e.isEdge = true ∧ e.id = id) ∧
      (Tied g.elements → before.Undoable removal.2) := by
  intro before removal undone
  have hg := ofValue_untouched hbuilt
  have hbare : before.bare = g.bare := g.bare_removeAll earlier
  have hnodup : before.ids.Nodup := (ids_of_bare hbare).symm ▸ hg.nodup
  obtain ⟨left, hnotices, helements, hedges, hleft⟩ := restore_remove hnodup ids
  refine ⟨?_, ?_, ⟨left, hnotices, helements, hedges⟩, fun htied => ?_⟩
  · rw [← hleft]
    constructor
    · intro hsame
      refine List.eq_nil_iff_forall_not_mem.2 fun id hid => ?_
      -- an edge that stays out was in the graph before
      obtain ⟨e, he, -, rfl⟩ := hedges id hid
      obtain ⟨he, hlive⟩ := mem_live.1 he
      have hout : e.withRemoved true ∈ before.elements := by
        rw [← hsame, helements]
        exact List.mem_map.2 ⟨e, he, if_pos hid⟩
      rw [← eq_of_id_eq hnodup hout he rfl] at hlive
      cases hlive
    · rintro rfl
      exact helements.trans Element.changed_nil
  · rw [← hleft]
    show undone.notices = _ ↔ _
    rw [hnotices, List.append_right_eq_self, List.map_eq_nil_iff]
  · exact (hg.severed.removeAll hg.nodup earlier).undoable hnodup (htied.of_bare hbare) ids

/-- A box with a node in it that is joined to another node, and a third node, as the JSON data that
`ofValue` reads. -/
def joinedPayload : Value :=
  .list [
    .object [("data", .object [("id", .text "box"), ("isBox", .bool true)])],
    .object [("data", .object [("id", .text "a"), ("parent", .text "box")])],
    .object [("data", .object [("source", .text "a"), ("target", .text "b")])],
    .object [("data", .object [("id", .text "b")])],
    .object [("data", .object [("id", .text "c")])]]

/-- `restore_remove_iff` where taking the box out takes the node in it and the edge along, and all
of it comes back. -/
theorem restore_remove_iff_joined :
    ∃ g, ofValue joinedPayload = .ok g ∧ Tied g.elements ∧
      let before := g.removeAll [["c"]]
      let removal := before.remove ["box"]
      let undone := (removal.1.restore removal.2).1
      removal.2 = (["box", "a", "a->b"] : List Text) ∧ undone.elements = before.elements ∧
        undone.notices = removal.1.notices := by
  have hbuilt : ∃ g, ofValue joinedPayload = .ok g ∧
      (∀ e ∈ g.elements, e.isEdge = true → ∀ v ∈ [e.source, e.target],
        ∃ n ∈ g.elements, n.isNode = true ∧ text? v = some n.id) ∧
      ((g.removeAll [["c"]]).remove ["box"]).2 = (["box", "a", "a->b"] : List Text) :=
    ⟨_, rfl, by decide +kernel, by decide +kernel⟩
  obtain ⟨g, hg, htied, htaken⟩ := hbuilt
  obtain ⟨helements, hnotices, -, hundoable⟩ := restore_remove_iff hg [["c"]] ["box"]
  exact ⟨g, hg, htied, htaken, helements.2 (hundoable htied), hnotices.2 (hundoable htied)⟩

/-- A node, and an edge from it to one that is not there, as the JSON data that `ofValue` reads. -/
def danglingPayload : Value :=
  .list [
    .object [("data", .object [("id", .text "a")])],
    .object [("data", .object [("source", .text "a"), ("target", .text "b")])]]

/-- `restore` does not undo `remove` of an edge to a node that is not there: the edge was in the
graph, stays out, and this is reported. -/
theorem restore_remove_dangling :
    ∃ g, ofValue danglingPayload = .ok g ∧
      let removal := g.remove ["a->b"]
      let undone := (removal.1.restore removal.2).1
      g.elements.map (·.removed) = [false, false] ∧ undone.elements.map (·.removed) = [false, true] ∧
        undone.notices = removal.1.notices ++ [.endMissing "a->b"] :=
  ⟨_, rfl, by decide +kernel, by decide +kernel, by decide +kernel⟩

end Graph

end MeshLens
