import MeshLens.Graph.Removal
import MeshLens.Hide.Closure

/-!
# Changes to the elements of a graph

Whatever is done to a graph after it was built changes elements of some ids in one way, and does the
bookkeeping of drawing besides. These lemmas say what each operation does to the elements, so that
no later proof has to look at the bookkeeping.

## Key results

- `Element.changed_changed_self`, `Element.changed_undo`: a change made twice, and a change undone
- `Graph.setVisible_elements`, `Graph.remove_elements`: what hiding and taking out change
- `Graph.putBack_spec`, `Graph.putBack_all_iff`: what is put back of some elements, and when all of it is
- `Graph.restore_elements`: putting back changes what is asked for, when no end of an edge is missing
-/

namespace MeshLens

namespace Element

/-- `isEdge` and `isNode` exclude each other, and one of them holds. -/
theorem isEdge_iff_not_isNode {e : Element} : e.isEdge = true ↔ ¬e.isNode = true := by
  cases hkind : e.kind <;> simp [isEdge, isNode, hkind]

/-- An `Element` that is shown or hidden. -/
def withVisible (visible : Bool) (e : Element) : Element :=
  { e with visible }

/-- An `Element` that is taken out or put back. -/
def withRemoved (removed : Bool) (e : Element) : Element :=
  { e with removed }

/-- `withVisible` keeps the id. -/
@[simp] theorem withVisible_id (visible : Bool) (e : Element) :
    (e.withVisible visible).id = e.id :=
  rfl

/-- `withRemoved` keeps the id. -/
@[simp] theorem withRemoved_id (removed : Bool) (e : Element) :
    (e.withRemoved removed).id = e.id :=
  rfl

/-- `withVisible` twice is the last one. -/
@[simp] theorem withVisible_withVisible (v w : Bool) (e : Element) :
    (e.withVisible v).withVisible w = e.withVisible w :=
  rfl

/-- `withRemoved` twice is the last one. -/
@[simp] theorem withRemoved_withRemoved (r s : Bool) (e : Element) :
    (e.withRemoved r).withRemoved s = e.withRemoved s :=
  rfl

/-- Elements of which those of some ids are changed, as `Graph.modify` changes them. -/
def changed (es : List Element) (ids : List Text) (change : Element → Element) : List Element :=
  es.map fun e => if e.id ∈ ids then change e else e

variable {es : List Element} {ids xs ys : List Text} {change undo : Element → Element}

/-- `changed` for no id changes nothing. -/
@[simp] theorem changed_nil : changed es [] change = es := by
  simp [changed]

/-- `changed` depends on the ids only where the change makes a difference. -/
theorem changed_congr (h : ∀ e ∈ es, change e = e ∨ (e.id ∈ xs ↔ e.id ∈ ys)) :
    changed es xs change = changed es ys change := by
  refine List.map_congr_left fun e he => ?_
  rcases h e he with hsame | hiff
  · rw [hsame, ite_self, ite_self]
  · by_cases hid : e.id ∈ xs
    · rw [if_pos hid, if_pos (hiff.1 hid)]
    · rw [if_neg hid, if_neg (fun hy => hid (hiff.2 hy))]

/-- `changed` keeps of all elements what the change keeps of each. -/
theorem map_changed {β : Type} {f : Element → β} (h : ∀ e, f (change e) = f e) :
    (changed es ids change).map f = es.map f := by
  rw [changed, List.map_map]
  refine List.map_congr_left fun e _ => ?_
  show f (if e.id ∈ ids then change e else e) = f e
  split
  · exact h e
  · rfl

/-- `changed` keeps the row of ids, if the change keeps ids. -/
theorem map_id_changed (hid : ∀ e, (change e).id = e.id) :
    (changed es ids change).map (·.id) = es.map (·.id) :=
  map_changed hid

/-- `changed` and then filtered: the ids of what passes a test are told by what becomes of each
element. -/
theorem map_id_filter_changed (hid : ∀ e, (change e).id = e.id) (p : Element → Bool) :
    ((changed es ids change).filter p).map (·.id) =
      (es.filter fun e => p (if e.id ∈ ids then change e else e)).map (·.id) := by
  rw [changed, List.filter_map, List.map_map]
  refine List.map_congr_left fun e _ => ?_
  show (if e.id ∈ ids then change e else e).id = e.id
  split
  · exact hid e
  · rfl

/-- `changed` for some ids and then for others is one change for all of them. -/
theorem changed_changed_self (htwice : ∀ e, change (change e) = change e) :
    changed (changed es xs change) ys change = changed es (xs ++ ys) change := by
  rw [changed, changed, changed, List.map_map]
  refine List.map_congr_left fun e _ => ?_
  simp only [Function.comp_apply, List.mem_append]
  -- what is among the first is changed at once, and perhaps once more
  by_cases hx : e.id ∈ xs
  · have hboth : e.id ∈ xs ∨ e.id ∈ ys := .inl hx
    rw [if_pos hx, if_pos hboth]
    split
    · exact htwice e
    · rfl
  · rw [if_neg hx]
    by_cases hy : e.id ∈ ys
    · have hboth : e.id ∈ xs ∨ e.id ∈ ys := .inr hy
      rw [if_pos hy, if_pos hboth]
    · rw [if_neg hy, if_neg (by simp [hx, hy])]

/-- `changed` is undone by what takes every changed element back. -/
theorem changed_undo (hid : ∀ e, (change e).id = e.id) (hundo : ∀ e ∈ es, undo (change e) = e) :
    changed (changed es ids change) ids undo = es := by
  rw [changed, changed, List.map_map]
  conv => rhs; rw [← List.map_id es]
  refine List.map_congr_left fun e he => ?_
  simp only [Function.comp_apply, id_eq]
  by_cases h : e.id ∈ ids
  · have hchange : (change e).id ∈ ids := by rw [hid]; exact h
    rw [if_pos h, if_pos hchange]
    exact hundo e he
  · rw [if_neg h, if_neg h]

end Element

namespace Graph

/-! ## Bookkeeping -/

/-- `modify` changes the elements as `Element.changed` says. -/
@[simp] theorem modify_elements (g : Graph) (ids : List Text) (change : Element → Element) :
    (g.modify ids change).elements = Element.changed g.elements ids change :=
  rfl

/-- `note` leaves the elements alone. -/
@[simp] theorem note_elements (g : Graph) (notice : Notice) :
    (g.note notice).elements = g.elements :=
  rfl

/-- `emit` leaves the elements alone. -/
@[simp] theorem emit_elements (g : Graph) (event : Text) (args : List Value) :
    (g.emit event args).elements = g.elements :=
  rfl

/-- `runLayout` leaves the elements alone. -/
@[simp] theorem runLayout_elements (g : Graph) (name : Text) :
    (g.runLayout name).elements = g.elements :=
  rfl

/-- `startBatch` leaves the elements alone. -/
@[simp] theorem startBatch_elements (g : Graph) : g.startBatch.elements = g.elements :=
  rfl

attribute [simp] touch_elements

/-- `batch` of a step does to the elements what the step does by itself. -/
theorem batch_elements {α : Type} (g : Graph) (step : Graph → Graph × α) :
    (g.batch step).1.elements = (step g.startBatch).1.elements := by
  simp only [batch, endBatch?]
  split
  · rfl
  · simp only [Option.getD_some]
    split <;> rfl

/-- `batch` of a step has the result of the step. -/
theorem batch_result {α : Type} (g : Graph) (step : Graph → Graph × α) :
    (g.batch step).2 = (step g.startBatch).2 :=
  rfl

/-! ## Visibility and taking out -/

/-- `setVisible` sets the one flag of the elements of the given ids. -/
@[simp] theorem setVisible_elements (g : Graph) (ids : List Text) (visible : Bool) :
    (g.setVisible ids visible).elements =
      Element.changed g.elements ids (Element.withVisible visible) := by
  rw [setVisible, touch_elements, modify_elements]
  rfl

/-- `inOrder` lists the given ids that are in the graph. -/
theorem mem_inOrder {g : Graph} {ids : List Text} {id : Text} :
    id ∈ g.inOrder ids ↔ id ∈ g.ids ∧ id ∈ ids := by
  simp [inOrder]

/-- `remove` marks just the elements as taken out whose ids it answers. -/
theorem remove_elements (g : Graph) (ids : List Text) :
    (g.remove ids).1.elements =
      Element.changed g.elements (g.remove ids).2 (Element.withRemoved true) := by
  simp only [remove, note_elements, touch_elements, modify_elements]
  refine Element.changed_congr fun e he => .inr ?_
  have hmem : e.id ∈ g.ids := List.mem_map_of_mem he
  rw [mem_inOrder]
  simp [hmem]

/-! ## Putting back -/

/-- `putBack` of two lists is `putBack` of the one and then of the other. -/
theorem putBack_append (g : Graph) (xs ys : List Element) :
    (g.putBack (xs ++ ys)).1 = ((g.putBack xs).1.putBack ys).1 := by
  induction xs generalizing g with
  | nil => rfl
  | cons x xs ih =>
    simp only [List.cons_append, putBack]
    split
    · exact ih _
    · exact ih _

/-- `ids` has no repetition after a change that keeps ids. -/
theorem nodup_of_changed {g : Graph} {es : List Element} {ids : List Text}
    {change : Element → Element} (hid : ∀ e, (change e).id = e.id) (hnodup : (es.map (·.id)).Nodup)
    (h : g.elements = Element.changed es ids change) : g.ids.Nodup := by
  rw [Graph.ids, h, Element.map_id_changed hid]
  exact hnodup

/-- `element?` finds the element of an id. -/
theorem element?_of_mem {g : Graph} (hnodup : g.ids.Nodup) {e : Element} (he : e ∈ g.elements) :
    g.element? e.id = some e := by
  unfold element?
  unfold ids at hnodup
  -- by induction on the row: an element before it has another id
  generalize g.elements = es at hnodup he
  induction es with
  | nil => cases he
  | cons d es ih =>
    rw [List.map_cons, List.nodup_cons] at hnodup
    rcases List.mem_cons.1 he with rfl | he
    · simp
    · have hne : ¬d.id = e.id := fun h => hnodup.1 (h ▸ List.mem_map_of_mem he)
      rw [List.find?_cons_of_neg (by simpa using hne)]
      exact ih hnodup.2 he

/-- `ids` without repetition: an element is known by its id. -/
theorem eq_of_id_eq {g : Graph} (hnodup : g.ids.Nodup) {d e : Element} (hd : d ∈ g.elements)
    (he : e ∈ g.elements) (h : d.id = e.id) : d = e := by
  have hfound := element?_of_mem hnodup hd
  rw [h, element?_of_mem hnodup he] at hfound
  exact (Option.some.inj hfound).symm

/-- `live` elements are known by their ids. -/
theorem live_eq_of_id_eq {g : Graph} (hnodup : g.ids.Nodup) {d e : Element} (hd : d ∈ g.live)
    (he : e ∈ g.live) (h : d.id = e.id) : d = e :=
  eq_of_id_eq hnodup (mem_live.1 hd).1 (mem_live.1 he).1 h

/-- `element?` after `modify` finds what the change makes of the element found before. -/
theorem element?_modify (g : Graph) (ids : List Text) {change : Element → Element}
    (hid : ∀ e, (change e).id = e.id) (id : Text) :
    (g.modify ids change).element? id =
      (g.element? id).map fun e => if e.id ∈ ids then change e else e := by
  have hsame : ∀ e : Element, (if e.id ∈ ids then change e else e).id = e.id := by
    intro e
    split
    · exact hid e
    · rfl
  rw [element?, element?, modify, List.find?_map]
  simp only [Function.comp_def, hsame]

/-- `endsLive` still holds of an edge after elements are put back. -/
theorem endsLive_modify {g : Graph} {e : Element} (ids : List Text) (h : g.endsLive e = true) :
    (g.modify ids (Element.withRemoved false)).endsLive e = true := by
  simp only [endsLive, List.all_eq_true] at h ⊢
  intro v hv
  have hlive := h v hv
  rw [element?_modify g ids (Element.withRemoved_id false)]
  -- the end that was found is found again, and putting back does not take it out
  cases hfound : g.element? v.plain with
  | none => rw [hfound] at hlive; cases hlive
  | some n =>
    rw [hfound] at hlive
    simp only [Option.map_some, Option.any_some] at hlive ⊢
    split
    · rfl
    · exact hlive

/-- `putBack` of a list whose first element is a node, or an edge with its ends in the graph: it is
put back. -/
theorem putBack_cons_of_endsLive {g : Graph} {e : Element} {es : List Element}
    (h : e.isEdge = true → g.endsLive e = true) :
    g.putBack (e :: es) =
      (((g.modify [e.id] (Element.withRemoved false)).putBack es).1,
        e.id :: ((g.modify [e.id] (Element.withRemoved false)).putBack es).2) := by
  have hgo : (e.isEdge && !g.endsLive e) = false := by
    cases hedge : e.isEdge with
    | false => rfl
    | true => simp [h hedge]
  simp only [putBack, hgo, Bool.false_eq_true, if_false]
  rfl

/-- `putBack` of a list whose first element is an edge without its ends: it is reported and stays
out. -/
theorem putBack_cons_of_not_endsLive {g : Graph} {e : Element}
    (h : ¬(e.isEdge = true → g.endsLive e = true)) (es : List Element) :
    e.isEdge = true ∧ g.putBack (e :: es) = (g.note (.endMissing e.id)).putBack es := by
  have hstay : e.isEdge = true ∧ g.endsLive e = false := by simpa using h
  refine ⟨hstay.1, ?_⟩
  simp only [putBack, hstay, Bool.not_false, Bool.and_self, if_true]

/-- `putBack` answers some of the ids that it is given, in their order. -/
theorem putBack_sublist (g : Graph) (es : List Element) :
    (g.putBack es).2.Sublist (es.map (·.id)) := by
  induction es generalizing g with
  | nil => exact .slnil
  | cons e es ih =>
    by_cases hends : e.isEdge = true → g.endsLive e = true
    · rw [putBack_cons_of_endsLive hends]
      exact (ih _).cons_cons e.id
    · rw [(putBack_cons_of_not_endsLive hends es).2]
      exact (ih _).cons e.id

/-- `putBack` leaves edges out only. Each of them is reported, and all others are in the graph
again. -/
theorem putBack_spec (g : Graph) (es : List Element) : ∃ left : List Text,
    (g.putBack es).1.notices = g.notices ++ left.map .endMissing ∧
      (left ++ (g.putBack es).2).Perm (es.map (·.id)) ∧
      (g.putBack es).1.elements =
        Element.changed g.elements (g.putBack es).2 (Element.withRemoved false) ∧
      ∀ id ∈ left, ∃ e ∈ es, e.isEdge = true ∧ e.id = id := by
  -- induction on the elements, as in `putBack`
  induction es generalizing g with
  | nil => exact ⟨[], (List.append_nil _).symm, .nil, Element.changed_nil.symm, List.forall_mem_nil _⟩
  | cons e es ih =>
    have htail {left : List Text} (hedges : ∀ id ∈ left, ∃ d ∈ es, d.isEdge = true ∧ d.id = id) :
        ∀ id ∈ left, ∃ d ∈ e :: es, d.isEdge = true ∧ d.id = id :=
      fun id hid => (hedges id hid).imp fun d hd => ⟨List.mem_cons_of_mem _ hd.1, hd.2⟩
    by_cases hends : e.isEdge = true → g.endsLive e = true
    · obtain ⟨left, hnotices, hperm, helements, hedges⟩ :=
        ih (g.modify [e.id] (Element.withRemoved false))
      rw [putBack_cons_of_endsLive hends]
      refine ⟨left, hnotices, List.perm_middle.trans (hperm.cons e.id), ?_, htail hedges⟩
      rw [helements, modify_elements,
        Element.changed_changed_self (Element.withRemoved_withRemoved false false)]
      rfl
    · obtain ⟨left, hnotices, hperm, helements, hedges⟩ := ih (g.note (.endMissing e.id))
      obtain ⟨hedge, hstay⟩ := putBack_cons_of_not_endsLive hends es
      rw [hstay]
      refine ⟨e.id :: left, ?_, hperm.cons e.id, helements,
        List.forall_mem_cons.2 ⟨⟨e, List.mem_cons_self, hedge, rfl⟩, htail hedges⟩⟩
      rw [hnotices, note, List.map_cons, List.append_assoc]
      rfl

/-- `modify` for no id changes nothing. -/
theorem modify_nil (g : Graph) (change : Element → Element) : g.modify [] change = g := by
  simp [modify]

/-- `modify` of the one flag for some ids and then for others is one change for all of them. -/
theorem modify_withRemoved_modify (g : Graph) (xs ys : List Text) (removed : Bool) :
    (g.modify xs (Element.withRemoved removed)).modify ys (Element.withRemoved removed) =
      g.modify (xs ++ ys) (Element.withRemoved removed) :=
  congrArg (fun es => { g with elements := es })
    (Element.changed_changed_self (Element.withRemoved_withRemoved removed removed))

/-- `putBack` puts everything back just when each edge finds its ends once what comes before it is
back. -/
theorem putBack_all_iff {g : Graph} {es : List Element} :
    (g.putBack es).2 = es.map (·.id) ↔ ∀ before e after, es = before ++ e :: after → e.isEdge = true →
      (g.modify (before.map (·.id)) (Element.withRemoved false)).endsLive e = true := by
  -- induction on the elements; the graph changes with each that is put back
  induction es generalizing g with
  | nil => simp [putBack]
  | cons e es ih =>
    by_cases hends : e.isEdge = true → g.endsLive e = true
    · rw [putBack_cons_of_endsLive hends, List.map_cons, List.cons.injEq]
      refine (and_iff_right rfl).trans (ih.trans ⟨fun hall before d after hsplit hedge => ?_,
        fun hall before d after hsplit hedge => ?_⟩)
      · cases before with
        | nil =>
          obtain ⟨rfl, rfl⟩ := List.cons.inj hsplit
          rw [List.map_nil, modify_nil]
          exact hends hedge
        | cons c before =>
          obtain ⟨rfl, rfl⟩ := List.cons.inj hsplit
          have hlive := hall before d after rfl hedge
          rwa [modify_withRemoved_modify] at hlive
      · rw [modify_withRemoved_modify]
        exact hall (e :: before) d after (congrArg (e :: ·) hsplit) hedge
    · obtain ⟨hedge, hstay⟩ := putBack_cons_of_not_endsLive hends es
      refine iff_of_false (fun hall => ?_) fun hall => hends fun _ => ?_
      · -- what is put back is fewer than there are
        have hlength := (putBack_sublist (g.note (.endMissing e.id)) es).length_le
        rw [← hstay, hall, List.map_cons, List.length_cons] at hlength
        exact absurd hlength (Nat.not_succ_le_self _)
      · have hlive := hall [] e es rfl hedge
        rwa [List.map_nil, modify_nil] at hlive

/-- `putBack` puts all elements back when the ends of edges among them are in the graph. -/
theorem putBack_elements {g : Graph} {es : List Element}
    (h : ∀ e ∈ es, e.isEdge = true → g.endsLive e = true) :
    (g.putBack es).1.elements =
      Element.changed g.elements (es.map (·.id)) (Element.withRemoved false) := by
  have hall : (g.putBack es).2 = es.map (·.id) := by
    refine putBack_all_iff.2 fun before e after hsplit hedge => endsLive_modify _ (h e ?_ hedge)
    rw [hsplit]
    exact List.mem_append_right _ List.mem_cons_self
  obtain ⟨-, -, -, helements, -⟩ := g.putBack_spec es
  rw [helements, hall]

/-- Whether the ends of every edge are nodes among some elements. -/
def Joined (es : List Element) : Prop :=
  ∀ e ∈ es, e.isEdge = true → ∀ v ∈ [e.source, e.target],
    ∃ n ∈ es, n.isNode = true ∧ n.id = v.plain

/-- `Joined` is preserved when elements are taken out or put back. -/
theorem Joined.changed {es : List Element} (h : Joined es) (ids : List Text) (removed : Bool) :
    Joined (Element.changed es ids (Element.withRemoved removed)) := by
  intro e he hedge v hv
  obtain ⟨d, hd, rfl⟩ := List.mem_map.1 he
  -- what an element is, and where an edge ends, stays as it was
  have hsame : ∀ x : Element, (if x.id ∈ ids then x.withRemoved removed else x).id = x.id ∧
      (if x.id ∈ ids then x.withRemoved removed else x).kind = x.kind ∧
      (if x.id ∈ ids then x.withRemoved removed else x).data = x.data := by
    intro x
    split
    · exact ⟨rfl, rfl, rfl⟩
    · exact ⟨rfl, rfl, rfl⟩
  simp only [Element.isEdge, Element.source, Element.target, Element.field, hsame] at hedge hv
  obtain ⟨n, hn, hnode, hid⟩ := h d hd hedge v hv
  refine ⟨_, List.mem_map_of_mem hn, ?_, ?_⟩
  · simp only [Element.isNode, hsame]
    exact hnode
  · rw [(hsame n).1]
    exact hid

/-- `putBack` puts nodes back in any case. -/
theorem putBack_nodes (g : Graph) {nodes : List Element} (hnodes : ∀ n ∈ nodes, n.isNode = true) :
    (g.putBack nodes).1.elements =
      Element.changed g.elements (nodes.map (·.id)) (Element.withRemoved false) := by
  exact putBack_elements fun n hn hedge =>
    absurd (hnodes n hn) (Element.isEdge_iff_not_isNode.1 hedge)

/-- `endsLive` holds of every edge, once the nodes that were taken out are back. -/
theorem endsLive_putBack {g : Graph} (hnodup : g.ids.Nodup) (hjoined : Joined g.elements)
    {nodes : List Element} (hnodes : ∀ n ∈ nodes, n.isNode = true)
    (hall : ∀ n ∈ g.elements, n.isNode = true → n.removed = true → n ∈ nodes) {e : Element}
    (he : e ∈ g.elements) (hedge : e.isEdge = true) : (g.putBack nodes).1.endsLive e = true := by
  have helements := g.putBack_nodes hnodes
  have hnodup' : (g.putBack nodes).1.ids.Nodup :=
    nodup_of_changed (Element.withRemoved_id false) hnodup helements
  rw [endsLive, List.all_eq_true]
  intro v hv
  obtain ⟨n, hn, hnode, hid⟩ := hjoined e he hedge v hv
  -- what has become of the node at this end
  let n' := if n.id ∈ nodes.map (·.id) then n.withRemoved false else n
  have hn' : n' ∈ (g.putBack nodes).1.elements := by
    rw [helements]
    exact List.mem_map_of_mem hn
  have hid' : n'.id = v.plain := by
    simp only [n']
    split
    · exact hid
    · exact hid
  have hlive : n'.live = true := by
    cases hremoved : n.removed with
    | true =>
      have hmem : n.id ∈ nodes.map (·.id) := List.mem_map_of_mem (hall n hn hnode hremoved)
      simp only [n', if_pos hmem]
      rfl
    | false =>
      simp only [n']
      split
      · rfl
      · simp [Element.live, hremoved]
  rw [← hid', element?_of_mem hnodup' hn']
  simpa using hlive

/-- `restore` of all that was taken out brings all of it back: the nodes do first, and then every
edge finds its ends. -/
theorem restore_elements {g : Graph} {ids : List Text} (hnodup : g.ids.Nodup)
    (hjoined : Joined g.elements) (hall : ∀ e ∈ g.elements, e.removed = true → e.id ∈ ids) :
    (g.restore ids).1.elements = Element.changed g.elements ids (Element.withRemoved false) := by
  let members := g.elements.filter fun e => e.removed && e.id ∈ ids
  let nodes := members.filter (·.isNode)
  let edges := members.filter (·.isEdge)
  have hmember {e : Element} (he : e ∈ g.elements) (hremoved : e.removed = true) : e ∈ members := by
    simp [members, he, hremoved, hall e he hremoved]
  have hnodes : ∀ n ∈ nodes, n.isNode = true := fun n hn => (List.mem_filter.1 hn).2
  have hedges : ∀ e ∈ edges, e.isEdge = true → (g.putBack nodes).1.endsLive e = true := by
    intro e he hedge
    have heg : e ∈ g.elements := (List.mem_filter.1 (List.mem_filter.1 he).1).1
    refine endsLive_putBack hnodup hjoined hnodes (fun n hn hnode hremoved => ?_) heg hedge
    exact List.mem_filter.2 ⟨hmember hn hremoved, hnode⟩
  -- the nodes are put back before the edges
  simp only [restore, touch_elements]
  show (g.putBack (nodes ++ edges)).1.elements = _
  rw [putBack_append, putBack_elements hedges, putBack_nodes g hnodes,
    Element.changed_changed_self (Element.withRemoved_withRemoved false false)]
  -- an element of `ids` that is in the graph is not changed by putting it back
  refine Element.changed_congr fun e he => ?_
  cases hremoved : e.removed with
  | false =>
    left
    rw [Element.withRemoved, ← hremoved]
  | true =>
    right
    refine iff_of_true ?_ (hall e he hremoved)
    have hmem := hmember he hremoved
    cases hnode : e.isNode with
    | true =>
      exact List.mem_append_left _ (List.mem_map_of_mem (List.mem_filter.2 ⟨hmem, hnode⟩))
    | false =>
      have hedge : e.isEdge = true := Element.isEdge_iff_not_isNode.2 (by simp [hnode])
      exact List.mem_append_right _ (List.mem_map_of_mem (List.mem_filter.2 ⟨hmem, hedge⟩))

end Graph

end MeshLens
