import MeshLens.Proofs.Hide.ViewConsistency

/-!
# The two ways of hiding agree

Making invisible touches a selection and then the boxes that become blank. Taking out takes along what
is at the nodes that go and what they hold, also in each round of boxes. Where boxes are apart nothing is
taken along: after each round what is invisible in the one snapshot is what is out of the other, so
that the next round finds the same boxes in both.

## Key results

- `Graph.Abreast`: a snapshot that made invisible what another one of the same elements took out
- `Graph.Abreast.round`, `Graph.Abreast.rounds`: a round of boxes, and all of them, keep two snapshots so
- `Hider.apply_modes_agree`: the two ways of hiding conceal the same
-/

namespace MeshLens

/-- `changed` and then filtered: elements that pass a test are left of a change that nothing passes.
-/
theorem Element.filter_changed {es : List Element} {ids : List Text} {change : Element → Element}
    {p : Element → Bool} (hleft : ∀ e ∈ es, p e = true) (hgone : ∀ e, p (change e) = false) :
    (changed es ids change).filter p = es.filter (·.id ∉ ids) := by
  induction es with
  | nil => rfl
  | cons e es ih =>
    have hrest := ih fun x hx => hleft x (List.mem_cons_of_mem _ hx)
    show ((if e.id ∈ ids then change e else e) :: changed es ids change).filter p = _
    by_cases hid : e.id ∈ ids
    · rw [if_pos hid, List.filter_cons_of_neg (by simp [hgone e]), hrest,
        List.filter_cons_of_neg (by simpa using hid)]
    · rw [if_neg hid, List.filter_cons_of_pos (hleft e List.mem_cons_self), hrest,
        List.filter_cons_of_pos (by simpa using hid)]

namespace HideMode

/-- Whether a `HideMode` has left an element. -/
def leaves : HideMode → Element → Bool
  | hidden => Element.inView
  | removed => Element.live

/-- `leaves` fails of what was concealed. -/
@[simp] theorem leaves_conceal (mode : HideMode) (e : Element) :
    mode.leaves (mode.conceal e) = false := by
  cases mode <;> simp [leaves, conceal, Element.inView, Element.live, Element.withVisible,
    Element.withRemoved]

/-- `leaves` holds of elements that were all shown and not taken. -/
theorem filter_leaves (mode : HideMode) {es : List Element} (hes : AllShown es) (taken : List Text) :
    (Element.changed es taken mode.conceal).filter mode.leaves = es.filter (·.id ∉ taken) := by
  refine Element.filter_changed (fun e he => ?_) mode.leaves_conceal
  obtain ⟨hvisible, hremoved⟩ := hes e he
  cases mode <;> simp [leaves, Element.inView, Element.live, hvisible, hremoved]

end HideMode

namespace Graph

variable {g soft hard : Graph} {es : List Element} {hidden removed : List Text}

/-! ## What goes when boxes are apart -/

/-- `remove` of empty boxes takes just these, where boxes are apart. -/
theorem Apart.mem_remove_emptyBoxes (hapart : Apart g.elements) (hnodup : g.ids.Nodup) {id : Text} :
    id ∈ (g.remove g.emptyBoxes).2 ↔ id ∈ g.emptyBoxes := by
  rw [mem_remove]
  refine ⟨hapart.mem_emptyBoxes_of_mem_cascade hnodup id, fun hid => ?_⟩
  obtain ⟨b, hb, -, -, rfl⟩ := mem_emptyBoxes.1 hid
  exact mem_cascade hb hid

/-- `remove` of a closure takes just this, where boxes are apart. -/
theorem Apart.mem_remove_hideClosure (hapart : Apart g.elements) (hg : g.Untouched)
    (hends : ∀ e ∈ g.elements, e.isEdge = true → e.source.truthy = true ∧ e.target.truthy = true)
    {selector : Text} {ids : List Text} (h : g.hideClosure selector = .ok ids) {id : Text} :
    id ∈ (g.remove ids).2 ↔ id ∈ ids := by
  rw [mem_remove]
  refine ⟨hapart.mem_of_mem_cascade hg hends h id, fun hid => ?_⟩
  obtain ⟨e, he, rfl⟩ := List.mem_map.1 (mem_hideClosure h id hid)
  exact mem_cascade (hg.mem_live he) hid

/-! ## Side by side -/

/-- Whether two snapshots have the same elements, of which one made invisible what the other took
out. -/
structure Abreast (es : List Element) (soft hard : Graph) (hidden removed : List Text) : Prop where
  soft : soft.elements = Element.changed es hidden (Element.withVisible false)
  hard : hard.elements = Element.changed es removed (Element.withRemoved true)
  same : ∀ id, id ∈ hidden ↔ id ∈ removed

/-- `Abreast`: what is in view in the one is live in the other. -/
theorem Abreast.live_eq (h : Abreast es soft hard hidden removed) (hes : AllShown es) :
    soft.elements.filter Element.inView = hard.live := by
  have hsoft := HideMode.filter_leaves .hidden hes hidden
  have hhard := HideMode.filter_leaves .removed hes removed
  simp only [h.same] at hsoft
  rw [live, h.soft, h.hard]
  exact hsoft.trans hhard.symm

/-- `Abreast`: the boxes that are blank in the one are empty in the other. -/
theorem Abreast.blankBoxes_eq (h : Abreast es soft hard hidden removed) (hes : AllShown es) :
    soft.blankBoxes = hard.emptyBoxes := by
  rw [blankBoxes, emptyBoxes, ← h.live_eq hes, ← live_filter_visible, List.filter_filter]
  refine congrArg (List.map Element.id) (List.filter_congr fun e _ => ?_)
  rw [Bool.and_right_comm]

variable (hes : AllShown es) (hnodup : (es.map (·.id)).Nodup) (hapart : Apart es)

include hes hnodup hapart

/-- `Abreast` is preserved by a round of boxes in each. -/
theorem Abreast.round (h : Abreast es soft hard hidden removed) :
    Abreast es (soft.setVisible soft.blankBoxes false) (hard.remove hard.emptyBoxes).1
      (distinct (hidden ++ soft.blankBoxes))
      (distinct (removed ++ (hard.remove hard.emptyBoxes).2)) where
  soft := setVisible_elements_of_changed h.soft _
  hard := remove_elements_of_changed h.hard _
  same id := by
    have hapart' : Apart hard.elements := by
      refine hapart.of_bare ?_
      rw [h.hard]
      exact Element.map_changed (Element.bare_withRemoved true)
    have hnodup' : hard.ids.Nodup := nodup_of_changed (Element.withRemoved_id true) hnodup h.hard
    simp only [mem_distinct, List.mem_append, h.same, h.blankBoxes_eq hes,
      hapart'.mem_remove_emptyBoxes hnodup']

/-- `Abreast` is preserved until no box is left to take. -/
theorem Abreast.rounds {soft hard : Graph} {hidden removed : List Text}
    (h : Abreast es soft hard hidden removed) :
    Abreast es (soft.hideBlankBoxes hidden).1 (hard.removeEmptyBoxes removed).1
      (soft.hideBlankBoxes hidden).2 (hard.removeEmptyBoxes removed).2 := by
  have hboxes := h.blankBoxes_eq hes
  by_cases hnone : soft.blankBoxes = []
  · rwa [hideBlankBoxes_of_nil hnone, removeEmptyBoxes_of_nil (hboxes ▸ hnone)]
  · -- by induction on the number of visible elements, which each round lowers
    have hlt := blankBoxes_visibleCount_lt hnone
    rw [hideBlankBoxes_of_ne_nil hnone, removeEmptyBoxes_of_ne_nil (hboxes ▸ hnone)]
    exact (h.round hes hnodup hapart).rounds
termination_by soft.visibleCount

omit hes hnodup hapart in
/-- `conceal` of a closure in the two ways leaves snapshots side by side, where boxes are apart. -/
theorem Apart.abreast_conceal (hapart : Apart g.elements) (hg : g.Untouched)
    (hends : ∀ e ∈ g.elements, e.isEdge = true → e.source.truthy = true ∧ e.target.truthy = true)
    {selector : Text} {ids : List Text} (h : g.hideClosure selector = .ok ids) :
    Abreast g.elements (g.conceal .hidden ids).1 (g.conceal .removed ids).1
      (g.conceal .hidden ids).2 (g.conceal .removed ids).2 := by
  have hstart : Abreast g.elements (g.setVisible ids false) (g.remove ids).1 ids
      (g.remove ids).2 :=
    ⟨setVisible_elements g ids false, remove_elements g ids,
      fun _ => (hapart.mem_remove_hideClosure hg hends h).symm⟩
  exact hstart.rounds hg.shown hg.nodup hapart

end Graph

namespace Hider

/-- `apply` conceals the same in the two ways of hiding. On a new graph of which no edge ends at a
box and only boxes hold nodes, two fresh hiders, one of which makes elements invisible and the other
takes them out, fail alike or leave the graph side by side, with what they answer as what is
invisible and what is out. -/
theorem apply_modes_agree {payload : Value} {g : Graph} (hbuilt : Graph.ofValue payload = .ok g)
    (hapart : Graph.Apart g.elements) (layout layout' name name' : Text) (selector : Option Text)
    (occasion occasion' : HideOccasion) (hsoft : occasion.compress = false)
    (hhard : occasion'.compress = true) :
    let soft := apply { layout } name g selector occasion
    let hard := apply { layout := layout' } name' g selector occasion'
    (∃ fault, soft.2.2 = .error fault ∧ hard.2.2 = .error fault) ∨
      ∃ outcome outcome', soft.2.2 = .ok outcome ∧ hard.2.2 = .ok outcome' ∧
        outcome.removed = [] ∧ outcome'.hidden = [] ∧
        Graph.Abreast g.elements soft.2.1 hard.2.1 outcome.hidden outcome'.removed := by
  intro soft hard
  have hg : g.startBatch.Untouched := ⟨(Graph.ofValue_untouched hbuilt).nodup,
    (Graph.ofValue_untouched hbuilt).shown⟩
  -- both calls run in a batch, on a snapshot that no handle holds
  have helements : soft.2.1.elements = _ := apply_elements { layout } name g selector occasion
  have helements' : hard.2.1.elements = _ :=
    apply_elements { layout := layout' } name' g selector occasion'
  have hresult : soft.2.2 = _ := apply_result { layout } name g selector occasion
  have hresult' : hard.2.2 = _ := apply_result { layout := layout' } name' g selector occasion'
  cases selector with
  | none =>
    exact .inr ⟨_, _, hresult, hresult', rfl, rfl, helements.trans Element.changed_nil.symm,
      helements'.trans Element.changed_nil.symm, fun _ => Iff.rfl⟩
  | some text =>
    cases hclosure : g.startBatch.hideClosure text with
    | error fault =>
      -- the closure is asked for before either way of hiding, so both fail alike
      rw [Graph.rehide_none_of_error hclosure] at hresult hresult'
      exact .inl ⟨fault, hresult, hresult'⟩
    | ok ids =>
      rw [Graph.rehide_none_of_ok .hidden hclosure (by rw [hsoft]; rfl)] at helements hresult
      rw [Graph.rehide_none_of_ok .removed hclosure (by rw [hhard]; rfl)]
        at helements' hresult'
      -- the edges of data that was read name two ends, which the fixed points rely on
      have hends : ∀ e ∈ g.startBatch.elements, e.isEdge = true →
          e.source.truthy = true ∧ e.target.truthy = true :=
        fun e he => Graph.ends_of_ofValue hbuilt e he
      have habreast := Graph.Apart.abreast_conceal (g := g.startBatch) hapart hg hends hclosure
      exact .inr ⟨_, _, hresult, hresult', rfl, rfl, helements.trans habreast.soft,
        helements'.trans habreast.hard, habreast.same⟩

/-- A node in a box within a box, joined to a node in one of two boxes that hold each other, as the
JSON data that `Graph.ofValue` reads. -/
def nestedPayload : Value :=
  .list [
    .object [("data", .object [("id", .text "outer"), ("isBox", .bool true)])],
    .object [("data", .object [("id", .text "inner"), ("isBox", .bool true), ("parent", .text "outer")])],
    .object [("data", .object [("id", .text "a"), ("parent", .text "inner"), ("app", .text "x")])],
    .object [("data", .object [("id", .text "r"), ("isBox", .bool true), ("parent", .text "s")])],
    .object [("data", .object [("id", .text "s"), ("isBox", .bool true), ("parent", .text "r")])],
    .object [("data", .object [("id", .text "b"), ("parent", .text "s")])],
    .object [("data", .object [("id", .text "e"), ("source", .text "a"), ("target", .text "b")])]]

/-- `apply_modes_agree` in nested boxes: hiding the one node takes the edge, the other node and, in
two rounds, the boxes around it, but not the boxes that hold each other. -/
theorem apply_modes_agree_nested :
    ∃ g, Graph.ofValue nestedPayload = .ok g ∧ Graph.Apart g.elements ∧
      ∃ outcome outcome',
        (apply {} "g" g (some "node[app = \"x\"]") { compress := false }).2.2 = .ok outcome ∧
        (apply {} "g" g (some "node[app = \"x\"]") { compress := true }).2.2 = .ok outcome' ∧
        outcome.hidden = (["a", "e", "b", "inner", "outer"] : List Text) ∧
        ∀ id, id ∈ outcome.hidden ↔ id ∈ outcome'.removed := by
  have hbuilt : ∃ g, Graph.ofValue nestedPayload = .ok g ∧ Graph.Apart g.elements ∧
      (apply {} "g" g (some "node[app = \"x\"]") { compress := false }).2.2.toOption.map
        (·.hidden) = some (["a", "e", "b", "inner", "outer"] : List Text) :=
    ⟨_, rfl, ⟨by decide +kernel, by decide +kernel, by decide +kernel⟩, by decide +kernel⟩
  obtain ⟨g, hg, hapart, hhidden⟩ := hbuilt
  refine ⟨g, hg, hapart, ?_⟩
  rcases apply_modes_agree hg hapart "dagre" "dagre" "g" "g" (some "node[app = \"x\"]")
    { compress := false } { compress := true } rfl rfl with
    ⟨fault, hfault, -⟩ | ⟨outcome, outcome', hsoft, hhard, -, -, habreast⟩
  · rw [hfault] at hhidden
    cases hhidden
  · rw [hsoft] at hhidden
    exact ⟨outcome, outcome', hsoft, hhard, Option.some.inj hhidden, habreast.same⟩

end Hider

end MeshLens
