import MeshLens.Proofs.Hide.BoxesApart

/-!
# What hiding leaves in view

A view is consistent when no edge in it leads out of it, every busy node in it has an edge in it, and
every group box in it holds something in it. Hiding closes a selection once and then takes boxes in
rounds. Rounds never look back at the edges, so the view stays consistent when no edge ends at a box and
only boxes hold nodes. Else each way of hiding keeps a part of it.

## Key results

- `Graph.Consistent`, `Graph.Regular`: a consistent view, and the graphs that always have one
- `Graph.boxesFilled_conceal`, `Graph.covered_conceal`, `Graph.nodesJoined_conceal`: what each way of
  hiding keeps of a view
- `Hider.apply_consistent`: what a call of a fresh hider keeps
-/

namespace MeshLens

namespace Element

/-- Whether an `Element` is in view: in the graph and visible. -/
def inView (e : Element) : Bool :=
  e.live && e.visible

end Element

namespace Graph

/-! ## Consistent views -/

/-- Whether every edge in view names only what is in view (`Element.inView`). -/
def EdgesCovered (es : List Element) : Prop :=
  ∀ e ∈ es, e.inView = true → ∀ n ∈ es, e.EndsAt n → n.inView = true

/-- Whether every busy node in view is named by an edge in view, boxes apart (`isBusy`). -/
def NodesJoined (es : List Element) : Prop :=
  ∀ n ∈ es, n.inView = true → n.isNode = true → n.isBox = false → isBusy n = true →
    ∃ e ∈ es, e.inView = true ∧ e.EndsAt n

/-- Whether every box in view holds something in view (`Element.holder?`). -/
def BoxesFilled (es : List Element) : Prop :=
  ∀ b ∈ es, b.inView = true → b.isBox = true → ∃ c ∈ es, c.inView = true ∧ c.holder? = some b.id

/-- `EdgesCovered` can be decided. -/
instance (es : List Element) : Decidable (EdgesCovered es) :=
  inferInstanceAs (Decidable (∀ e ∈ es, _))

/-- `NodesJoined` can be decided. -/
instance (es : List Element) : Decidable (NodesJoined es) :=
  inferInstanceAs (Decidable (∀ n ∈ es, _))

/-- A consistent view of elements: `EdgesCovered`, `NodesJoined` and `BoxesFilled`. -/
structure Consistent (es : List Element) : Prop where
  covered : EdgesCovered es
  joined : NodesJoined es
  filled : BoxesFilled es

/-- Whether edges name nodes that are no boxes, and only boxes hold others, among some elements. -/
structure Regular (es : List Element) : Prop where
  named : ∀ e ∈ es, e.isEdge = true →
    (text? e.source).isSome = true ∧ (text? e.target).isSome = true
  ends : ∀ e ∈ es, ∀ n ∈ es, e.EndsAt n → n.isNode = true ∧ n.isBox = false
  holders : ∀ c ∈ es, ∀ b ∈ es, c.holder? = some b.id → b.isBox = true

variable {g : Graph}

/-- `live` elements that are visible are those in view. -/
theorem live_filter_visible (g : Graph) :
    g.live.filter (·.visible) = g.elements.filter Element.inView := by
  rw [live, List.filter_filter]
  exact List.filter_congr fun e _ => Bool.and_comm ..

/-- `Regular` elements are `Apart`: no edge ends at a box. -/
theorem Regular.apart {es : List Element} (h : Regular es) : Apart es where
  named := h.named
  ends e he n hn hat := (h.ends e he n hn hat).2
  holders c hc b hb hholder _ := h.holders c hc b hb hholder

/-- `Regular` depends on the `bare` elements only, not on what is hidden. -/
theorem Regular.of_bare {es es' : List Element} (h : Regular es)
    (hbare : es'.map Element.bare = es.map Element.bare) : Regular es' := by
  -- each part speaks of elements that are found in pairs
  constructor
  · intro x hx hedge
    obtain ⟨d, hd, hsame⟩ := Element.exists_bare_eq hbare hx
    have hnamed := h.named d hd ((congrArg Element.isEdge hsame).trans hedge)
    exact ⟨(congrArg (fun e => (text? e.source).isSome) hsame).symm.trans hnamed.1,
      (congrArg (fun e => (text? e.target).isSome) hsame).symm.trans hnamed.2⟩
  · intro x hx y hy hat
    obtain ⟨d, hd, hsame⟩ := Element.exists_bare_eq hbare hx
    obtain ⟨m, hm, hsame'⟩ := Element.exists_bare_eq hbare hy
    have hends := h.ends d hd m hm ((Element.endsAt_congr hsame hsame').2 hat)
    exact ⟨(congrArg Element.isNode hsame').symm.trans hends.1,
      (congrArg Element.isBox hsame').symm.trans hends.2⟩
  · intro x hx y hy hholder
    obtain ⟨d, hd, hsame⟩ := Element.exists_bare_eq hbare hx
    obtain ⟨m, hm, hsame'⟩ := Element.exists_bare_eq hbare hy
    have hid : m.bare.id = y.bare.id := congrArg Element.id hsame'
    have hholder' : d.holder? = some m.id :=
      (congrArg Element.holder? hsame).trans (hholder.trans (congrArg some hid.symm))
    exact (congrArg Element.isBox hsame').symm.trans (h.holders d hd m hm hholder')

/-! ## Rounds -/

/-- Whether an id is that of a box in a `Graph`. -/
def IsBoxId (g : Graph) (id : Text) : Prop :=
  ∃ b ∈ g.elements, b.isBox = true ∧ b.id = id

/-- `IsBoxId` depends on the `bare` elements only. -/
theorem IsBoxId.of_bare {g' : Graph} {id : Text} (h : g'.IsBoxId id) (hbare : g'.bare = g.bare) :
    g.IsBoxId id := by
  obtain ⟨b, hb, hbox, rfl⟩ := h
  obtain ⟨d, hd, hsame⟩ := Element.exists_bare_eq hbare hb
  have hid : d.bare.id = b.bare.id := congrArg Element.id hsame
  exact ⟨d, hd, (congrArg Element.isBox hsame).trans hbox, hid⟩

/-- `hideBlankBoxes` adds boxes to what was hidden, and ends when no box is blank. -/
theorem hideBlankBoxes_spec (g : Graph) (hidden : List Text) :
    (∀ id ∈ hidden, id ∈ (g.hideBlankBoxes hidden).2) ∧
      (∀ id ∈ (g.hideBlankBoxes hidden).2, id ∈ hidden ∨ g.IsBoxId id) ∧
      (g.hideBlankBoxes hidden).1.blankBoxes = [] := by
  by_cases hboxes : g.blankBoxes = []
  · rw [hideBlankBoxes_of_nil hboxes]
    exact ⟨fun _ h => h, fun _ h => .inl h, hboxes⟩
  · -- by induction on the number of visible elements, which each round lowers
    have hlt := blankBoxes_visibleCount_lt hboxes
    rw [hideBlankBoxes_of_ne_nil hboxes]
    obtain ⟨hkept, honly, hend⟩ := hideBlankBoxes_spec (g.setVisible g.blankBoxes false)
      (distinct (hidden ++ g.blankBoxes))
    refine ⟨fun id hid => hkept id (mem_distinct.2 (List.mem_append_left _ hid)), fun id hid => ?_,
      hend⟩
    rcases honly id hid with hid | hbox
    · refine (List.mem_append.1 (mem_distinct.1 hid)).imp_right fun hid => ?_
      obtain ⟨b, hb, rfl⟩ := List.mem_map.1 hid
      obtain ⟨hlive, hblank⟩ := List.mem_filter.1 hb
      simp only [Bool.and_eq_true] at hblank
      exact ⟨b, (mem_live.1 hlive).1, hblank.1.1, rfl⟩
    · exact .inr (hbox.of_bare (bare_setVisible g _ false))
termination_by g.visibleCount

/-- `removeEmptyBoxes` keeps edges severed, adds to what was taken out, and ends when no box is
empty. -/
theorem removeEmptyBoxes_spec {g : Graph} (hnodup : g.ids.Nodup) (hsevered : g.Severed)
    (removed : List Text) :
    (g.removeEmptyBoxes removed).1.Severed ∧
      (∀ id ∈ removed, id ∈ (g.removeEmptyBoxes removed).2) ∧
      (g.removeEmptyBoxes removed).1.emptyBoxes = [] := by
  by_cases hboxes : g.emptyBoxes = []
  · rw [removeEmptyBoxes_of_nil hboxes]
    exact ⟨hsevered, fun _ h => h, hboxes⟩
  · -- by induction on the number of live elements, which each round lowers
    have hlt := emptyBoxes_liveCount_lt hboxes
    rw [removeEmptyBoxes_of_ne_nil hboxes]
    obtain ⟨hsevered', hkept, hend⟩ := removeEmptyBoxes_spec
      ((ids_remove g g.emptyBoxes).symm ▸ hnodup) (hsevered.remove hnodup g.emptyBoxes)
      (distinct (removed ++ (g.remove g.emptyBoxes).2))
    exact ⟨hsevered', fun id hid => hkept id (mem_distinct.2 (List.mem_append_left _ hid)), hend⟩
termination_by g.liveCount

/-- `removeEmptyBoxes` adds nothing but boxes to what was taken out, where boxes are apart. -/
theorem Apart.mem_removeEmptyBoxes {g : Graph} (hapart : Apart g.elements)
    (hnodup : g.ids.Nodup) {removed : List Text} :
    ∀ id ∈ (g.removeEmptyBoxes removed).2, id ∈ removed ∨ g.IsBoxId id := by
  by_cases hboxes : g.emptyBoxes = []
  · rw [removeEmptyBoxes_of_nil hboxes]
    exact fun _ h => .inl h
  · have hlt := emptyBoxes_liveCount_lt hboxes
    rw [removeEmptyBoxes_of_ne_nil hboxes]
    intro id hid
    have hapart' := hapart.of_bare (bare_remove g g.emptyBoxes)
    rcases hapart'.mem_removeEmptyBoxes ((ids_remove g _).symm ▸ hnodup) id hid with hid | hbox
    · refine (List.mem_append.1 (mem_distinct.1 hid)).imp_right fun hid => ?_
      obtain ⟨b, hb, hbox, -, rfl⟩ := mem_emptyBoxes.1 (hapart.mem_emptyBoxes_of_mem_cascade hnodup id
        (mem_remove.1 hid))
      exact ⟨b, (mem_live.1 hb).1, hbox, rfl⟩
    · exact .inr (hbox.of_bare (bare_remove g _))
termination_by g.liveCount

/-- `BoxesFilled` holds where no box is blank. -/
theorem boxesFilled_of_blankBoxes (h : g.blankBoxes = []) : BoxesFilled g.elements := by
  intro b hb hview hbox
  simp only [Element.inView, Bool.and_eq_true] at hview
  -- a box that holds nothing visible would be blank
  have hholds : b.id ∈ holdersOf (g.live.filter (·.visible)) := by
    refine Decidable.byContradiction fun hblank => List.not_mem_nil (a := b.id) (h ▸ ?_)
    exact List.mem_map_of_mem (List.mem_filter.2 ⟨mem_live.2 ⟨hb, hview.1⟩, by
      simp [hbox, hview.2, hblank]⟩)
  obtain ⟨c, hc, hholder⟩ := List.mem_filterMap.1 hholds
  obtain ⟨hlive, hvisible⟩ := List.mem_filter.1 hc
  exact ⟨c, (mem_live.1 hlive).1, by simp [Element.inView, (mem_live.1 hlive).2, hvisible], hholder⟩

/-- `BoxesFilled` holds where no box is empty and everything is visible. -/
theorem boxesFilled_of_emptyBoxes (h : g.emptyBoxes = [])
    (hvisible : ∀ e ∈ g.elements, e.visible = true) : BoxesFilled g.elements := by
  intro b hb hview hbox
  simp only [Element.inView, Bool.and_eq_true] at hview
  have hholds : b.id ∈ holdersOf g.live := by
    refine Decidable.byContradiction fun hempty => List.not_mem_nil (a := b.id) (h ▸ ?_)
    exact List.mem_map_of_mem (List.mem_filter.2 ⟨mem_live.2 ⟨hb, hview.1⟩, by simp [hbox, hempty]⟩)
  obtain ⟨c, hc, hholder⟩ := List.mem_filterMap.1 hholds
  obtain ⟨hmem, hlive⟩ := mem_live.1 hc
  exact ⟨c, hmem, by simp [Element.inView, hlive, hvisible c hmem], hholder⟩

/-! ## Hiding a closure -/

/-- `inView` of an element after hiding, if it was in view before: just when it is not among what
was hidden. -/
theorem inView_concealed {e : Element} (h : e.visible = true ∧ e.removed = false) (ids : List Text)
    (mode : HideMode) :
    e.bare = (if e.id ∈ ids then mode.conceal e else e).bare ∧
      ((if e.id ∈ ids then mode.conceal e else e).inView = true ↔ e.id ∉ ids) := by
  obtain ⟨hvisible, hremoved⟩ := h
  by_cases hid : e.id ∈ ids
  · rw [if_pos hid]
    refine ⟨(mode.bare_conceal e).symm, iff_of_false ?_ (fun hnot => hnot hid)⟩
    cases mode <;> simp [HideMode.conceal, Element.inView, Element.live, Element.withVisible,
      Element.withRemoved]
  · rw [if_neg hid]
    exact ⟨rfl, iff_of_true (by simp [Element.inView, Element.live, hvisible, hremoved]) hid⟩

section Concealed

variable (hg : g.Untouched) (hends : ∀ e ∈ g.elements, e.isEdge = true →
    e.source.truthy = true ∧ e.target.truthy = true)
  {selector : Text} {ids : List Text} (h : g.hideClosure selector = .ok ids) (mode : HideMode)

include hg

/-- `Untouched` graphs are `Severed`. -/
theorem Untouched.severed : g.Severed :=
  fun _ _ _ hn _ _ => (Graph.mem_live.1 (hg.mem_live hn)).2

/-- `conceal` that takes elements out leaves everything visible. -/
theorem visible_conceal_removed {x : Element} (hx : x ∈ (g.conceal .removed ids).1.elements) :
    x.visible = true := by
  rw [conceal_elements] at hx
  obtain ⟨e, he, rfl⟩ := List.mem_map.1 hx
  split <;> exact (hg.shown e he).1

/-- `conceal` that takes elements out leaves no edge at what is out, and no empty box. -/
theorem conceal_removed_spec : (g.conceal .removed ids).1.Severed ∧
    (g.conceal .removed ids).1.emptyBoxes = [] := by
  have hnodup : (g.remove ids).1.ids.Nodup := (ids_remove g ids).symm ▸ hg.nodup
  have hspec := removeEmptyBoxes_spec hnodup (hg.severed.remove hg.nodup ids) (g.remove ids).2
  exact ⟨hspec.1, hspec.2.2⟩

/-- `conceal` leaves boxes filled, in either way of hiding. -/
theorem boxesFilled_conceal : BoxesFilled (g.conceal mode ids).1.elements := by
  cases mode with
  | hidden => exact boxesFilled_of_blankBoxes (hideBlankBoxes_spec (g.setVisible ids false) ids).2.2
  | removed =>
    exact boxesFilled_of_emptyBoxes (conceal_removed_spec hg).2
      fun e he => visible_conceal_removed hg he

/-- `conceal` leaves in view what was there before and is not among what was hidden. -/
theorem mem_conceal_elements {x : Element} (hx : x ∈ (g.conceal mode ids).1.elements) :
    ∃ e ∈ g.elements, e.bare = x.bare ∧ (x.inView = true ↔ e.id ∉ (g.conceal mode ids).2) := by
  rw [conceal_elements] at hx
  obtain ⟨e, he, rfl⟩ := List.mem_map.1 hx
  exact ⟨e, he, inView_concealed (hg.shown e he) _ mode⟩

/-- `conceal` leaves every element there, in view if it was not hidden. -/
theorem exists_conceal_elements {e : Element} (he : e ∈ g.elements) :
    ∃ x ∈ (g.conceal mode ids).1.elements,
      e.bare = x.bare ∧ (x.inView = true ↔ e.id ∉ (g.conceal mode ids).2) := by
  rw [conceal_elements]
  exact ⟨_, List.mem_map_of_mem he, inView_concealed (hg.shown e he) _ mode⟩

/-- `conceal` hides all elements that are to be hidden. -/
theorem mem_conceal_of_mem_ids {e : Element} (he : e ∈ g.elements) (hid : e.id ∈ ids) :
    e.id ∈ (g.conceal mode ids).2 := by
  cases mode with
  | hidden => exact (hideBlankBoxes_spec (g.setVisible ids false) ids).1 e.id hid
  | removed =>
    have hnodup : (g.remove ids).1.ids.Nodup := (ids_remove g ids).symm ▸ hg.nodup
    have hgone : e.id ∈ (g.remove ids).2 := mem_remove.2 (mem_cascade (hg.mem_live he) hid)
    exact (removeEmptyBoxes_spec hnodup (hg.severed.remove hg.nodup ids) _).2.1 e.id hgone

include h

/-- `conceal` hides all of a closure. -/
theorem mem_conceal_of_mem {id : Text} (hid : id ∈ ids) : id ∈ (g.conceal mode ids).2 := by
  obtain ⟨e, he, rfl⟩ := List.mem_map.1 (mem_hideClosure h id hid)
  exact mem_conceal_of_mem_ids hg mode he hid

include hends

/-- `conceal` hides boxes besides a closure, and nothing else unless edges and held nodes go along.
-/
theorem mem_conceal_cases (hmode : mode = .hidden ∨ Regular g.elements) {e : Element}
    (he : e ∈ g.elements) (hid : e.id ∈ (g.conceal mode ids).2) : e.id ∈ ids ∨ e.isBox = true := by
  have hcases : e.id ∈ ids ∨ g.IsBoxId e.id := by
    -- in rounds of hiding only boxes are added, and in rounds of taking out only where boxes are
    -- apart
    cases mode with
    | hidden =>
      refine ((hideBlankBoxes_spec (g.setVisible ids false) ids).2.1 e.id hid).imp_right ?_
      exact fun hbox => hbox.of_bare (bare_setVisible g ids false)
    | removed =>
      have hregular := hmode.resolve_left nofun
      have hnodup : (g.remove ids).1.ids.Nodup := (ids_remove g ids).symm ▸ hg.nodup
      have hapart' := hregular.apart.of_bare (bare_remove g ids)
      rcases hapart'.mem_removeEmptyBoxes hnodup e.id hid with hgone | hbox
      · exact .inl (hregular.apart.mem_of_mem_cascade hg hends h e.id (mem_remove.1 hgone))
      · exact .inr (hbox.of_bare (bare_remove g ids))
  refine hcases.imp_right fun hbox => ?_
  obtain ⟨b, hb, hbox, hsame⟩ := hbox
  rwa [eq_of_id_eq hg.nodup hb he hsame] at hbox

/-- `conceal` leaves edges in view that name only what is in view, except for edges, and for boxes
that are made invisible. -/
theorem covered_conceal {x y : Element} (hx : x ∈ (g.conceal mode ids).1.elements)
    (hview : x.inView = true) (hy : y ∈ (g.conceal mode ids).1.elements) (hat : x.EndsAt y) :
    y.inView = true ∨ y.isEdge = true ∨ mode = .hidden ∧ y.isBox = true := by
  cases hnode : y.isNode with
  | false => exact .inr (.inl (Element.isEdge_iff_not_isNode.2 (by simp [hnode])))
  | true =>
  cases mode with
  | removed =>
    simp only [Element.inView, Bool.and_eq_true] at hview
    have hlive := (conceal_removed_spec hg).1 x (Graph.mem_live.2 ⟨hx, hview.1⟩) y hy hnode
      hat.mem_anchors
    exact .inl (by simp [Element.inView, hlive, visible_conceal_removed hg hy])
  | hidden =>
    obtain ⟨e, he, hsame, hleft⟩ := mem_conceal_elements hg .hidden hx
    obtain ⟨n, hn, hsame', hleft'⟩ := mem_conceal_elements hg .hidden hy
    have hat' : e.EndsAt n := (Element.endsAt_congr hsame hsame').2 hat
    by_cases hid : n.id ∈ (g.conceal .hidden ids).2
    · rcases mem_conceal_cases hg hends h .hidden (.inl rfl) hn hid with hid | hbox
      · -- an edge that is left names no node of the closure
        refine absurd hid (notMem_hideClosure_of_endsAt hg.nodup h (hends e he hat'.1)
          (hg.mem_live he) (fun heid => ?_) (hg.mem_live hn)
          ((congrArg Element.isNode hsame').trans hnode) hat')
        exact hleft.1 hview (mem_conceal_of_mem hg h .hidden heid)
      · exact .inr (.inr ⟨rfl, (congrArg Element.isBox hsame').symm.trans hbox⟩)
    · exact .inl (hleft'.2 hid)

/-- `conceal` leaves busy nodes joined when nothing but boxes is hidden besides the closure. -/
theorem nodesJoined_conceal (hmode : mode = .hidden ∨ Regular g.elements) :
    NodesJoined (g.conceal mode ids).1.elements := by
  intro y hy hview hnode hbox hbusy
  obtain ⟨n, hn, hsame, hleft⟩ := mem_conceal_elements hg mode hy
  have hnotin : n.id ∉ ids := fun hid => hleft.1 hview (mem_conceal_of_mem hg h mode hid)
  obtain ⟨e, he, hat, heleft⟩ := exists_endsAt_of_notMem_hideClosure hg.nodup h (hg.mem_live hn)
    ((congrArg Element.isNode hsame).trans hnode) ((congrArg Element.isBox hsame).trans hbox)
    ((congrArg isBusy hsame).trans hbusy) hnotin
  have hmem := (Graph.mem_live.1 he).1
  -- the edge is no box, so it is still in view
  obtain ⟨x, hx, hsame', hleft'⟩ := exists_conceal_elements hg mode hmem
  refine ⟨x, hx, hleft'.2 fun hid => ?_, (Element.endsAt_congr hsame' hsame).1 hat⟩
  rcases mem_conceal_cases hg hends h mode hmode hmem hid with hid | hbox
  · exact heleft hid
  · rw [Element.isBox_of_isEdge hat.1] at hbox
    cases hbox

/-- `conceal` leaves a consistent view of a regular graph. -/
theorem Regular.consistent_conceal (hregular : Regular g.elements) :
    Consistent (g.conceal mode ids).1.elements := by
  have hregular' := hregular.of_bare (bare_conceal g mode ids)
  refine ⟨fun x hx hview y hy hat => ?_, nodesJoined_conceal hg hends h mode (.inr hregular),
    boxesFilled_conceal hg mode⟩
  -- what an edge names is neither an edge nor a box
  obtain ⟨hnode, hbox⟩ := hregular'.ends x hx y hy hat
  rcases covered_conceal hg hends h mode hx hview hy hat with hview | hedge | ⟨-, hbox'⟩
  · exact hview
  · exact absurd hnode (Element.isEdge_iff_not_isNode.1 hedge)
  · rw [hbox] at hbox'
    cases hbox'

end Concealed

end Graph

namespace Hider

/-- `apply` of a fresh hider keeps this of the view. Every box in view holds something in view. What
an edge in view names is in view, except for edges, and for boxes when elements are made invisible.
Busy nodes in view are joined when elements are made invisible. In a graph of which the edges join
nodes that are no boxes and of which only boxes hold others, the view is consistent. A call that
fails leaves everything in view. -/
theorem apply_consistent {payload : Value} {g : Graph} (hbuilt : Graph.ofValue payload = .ok g)
    (layout name selector : Text) (occasion : HideOccasion) :
    let call := apply { layout } name g (some selector) occasion
    let es := call.2.1.elements
    (∀ fault, call.2.2 = .error fault → AllShown es) ∧
      ∀ outcome, call.2.2 = .ok outcome →
        Graph.BoxesFilled es ∧
        (∀ e ∈ es, e.inView = true → ∀ n ∈ es, e.EndsAt n →
          n.inView = true ∨ n.isEdge = true ∨ occasion.compress = false ∧ n.isBox = true) ∧
        (occasion.compress = false → Graph.NodesJoined es) ∧
        (Graph.Regular g.elements → Graph.Consistent es) := by
  intro call es
  have hg : g.startBatch.Untouched := ⟨(Graph.ofValue_untouched hbuilt).nodup,
    (Graph.ofValue_untouched hbuilt).shown⟩
  have hends : ∀ e ∈ g.startBatch.elements, e.isEdge = true →
      e.source.truthy = true ∧ e.target.truthy = true :=
    fun e he => Graph.ends_of_ofValue hbuilt e he
  have helements : es = (g.startBatch.rehide name none (some selector) occasion).1.elements :=
    apply_elements { layout } name g (some selector) occasion
  have hresult := apply_result { layout } name g (some selector) occasion
  cases hclosure : g.startBatch.hideClosure selector with
  | error fault =>
    -- no closure, so nothing was concealed and all is still shown
    rw [Graph.rehide_none_of_error hclosure] at helements hresult
    refine ⟨fun _ _ => helements ▸ hg.shown, fun outcome hok => ?_⟩
    rw [hresult] at hok
    cases hok
  | ok ids =>
    -- the way of hiding is the one parameter that the fixed points are stated with
    let mode := if occasion.compress then HideMode.removed else .hidden
    rw [Graph.rehide_none_of_ok mode hclosure rfl] at helements hresult
    have hmode : mode = .hidden ↔ occasion.compress = false := by
      cases hcompress : occasion.compress <;> simp [mode, hcompress]
    rw [helements]
    refine ⟨fun fault hfault => ?_, fun outcome _ =>
      ⟨Graph.boxesFilled_conceal hg mode, fun x hx hview y hy hat => ?_, fun hsoft => ?_, ?_⟩⟩
    · rw [hresult] at hfault
      cases hfault
    · -- an edge whose end is concealed is spared only where the boxes are left in
      rw [← hmode]
      exact Graph.covered_conceal hg hends hclosure mode hx hview hy hat
    · exact Graph.nodesJoined_conceal hg hends hclosure mode (.inl (hmode.2 hsoft))
    · exact fun hregular => hregular.consistent_conceal hg hends hclosure mode

/-- `apply_consistent` for two joined nodes in a box, which stay or go together, in both ways of
hiding. -/
theorem apply_consistent_boxed :
    ∃ g, Graph.ofValue boxedPayload = .ok g ∧ Graph.Regular g.elements ∧ ∀ compress,
      (apply {} "g" g (some "node[app = \"x\"]") { compress }).2.2.toOption.isSome = true ∧
        Graph.Consistent (apply {} "g" g (some "node[app = \"x\"]") { compress }).2.1.elements := by
  have hbuilt : ∃ g, Graph.ofValue boxedPayload = .ok g ∧ Graph.Regular g.elements ∧ ∀ compress,
      (apply {} "g" g (some "node[app = \"x\"]") { compress }).2.2.toOption.isSome = true :=
    ⟨_, rfl, ⟨by decide +kernel, by decide +kernel, by decide +kernel⟩, by decide +kernel⟩
  obtain ⟨g, hg, hregular, hcall⟩ := hbuilt
  refine ⟨g, hg, hregular, fun compress => ⟨hcall compress, ?_⟩⟩
  have hconsistent := (apply_consistent hg "dagre" "g" "node[app = \"x\"]" { compress }).2
  cases hresult : (apply {} "g" g (some "node[app = \"x\"]") { compress }).2.2 with
  | error fault =>
    have hsome := hcall compress
    rw [hresult] at hsome
    cases hsome
  | ok outcome => exact (hconsistent outcome hresult).2.2.2 hregular

/-- A node in a box, and another one with an edge to the box, as the JSON data that `Graph.ofValue`
reads. -/
def tetheredPayload : Value :=
  .list [
    .object [("data", .object [("id", .text "box"), ("isBox", .bool true)])],
    .object [("data", .object [("id", .text "a"), ("parent", .text "box"), ("app", .text "x")])],
    .object [("data", .object [("id", .text "b")])],
    .object [("data", .object [("source", .text "b"), ("target", .text "box")])]]

/-- `apply` does not leave a consistent view where an edge ends at a box: hiding the one node blanks
its box. When elements are made invisible the edge stays and leads to nothing, and when they are
taken out the other node stays without an edge. -/
theorem apply_not_consistent :
    ∃ g, Graph.ofValue tetheredPayload = .ok g ∧ ∀ compress,
      (apply {} "g" g (some "node[app = \"x\"]") { compress }).2.2.toOption.isSome = true ∧
        ¬Graph.Consistent (apply {} "g" g (some "node[app = \"x\"]") { compress }).2.1.elements := by
  refine ⟨_, rfl, fun compress => ?_⟩
  cases compress with
  | false => exact ⟨by decide +kernel, fun h => absurd h.covered (by decide +kernel)⟩
  | true => exact ⟨by decide +kernel, fun h => absurd h.joined (by decide +kernel)⟩

end Hider

end MeshLens
