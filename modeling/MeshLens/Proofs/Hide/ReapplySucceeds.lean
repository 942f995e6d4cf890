import MeshLens.Proofs.Hide.HideIdempotent
import MeshLens.Proofs.Hide.ClosureRemainder

/-!
# Evaluating once more

When hiding is undone, not all that was taken out need come back: an edge stays out when one of its ends
is not in the graph. But nodes do all come back. So a selector that was hidden on a snapshot as it was
built can be evaluated on it once more: what could be in the way are the ends of edges that are left
over, and of these there are no more than before.

## Key results

- `Graph.hideClosure_ok_iff`: when the closure of a selection can be computed
- `Graph.Thins.hideClosure_ok`: it can be computed again with fewer edges and the same nodes
- `Graph.thins_release`: undoing what was hidden gives back all nodes
- `Hider.apply_again_ok`: so hiding the same again succeeds
-/

namespace MeshLens

namespace Graph

variable {g g' : Graph} {name text : Text} {selector : Option Text}

/-! ## What cannot be evaluated -/

/-- Whether an end of an edge can be looked up, as `endOf?` does: a list and an object cannot. -/
def Findable (v : Value) : Prop :=
  v.truthy = true → isNested v = false

/-- `endOf?` succeeds just on ends that are `Findable`. -/
theorem endOf?_ok_iff {v : Value} : (∃ found, g.endOf? v = .ok found) ↔ Findable v := by
  unfold endOf? Findable
  by_cases htruthy : v.truthy = true
  · rw [if_pos htruthy]
    cases v <;> simp_all [isNested]
  · rw [if_neg htruthy]
    exact iff_of_true ⟨_, rfl⟩ fun h => absurd h htruthy

/-- `liveEnds` succeeds just when all ends are `Findable`. -/
theorem liveEnds_ok_iff {ends : List Value} :
    (∃ es, g.liveEnds ends = .ok es) ↔ ∀ v ∈ ends, Findable v := by
  induction ends with
  | nil => exact iff_of_true ⟨[], rfl⟩ (List.forall_mem_nil _)
  | cons v ends ih =>
    rw [List.forall_mem_cons, ← ih, ← endOf?_ok_iff (g := g), liveEnds]
    cases g.endOf? v with
    | error fault => simp
    | ok found => cases g.liveEnds ends <;> simp [Except.map]

/-- `endsOf` edges succeeds just when both ends of each are `Findable`. -/
theorem endsOf_ok_iff {edges : List Element} :
    (∃ ids, g.endsOf edges = .ok ids) ↔ ∀ e ∈ edges, Findable e.source ∧ Findable e.target := by
  have hmap : (∃ ids, g.endsOf edges = .ok ids) ↔
      ∃ es, g.liveEnds (edges.flatMap fun e => [e.source, e.target]) = .ok es := by
    rw [endsOf]
    cases g.liveEnds (edges.flatMap fun e => [e.source, e.target]) <;> simp [Except.map]
  rw [hmap, liveEnds_ok_iff]
  constructor
  · intro h e he
    have hmem {v : Value} (hv : v ∈ [e.source, e.target]) := h v (List.mem_flatMap.2 ⟨e, he, hv⟩)
    exact ⟨hmem List.mem_cons_self, hmem (List.mem_cons_of_mem _ List.mem_cons_self)⟩
  · intro h v hv
    obtain ⟨e, he, hv⟩ := List.mem_flatMap.1 hv
    simp only [List.mem_cons, List.not_mem_nil, or_false] at hv
    rcases hv with rfl | rfl
    · exact (h e he).1
    · exact (h e he).2

/-- `hideClosure` can be computed when the selection can be made, and the ends of the edges that it
leaves over can be looked up. -/
theorem hideClosure_ok_iff : (∃ ids, g.hideClosure text = .ok ids) ↔
    ∃ hits, g.select text = .ok hits ∧ ∀ e ∈ g.live, e.isEdge = true → e.id ∉ g.withEdges hits →
      Findable e.source ∧ Findable e.target := by
  unfold hideClosure
  -- past the selection, only the ends of the edges that are left over can fail
  cases g.select text with
  | error fault => simp
  | ok hits =>
    have hclosure : (∃ ids, g.closureOf hits = .ok ids) ↔ ∃ joined,
        g.endsOf ((g.live.filter fun e => e.id ∉ g.withEdges hits).filter (·.isEdge)) = .ok joined := by
      unfold closureOf withEdges
      dsimp only
      cases g.endsOf _ <;> simp [Except.map]
    simp only [Except.ok.injEq, exists_eq_left']
    rw [hclosure, endsOf_ok_iff]
    simp only [List.mem_filter, decide_eq_true_eq]
    constructor
    · exact fun h e he hedge hleft => h e ⟨⟨he, hleft⟩, hedge⟩
    · rintro h e ⟨⟨he, hleft⟩, hedge⟩
      exact h e he hedge hleft

/-! ## Fewer edges -/

/-- Whether a `Graph` has the nodes of another one that is all there, and perhaps fewer edges. -/
structure Thins (g g' : Graph) : Prop where
  bare : g'.bare = g.bare
  live : ∀ e ∈ g.elements, e.live = true
  nodes : ∀ n ∈ g'.elements, n.isNode = true → n.live = true

/-- `live` elements are found in pairs in a graph that is all there. -/
theorem exists_live_of_bare (hbare : g'.bare = g.bare) (hlive : ∀ e ∈ g.elements, e.live = true)
    {x : Element} (hx : x ∈ g'.live) : ∃ e ∈ g.live, e.bare = x.bare := by
  obtain ⟨e, he, hsame⟩ := Element.exists_bare_eq hbare (mem_live.1 hx).1
  exact ⟨e, mem_live.2 ⟨he, hlive e he⟩, hsame⟩

/-- `select` succeeds on some of the elements if it does on all. -/
theorem select_ok_of_bare (hbare : g'.bare = g.bare) (hlive : ∀ e ∈ g.elements, e.live = true)
    (hplain : Selector.PlainText (some text)) {hits : List Element} (h : g.select text = .ok hits) :
    ∃ hits', g'.select text = .ok hits' := by
  unfold select at h ⊢
  cases hs : Selector.parse text with
  | error fault =>
    rw [hs] at h
    cases h
  | ok s =>
    rw [hs] at h
    refine Element.matching_ok_iff.2 fun x hx => ?_
    -- the same element was matched before, with the same answer
    obtain ⟨e, he, hsame⟩ := exists_live_of_bare hbare hlive hx
    obtain ⟨accepted, haccepts⟩ := Element.matching_ok_iff.1 ⟨hits, h⟩ e he
    refine ⟨accepted, ?_⟩
    rw [← haccepts]
    exact (hplain text s rfl hs).accepts_congr (congrArg Element.kind hsame).symm
      (congrArg Element.data hsame).symm

/-- `hits` can be selected on some of the elements if they can on all. -/
theorem hits_ok_of_bare (hbare : g'.bare = g.bare) (hlive : ∀ e ∈ g.elements, e.live = true)
    (hplain : Selector.PlainText selector) (h : ∃ ids, g.hits selector = .ok ids) :
    ∃ ids, g'.hits selector = .ok ids := by
  cases selector with
  | none => exact ⟨[], rfl⟩
  | some text =>
    obtain ⟨ids, hids⟩ := h
    obtain ⟨hits, hselect, -⟩ := Except.map_eq_ok hids
    obtain ⟨hits', hselect'⟩ := select_ok_of_bare hbare hlive hplain hselect
    exact ⟨_, by rw [Graph.hits, hselect']; rfl⟩

/-- `withEdges` of a selection holds again what it held before, where it is still there. -/
theorem Thins.mem_withEdges (h : Thins g g') (hnodup : g.ids.Nodup)
    (hplain : Selector.PlainText (some text)) {hits hits' : List Element}
    (hselect : g.select text = .ok hits) (hselect' : g'.select text = .ok hits') {e x : Element}
    (he : e ∈ g.live) (hx : x ∈ g'.live) (hsame : e.bare = x.bare) (hmem : e.id ∈ g.withEdges hits) :
    x.id ∈ g'.withEdges hits' := by
  have hhit {d y : Element} (hd : d ∈ hits) (hy : y ∈ g'.live) (hsame : d.bare = y.bare) :
      y ∈ hits' := by
    refine (mem_select hselect').2 ⟨hy, ?_⟩
    have hkind : d.kind = y.kind := (congrArg Element.kind hsame : d.bare.kind = y.bare.kind)
    have hdata : d.data = y.data := (congrArg Element.data hsame : d.bare.data = y.bare.data)
    exact (Element.matches_congr hplain hkind hdata).1 ((mem_select hselect).1 hd).2
  refine mem_distinct.2 (List.mem_append.2 ?_)
  rcases List.mem_append.1 (mem_distinct.1 hmem) with hmem | hmem
  · obtain ⟨d, hd, hdid⟩ := List.mem_map.1 hmem
    obtain rfl := live_eq_of_id_eq hnodup ((mem_select hselect).1 hd).1 he hdid
    exact .inl (List.mem_map_of_mem (hhit hd hx hsame))
  · -- the node that the edge is at is still there
    obtain ⟨id, hnode, d, hd, hat, hdid⟩ := mem_edgesAt.1 hmem
    obtain rfl := live_eq_of_id_eq hnodup hd he hdid
    obtain ⟨n, hn, rfl⟩ := List.mem_map.1 hnode
    obtain ⟨hn, hisNode⟩ := List.mem_filter.1 hn
    obtain ⟨m, hm, hpair⟩ :=
      Element.exists_bare_eq h.bare.symm (mem_live.1 ((mem_select hselect).1 hn).1).1
    have hmnode : m.isNode = true := (congrArg Element.isNode hpair).trans hisNode
    have hmhit := hhit hn (mem_live.2 ⟨hm, h.nodes m hm hmnode⟩) hpair.symm
    have hanchors : d.anchors = x.anchors :=
      (congrArg Element.anchors hsame : d.bare.anchors = x.bare.anchors)
    have hmid : m.id = n.id := (congrArg Element.id hpair : m.bare.id = n.bare.id)
    refine .inr (mem_edgesAt.2 ⟨m.id, ?_, x, hx, ?_, rfl⟩)
    · exact List.mem_map_of_mem (List.mem_filter.2 ⟨hmhit, hmnode⟩)
    · rw [hmid, ← hanchors]
      exact hat

/-- `hideClosure` can be computed with the same nodes and fewer edges, as no more edges are left
over then. -/
theorem Thins.hideClosure_ok (h : Thins g g') (hnodup : g.ids.Nodup)
    (hplain : Selector.PlainText (some text)) (hok : ∃ ids, g.hideClosure text = .ok ids) :
    ∃ ids, g'.hideClosure text = .ok ids := by
  obtain ⟨hits, hselect, hends⟩ := hideClosure_ok_iff.1 hok
  obtain ⟨hits', hselect'⟩ := select_ok_of_bare h.bare h.live hplain hselect
  refine hideClosure_ok_iff.2 ⟨hits', hselect', fun x hx hedge hleft => ?_⟩
  obtain ⟨e, he, hsame⟩ := exists_live_of_bare h.bare h.live hx
  have hleft' : e.id ∉ g.withEdges hits := fun hmem =>
    hleft (h.mem_withEdges hnodup hplain hselect hselect' he hx hsame hmem)
  have hends := hends e he ((congrArg Element.isEdge hsame).trans hedge) hleft'
  have hsource : e.source = x.source := (congrArg Element.source hsame : e.bare.source = x.bare.source)
  have htarget : e.target = x.target := (congrArg Element.target hsame : e.bare.target = x.bare.target)
  rw [← hsource, ← htarget]
  exact hends

/-! ## Undoing -/

/-- `putBack` takes no element out. -/
theorem live_putBack {g : Graph} {es : List Element} {x : Element} (hx : x ∈ (g.putBack es).1.elements) :
    ∃ d ∈ g.elements, d.bare = x.bare ∧ (d.live = true → x.live = true) := by
  obtain ⟨-, -, -, helements, -⟩ := g.putBack_spec es
  rw [helements] at hx
  obtain ⟨d, hd, rfl⟩ := List.mem_map.1 hx
  refine ⟨d, hd, ?_, fun hlive => ?_⟩
  · split <;> rfl
  · split
    · rfl
    · exact hlive

/-- `restore` puts nodes back that are asked for. -/
theorem live_restore {ids : List Text} {x : Element} (hx : x ∈ (g.restore ids).1.elements)
    (hnode : x.isNode = true) :
    ∃ d ∈ g.elements, d.bare = x.bare ∧ (d.live = true ∨ d.id ∈ ids → x.live = true) := by
  -- nodes are put back before edges, without a condition
  let members := g.elements.filter fun e => e.removed && e.id ∈ ids
  let nodes := members.filter (·.isNode)
  have hnodes : ∀ n ∈ nodes, n.isNode = true := fun n hn => (List.mem_filter.1 hn).2
  have hx' : x ∈ ((g.putBack nodes).1.putBack (members.filter (·.isEdge))).1.elements := by
    rw [← putBack_append]
    simpa only [restore, touch_elements] using hx
  obtain ⟨d, hd, hsame, hlive⟩ := live_putBack hx'
  rw [g.putBack_nodes hnodes] at hd
  obtain ⟨c, hc, rfl⟩ := List.mem_map.1 hd
  have hcsame : c.bare = x.bare := by
    rw [← hsame]
    split <;> rfl
  refine ⟨c, hc, hcsame, fun hasked => hlive ?_⟩
  split
  · rfl
  · rename_i hother
    rcases hasked with hc' | hid
    · exact hc'
    · -- a node that is asked for and out would be among those put back
      cases hremoved : c.removed with
      | false => simp [Element.live, hremoved]
      | true =>
        refine absurd (List.mem_map_of_mem (List.mem_filter.2 ⟨List.mem_filter.2 ⟨hc, ?_⟩, ?_⟩)) hother
        · simp [hremoved, hid]
        · exact (congrArg Element.isNode hcsame).trans hnode

/-- `restore` of what was taken out of a graph that was all there brings all nodes back. -/
theorem live_restore_conceal (hlive : ∀ e ∈ g.elements, e.live = true) (ids : List Text) {x : Element}
    (hx : x ∈ ((g.conceal .removed ids).1.restore (g.conceal .removed ids).2).1.elements)
    (hnode : x.isNode = true) : x.live = true := by
  obtain ⟨d, hd, -, hback⟩ := live_restore hx hnode
  rw [conceal_elements] at hd
  obtain ⟨c, hc, rfl⟩ := List.mem_map.1 hd
  -- a node is asked for, or was not taken out
  refine hback ?_
  by_cases hmem : c.id ∈ (g.conceal .removed ids).2
  · rw [if_pos hmem]
    exact .inr hmem
  · rw [if_neg hmem]
    exact .inl (hlive c hc)

/-- `release` of what was hidden on a graph that was all there leaves all nodes there. -/
theorem thins_release (hlive : ∀ e ∈ g.elements, e.live = true) (name : Text) (selector : Option Text)
    (occasion : HideOccasion) :
    let hidden := g.rehide name none selector occasion
    Thins g (hidden.1.release name (handleOf hidden.2) false) := by
  intro hidden
  have hbare : (hidden.1.release name (handleOf hidden.2) false).bare = g.bare :=
    (bare_release _ _ _ _).trans (g.bare_rehide name none selector occasion)
  refine ⟨hbare, hlive, fun x hx hnode => ?_⟩
  cases hcompress : occasion.compress with
  | false =>
    -- elements were made visible or invisible only
    have hnone : ∀ h : HideHandle, none = some h →
        h.mode = .hidden ∨ occasion.graphChanged = true ∨ h.graph ≠ name := fun h hh => nomatch hh
    obtain ⟨⟨seen, hseen⟩, hmode⟩ := rehide_visible name hnone hcompress g selector
    obtain ⟨seen', hseen'⟩ := release_visible name false (fun h hh => .inl (hmode h hh)) hidden.1
    rw [hseen', hseen, List.map_map] at hx
    obtain ⟨e, he, rfl⟩ := List.mem_map.1 hx
    exact hlive e he
  | true =>
    cases selector with
    | none => exact hlive x hx
    | some text =>
      cases hclosure : g.hideClosure text with
      | error fault =>
        have hhidden : hidden = (g, .error fault) := rehide_none_of_error hclosure name
        rw [hhidden] at hx
        exact hlive x hx
      | ok ids =>
        have hhidden : hidden = ((g.conceal .removed ids).1,
            .ok (some ⟨name, .removed, (g.conceal .removed ids).2⟩)) :=
          rehide_none_of_ok .removed hclosure (by rw [hcompress]; rfl) name
        rw [hhidden] at hx
        refine live_restore_conceal hlive ids ?_ hnode
        simpa [handleOf, release] using hx

end Graph

namespace Hider

variable {g g' : Graph} {name : Text} {hider : Hider} {selector : Option Text}
  {occasion occasion' : HideOccasion}

/-- `apply` succeeds when there is no selector, or its closure can be computed once the handle is
undone. -/
theorem apply_ok_iff : (∃ outcome, (hider.apply name g selector occasion).2.2 = .ok outcome) ↔
    ∀ text, selector = some text →
      ∃ ids, (g.release name hider.handle occasion.graphChanged).hideClosure text = .ok ids := by
  have hrelease := Graph.release_congr (show g.startBatch.elements = g.elements from rfl) hider.handle
    name occasion.graphChanged
  rw [apply_result]
  unfold Graph.rehide
  cases selector with
  | none => exact iff_of_true ⟨_, rfl⟩ fun text hnone => nomatch hnone
  | some text =>
    simp only [Option.some.injEq, forall_eq', Graph.hideClosure_congr hrelease text]
    cases (g.release name hider.handle occasion.graphChanged).hideClosure text with
    | error fault => simp [Except.map]
    | ok ids => simp [Except.map]

/-- `apply` succeeds again with the same selector, when the first evaluation on a snapshot did. -/
theorem apply_again_ok (hnodup : g.ids.Nodup) (hlive : ∀ e ∈ g.elements, e.live = true)
    (hplain : Selector.PlainText selector) (hhandle : hider.handle = none)
    (hok : ∃ outcome, (hider.apply name g selector occasion).2.2 = .ok outcome)
    (hg' : g'.elements = (hider.apply name g selector occasion).2.1.elements)
    (hkept : occasion'.graphChanged = false) :
    ∃ outcome, ((hider.apply name g selector occasion).1.apply name g' selector occasion').2.2 =
      .ok outcome := by
  refine apply_ok_iff.2 fun text hsome => ?_
  subst hsome
  -- the first call found a closure, in the graph as it was then
  have hclosure : ∃ ids, g.startBatch.hideClosure text = .ok ids := by
    obtain ⟨ids, hids⟩ := apply_ok_iff.1 hok text rfl
    rw [hhandle] at hids
    have hsame : g.startBatch.elements = g.elements := rfl
    exact ⟨ids, (Graph.hideClosure_congr hsame text).trans hids⟩
  -- what the first call left only thins that graph out, so the closure is still found
  have hthins := Graph.thins_release (g := g.startBatch) hlive name (some text) occasion
  obtain ⟨ids, hids⟩ := hthins.hideClosure_ok hnodup hplain hclosure
  refine ⟨ids, ?_⟩
  rw [apply_elements, hhandle] at hg'
  rw [apply_hider, hhandle, hkept, ← hids]
  exact Graph.hideClosure_congr (Graph.release_congr hg' _ name false) text

end Hider

end MeshLens
