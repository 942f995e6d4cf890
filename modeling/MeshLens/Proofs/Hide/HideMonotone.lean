import MeshLens.Proofs.Graph.RemoveCorrect
import MeshLens.Proofs.Hide.BoxRoundsLeast
import MeshLens.Proofs.Hide.ReapplySucceeds
import MeshLens.Proofs.Query.CriteriaMatching
import MeshLens.Proofs.Selector.RoundTrip

/-!
# Hiding more

One more alternative in a selector selects what it selected before, and more. Then more edges go with
the selection, fewer edges keep their ends, and more busy nodes are left without an edge: a closure of
more holds more. What hiding takes in the end is the least set that takes in what is to be hidden, each
box with nothing left in it and, where elements are taken out, what goes along with a node. The least
set around more is no smaller.

## Key results

- `Graph.select_append`: what a selector with one more alternative selects
- `Graph.hideClosure_mono`: a closure of more holds more, and can be computed
- `Graph.Absorbs`, `Graph.absorbs_conceal_isLeast`: what hiding takes, in either way
- `Hider.apply_append_subset`: one more alternative never reveals anything
-/

namespace MeshLens

namespace Graph

variable {g : Graph}

/-! ## Selecting more -/

/-- `select` parses a text and then matches the live elements. -/
theorem select_eq_ok_iff {text : Text} {hits : List Element} :
    g.select text = .ok hits ↔
      ∃ s, Selector.parse text = .ok s ∧ Element.matching s g.live = .ok hits := by
  unfold select
  cases Selector.parse text <;> simp

/-- `select` with one more alternative selects what either selector selects. -/
theorem select_append {a b : Text} {hits hits' : List Element} (ha : g.select a = .ok hits)
    (hb : g.select b = .ok hits') : ∃ all, g.select (a ++ "," ++ b) = .ok all ∧
      ∀ e, e ∈ all ↔ e ∈ hits ∨ e ∈ hits' := by
  obtain ⟨s, hs, hhits⟩ := select_eq_ok_iff.1 ha
  obtain ⟨t, ht, hhits'⟩ := select_eq_ok_iff.1 hb
  have hparse := Selector.parse_append hs ht
  generalize hboth : (⟨a ++ "," ++ b, s.groups ++ t.groups⟩ : Selector) = both at hparse
  -- on an element that both answer for, the two together answer with either
  have haccepts {e : Element} {x y : Bool} (hx : s.accepts e = .ok x) (hy : t.accepts e = .ok y) :
      both.accepts e = .ok (x || y) := by
    rw [← hboth]
    refine (SelectorGroup.anyAccepts_append s.groups t.groups e).trans ?_
    have hfirst : SelectorGroup.anyAccepts s.groups e = .ok x := hx
    rw [hfirst]
    cases x with
    | false => exact hy
    | true => rfl
  -- both selectors answer for each element, since neither search failed
  have hanswers := Element.matching_ok_iff.1 ⟨hits, hhits⟩
  have hanswers' := Element.matching_ok_iff.1 ⟨hits', hhits'⟩
  obtain ⟨all, hall⟩ : ∃ all, Element.matching both g.live = .ok all := by
    refine Element.matching_ok_iff.2 fun e he => ?_
    obtain ⟨x, hx⟩ := hanswers e he
    obtain ⟨y, hy⟩ := hanswers' e he
    exact ⟨_, haccepts hx hy⟩
  refine ⟨all, select_eq_ok_iff.2 ⟨both, hparse, hall⟩, fun e => ?_⟩
  rw [Element.mem_matching hall, Element.mem_matching hhits, Element.mem_matching hhits', ← and_or_left,
    and_congr_right_iff]
  intro he
  obtain ⟨x, hx⟩ := hanswers e he
  obtain ⟨y, hy⟩ := hanswers' e he
  rw [haccepts hx hy, hx, hy]
  simp

/-! ## A closure of more -/

/-- `withEdges` of more is more. -/
theorem withEdges_mono {hits hits' : List Element} (hmore : ∀ e ∈ hits, e ∈ hits') {id : Text}
    (h : id ∈ g.withEdges hits) : id ∈ g.withEdges hits' := by
  rw [withEdges, mem_distinct, List.mem_append] at h ⊢
  rcases h with h | h
  · obtain ⟨e, he, rfl⟩ := List.mem_map.1 h
    exact .inl (List.mem_map_of_mem (hmore e he))
  · obtain ⟨n, hn, hedge⟩ := mem_edgesAt.1 h
    obtain ⟨e, he, rfl⟩ := List.mem_map.1 hn
    obtain ⟨he, hnode⟩ := List.mem_filter.1 he
    refine .inr (mem_edgesAt.2 ⟨e.id, ?_, hedge⟩)
    exact List.mem_map_of_mem (List.mem_filter.2 ⟨hmore e he, hnode⟩)

/-- `endsOf` more edges is more. -/
theorem endsOf_mono {edges edges' : List Element} (hmore : ∀ e ∈ edges, e ∈ edges')
    {ids ids' : List Text} (h : g.endsOf edges = .ok ids) (h' : g.endsOf edges' = .ok ids') {id : Text}
    (hid : id ∈ ids) : id ∈ ids' := by
  obtain ⟨e, he, hend⟩ := (mem_endsOf h).1 hid
  exact (mem_endsOf h').2 ⟨e, hmore e he, hend⟩

/-- `hideClosure` of more can be computed as well, and holds more. -/
theorem hideClosure_mono (hnodup : g.ids.Nodup) {a b : Text} {hits hits' : List Element}
    (ha : g.select a = .ok hits) (hb : g.select b = .ok hits') (hmore : ∀ e ∈ hits, e ∈ hits')
    {ids : List Text} (h : g.hideClosure a = .ok ids) :
    ∃ ids', g.hideClosure b = .ok ids' ∧ ∀ id ∈ ids, id ∈ ids' := by
  obtain ⟨ids', h'⟩ : ∃ ids', g.hideClosure b = .ok ids' := by
    -- fewer edges are left over, and so fewer ends have to be looked up
    obtain ⟨found, hfound, hends⟩ := hideClosure_ok_iff.1 ⟨ids, h⟩
    obtain rfl := Except.ok.inj (hfound.symm.trans ha)
    exact hideClosure_ok_iff.2 ⟨hits', hb, fun e he hedge hleft =>
      hends e he hedge fun hchosen => hleft (withEdges_mono hmore hchosen)⟩
  obtain ⟨found, joined, hfound, hjoined, hmem⟩ := mem_hideClosure_iff hnodup h
  obtain ⟨found', joined', hfound', hjoined', hmem'⟩ := mem_hideClosure_iff hnodup h'
  obtain rfl := Except.ok.inj (hfound.symm.trans ha)
  obtain rfl := Except.ok.inj (hfound'.symm.trans hb)
  refine ⟨ids', h', fun id hid => ?_⟩
  obtain ⟨e, he, rfl⟩ := List.mem_map.1 (mem_liveIds_of_mem_hideClosure h id hid)
  refine (hmem' e he).2 (((hmem e he).1 hid).imp_right ?_)
  rintro (hchosen | ⟨hnode, hbusy, hlonely⟩)
  · exact .inl (withEdges_mono hmore hchosen)
  · -- the edges that keep their ends now did so before
    refine .inr ⟨hnode, hbusy, fun hkept => hlonely (endsOf_mono ?_ hjoined' hjoined hkept)⟩
    intro d hd
    obtain ⟨hd, hedge⟩ := List.mem_filter.1 hd
    obtain ⟨hd, hleft⟩ := List.mem_filter.1 hd
    refine List.mem_filter.2 ⟨List.mem_filter.2 ⟨hd, ?_⟩, hedge⟩
    exact decide_eq_true fun hchosen => of_decide_eq_true hleft (withEdges_mono hmore hchosen)

/-! ## What hiding takes -/

/-- Whether a set takes in what `remove` takes out along with the nodes in it. -/
def AbsorbsAlong (es : List Element) (T : Set Text) : Prop :=
  ∀ n ∈ es, n.isNode = true → n.id ∈ T → ∀ e ∈ es, e.IsAt n ∨ e.IsIn n → e.id ∈ T

/-- Whether a set takes in each box of which it holds all that is in the box and, where elements are
taken out, what goes along with the nodes in it. -/
structure Absorbs (mode : HideMode) (es : List Element) (T : Set Text) : Prop where
  boxes : ∀ b ∈ es, b.isBox = true → (∀ c ∈ es, c.holder? = some b.id → c.id ∈ T) → b.id ∈ T
  along : mode = .removed → AbsorbsAlong es T

section Taking

variable {es : List Element} (hes : AllShown es) (hnodup : (es.map (·.id)).Nodup) {T : Set Text}
  {taken : List Text} {mode : HideMode}

include hes

/-- `live` elements are those that were not taken out. -/
theorem mem_live_iff_of_changed (h : g.elements = Element.changed es taken (Element.withRemoved true))
    {e : Element} : e ∈ g.live ↔ e ∈ es ∧ e.id ∉ taken := by
  have hlive : g.live = es.filter (·.id ∉ taken) := by
    rw [live, h]
    exact HideMode.filter_leaves .removed hes taken
  rw [hlive, List.mem_filter, decide_eq_true_eq]

include hnodup

/-- `remove` stays within a set that takes in what goes along. -/
theorem remove_within (h : g.elements = Element.changed es taken (Element.withRemoved true))
    (hT : AbsorbsAlong es T) {ids : List Text} (hids : ∀ id ∈ ids, id ∈ T) :
    ∀ id ∈ (g.remove ids).2, id ∈ T := by
  have hnodup' : g.ids.Nodup := nodup_of_changed (Element.withRemoved_id true) hnodup h
  have hlive {e : Element} (he : e ∈ g.live) : e ∈ es := ((mem_live_iff_of_changed hes h).1 he).1
  -- the elements of the graph in the set are among those sets of which the least goes
  have hcloses : (∀ e ∈ g.live, e.id ∈ ids → e ∈ {e | e ∈ g.live ∧ e.id ∈ T}) ∧
      g.TakesAlong {e | e ∈ g.live ∧ e.id ∈ T} :=
    ⟨fun e he hid => ⟨he, hids e.id hid⟩, fun n hn hnode e he hwith =>
      ⟨he, hT n (hlive hn.1) hnode hn.2 e (hlive he) hwith⟩⟩
  intro id hid
  obtain ⟨e, he, rfl⟩ := List.mem_map.1 (Search.mem_space_of_mem_reach (mem_remove.1 hid))
  exact ((remove_isLeast hnodup' ids).2 hcloses ⟨he, hid⟩).2

/-- `takes` of a round stays within a set that absorbs, and that holds what was taken. -/
theorem takes_within (h : g.elements = Element.changed es taken mode.conceal)
    (hT : Absorbs mode es T) (htaken : ∀ id ∈ taken, id ∈ T) : ∀ id ∈ mode.takes g, id ∈ T := by
  have hboxes : ∀ id ∈ mode.boxes g, id ∈ T := by
    intro id hid
    obtain ⟨b, hb, hbox, rfl, -, hall⟩ := (mem_boxes_iff_emptied h hes).1 hid
    exact hT.boxes b hb hbox fun c hc hholder => htaken c.id (hall c hc hholder)
  cases mode with
  | hidden => exact hboxes
  | removed => exact remove_within hes hnodup h (hT.along rfl) hboxes

/-- `rounds` stay within a set that absorbs, and that holds what was taken. -/
theorem rounds_within {g : Graph} {taken : List Text}
    (h : g.elements = Element.changed es taken mode.conceal)
    (hT : Absorbs mode es T) (htaken : ∀ id ∈ taken, id ∈ T) :
    ∀ id ∈ (mode.rounds g taken).2, id ∈ T := by
  by_cases hboxes : mode.boxes g = []
  · rw [HideMode.rounds_of_nil hboxes]
    exact htaken
  · -- by induction on the number of boxes left, which each round lowers
    have hlt := HideMode.boxesLeft_round_lt hboxes
    rw [HideMode.rounds_of_ne_nil hboxes]
    refine rounds_within (HideMode.round_elements h) hT fun id hid => ?_
    rcases List.mem_append.1 (mem_distinct.1 hid) with hid | hid
    · exact htaken id hid
    · exact takes_within hes hnodup h hT htaken id hid
termination_by mode.boxesLeft g

/-- `remove` takes along what goes with what is taken out. -/
theorem remove_absorbsAlong (h : g.elements = Element.changed es taken (Element.withRemoved true))
    (halong : AbsorbsAlong es {id | id ∈ taken}) (ids : List Text) :
    AbsorbsAlong es {id | id ∈ distinct (taken ++ (g.remove ids).2)} := by
  have hnodup' : g.ids.Nodup := nodup_of_changed (Element.withRemoved_id true) hnodup h
  intro n hn hnode hgone e he hwith
  show e.id ∈ distinct (taken ++ (g.remove ids).2)
  replace hgone := List.mem_append.1 (mem_distinct.1 hgone)
  rw [mem_distinct, List.mem_append]
  by_cases hout : e.id ∈ taken
  · exact .inl hout
  -- the element was in the graph, and so was the node: else it would have gone with the node
  have hlive : e ∈ g.live := (mem_live_iff_of_changed hes h).2 ⟨he, hout⟩
  have hnout : n.id ∉ taken := fun hnout => hout (halong n hn hnode hnout e he hwith)
  have hnlive : n ∈ g.live := (mem_live_iff_of_changed hes h).2 ⟨hn, hnout⟩
  have hclosed := (remove_isLeast hnodup' ids).1.2
  exact .inr (hclosed n ⟨hnlive, hgone.resolve_left hnout⟩ hnode e hlive hwith).2

/-- `removeEmptyBoxes` takes along what goes with the boxes. -/
theorem rounds_absorbsAlong {g : Graph} {taken : List Text}
    (h : g.elements = Element.changed es taken (Element.withRemoved true))
    (halong : AbsorbsAlong es {id | id ∈ taken}) :
    AbsorbsAlong es {id | id ∈ (g.removeEmptyBoxes taken).2} := by
  by_cases hboxes : g.emptyBoxes = []
  · rw [removeEmptyBoxes_of_nil hboxes]
    exact halong
  · -- by induction on the number of live elements, which each round lowers
    have hlt := emptyBoxes_liveCount_lt hboxes
    rw [removeEmptyBoxes_of_ne_nil hboxes]
    exact rounds_absorbsAlong (remove_elements_of_changed h _)
      (remove_absorbsAlong hes hnodup h halong _)
termination_by g.liveCount

end Taking

/-- `conceal` takes, in either way, the least set that holds what is to be hidden and takes in the
boxes that it empties and, where elements are taken out, what goes along. -/
theorem absorbs_conceal_isLeast (hg : g.Untouched) (mode : HideMode) {ids : List Text}
    (hids : ∀ id ∈ ids, id ∈ g.ids) :
    IsLeast {T : Set Text | (∀ id ∈ ids, id ∈ T) ∧ Absorbs mode g.elements T}
      {id | id ∈ (g.conceal mode ids).2} := by
  have hstart : g.elements = Element.changed g.elements [] (Element.withRemoved true) :=
    Element.changed_nil.symm
  refine ⟨⟨fun id hid => ?_, ⟨fun b hb hbox hall => ?_, fun hmode => ?_⟩⟩, ?_⟩
  · obtain ⟨e, he, rfl⟩ := List.mem_map.1 (hids id hid)
    exact mem_conceal_of_mem_ids hg mode he hid
  · -- one more round would take the box
    refine Decidable.byContradiction (p := b.id ∈ (g.conceal mode ids).2) fun hleft => ?_
    obtain ⟨n, -, hends, hlast⟩ := g.exists_rounds_conceal mode ids
    have hemptied : b.id ∈ mode.boxes (g.conceal mode ids).1 :=
      (mem_boxes_iff_emptied (conceal_elements g mode ids) hg.shown).2 ⟨b, hb, hbox, rfl, hleft, hall⟩
    rw [hlast, hends.ends] at hemptied
    exact List.not_mem_nil hemptied
  · subst hmode
    have hremoved := remove_absorbsAlong hg.shown hg.nodup hstart
      (fun _ _ _ hnone => absurd hnone List.not_mem_nil) ids
    refine rounds_absorbsAlong hg.shown hg.nodup (remove_elements g ids) ?_
    intro n hn hnode hgone e he hwith
    exact mem_distinct.1 (hremoved n hn hnode (mem_distinct.2 hgone) e he hwith)
  · -- what is taken stays within any such set, round after round
    rintro T ⟨hheld, hT⟩ id hid
    have hid : id ∈ (mode.rounds (g.begin mode ids).1 (g.begin mode ids).2).2 :=
      (conceal_eq_rounds g mode ids) ▸ hid
    refine rounds_within hg.shown hg.nodup (begin_elements g mode ids) hT ?_ id hid
    cases mode with
    | hidden => exact hheld
    | removed => exact remove_within hg.shown hg.nodup hstart (hT.along rfl) hheld

/-- `conceal` of more takes more. -/
theorem conceal_mono (hg : g.Untouched) (mode : HideMode) {ids ids' : List Text}
    (hids : ∀ id ∈ ids, id ∈ ids') (hids' : ∀ id ∈ ids', id ∈ g.ids) :
    ∀ id ∈ (g.conceal mode ids).2, id ∈ (g.conceal mode ids').2 := by
  obtain ⟨hheld, habsorbs⟩ := (absorbs_conceal_isLeast hg mode hids').1
  have hleast := (absorbs_conceal_isLeast hg mode fun id hid => hids' id (hids id hid)).2
  exact fun id hid => hleast ⟨fun id hid => hheld id (hids id hid), habsorbs⟩ hid

/-- `release` of a handle on another snapshot drops it. -/
theorem release_of_stale {name : Text} {handle : Option HideHandle} {graphChanged : Bool}
    (hstale : ∀ h, handle = some h → graphChanged = true ∨ h.graph ≠ name) (g : Graph) :
    (g.release name handle graphChanged).elements = g.elements := by
  unfold release
  cases handle with
  | none => rfl
  | some h =>
    dsimp only
    rw [if_pos (hstale h rfl)]
    rfl

end Graph

/-! ## One more alternative -/

namespace Hider

variable {g : Graph} {hider hider' : Hider} {name name' text : Text} {occasion occasion' : HideOccasion}

/-- `apply` with nothing to undo on a snapshot answers what it takes around a closure. -/
theorem apply_outcome_of_stale
    (hstale : ∀ h, hider.handle = some h → occasion.graphChanged = true ∨ h.graph ≠ name)
    {mode : HideMode} (hmode : (if occasion.compress then HideMode.removed else .hidden) = mode)
    {ids : List Text} (h : g.hideClosure text = .ok ids) : ∃ requested,
      (hider.apply name g (some text) occasion).2.2 =
        .ok (HideHandle.outcome (some ⟨name, mode, (g.conceal mode ids).2⟩) requested) := by
  have hreleased : (g.startBatch.release name hider.handle occasion.graphChanged).elements =
      g.elements := Graph.release_of_stale hstale g.startBatch
  have hclosure := (Graph.hideClosure_congr hreleased text).trans h
  have hconceal := Graph.conceal_congr hreleased mode ids
  rw [apply_result, Graph.rehide]
  simp only [hclosure, hmode, hconceal]
  exact ⟨_, rfl⟩

/-- `apply` with one more alternative never reveals anything. On a new graph, where one selector can
be hidden and another one can be evaluated, the two with a comma between can be hidden in the same
way, and what is made invisible or taken out with the one is so with both. The hiders may hold
something on other snapshots. -/
theorem apply_append_subset {payload : Value} (hbuilt : Graph.ofValue payload = .ok g) {a b : Text}
    (hstale : ∀ h, hider.handle = some h → occasion.graphChanged = true ∨ h.graph ≠ name)
    (hstale' : ∀ h, hider'.handle = some h → occasion'.graphChanged = true ∨ h.graph ≠ name')
    (hcompress : occasion.compress = occasion'.compress) {outcome : HideOutcome}
    (ha : (hider.apply name g (some a) occasion).2.2 = .ok outcome) {hits : List Element}
    (hb : g.select b = .ok hits) : ∃ outcome',
      (hider'.apply name' g (some (a ++ "," ++ b)) occasion').2.2 = .ok outcome' ∧
        (∀ id ∈ outcome.hidden, id ∈ outcome'.hidden) ∧
        ∀ id ∈ outcome.removed, id ∈ outcome'.removed := by
  have hg := Graph.ofValue_untouched hbuilt
  -- neither handle is on the snapshot, so both calls start from the graph as it was read
  obtain ⟨ids, hids⟩ := apply_ok_iff.1 ⟨outcome, ha⟩ a rfl
  rw [Graph.hideClosure_congr (Graph.release_of_stale hstale g)] at hids
  obtain ⟨found, hfound, -⟩ := Graph.hideClosure_ok_iff.1 ⟨ids, hids⟩
  obtain ⟨all, hall, hmem⟩ := Graph.select_append hfound hb
  obtain ⟨ids', hids', hmore⟩ :=
    Graph.hideClosure_mono hg.nodup hfound hall (fun e he => (hmem e).2 (.inl he)) hids
  generalize hmode : (if occasion.compress then HideMode.removed else .hidden) = mode
  obtain ⟨requested, houtcome⟩ := apply_outcome_of_stale hstale hmode hids
  obtain ⟨requested', houtcome'⟩ := apply_outcome_of_stale hstale' (hcompress ▸ hmode) hids'
  -- a bigger closure conceals more, in both ways of hiding
  have hsubset := Graph.conceal_mono hg mode hmore (Graph.mem_hideClosure hids')
  obtain rfl := Except.ok.inj (ha.symm.trans houtcome)
  refine ⟨_, houtcome', ?_⟩
  cases mode with
  | hidden => exact ⟨hsubset, nofun⟩
  | removed => exact ⟨nofun, hsubset⟩

/-- Two nodes in a box within a box, each joined to a third one outside, as the JSON data that
`Graph.ofValue` reads. -/
def pairedPayload : Value :=
  .list [
    .object [("data", .object [("id", .text "outer"), ("isBox", .bool true)])],
    .object [("data", .object [("id", .text "inner"), ("isBox", .bool true), ("parent", .text "outer")])],
    .object [("data", .object [("id", .text "a"), ("parent", .text "inner"), ("app", .text "x")])],
    .object [("data", .object [("id", .text "b"), ("parent", .text "inner"), ("app", .text "y")])],
    .object [("data", .object [("id", .text "c")])],
    .object [("data", .object [("source", .text "a"), ("target", .text "c")])],
    .object [("data", .object [("source", .text "b"), ("target", .text "c")])]]

/-- `apply_append_subset` in nested boxes: with the first of the two nodes goes its edge; with both
go the boxes and the node outside, too. -/
theorem apply_append_subset_paired :
    ∃ g, Graph.ofValue pairedPayload = .ok g ∧ ∃ hits outcome outcome',
      g.select "[app = \"y\"]" = .ok hits ∧
        (apply {} "g" g (some "[app = \"x\"]") { compress := true }).2.2 = .ok outcome ∧
        (apply {} "g" g (some "[app = \"x\"],[app = \"y\"]") { compress := true }).2.2 = .ok outcome' ∧
        outcome.removed = (["a", "a->c"] : List Text) ∧
        outcome'.removed = (["a", "b", "c", "a->c", "b->c", "inner", "outer"] : List Text) ∧
        ∀ id ∈ outcome.removed, id ∈ outcome'.removed := by
  have hbuilt : ∃ g, Graph.ofValue pairedPayload = .ok g ∧
      (g.select "[app = \"y\"]").toOption.isSome = true ∧
      (apply {} "g" g (some "[app = \"x\"]") { compress := true }).2.2 =
        .ok { removed := ["a", "a->c"] } ∧
      (apply {} "g" g (some "[app = \"x\"],[app = \"y\"]") { compress := true }).2.2 =
        .ok { removed := ["a", "b", "c", "a->c", "b->c", "inner", "outer"] } :=
    ⟨_, rfl, by decide +kernel, by decide +kernel, by decide +kernel⟩
  obtain ⟨g, hg, hselect, hone, hboth⟩ := hbuilt
  obtain ⟨hits, hhits⟩ := Except.exists_eq_ok_of_isSome hselect
  have hstale : ∀ h, ({} : Hider).handle = some h →
      ({ compress := true } : HideOccasion).graphChanged = true ∨ h.graph ≠ "g" := fun _ hh => nomatch hh
  obtain ⟨outcome', hok, -, hsubset⟩ := apply_append_subset hg hstale hstale rfl hone hhits
  obtain rfl := Except.ok.inj (hboth.symm.trans hok)
  exact ⟨g, hg, hits, _, _, hhits, hone, hboth, rfl, rfl, hsubset⟩

end Hider

end MeshLens
