import Mathlib.Logic.Function.Iterate
import Mathlib.Order.Bounds.Defs
import MeshLens.Proofs.Hide.ModesAgree

/-!
# Which boxes go with what they hold

Each round of hiding looks at the whole graph and takes all boxes of which nothing is left. The boxes
that are taken in the end are the least set that takes in every box of which all that it holds has gone
or is taken in, however boxes are nested. Boxes that hold each other, or themselves, are not taken
unless something else takes them along.

## Key results

- `Graph.TakesEmptied`: sets of boxes that take in what they empty
- `HideMode.exists_rounds`: rounds end, since each one lowers the number of boxes that are left
- `Graph.Rounded.round`, `Graph.Rounded.isLeast`: what a round takes, and what all of them do
- `Graph.box_rounds_isLeast`: both ways of hiding take the least set
-/

namespace MeshLens

/-! ## Rounds of boxes -/

namespace HideMode

/-- The boxes that the next round takes in a `HideMode`: those that are blank, or empty. -/
def boxes : HideMode → Graph → List Text
  | hidden => Graph.blankBoxes
  | removed => Graph.emptyBoxes

/-- A round of boxes in a `HideMode`. -/
def round : HideMode → Graph → Graph
  | hidden => fun g => g.setVisible g.blankBoxes false
  | removed => fun g => (g.remove g.emptyBoxes).1

/-- What a round of boxes takes in a `HideMode`: the boxes, and what goes with them. -/
def takes : HideMode → Graph → List Text
  | hidden => Graph.blankBoxes
  | removed => fun g => (g.remove g.emptyBoxes).2

/-- Rounds of boxes in a `HideMode`, until none is left to take; gives what was hidden. -/
def rounds : HideMode → Graph → List Text → Graph × List Text
  | hidden => Graph.hideBlankBoxes
  | removed => Graph.removeEmptyBoxes

/-- Whether there is a box to take in each of so many rounds, and none after them. -/
structure EndsAfter (mode : HideMode) (g : Graph) (n : Nat) : Prop where
  goesOn : ∀ m < n, mode.boxes (mode.round^[m] g) ≠ []
  ends : mode.boxes (mode.round^[n] g) = []

/-- How many boxes a `HideMode` has left. -/
def boxesLeft (mode : HideMode) (g : Graph) : Nat :=
  g.elements.countP fun e => e.isBox && mode.leaves e

variable {mode : HideMode} {g : Graph} {id : Text}

/-- `rounds` end where there is no box to take. -/
theorem rounds_of_nil (h : mode.boxes g = []) (taken : List Text) :
    mode.rounds g taken = (g, taken) := by
  cases mode with
  | hidden => exact Graph.hideBlankBoxes_of_nil h
  | removed => exact Graph.removeEmptyBoxes_of_nil h

/-- `rounds` go on after a `round` where there is a box to take. -/
theorem rounds_of_ne_nil (h : mode.boxes g ≠ []) (taken : List Text) :
    mode.rounds g taken = mode.rounds (mode.round g) (distinct (taken ++ mode.takes g)) := by
  cases mode with
  | hidden => exact Graph.hideBlankBoxes_of_ne_nil h
  | removed => exact Graph.removeEmptyBoxes_of_ne_nil h

/-- `boxes` of a round are those that are left and hold nothing that is left. -/
theorem mem_boxes : id ∈ mode.boxes g ↔ ∃ b ∈ g.elements.filter mode.leaves, b.isBox = true ∧
    b.id = id ∧ ∀ c ∈ g.elements.filter mode.leaves, c.holder? ≠ some id := by
  -- the two loops spell the same filter differently, so it is brought to one form first
  have hboxes : mode.boxes g = ((g.elements.filter mode.leaves).filter fun e =>
      e.isBox && e.id ∉ Graph.holdersOf (g.elements.filter mode.leaves)).map (·.id) := by
    cases mode with
    | hidden =>
      show g.blankBoxes = _
      rw [Graph.blankBoxes, leaves, ← g.live_filter_visible, List.filter_filter]
      refine congrArg (List.map Element.id) (List.filter_congr fun e _ => ?_)
      rw [Bool.and_right_comm]
    | removed => rfl
  rw [hboxes]
  generalize g.elements.filter mode.leaves = left
  simp only [List.mem_map, List.mem_filter, Bool.and_eq_true, decide_eq_true_eq,
    Graph.notMem_holdersOf_iff, and_assoc]
  constructor
  · rintro ⟨b, hb, hbox, hempty, rfl⟩
    exact ⟨b, hb, hbox, rfl, hempty⟩
  · rintro ⟨b, hb, hbox, rfl, hempty⟩
    exact ⟨b, hb, hbox, hempty, rfl⟩

/-- `takes` holds the boxes of a round, and perhaps more. -/
theorem mem_takes_of_mem_boxes (h : id ∈ mode.boxes g) : id ∈ mode.takes g := by
  cases mode with
  | hidden => exact h
  | removed =>
    obtain ⟨b, hb, -, -, rfl⟩ := Graph.mem_emptyBoxes.1 h
    exact Graph.mem_remove.2 (Graph.mem_cascade hb h)

/-- `round` conceals what it takes, besides what is concealed already. -/
theorem round_elements {es : List Element} {taken : List Text}
    (h : g.elements = Element.changed es taken mode.conceal) :
    (mode.round g).elements =
      Element.changed es (distinct (taken ++ mode.takes g)) mode.conceal := by
  cases mode with
  | hidden => exact Graph.setVisible_elements_of_changed h g.blankBoxes
  | removed => exact Graph.remove_elements_of_changed h g.emptyBoxes

/-- `boxesLeft` gets lower in a round. -/
theorem boxesLeft_round_lt (h : mode.boxes g ≠ []) :
    mode.boxesLeft (mode.round g) < mode.boxesLeft g := by
  obtain ⟨id, hid⟩ := List.exists_mem_of_ne_nil _ h
  obtain ⟨b, hb, hbox, rfl, -⟩ := mem_boxes.1 hid
  obtain ⟨hb, hleft⟩ := List.mem_filter.1 hb
  have htaken : b.id ∈ distinct ([] ++ mode.takes g) := mem_distinct.2 (mem_takes_of_mem_boxes hid)
  rw [boxesLeft, round_elements Element.changed_nil.symm]
  refine Graph.countP_map_lt (fun e hstays => ?_) hb (by simp [hbox, hleft]) ?_
  · split at hstays
    · simp at hstays
    · exact hstays
  · rw [if_pos htaken, mode.leaves_conceal, Bool.and_false]

/-- `rounds` end, after no more of them than there are boxes left. -/
theorem exists_rounds (mode : HideMode) (g : Graph) (taken : List Text) :
    ∃ n ≤ mode.boxesLeft g, mode.EndsAfter g n ∧ (mode.rounds g taken).1 = mode.round^[n] g := by
  by_cases hboxes : mode.boxes g = []
  · exact ⟨0, Nat.zero_le _, ⟨nofun, hboxes⟩, by rw [rounds_of_nil hboxes]; rfl⟩
  · -- by induction on the number of boxes left, which each round lowers
    have hlt := boxesLeft_round_lt hboxes
    obtain ⟨n, hn, hends, hlast⟩ :=
      exists_rounds mode (mode.round g) (distinct (taken ++ mode.takes g))
    refine ⟨n + 1, Nat.succ_le_of_lt (Nat.lt_of_le_of_lt hn hlt), ⟨fun m hm => ?_, hends.ends⟩, ?_⟩
    · -- the first round is this one, and those after it are the rounds of what it leaves
      cases m with
      | zero => exact hboxes
      | succ m => exact hends.goesOn m (Nat.lt_of_succ_lt_succ hm)
    · rw [rounds_of_ne_nil hboxes, hlast]
      rfl
termination_by mode.boxesLeft g

end HideMode

/-- `holder?` is given of nodes only. -/
theorem Element.isNode_of_holder? {e : Element} {id : Text} (h : e.holder? = some id) :
    e.isNode = true := by
  unfold holder? at h
  split at h
  · rename_i hnode
    exact (Bool.and_eq_true_iff.1 hnode).1
  · cases h

/-- `isBox` holds of nodes only. -/
theorem Element.isNode_of_isBox {e : Element} (h : e.isBox = true) : e.isNode = true :=
  (Bool.and_eq_true_iff.1 h).1

namespace Graph

/-! ## Sets of boxes -/

/-- Whether a set of boxes, of those that have not gone, takes in every box of which all that it
holds has gone or is in the set. -/
structure TakesEmptied (es : List Element) (gone : List Text) (B : Set Text) : Prop where
  boxes : ∀ id ∈ B, ∃ b ∈ es, b.isBox = true ∧ b.id = id ∧ id ∉ gone
  emptied : ∀ b ∈ es, b.isBox = true → b.id ∉ gone →
    (∀ c ∈ es, c.holder? = some b.id → c.id ∈ gone ∨ c.id ∈ B) → b.id ∈ B

/-- Whether a box is left of which all that it holds is taken, as `HideMode.boxes` asks. -/
def Emptied (es : List Element) (taken : List Text) (id : Text) : Prop :=
  ∃ b ∈ es, b.isBox = true ∧ b.id = id ∧ id ∉ taken ∧ ∀ c ∈ es, c.holder? = some id → c.id ∈ taken

/-- Whether a `Graph` has come about in rounds from one of which some elements were gone: it
conceals what was taken, that is what was gone, and of the nodes besides none that a set of boxes
could do without. -/
structure Rounded (es : List Element) (mode : HideMode) (gone : List Text) (g : Graph)
    (taken : List Text) : Prop where
  elements : g.elements = Element.changed es taken mode.conceal
  start : ∀ id ∈ gone, id ∈ taken
  least : ∀ B, TakesEmptied es gone B → ∀ e ∈ es, e.isNode = true → e.id ∈ taken →
    e.id ∈ gone ∨ e.id ∈ B

variable {es : List Element} {mode : HideMode} {gone taken : List Text} {g : Graph}

/-- `boxes` of a round are those that were `Emptied`. -/
theorem mem_boxes_iff_emptied (h : g.elements = Element.changed es taken mode.conceal)
    (hes : AllShown es) {id : Text} : id ∈ mode.boxes g ↔ Emptied es taken id := by
  rw [HideMode.mem_boxes, h, mode.filter_leaves hes]
  simp only [List.mem_filter, decide_eq_true_eq, and_imp, and_assoc]
  constructor
  · rintro ⟨b, hb, hnot, hbox, rfl, hempty⟩
    exact ⟨b, hb, hbox, rfl, hnot, fun c hc hholder =>
      Decidable.byContradiction fun hstays => hempty c hc hstays hholder⟩
  · rintro ⟨b, hb, hbox, rfl, hnot, hall⟩
    exact ⟨b, hb, hnot, hbox, rfl, fun c hc hstays hholder => hstays (hall c hc hholder)⟩

/-- `remove` of boxes that hold nothing takes no nodes along, only edges. -/
theorem mem_emptyBoxes_or_isEdge (hnodup : g.ids.Nodup) {id : Text}
    (h : id ∈ (g.remove g.emptyBoxes).2) :
    id ∈ g.emptyBoxes ∨ ∃ e ∈ g.elements, e.isEdge = true ∧ e.id = id := by
  refine cascade_subset (S := fun id => id ∈ g.emptyBoxes ∨
    ∃ e ∈ g.elements, e.isEdge = true ∧ e.id = id) (fun _ h => .inl h) ?_ id (mem_remove.1 h)
  rintro id (hid | ⟨e, he, hedge, rfl⟩) id' hid'
  · obtain ⟨b, hb, -, hempty, rfl⟩ := mem_emptyBoxes.1 hid
    obtain ⟨-, e, he, rfl, hat | hholder⟩ := (mem_dependents hnodup (mem_live.1 hb).1).1 hid'
    · exact .inr ⟨e, (mem_live.1 he).1, Element.isEdge_of_mem_anchors hat, rfl⟩
    · exact absurd hholder (hempty e he)
  · -- with an edge goes nothing
    exact absurd ((mem_dependents hnodup he).1 hid').1 (Element.isEdge_iff_not_isNode.1 hedge)

/-- `Rounded` is preserved by a round that takes edges and emptied boxes. -/
theorem Rounded.take (h : Rounded es mode gone g taken)
    (hmore : ∀ e ∈ es, e.isNode = true → e.id ∈ mode.takes g → Emptied es taken e.id) :
    Rounded es mode gone (mode.round g) (distinct (taken ++ mode.takes g)) where
  elements := HideMode.round_elements h.elements
  start id hid := mem_distinct.2 (List.mem_append_left _ (h.start id hid))
  least B hB e he hnode hid := by
    rcases List.mem_append.1 (mem_distinct.1 hid) with hid | hid
    · exact h.least B hB e he hnode hid
    · obtain ⟨b, hb, hbox, hsame, hnot, hall⟩ := hmore e he hnode hid
      rw [← hsame] at hnot hall ⊢
      -- all that the box holds has gone or is in the set, so that the set has to take the box in
      exact .inr (hB.emptied b hb hbox (fun hgone => hnot (h.start _ hgone)) fun c hc hholder =>
        h.least B hB c hc (Element.isNode_of_holder? hholder) (hall c hc hholder))

/-- `Rounded` is preserved by `round`, which takes only what every set of boxes takes in. -/
theorem Rounded.round (h : Rounded es mode gone g taken) (hes : AllShown es)
    (hnodup : (es.map (·.id)).Nodup) : ∃ taken', Rounded es mode gone (mode.round g) taken' := by
  cases mode with
  | hidden => exact ⟨_, h.take fun e _ _ hid => (mem_boxes_iff_emptied h.elements hes).1 hid⟩
  | removed =>
    refine ⟨_, h.take fun e he hnode hid => ?_⟩
    have hnodup' : g.ids.Nodup := nodup_of_changed (HideMode.conceal_id .removed) hnodup h.elements
    rcases mem_emptyBoxes_or_isEdge hnodup' hid with hid | ⟨x, hx, hedge, hid⟩
    · exact (mem_boxes_iff_emptied h.elements hes).1 hid
    · -- the edge was one before any round, and no node
      rw [h.elements] at hx
      obtain ⟨d, hd, hsame⟩ :=
        Element.exists_bare_eq (Element.map_changed (HideMode.bare_conceal .removed)) hx
      have hdid : d.bare.id = x.bare.id := congrArg Element.id hsame
      obtain rfl := eq_of_id_eq (g := { elements := es }) hnodup hd he (hdid.trans hid)
      have hedge' : d.isEdge = true := (congrArg Element.isEdge hsame).trans hedge
      exact absurd hnode (Element.isEdge_iff_not_isNode.1 hedge')

/-- `Rounded` is preserved by any number of rounds. -/
theorem Rounded.iterate (h : Rounded es mode gone g taken) (hes : AllShown es)
    (hnodup : (es.map (·.id)).Nodup) (n : Nat) :
    ∃ taken', Rounded es mode gone (mode.round^[n] g) taken' := by
  induction n with
  | zero => exact ⟨taken, h⟩
  | succ n ih =>
    obtain ⟨taken', h'⟩ := ih
    rw [Function.iterate_succ_apply']
    exact h'.round hes hnodup

/-- `Rounded`: once no box is left to take, what was taken is the least set. -/
theorem Rounded.isLeast (h : Rounded es mode gone g taken) (hes : AllShown es)
    (hend : mode.boxes g = []) : IsLeast {B | TakesEmptied es gone B}
      {id | ∃ b ∈ es, b.isBox = true ∧ b.id = id ∧ id ∉ gone ∧ id ∈ taken} := by
  constructor
  · constructor
    · rintro id ⟨b, hb, hbox, hid, hnot, -⟩
      exact ⟨b, hb, hbox, hid, hnot⟩
    · intro b hb hbox hnot hall
      refine ⟨b, hb, hbox, rfl, hnot, Decidable.byContradiction fun hleft => ?_⟩
      -- one more round would take the box
      have hemptied : Emptied es taken b.id := ⟨b, hb, hbox, rfl, hleft, fun c hc hholder => by
        rcases hall c hc hholder with hgone | ⟨-, -, -, -, -, htaken⟩
        · exact h.start _ hgone
        · exact htaken⟩
      exact List.not_mem_nil (hend ▸ (mem_boxes_iff_emptied h.elements hes).2 hemptied)
  · rintro B hB id ⟨b, hb, hbox, rfl, hnot, htaken⟩
    exact (h.least B hB b hb (Element.isNode_of_isBox hbox) htaken).resolve_left hnot

/-! ## Hiding hits -/

/-- What `conceal` does before any round of boxes: hits are made invisible, or all that goes with
them is taken out. -/
def begin (g : Graph) (mode : HideMode) (hits : List Text) : Graph × List Text :=
  match mode with
  | .hidden => (g.setVisible hits false, hits)
  | .removed => g.remove hits

/-- `conceal` is `begin` and then the `rounds`. -/
theorem conceal_eq_rounds (g : Graph) (mode : HideMode) (hits : List Text) :
    g.conceal mode hits = mode.rounds (g.begin mode hits).1 (g.begin mode hits).2 := by
  cases mode <;> rfl

/-- `begin` conceals just what it answers. -/
theorem begin_elements (g : Graph) (mode : HideMode) (hits : List Text) :
    (g.begin mode hits).1.elements =
      Element.changed g.elements (g.begin mode hits).2 mode.conceal := by
  cases mode with
  | hidden => exact setVisible_elements g hits false
  | removed => exact remove_elements g hits

/-- `Rounded` holds before any round, when nothing is taken besides what is gone. -/
theorem rounded_begin (g : Graph) (mode : HideMode) (hits : List Text) :
    Rounded g.elements mode (g.begin mode hits).2 (g.begin mode hits).1 (g.begin mode hits).2 :=
  ⟨begin_elements g mode hits, fun _ h => h, fun _ _ _ _ _ hid => .inl hid⟩

/-- `boxesLeft` after `begin` are no more than there are boxes. -/
theorem boxesLeft_begin_le (g : Graph) (mode : HideMode) (hits : List Text) :
    mode.boxesLeft (g.begin mode hits).1 ≤ g.elements.countP (·.isBox) := by
  have hbare : (g.begin mode hits).1.elements.map Element.bare = g.elements.map Element.bare := by
    rw [begin_elements]
    exact Element.map_changed mode.bare_conceal
  calc mode.boxesLeft (g.begin mode hits).1
      ≤ (g.begin mode hits).1.elements.countP (·.isBox) :=
        List.countP_mono_left fun e _ h => (Bool.and_eq_true_iff.1 h).1
    _ = (g.elements.map Element.bare).countP (·.isBox) := by rw [← hbare, List.countP_map]; rfl
    _ = g.elements.countP (·.isBox) := by rw [List.countP_map]; rfl

/-- `conceal` leaves what some number of rounds make of the graph. -/
theorem exists_rounds_conceal (g : Graph) (mode : HideMode) (hits : List Text) :
    ∃ n ≤ g.elements.countP (·.isBox), mode.EndsAfter (g.begin mode hits).1 n ∧
      (g.conceal mode hits).1 = mode.round^[n] (g.begin mode hits).1 := by
  obtain ⟨n, hn, hends, hlast⟩ := mode.exists_rounds (g.begin mode hits).1 (g.begin mode hits).2
  exact ⟨n, Nat.le_trans hn (g.boxesLeft_begin_le mode hits), hends, by rw [conceal_eq_rounds, hlast]⟩

/-- `conceal` takes the least set of boxes, besides what is gone before. -/
theorem isLeast_conceal (hg : g.Untouched) (mode : HideMode) (hits : List Text)
    (concealed : Element → Bool) (hleft : ∀ e ∈ g.elements, concealed e = false)
    (hconcealed : ∀ e, concealed (mode.conceal e) = true) :
    IsLeast {B | TakesEmptied g.elements (g.begin mode hits).2 B}
      {id | ∃ b ∈ (g.conceal mode hits).1.elements, b.isBox = true ∧ concealed b = true ∧
        b.id ∉ (g.begin mode hits).2 ∧ b.id = id} := by
  obtain ⟨n, -, hends, hlast⟩ := g.exists_rounds_conceal mode hits
  obtain ⟨taken, h⟩ := (g.rounded_begin mode hits).iterate hg.shown hg.nodup n
  have hleast := h.isLeast hg.shown hends.ends
  rw [hlast, h.elements]
  -- what is concealed in the end is what was taken
  refine (congrArg (IsLeast _) (Set.ext fun id => ?_)).mpr hleast
  -- both ways, a box that was there is concealed just when its id was taken
  constructor
  · rintro ⟨x, hx, hbox, hconcealed', hnot, rfl⟩
    obtain ⟨b, hb, rfl⟩ := List.mem_map.1 hx
    by_cases htaken : b.id ∈ taken
    · rw [if_pos htaken] at hbox hnot ⊢
      rw [mode.conceal_id] at hnot ⊢
      exact ⟨b, hb, (congrArg Element.isBox (mode.bare_conceal b)).symm.trans hbox, rfl, hnot, htaken⟩
    · rw [if_neg htaken, hleft b hb] at hconcealed'
      cases hconcealed'
  · rintro ⟨b, hb, hbox, rfl, hnot, htaken⟩
    refine ⟨_, List.mem_map_of_mem hb, ?_⟩
    rw [if_pos htaken, mode.conceal_id]
    exact ⟨(congrArg Element.isBox (mode.bare_conceal b)).trans hbox, hconcealed b, hnot, rfl⟩

/-- `obscure` and `compress` of hits that are no boxes, in a new graph, however its boxes are
nested: rounds of boxes end. There are no more rounds than boxes, each finds a box to take, and
hiding leaves what they make of the graph. The boxes that are made invisible are the least set that
takes in each box of which all that it holds was hit or is in the set. The boxes that are taken out,
besides what goes with the hits, are the least set that takes in each box of which all that it holds
went with the hits or is in the set. -/
theorem box_rounds_isLeast {payload : Value} (hbuilt : ofValue payload = .ok g) {hits : List Text}
    (hhits : ∀ e ∈ g.elements, e.id ∈ hits → e.isBox = false) :
    ((∃ n ≤ g.elements.countP (·.isBox), HideMode.hidden.EndsAfter (g.setVisible hits false) n ∧
        (g.obscure hits).1 = HideMode.hidden.round^[n] (g.setVisible hits false)) ∧
      IsLeast {B | TakesEmptied g.elements hits B}
        {id | ∃ b ∈ (g.obscure hits).1.elements, b.isBox = true ∧ b.visible = false ∧ b.id = id}) ∧
    (∃ n ≤ g.elements.countP (·.isBox), HideMode.removed.EndsAfter (g.remove hits).1 n ∧
        (g.compress hits).1 = HideMode.removed.round^[n] (g.remove hits).1) ∧
      IsLeast {B | TakesEmptied g.elements (g.remove hits).2 B}
        {id | ∃ b ∈ (g.compress hits).1.elements, b.isBox = true ∧ b.removed = true ∧
          b.id ∉ (g.remove hits).2 ∧ b.id = id} := by
  have hg := ofValue_untouched hbuilt
  refine ⟨⟨g.exists_rounds_conceal .hidden hits, ?_⟩, g.exists_rounds_conceal .removed hits, ?_⟩
  · have hleast := isLeast_conceal hg .hidden hits (fun e => !e.visible)
      (fun e he => by simp [(hg.shown e he).1]) fun _ => rfl
    refine (congrArg (IsLeast _) (Set.ext fun id => ?_)).mpr hleast
    constructor
    · rintro ⟨b, hb, hbox, hvisible, rfl⟩
      refine ⟨b, hb, hbox, by simp [hvisible], fun hhit => ?_, rfl⟩
      -- no box was hit
      obtain ⟨e, he, hsame⟩ := Element.exists_bare_eq (g.bare_conceal .hidden hits) hb
      have hid : e.bare.id = b.bare.id := congrArg Element.id hsame
      have hnobox : e.bare.isBox = false := hhits e he (hid ▸ hhit)
      rw [hsame] at hnobox
      exact Bool.false_ne_true (hnobox.symm.trans hbox)
    · rintro ⟨b, hb, hbox, hvisible, -, hid⟩
      exact ⟨b, hb, hbox, by simpa using hvisible, hid⟩
  · exact isLeast_conceal hg .removed hits (·.removed)
      (fun e he => (hg.shown e he).2) fun _ => rfl

/-- Three boxes around a node, listed from the outside in; a box that holds itself, and two that
hold each other, each with a node; a box with nothing in it; and one with two nodes, of which one
holds a box of its own, with a node. This is JSON data that `ofValue` reads. -/
def coiledPayload : Value :=
  .list [
    .object [("data", .object [("id", .text "outer"), ("isBox", .bool true)])],
    .object [("data", .object [("id", .text "middle"), ("isBox", .bool true),
      ("parent", .text "outer")])],
    .object [("data", .object [("id", .text "inner"), ("isBox", .bool true),
      ("parent", .text "middle")])],
    .object [("data", .object [("id", .text "a"), ("parent", .text "inner")])],
    .object [("data", .object [("id", .text "self"), ("isBox", .bool true), ("parent", .text "self")])],
    .object [("data", .object [("id", .text "b"), ("parent", .text "self")])],
    .object [("data", .object [("id", .text "r"), ("isBox", .bool true), ("parent", .text "s")])],
    .object [("data", .object [("id", .text "s"), ("isBox", .bool true), ("parent", .text "r")])],
    .object [("data", .object [("id", .text "c"), ("parent", .text "s")])],
    .object [("data", .object [("id", .text "void"), ("isBox", .bool true)])],
    .object [("data", .object [("id", .text "half"), ("isBox", .bool true)])],
    .object [("data", .object [("id", .text "d"), ("parent", .text "half")])],
    .object [("data", .object [("id", .text "e"), ("parent", .text "half")])],
    .object [("data", .object [("id", .text "kept"), ("isBox", .bool true), ("parent", .text "d")])],
    .object [("data", .object [("id", .text "m"), ("parent", .text "kept")])],
    .object [("data", .object [("source", .text "outer"), ("target", .text "half")])]]

/-- `box_rounds_isLeast` for boxes that are coiled: the boxes around the one node go, and so does
the one with nothing in it. A box that a node holds is filled in the one case, and goes with that
node in the other. -/
theorem box_rounds_isLeast_coiled :
    ∃ g, ofValue coiledPayload = .ok g ∧
      (∀ e ∈ g.elements, e.id ∈ (["a", "b", "c", "d"] : List Text) → e.isBox = false) ∧
      (g.remove ["a", "b", "c", "d"]).2 = (["a", "b", "c", "d", "kept", "m"] : List Text) ∧
      IsLeast {B | TakesEmptied g.elements ["a", "b", "c", "d"] B}
        {id | id ∈ (["outer", "middle", "inner", "void"] : List Text)} ∧
      IsLeast {B | TakesEmptied g.elements ["a", "b", "c", "d", "kept", "m"] B}
        {id | id ∈ (["outer", "middle", "inner", "void"] : List Text)} := by
  have hbuilt : ∃ g, ofValue coiledPayload = .ok g ∧
      (∀ e ∈ g.elements, e.id ∈ (["a", "b", "c", "d"] : List Text) → e.isBox = false) ∧
      (g.remove ["a", "b", "c", "d"]).2 = (["a", "b", "c", "d", "kept", "m"] : List Text) ∧
      ((g.obscure ["a", "b", "c", "d"]).1.elements.filter fun b => b.isBox && !b.visible).map (·.id) =
        (["outer", "middle", "inner", "void"] : List Text) ∧
      ((g.compress ["a", "b", "c", "d"]).1.elements.filter fun b =>
          b.isBox && b.removed && b.id ∉ (g.remove ["a", "b", "c", "d"]).2).map (·.id) =
        (["outer", "middle", "inner", "void"] : List Text) :=
    ⟨_, rfl, by decide +kernel⟩
  obtain ⟨g, hg, hhits, hgone, hinvisible, hout⟩ := hbuilt
  obtain ⟨⟨-, hsoft⟩, -, hhard⟩ := box_rounds_isLeast hg hhits
  refine ⟨g, hg, hhits, hgone, ?_, ?_⟩
  · -- the rounds take invisible boxes, then boxes that are out and were no part of the cascade
    rw [← hinvisible]
    simpa [and_assoc] using hsoft
  · rw [← hout, ← hgone]
    simpa [and_assoc] using hhard

end Graph

end MeshLens
