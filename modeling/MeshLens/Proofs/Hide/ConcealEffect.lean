import MeshLens.Hide
import MeshLens.Proofs.Graph.ElementChanges

/-!
# What hiding changes

Hiding a closed selection changes the elements that it answers and no other, in one of two ways. What
it answers follows from the elements of the graph alone, whatever drawing has asked for so far.

## Key results

- `Graph.conceal_elements`: hiding conceals what it answers
- `Graph.hideClosure_congr`, `Graph.conceal_congr`: only the elements of a graph matter
- `Graph.rehide_none_of_error`, `Graph.rehide_none_of_ok`: hiding for the first time
-/

namespace MeshLens

namespace HideMode

/-- An `Element` while it is hidden in a `HideMode`. -/
def conceal : HideMode → Element → Element
  | hidden => Element.withVisible false
  | removed => Element.withRemoved true

/-- An `Element` that is shown again after a `HideMode`. -/
def reveal : HideMode → Element → Element
  | hidden => Element.withVisible true
  | removed => Element.withRemoved false

/-- `conceal` keeps the id. -/
@[simp] theorem conceal_id (mode : HideMode) (e : Element) : (mode.conceal e).id = e.id := by
  cases mode <;> rfl

/-- `reveal` undoes `conceal` of an element that was shown before. -/
theorem reveal_conceal {e : Element} (h : e.visible = true ∧ e.removed = false) (mode : HideMode) :
    mode.reveal (mode.conceal e) = e := by
  obtain ⟨hvisible, hremoved⟩ := h
  cases mode with
  | hidden => simp [reveal, conceal, Element.withVisible, ← hvisible]
  | removed => simp [reveal, conceal, Element.withRemoved, ← hremoved]

end HideMode

/-- `distinct` keeps every id. -/
theorem mem_distinct {ids : List Text} {id : Text} : id ∈ distinct ids ↔ id ∈ ids := by
  -- for any ids kept so far, by induction on those to come
  have hfold : ∀ (ids kept : List Text),
      id ∈ ids.foldl (fun kept id => if id ∈ kept then kept else kept ++ [id]) kept ↔
        id ∈ kept ∨ id ∈ ids := by
    intro ids
    induction ids with
    | nil => simp
    | cons a ids ih =>
      intro kept
      rw [List.foldl_cons, ih]
      split
      · rename_i ha
        constructor
        · rintro (h | h)
          · exact .inl h
          · exact .inr (List.mem_cons_of_mem _ h)
        · rintro (h | h)
          · exact .inl h
          · rcases List.mem_cons.1 h with rfl | h
            · exact .inl ha
            · exact .inr h
      · simp [or_assoc]
  rw [distinct, hfold ids []]
  simp

namespace Graph

/-! ## Only elements matter -/

/-- `liveEnds` depend on the elements only. -/
theorem liveEnds_congr {g g' : Graph} (h : g.elements = g'.elements) (ends : List Value) :
    g.liveEnds ends = g'.liveEnds ends := by
  induction ends with
  | nil => rfl
  | cons v vs ih => simp only [liveEnds, endOf?, element?, h, ih]

/-- `endsOf` edges depends on the elements only. -/
theorem endsOf_congr {g g' : Graph} (h : g.elements = g'.elements) (edges : List Element) :
    g.endsOf edges = g'.endsOf edges := by
  rw [endsOf, endsOf, liveEnds_congr h]

/-- `closureOf` hits depends on the elements only. -/
theorem closureOf_congr {g g' : Graph} (h : g.elements = g'.elements) (hits : List Element) :
    g.closureOf hits = g'.closureOf hits := by
  have hlive : g.live = g'.live := by rw [live, live, h]
  have hedges (nodes : List Text) : g.edgesAt nodes = g'.edgesAt nodes := by
    simp only [edgesAt, incidentEdges, h]
  have helement (id : Text) : g.element? id = g'.element? id := by rw [element?, element?, h]
  simp only [closureOf, hlive, hedges, helement, endsOf_congr h]

/-- `hideClosure` depends on the elements only. -/
theorem hideClosure_congr {g g' : Graph} (h : g.elements = g'.elements) (selector : Text) :
    g.hideClosure selector = g'.hideClosure selector := by
  have hselect : g.select selector = g'.select selector := by
    rw [select, select, live, live, h]
  rw [hideClosure, hideClosure, hselect]
  split
  · rfl
  · exact closureOf_congr h _

/-- `remove` answers what depends on the elements only. -/
theorem remove_congr {g g' : Graph} (h : g.elements = g'.elements) (ids : List Text) :
    (g.remove ids).2 = (g'.remove ids).2 := by
  cases g
  cases g'
  cases h
  rfl

/-- `emptyBoxes` depend on the elements only. -/
theorem emptyBoxes_congr {g g' : Graph} (h : g.elements = g'.elements) :
    g.emptyBoxes = g'.emptyBoxes := by
  cases g
  cases g'
  cases h
  rfl

/-- `blankBoxes` depend on the elements only. -/
theorem blankBoxes_congr {g g' : Graph} (h : g.elements = g'.elements) :
    g.blankBoxes = g'.blankBoxes := by
  cases g
  cases g'
  cases h
  rfl

/-- `ids` after a change that keeps ids. -/
theorem ids_changed {g g' : Graph} {ids : List Text} {change : Element → Element}
    (hid : ∀ e, (change e).id = e.id) (h : g'.elements = Element.changed g.elements ids change) :
    g'.ids = g.ids := by
  rw [Graph.ids, Graph.ids, h, Element.map_id_changed hid]

/-! ## Taking out in rounds -/

/-- `removeEmptyBoxes` ends where no box is empty. -/
theorem removeEmptyBoxes_of_nil {g : Graph} {removed : List Text} (h : g.emptyBoxes = []) :
    g.removeEmptyBoxes removed = (g, removed) := by
  rw [removeEmptyBoxes]
  split
  · rfl
  · rename_i hcons
    rw [h] at hcons
    cases hcons

/-- `removeEmptyBoxes` takes a round where a box is empty. -/
theorem removeEmptyBoxes_of_ne_nil {g : Graph} {removed : List Text} (h : g.emptyBoxes ≠ []) :
    g.removeEmptyBoxes removed = (g.remove g.emptyBoxes).1.removeEmptyBoxes
      (distinct (removed ++ (g.remove g.emptyBoxes).2)) := by
  conv => lhs; rw [removeEmptyBoxes]
  split
  · rename_i hnil
    exact absurd hnil h
  · rename_i hcons
    simp only [hcons]

/-- `liveCount` gets lower in a round of taking boxes out. -/
theorem emptyBoxes_liveCount_lt {g : Graph} (h : g.emptyBoxes ≠ []) :
    (g.remove g.emptyBoxes).1.liveCount < g.liveCount := by
  obtain ⟨id, ids, hcons⟩ := List.exists_cons_of_ne_nil h
  have hmem : id ∈ g.emptyBoxes := by rw [hcons]; exact List.mem_cons_self
  obtain ⟨e, he, rfl⟩ := List.mem_map.1 hmem
  exact liveCount_remove_lt (List.mem_filter.1 he).1 hmem

/-- `remove` takes more out than is out already. -/
theorem remove_elements_of_changed {g : Graph} {removed : List Text} {es : List Element}
    (h : g.elements = Element.changed es removed (Element.withRemoved true)) (ids : List Text) :
    (g.remove ids).1.elements =
      Element.changed es (distinct (removed ++ (g.remove ids).2)) (Element.withRemoved true) := by
  rw [remove_elements, h, Element.changed_changed_self (Element.withRemoved_withRemoved true true)]
  exact Element.changed_congr fun e _ => .inr mem_distinct.symm

/-- `removeEmptyBoxes` marks just what it answers, by induction on the rounds. -/
theorem removeEmptyBoxes_elements {g : Graph} {removed : List Text} {es : List Element}
    (h : g.elements = Element.changed es removed (Element.withRemoved true)) :
    (g.removeEmptyBoxes removed).1.elements =
      Element.changed es (g.removeEmptyBoxes removed).2 (Element.withRemoved true) := by
  by_cases hboxes : g.emptyBoxes = []
  · rw [removeEmptyBoxes_of_nil hboxes]
    exact h
  · -- by induction on the number of live elements, which each round lowers
    have hlt := emptyBoxes_liveCount_lt hboxes
    rw [removeEmptyBoxes_of_ne_nil hboxes]
    exact removeEmptyBoxes_elements (remove_elements_of_changed h g.emptyBoxes)
termination_by g.liveCount

/-- `removeEmptyBoxes` answers what was taken out before, and elements. -/
theorem mem_removeEmptyBoxes {g : Graph} {removed : List Text} {id : Text}
    (h : id ∈ (g.removeEmptyBoxes removed).2) : id ∈ removed ∨ id ∈ g.ids := by
  by_cases hboxes : g.emptyBoxes = []
  · rw [removeEmptyBoxes_of_nil hboxes] at h
    exact .inl h
  · have hlt := emptyBoxes_liveCount_lt hboxes
    rw [removeEmptyBoxes_of_ne_nil hboxes] at h
    -- what later rounds answer was there before them, or is an element of the smaller graph
    rcases mem_removeEmptyBoxes h with h | h
    · rcases List.mem_append.1 (mem_distinct.1 h) with h | h
      · exact .inl h
      · exact .inr (mem_inOrder.1 h).1
    · rw [ids_changed (Element.withRemoved_id true) (remove_elements g _)] at h
      exact .inr h
termination_by g.liveCount

/-- `removeEmptyBoxes` answers what depends on the elements only. -/
theorem removeEmptyBoxes_congr {g g' : Graph} (h : g.elements = g'.elements) (removed : List Text) :
    (g.removeEmptyBoxes removed).2 = (g'.removeEmptyBoxes removed).2 := by
  have hsame := emptyBoxes_congr h
  by_cases hboxes : g.emptyBoxes = []
  · have hboxes' : g'.emptyBoxes = [] := by rw [← hsame]; exact hboxes
    rw [removeEmptyBoxes_of_nil hboxes, removeEmptyBoxes_of_nil hboxes']
  · have hboxes' : g'.emptyBoxes ≠ [] := by rw [← hsame]; exact hboxes
    have hlt := emptyBoxes_liveCount_lt hboxes
    rw [removeEmptyBoxes_of_ne_nil hboxes, removeEmptyBoxes_of_ne_nil hboxes', ← hsame,
      ← remove_congr h]
    refine removeEmptyBoxes_congr ?_ _
    rw [remove_elements, remove_elements, h, remove_congr h]
termination_by g.liveCount

/-! ## Hiding in rounds -/

/-- `hideBlankBoxes` ends where no box is blank. -/
theorem hideBlankBoxes_of_nil {g : Graph} {hidden : List Text} (h : g.blankBoxes = []) :
    g.hideBlankBoxes hidden = (g, hidden) := by
  rw [hideBlankBoxes]
  split
  · rfl
  · rename_i hcons
    rw [h] at hcons
    cases hcons

/-- `hideBlankBoxes` takes a round where a box is blank. -/
theorem hideBlankBoxes_of_ne_nil {g : Graph} {hidden : List Text} (h : g.blankBoxes ≠ []) :
    g.hideBlankBoxes hidden = (g.setVisible g.blankBoxes false).hideBlankBoxes
      (distinct (hidden ++ g.blankBoxes)) := by
  conv => lhs; rw [hideBlankBoxes]
  split
  · rename_i hnil
    exact absurd hnil h
  · rename_i hcons
    simp only [hcons]

/-- `blankBoxes` are visible elements. -/
theorem mem_elements_of_mem_blankBoxes {g : Graph} {id : Text} (h : id ∈ g.blankBoxes) :
    ∃ e ∈ g.elements, e.id = id ∧ e.visible = true := by
  obtain ⟨e, he, rfl⟩ := List.mem_map.1 h
  obtain ⟨hlive, hblank⟩ := List.mem_filter.1 he
  simp only [Bool.and_eq_true] at hblank
  exact ⟨e, (mem_live.1 hlive).1, rfl, hblank.1.2⟩

/-- `visibleCount` gets lower in a round of hiding boxes. -/
theorem blankBoxes_visibleCount_lt {g : Graph} (h : g.blankBoxes ≠ []) :
    (g.setVisible g.blankBoxes false).visibleCount < g.visibleCount := by
  obtain ⟨id, ids, hcons⟩ := List.exists_cons_of_ne_nil h
  have hmem : id ∈ g.blankBoxes := by rw [hcons]; exact List.mem_cons_self
  obtain ⟨e, he, rfl, hvisible⟩ := mem_elements_of_mem_blankBoxes hmem
  exact visibleCount_setVisible_lt he hvisible hmem

/-- `setVisible` hides more than is hidden already. -/
theorem setVisible_elements_of_changed {g : Graph} {hidden : List Text} {es : List Element}
    (h : g.elements = Element.changed es hidden (Element.withVisible false)) (ids : List Text) :
    (g.setVisible ids false).elements =
      Element.changed es (distinct (hidden ++ ids)) (Element.withVisible false) := by
  rw [setVisible_elements, h,
    Element.changed_changed_self (Element.withVisible_withVisible false false)]
  exact Element.changed_congr fun e _ => .inr mem_distinct.symm

/-- `hideBlankBoxes` hides just what it answers, by induction on the rounds. -/
theorem hideBlankBoxes_elements {g : Graph} {hidden : List Text} {es : List Element}
    (h : g.elements = Element.changed es hidden (Element.withVisible false)) :
    (g.hideBlankBoxes hidden).1.elements =
      Element.changed es (g.hideBlankBoxes hidden).2 (Element.withVisible false) := by
  by_cases hboxes : g.blankBoxes = []
  · rw [hideBlankBoxes_of_nil hboxes]
    exact h
  · -- by induction on the number of visible elements, which each round lowers
    have hlt := blankBoxes_visibleCount_lt hboxes
    rw [hideBlankBoxes_of_ne_nil hboxes]
    exact hideBlankBoxes_elements (setVisible_elements_of_changed h g.blankBoxes)
termination_by g.visibleCount

/-- `hideBlankBoxes` answers what was hidden before, and elements. -/
theorem mem_hideBlankBoxes {g : Graph} {hidden : List Text} {id : Text}
    (h : id ∈ (g.hideBlankBoxes hidden).2) : id ∈ hidden ∨ id ∈ g.ids := by
  by_cases hboxes : g.blankBoxes = []
  · rw [hideBlankBoxes_of_nil hboxes] at h
    exact .inl h
  · have hlt := blankBoxes_visibleCount_lt hboxes
    rw [hideBlankBoxes_of_ne_nil hboxes] at h
    rcases mem_hideBlankBoxes h with h | h
    · rcases List.mem_append.1 (mem_distinct.1 h) with h | h
      · exact .inl h
      · obtain ⟨e, he, rfl, -⟩ := mem_elements_of_mem_blankBoxes h
        exact .inr (List.mem_map_of_mem he)
    · rw [ids_changed (Element.withVisible_id false) (setVisible_elements g _ _)] at h
      exact .inr h
termination_by g.visibleCount

/-- `hideBlankBoxes` answers what depends on the elements only. -/
theorem hideBlankBoxes_congr {g g' : Graph} (h : g.elements = g'.elements) (hidden : List Text) :
    (g.hideBlankBoxes hidden).2 = (g'.hideBlankBoxes hidden).2 := by
  have hsame := blankBoxes_congr h
  by_cases hboxes : g.blankBoxes = []
  · have hboxes' : g'.blankBoxes = [] := by rw [← hsame]; exact hboxes
    rw [hideBlankBoxes_of_nil hboxes, hideBlankBoxes_of_nil hboxes']
  · have hboxes' : g'.blankBoxes ≠ [] := by rw [← hsame]; exact hboxes
    have hlt := blankBoxes_visibleCount_lt hboxes
    rw [hideBlankBoxes_of_ne_nil hboxes, hideBlankBoxes_of_ne_nil hboxes', ← hsame]
    refine hideBlankBoxes_congr ?_ _
    rw [setVisible_elements, setVisible_elements, h]
termination_by g.visibleCount

/-! ## Hiding a closed selection -/

/-- `conceal` changes just the elements whose ids it answers. -/
theorem conceal_elements (g : Graph) (mode : HideMode) (ids : List Text) :
    (g.conceal mode ids).1.elements =
      Element.changed g.elements (g.conceal mode ids).2 mode.conceal := by
  cases mode with
  | hidden => exact hideBlankBoxes_elements (setVisible_elements g ids false)
  | removed => exact removeEmptyBoxes_elements (remove_elements g ids)

/-- `conceal` answers elements, when it is asked to hide elements. -/
theorem mem_conceal {g : Graph} {mode : HideMode} {ids : List Text}
    (hids : ∀ id ∈ ids, id ∈ g.ids) {id : Text} (h : id ∈ (g.conceal mode ids).2) : id ∈ g.ids := by
  cases mode with
  | hidden =>
    rcases mem_hideBlankBoxes h with h | h
    · exact hids id h
    · rwa [ids_changed (Element.withVisible_id false) (setVisible_elements g _ _)] at h
  | removed =>
    rcases mem_removeEmptyBoxes h with h | h
    · exact (mem_inOrder.1 h).1
    · have hids : (g.remove ids).1.ids = g.ids :=
        ids_changed (Element.withRemoved_id true) (remove_elements g ids)
      exact hids ▸ h

/-- `conceal` answers what depends on the elements only. -/
theorem conceal_congr {g g' : Graph} (h : g.elements = g'.elements) (mode : HideMode)
    (ids : List Text) : (g.conceal mode ids).2 = (g'.conceal mode ids).2 := by
  cases mode with
  | hidden =>
    refine hideBlankBoxes_congr ?_ ids
    rw [setVisible_elements, setVisible_elements, h]
  | removed =>
    have hremove := remove_congr h ids
    show ((g.remove ids).1.removeEmptyBoxes (g.remove ids).2).2 =
      ((g'.remove ids).1.removeEmptyBoxes (g'.remove ids).2).2
    rw [hremove]
    refine removeEmptyBoxes_congr ?_ _
    rw [remove_elements, remove_elements, h, hremove]

/-! ## Hiding for the first time -/

section First

variable {g : Graph} {text : Text} {occasion : HideOccasion}

/-- `rehide` for the first time fails where the closure cannot be computed, and changes nothing. -/
theorem rehide_none_of_error {fault : EvaluationError} (h : g.hideClosure text = .error fault)
    (name : Text) : g.rehide name none (some text) occasion = (g, .error fault) := by
  simp only [rehide, release, h]

/-- `rehide` for the first time conceals the closure, and gives a handle on what is concealed. -/
theorem rehide_none_of_ok (mode : HideMode) {ids : List Text} (h : g.hideClosure text = .ok ids)
    (hmode : (if occasion.compress then HideMode.removed else .hidden) = mode) (name : Text) :
    g.rehide name none (some text) occasion =
      ((g.conceal mode ids).1, .ok (some ⟨name, mode, (g.conceal mode ids).2⟩)) := by
  simp only [rehide, release, h, hmode]

end First

end Graph

end MeshLens
