import MeshLens.Find
import MeshLens.Proofs.Graph.ElementChanges
import MeshLens.Proofs.Graph.SelectSpec
import MeshLens.Proofs.Selector.ReadBack

/-!
# What marking changes

Marking takes the mark off every element, also off those that are taken out, and puts it on what the
selector selects. So after it an element carries the mark just when it matched while it was in the
graph, and no element does when the selector could not be evaluated.

## Key results

- `Graph.exists_remark_eq`: what is marked, and what is answered, by what is selected once marks are off
- `Graph.applyFind_elements`: marking changes marks only, and how
- `Graph.mem_found`: what is marked
-/

namespace MeshLens

namespace Element

/-- `addClass` adds the class, and no other. -/
theorem mem_classes_addClass {name c : Text} {e : Element} :
    c ∈ (e.addClass name).classes ↔ c ∈ e.classes ∨ c = name := by
  unfold addClass
  split
  · rename_i hmem
    constructor
    · exact .inl
    · rintro (h | rfl)
      · exact h
      · exact hmem
  · simp

/-- `dropClass` takes off the class, and no other. -/
theorem mem_classes_dropClass {name c : Text} {e : Element} :
    c ∈ (e.dropClass name).classes ↔ c ∈ e.classes ∧ c ≠ name := by
  simp [dropClass]

/-- `dropClass` leaves an element that does not carry the class. -/
theorem dropClass_eq_self {name : Text} {e : Element} (h : name ∉ e.classes) :
    e.dropClass name = e := by
  have hfilter : e.classes.filter (· ≠ name) = e.classes := by
    rw [List.filter_eq_self]
    intro c hc
    have hne : c ≠ name := fun heq => h (heq ▸ hc)
    simpa using hne
  rw [dropClass, hfilter]

/-- An element with a mark or without it. -/
def withMark (marker : Text) (marked : Bool) (e : Element) : Element :=
  if marked then (e.dropClass marker).addClass marker else e.dropClass marker

/-- `addClass` changes nothing but the classes. -/
theorem addClass_frame (name : Text) (e : Element) :
    (e.addClass name).id = e.id ∧ (e.addClass name).kind = e.kind ∧
      (e.addClass name).data = e.data ∧ (e.addClass name).removed = e.removed ∧
      (e.addClass name).visible = e.visible := by
  unfold addClass
  by_cases h : name ∈ e.classes
  · rw [if_pos h]
    exact ⟨rfl, rfl, rfl, rfl, rfl⟩
  · rw [if_neg h]
    exact ⟨rfl, rfl, rfl, rfl, rfl⟩

/-- `withMark` changes nothing but the classes. -/
theorem withMark_frame (marker : Text) (marked : Bool) (e : Element) :
    (e.withMark marker marked).id = e.id ∧ (e.withMark marker marked).kind = e.kind ∧
      (e.withMark marker marked).data = e.data ∧
      (e.withMark marker marked).removed = e.removed ∧
      (e.withMark marker marked).visible = e.visible := by
  cases marked with
  | false => exact ⟨rfl, rfl, rfl, rfl, rfl⟩
  | true => exact addClass_frame marker (e.dropClass marker)

/-- `withMark` leaves the mark exactly when it is told to. -/
theorem mem_classes_withMark {marker : Text} {marked : Bool} {e : Element} :
    marker ∈ (e.withMark marker marked).classes ↔ marked = true := by
  cases marked with
  | false => simp [withMark, mem_classes_dropClass]
  | true => simp [withMark, mem_classes_addClass]

end Element

namespace Graph

/-! ## What is found -/

/-- The ids of what a selector text selects: nothing, when it cannot be evaluated. -/
def found (g : Graph) (selector : Option Text) : List Text :=
  match selector with
  | none => []
  | some text =>
    match g.select text with
    | .ok hits => hits.map (·.id)
    | .error _ => []

/-- The ids of what a selector selects, or why it cannot be evaluated. -/
def hits (g : Graph) : Option Text → Except EvaluationError (List Text)
  | none => .ok []
  | some text => (g.select text).map (List.map (·.id))

/-- `found` is what `hits` answers, and nothing when it answers with an error. -/
theorem found_eq (g : Graph) (selector : Option Text) :
    g.found selector = (g.hits selector).toOption.getD [] := by
  unfold found hits
  cases selector with
  | none => rfl
  | some text => cases hselect : g.select text <;> simp only [hselect] <;> rfl

/-- The ids of what is looked at when a selector text is evaluated: all live elements, or nothing,
when it cannot be evaluated. -/
def lookedAt (g : Graph) (selector : Option Text) : List Text :=
  match selector with
  | none => []
  | some text =>
    match g.select text with
    | .ok _ => g.liveIds
    | .error _ => []

/-- `found` holds the elements that match among those that are looked at. -/
theorem mem_found {g : Graph} (hnodup : g.ids.Nodup) {selector : Option Text} {e : Element}
    (he : e ∈ g.elements) :
    e.id ∈ g.found selector ↔ e.Matches selector ∧ e.id ∈ g.lookedAt selector := by
  have hsame {d : Element} (hd : d ∈ g.live) (hid : d.id = e.id) : d = e :=
    eq_of_id_eq hnodup (mem_live.1 hd).1 he hid
  unfold found lookedAt
  cases selector with
  | none => simp
  | some text =>
    simp only
    cases hselect : g.select text with
    | error fault => simp
    | ok hits =>
      simp only [List.mem_map]
      constructor
      · rintro ⟨d, hd, hid⟩
        obtain ⟨hlive, hmatches⟩ := (mem_select hselect).1 hd
        -- an id belongs to one element only
        obtain rfl := hsame hlive hid
        exact ⟨hmatches, mem_liveIds hlive⟩
      · rintro ⟨hmatches, hlive⟩
        obtain ⟨d, hd, hid⟩ := List.mem_map.1 hlive
        obtain rfl := hsame hd hid
        exact ⟨d, (mem_select hselect).2 ⟨hd, hmatches⟩, rfl⟩

/-! ## Marking -/

/-- The selector of the elements that carry a style class. -/
def ofClass (marker : Text) : Selector where
  text := "." ++ marker
  groups := [{ classes := [marker] }]

/-- `Selector.parse` reads a style class that a class filter can name from the filter. -/
theorem parse_ofClass {marker : Text} (h : Selector.isClassName marker = true) :
    Selector.parse ("." ++ marker) = .ok (ofClass marker) := by
  have hparts : SelectorGroup.PartsWritten Selector.Row [] [marker] ([] ++ .char '.' :: (marker ++ [])) :=
    .className (List.forall_mem_nil _) h (.nil (List.forall_mem_nil _))
  rw [List.append_nil, List.nil_append] at hparts
  refine Selector.Written.parse_eq ⟨List.cons_ne_nil _ _, ["." ++ marker], rfl, ?_⟩
  exact .cons (.bare (.inr (List.cons_ne_nil _ _)) hparts) .nil

/-- `ofClass` accepts the elements that carry the class. -/
theorem accepts_ofClass (marker : Text) (e : Element) :
    (ofClass marker).accepts e = .ok (decide (marker ∈ e.classes)) := by
  by_cases h : marker ∈ e.classes
  · simp [ofClass, Selector.accepts, SelectorGroup.anyAccepts, SelectorGroup.accepts, h,
      Predicate.allHold]
  · simp [ofClass, Selector.accepts, SelectorGroup.anyAccepts, SelectorGroup.accepts, h]

/-- `updateClasses` changes the classes of the named elements, and draws nothing that the elements
show. -/
theorem updateClasses_elements (g : Graph) (ids : List Text) (add drop : Text) :
    (g.updateClasses ids add drop).elements = Element.changed g.elements ids fun e =>
      let e := if add = [] then e else e.addClass add
      if drop = [] then e else e.dropClass drop := by
  rw [updateClasses, touch_elements, modify_elements]

variable {marker : Text}

/-- `updateClasses` on all that carry the mark leaves none with it. -/
theorem changed_dropClass (hmarker : marker ≠ []) (g : Graph) :
    (g.updateClasses ((g.elements.filter fun e => marker ∈ e.classes).map (·.id)) []
      marker).elements = g.elements.map (Element.dropClass marker) := by
  rw [updateClasses_elements, Element.changed]
  refine List.map_congr_left fun e he => ?_
  simp only [if_true, if_neg hmarker]
  -- an element without the mark is not among them, and has none to lose
  split
  · rfl
  · rename_i hnot
    refine (Element.dropClass_eq_self fun hmem => hnot ?_).symm
    exact List.mem_map_of_mem (List.mem_filter.2 ⟨he, by simpa using hmem⟩)

/-- `select` of a selector without style classes does not depend on the marks. -/
theorem select_congr {g g' : Graph} {f : Element → Element}
    (hf : ∀ e, (f e).id = e.id ∧ (f e).kind = e.kind ∧ (f e).data = e.data ∧
      (f e).removed = e.removed) (h : g'.elements = g.elements.map f) {text : Text}
    (hplain : Selector.PlainText (some text)) :
    g'.select text = (g.select text).map (List.map f) := by
  -- the same elements are live, and the selector sees no difference between them
  have hlive : g'.live = g.live.map f := by
    rw [live, live, h, List.filter_map]
    refine congrArg (List.map f) (List.filter_congr fun e _ => ?_)
    show (!(f e).removed) = !e.removed
    rw [(hf e).2.2.2]
  unfold select
  cases hs : Selector.parse text with
  | error fault => rfl
  | ok s =>
    simp only [hlive]
    exact Element.matching_map fun e _ =>
      (hplain text s rfl hs).accepts_congr (hf e).2.1 (hf e).2.2.1

/-- `remark` goes by what the selector selects once the old marks are off: this is answered, and
this gets the mark. -/
theorem exists_remark_eq (hmarker : Selector.isClassName marker = true) (g : Graph)
    (selector : Option Text) : ∃ cleared : Graph,
    cleared.elements = g.elements.map (Element.dropClass marker) ∧
      (g.remark marker selector).2 = cleared.hits selector ∧
      (g.remark marker selector).1.elements =
        Element.changed cleared.elements (cleared.found selector) (Element.addClass marker) := by
  have hold : Element.matching (ofClass marker) g.elements =
      .ok (g.elements.filter fun e => marker ∈ e.classes) :=
    Element.matching_eq_filter fun e _ => accepts_ofClass marker e
  have hne : marker ≠ [] := fun hnil => by rw [hnil] at hmarker; cases hmarker
  have hcleared := changed_dropClass hne g
  unfold remark
  simp only [parse_ofClass hmarker, hold]
  -- from here on only the elements of the graph without marks are needed
  generalize g.updateClasses _ [] marker = cleared at hcleared
  refine ⟨cleared, hcleared, ?_⟩
  cases selector with
  | none => exact ⟨rfl, Element.changed_nil.symm⟩
  | some text =>
    cases hselect : cleared.select text with
    | error fault =>
      simp only [hselect, hits, found, Except.map, Element.changed_nil, and_self]
    | ok hits =>
      simp only [hselect, Graph.hits, found, Except.map, true_and]
      -- nothing is drawn anew where nothing is found
      by_cases hnil : hits.map (·.id) = []
      · rw [if_pos hnil, hnil, Element.changed_nil]
      · rw [if_neg hnil, updateClasses_elements]
        simp only [if_neg hne, if_true]

/-- `remark` changes marks only: what is `found` carries the mark, and nothing else does. -/
theorem remark_elements (hmarker : Selector.isClassName marker = true) (g : Graph)
    {selector : Option Text} (hplain : Selector.PlainText selector) :
    (g.remark marker selector).1.elements = g.elements.map fun e =>
      e.withMark marker (e.id ∈ g.found selector) := by
  obtain ⟨cleared, hcleared, -, helements⟩ := exists_remark_eq hmarker g selector
  -- the marks that were taken off do not show in what a selector without classes selects
  have hfound : cleared.found selector = g.found selector := by
    cases selector with
    | none => rfl
    | some text =>
      have hselect := select_congr (f := Element.dropClass marker)
        (fun e => ⟨rfl, rfl, rfl, rfl⟩) hcleared hplain
      unfold found
      simp only [hselect]
      cases g.select text with
      | error fault => rfl
      | ok hits => exact List.map_map
  rw [helements, hfound, hcleared, Element.changed, List.map_map]
  refine List.map_congr_left fun e _ => ?_
  show (if e.id ∈ g.found selector then _ else _) = _
  by_cases hmem : e.id ∈ g.found selector
  · rw [if_pos hmem]
    simp only [hmem, Element.withMark, decide_true, if_true]
  · rw [if_neg hmem]
    simp only [hmem, Element.withMark, decide_false, Bool.false_eq_true, if_false]

/-- `applyFind` is `remark` as one batch: it leaves the same elements and answers the same. -/
theorem applyFind_eq (g : Graph) (marker : Text) (selector : Option Text) :
    (g.applyFind marker selector).1.elements = (g.startBatch.remark marker selector).1.elements ∧
      (g.applyFind marker selector).2 = (g.startBatch.remark marker selector).2 := by
  have helements := g.batch_elements fun g => g.remark marker selector
  have hresult := g.batch_result fun g => g.remark marker selector
  unfold applyFind
  generalize g.batch (fun g => g.remark marker selector) = outcome at helements hresult
  obtain ⟨g', result⟩ := outcome
  -- the outcome decides what is reported, not what is marked or answered
  cases result with
  | error e => exact ⟨helements, hresult⟩
  | ok ids => exact ⟨helements, hresult⟩

/-- `applyFind` changes marks only: what is `found` carries the mark, and nothing else does. -/
theorem applyFind_elements (hmarker : Selector.isClassName marker = true) (g : Graph)
    {selector : Option Text} (hplain : Selector.PlainText selector) :
    (g.applyFind marker selector).1.elements = g.elements.map fun e =>
      e.withMark marker (e.id ∈ g.found selector) :=
  (applyFind_eq g marker selector).1.trans (remark_elements hmarker g.startBatch hplain)

/-- `applyFind` with the marker of the finder puts it on what is `found`, and takes it off
everything else. -/
theorem applyFind_findMarker (g : Graph) {selector : Option Text}
    (hplain : Selector.PlainText selector) :
    (g.applyFind findMarker selector).1.elements = g.elements.map fun e =>
      e.withMark findMarker (e.id ∈ g.found selector) :=
  applyFind_elements (by decide) g hplain

end Graph

end MeshLens
