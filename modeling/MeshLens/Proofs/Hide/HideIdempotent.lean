import MeshLens.Proofs.Find.FindIdempotent
import MeshLens.Proofs.Hide.HideFrame
import MeshLens.Proofs.Hide.ClassIndependence

/-!
# Hiding again

When elements are made invisible and the same selection is hidden again on the same snapshot, showing
them first and hiding anew comes to what was there. This is so from any state of the snapshot, also
where some elements were invisible before: what a selection hides does not depend on what is visible,
and the boxes that go in rounds were all visible before they went.

Taking elements out does not repeat like this: an element that is out is not selected.

## Key results

- `Graph.obscure_again`: showing what was hidden and hiding it anew hides the same
- `Graph.Rests`, `Graph.rests_rehide`: the state that hiding leaves behind
- `Graph.Rests.rehide_eq`, `Hider.apply_of_rests`: hiding again in this state changes nothing
-/

namespace MeshLens

namespace Element

/-- `withVisible` by what an element is already changes nothing. -/
theorem withVisible_self (e : Element) : e.withVisible e.visible = e :=
  rfl

/-- `changed` by `withVisible` for some ids, as a change of every element. -/
theorem changed_withVisible (es : List Element) (ids : List Text) (visible : Bool) :
    changed es ids (withVisible visible) =
      es.map fun e => e.withVisible (if e.id ∈ ids then visible else e.visible) := by
  refine List.map_congr_left fun e _ => ?_
  split
  · rfl
  · exact e.withVisible_self.symm

end Element

namespace Graph

/-! ## Hiding the same selection -/

/-- `hideBlankBoxes` answers boxes that were visible before the rounds, besides what was asked for.
-/
theorem visible_of_mem_hideBlankBoxes {g : Graph} {hidden : List Text} {id : Text}
    (h : id ∈ (g.hideBlankBoxes hidden).2) :
    id ∈ hidden ∨ ∃ e ∈ g.elements, e.id = id ∧ e.visible = true := by
  by_cases hboxes : g.blankBoxes = []
  · rw [hideBlankBoxes_of_nil hboxes] at h
    exact .inl h
  · -- by induction on the number of visible elements, which each round lowers
    have hlt := blankBoxes_visibleCount_lt hboxes
    rw [hideBlankBoxes_of_ne_nil hboxes] at h
    rcases visible_of_mem_hideBlankBoxes h with h | ⟨e, he, rfl, hvisible⟩
    · rcases List.mem_append.1 (mem_distinct.1 h) with h | h
      · exact .inl h
      · exact .inr (mem_elements_of_mem_blankBoxes h)
    · -- what is visible after a round was so before it
      rw [setVisible_elements] at he
      obtain ⟨d, hd, rfl⟩ := List.mem_map.1 he
      right
      split at hvisible
      · cases hvisible
      · rename_i hkept
        exact ⟨d, hd, by rw [if_neg hkept], hvisible⟩
termination_by g.visibleCount

variable {g g' : Graph} {name text : Text} {ids : List Text}

/-- `setVisible` again, once what was hidden is shown: the same elements are visible as before the
rounds. -/
theorem setVisible_again (hnodup : g.ids.Nodup)
    (hg' : g'.elements = Element.changed g.elements (g.obscure ids).2 (Element.withVisible true)) :
    (g'.setVisible ids false).elements = (g.setVisible ids false).elements := by
  -- what went in the rounds only was visible to begin with
  have hrounds {e : Element} (he : e ∈ g.elements) (hmem : e.id ∈ (g.obscure ids).2)
      (hids : e.id ∉ ids) : e.visible = true := by
    obtain ⟨d, hd, hsame, hvisible⟩ := (visible_of_mem_hideBlankBoxes hmem).resolve_left hids
    rw [setVisible_elements] at hd
    obtain ⟨c, hc, rfl⟩ := List.mem_map.1 hd
    by_cases hmem : c.id ∈ ids
    · rw [if_pos hmem] at hvisible
      cases hvisible
    · rw [if_neg hmem] at hsame hvisible
      rw [← eq_of_id_eq hnodup hc he hsame]
      exact hvisible
  rw [setVisible_elements, setVisible_elements, hg', Element.changed, Element.changed,
    Element.changed, List.map_map]
  refine List.map_congr_left fun e he => ?_
  show (if _ ∈ ids then _ else _) = _
  by_cases hmem : e.id ∈ (g.obscure ids).2
  · simp only [if_pos hmem, Element.withVisible_id, Element.withVisible_withVisible]
    by_cases hids : e.id ∈ ids
    · rw [if_pos hids, if_pos hids]
    · -- a box that went in a round: it was visible
      rw [if_neg hids, if_neg hids, ← hrounds he hmem hids]
      exact e.withVisible_self
  · simp only [if_neg hmem]

/-- `obscure` again, once what was hidden is shown, hides the same. -/
theorem obscure_again (hnodup : g.ids.Nodup)
    (hg' : g'.elements = Element.changed g.elements (g.obscure ids).2 (Element.withVisible true)) :
    (g'.obscure ids).2 = (g.obscure ids).2 :=
  hideBlankBoxes_congr (setVisible_again hnodup hg') ids

/-! ## The state that hiding leaves behind -/

/-- Whether `rehide` would find the snapshot as it would leave it: nothing is held where nothing can
be hidden, and else what is held is invisible and would be hidden once shown. -/
def Rests (g : Graph) (name : Text) (selector : Option Text) : Option HideHandle → Prop
  | none => ∀ text, selector = some text → ∃ fault, g.hideClosure text = .error fault
  | some h => h.graph = name ∧ h.mode = .hidden ∧
      (∀ e ∈ g.elements, e.id ∈ h.elements → e.visible = false) ∧
      ∃ text ids, selector = some text ∧ g.hideClosure text = .ok ids ∧
        ((g.setVisible h.elements true).obscure ids).2 = h.elements

/-- `hideClosure` does not depend on what is visible. -/
theorem hideClosure_visible {visible : Element → Bool} (hplain : Selector.PlainText (some text))
    (h : g'.elements = g.elements.map fun e => e.withVisible (visible e)) :
    g'.hideClosure text = g.hideClosure text :=
  (hideClosure_congr (show _ = (g.mapped fun e => e.withVisible (visible e)).elements from h) text).trans
    (hideClosure_mapped (Element.overlooked_withVisible visible) g hplain)

/-- What a handle is after `rehide`: the new one, or none, when the selector cannot be evaluated. -/
def handleOf (result : Except EvaluationError (Option HideHandle)) : Option HideHandle :=
  match result with
  | .ok handle => handle
  | .error _ => none

/-- `rehide` that makes elements invisible leaves a snapshot at rest. -/
theorem rests_rehide {selector : Option Text} {occasion : HideOccasion} (hnodup : g.ids.Nodup)
    (hplain : Selector.PlainText selector) (hcompress : occasion.compress = false)
    (handle : Option HideHandle) :
    (g.rehide name handle selector occasion).1.Rests name selector
      (handleOf (g.rehide name handle selector occasion).2) := by
  have hids := ids_of_bare (g.bare_release name handle occasion.graphChanged)
  unfold rehide
  -- from here on only the snapshot after the release matters
  generalize g.release name handle occasion.graphChanged = released at hids
  rw [← hids] at hnodup
  cases selector with
  | none => exact fun text hnone => nomatch hnone
  | some text =>
    cases hclosure : released.hideClosure text with
    | error fault =>
      simp only [hclosure]
      intro text' hsame
      cases hsame
      exact ⟨fault, hclosure⟩
    | ok ids =>
      simp only [hclosure, hcompress, Bool.false_eq_true, if_false]
      have helements : (released.conceal .hidden ids).1.elements =
          Element.changed released.elements (released.obscure ids).2 (Element.withVisible false) :=
        released.conceal_elements .hidden ids
      refine ⟨rfl, rfl, fun e he hmem => ?_, text, ids, rfl, ?_, ?_⟩
      · rw [helements] at he
        obtain ⟨d, hd, rfl⟩ := List.mem_map.1 he
        by_cases hheld : d.id ∈ (released.obscure ids).2
        · rw [if_pos hheld]
          rfl
        · rw [if_neg hheld] at hmem
          exact absurd hmem hheld
      · rw [hideClosure_visible hplain (helements.trans (Element.changed_withVisible _ _ _)), hclosure]
      · refine obscure_again hnodup ?_
        -- showing what was just hidden is showing it in the first place
        rw [setVisible_elements, helements]
        refine List.map_map.trans (List.map_congr_left fun e _ => ?_)
        show (if _ ∈ (released.obscure ids).2 then _ else _) = _
        by_cases hheld : e.id ∈ (released.obscure ids).2
        · simp only [if_pos hheld, Element.withVisible_id, Element.withVisible_withVisible]
        · simp only [if_neg hheld]

/-- `Rests`: `rehide` changes nothing in a snapshot at rest. -/
theorem Rests.rehide_eq {handle : Option HideHandle} {selector : Option Text}
    {occasion : HideOccasion} (h : g.Rests name selector handle)
    (hplain : Selector.PlainText selector) (hgraph : occasion.graphChanged = false)
    (hcompress : occasion.compress = false) :
    (g.rehide name handle selector occasion).1.elements = g.elements ∧
      handleOf (g.rehide name handle selector occasion).2 = handle ∧
      ∀ handle', (g.rehide name handle selector occasion).2 = .ok handle' →
        selector = none ∨ handle ≠ none := by
  cases handle with
  | none =>
    cases selector with
    | none => exact ⟨rfl, rfl, fun _ _ => .inl rfl⟩
    | some text =>
      obtain ⟨fault, hfault⟩ := h text rfl
      rw [rehide_none_of_error hfault]
      refine ⟨rfl, rfl, fun _ hok => ?_⟩
      cases hok
  | some hd =>
    obtain ⟨hown, hmode, hinvisible, text, ids, rfl, hclosure, hagain⟩ := h
    have hreleased : g.release name (some hd) occasion.graphChanged =
        g.setVisible hd.elements true := by
      simp only [release, hown, hgraph, hmode, ne_eq, not_true_eq_false, Bool.false_eq_true, or_self,
        if_false]
    have hshown : (g.setVisible hd.elements true).hideClosure text = .ok ids := by
      rw [hideClosure_visible hplain ((setVisible_elements g _ _).trans
        (Element.changed_withVisible _ _ _)), hclosure]
    unfold rehide
    simp only [hreleased, hshown, hcompress, Bool.false_eq_true, if_false]
    refine ⟨?_, ?_, fun _ _ => .inr (Option.some_ne_none hd)⟩
    · have helements := (g.setVisible hd.elements true).conceal_elements .hidden ids
      have hsame : ((g.setVisible hd.elements true).conceal .hidden ids).2 = hd.elements := hagain
      rw [helements, hsame, setVisible_elements]
      -- what is held is shown and made invisible again
      refine List.map_map.trans ((List.map_congr_left fun e he => ?_).trans (List.map_id _))
      show (if _ ∈ hd.elements then _ else _) = _
      by_cases hheld : e.id ∈ hd.elements
      · simp only [if_pos hheld, Element.withVisible_id, HideMode.conceal,
          Element.withVisible_withVisible]
        rw [← hinvisible e he hheld]
        exact e.withVisible_self
      · simp only [if_neg hheld]
        rfl
    · have hsame : ((g.setVisible hd.elements true).conceal .hidden ids).2 = hd.elements := hagain
      obtain ⟨graph, mode, elements⟩ := hd
      obtain rfl : graph = name := hown
      obtain rfl : mode = .hidden := hmode
      show some (HideHandle.mk _ _ _) = _
      rw [hsame]

/-- `Rests` is preserved by marking. -/
theorem Rests.of_unmarked {handle : Option HideHandle} {selector : Option Text}
    (h : g.Rests name selector handle) (hplain : Selector.PlainText selector)
    (hsame : g'.elements.map Element.unmarked = g.elements.map Element.unmarked) :
    g'.Rests name selector handle := by
  -- marks are no part of what a plain selector reads
  have hclosure (text : Text) (hsome : selector = some text) :
      g'.hideClosure text = g.hideClosure text := by
    subst hsome
    exact hideClosure_congr_unmarked hsame hplain
  cases handle with
  | none =>
    intro text hsome
    rw [hclosure text hsome]
    exact h text hsome
  | some hd =>
    obtain ⟨hown, hmode, hinvisible, text, ids, hsome, hids, hagain⟩ := h
    refine ⟨hown, hmode, fun e he hheld => ?_, text, ids, hsome, ?_, ?_⟩
    · -- what the handle holds was invisible before, and marks do not change that
      obtain ⟨d, hd, hpair⟩ := Element.exists_mem_of_unmarked hsame he
      obtain ⟨hid, -, -, hvisible, -⟩ := Element.eq_of_unmarked_eq hpair
      exact hvisible.symm.trans (hinvisible d hd (hid ▸ hheld))
    · rw [hclosure text hsome, hids]
    · -- showing what is held and dropping the marks can be done in either order
      have hshown : (g'.setVisible hd.elements true).elements.map Element.unmarked =
          (g.setVisible hd.elements true).elements.map Element.unmarked := by
        simp only [setVisible_elements,
          ← Element.changed_map_unmarked (Element.withVisible_unmarked true), hsame]
      exact (conceal_congr_unmarked hshown .hidden ids).trans hagain

/-! ## What becomes of the elements -/

variable {handle : Option HideHandle} {selector : Option Text} {occasion : HideOccasion}

/-- `release` makes elements visible or invisible, when the handle took nothing out of this
snapshot. -/
theorem release_visible (name : Text) (graphChanged : Bool)
    (hheld : ∀ h, handle = some h → h.mode = .hidden ∨ graphChanged = true ∨ h.graph ≠ name)
    (g : Graph) : ∃ visible : Element → Bool,
      (g.release name handle graphChanged).elements =
        g.elements.map fun e => e.withVisible (visible e) := by
  have hsame : g.elements = g.elements.map fun e => e.withVisible e.visible :=
    (List.map_id _).symm
  unfold release
  cases handle with
  | none => exact ⟨_, hsame⟩
  | some h =>
    dsimp only
    split
    · exact ⟨_, hsame⟩
    · rename_i hown
      rw [(hheld h rfl).resolve_right hown]
      exact ⟨_, (setVisible_elements g _ _).trans (Element.changed_withVisible _ _ _)⟩

/-- `putBack` makes what depends on the elements only. -/
theorem putBack_congr {es : List Element} (h : g.elements = g'.elements) :
    (g.putBack es).1.elements = (g'.putBack es).1.elements := by
  induction es generalizing g g' with
  | nil => exact h
  | cons e es ih =>
    have hends : g.endsLive e = g'.endsLive e := by simp only [endsLive, element?, h]
    simp only [putBack, hends]
    split
    · exact ih h
    · refine ih ?_
      simp only [modify, h]

/-- `release` makes of the elements what depends on the elements only. -/
theorem release_congr (h : g.elements = g'.elements) (handle : Option HideHandle) (name : Text)
    (graphChanged : Bool) :
    (g.release name handle graphChanged).elements =
      (g'.release name handle graphChanged).elements := by
  unfold release
  cases handle with
  | none => exact h
  | some hd =>
    dsimp only
    split
    · exact h
    · cases hd.mode with
      | hidden => simp only [setVisible_elements, h]
      | removed =>
        simp only [restore, touch_elements, h]
        exact putBack_congr h

/-- `rehide` makes elements visible or invisible, and does no more, when nothing was taken out of
this snapshot before and nothing is to be taken out. -/
theorem rehide_visible (name : Text)
    (hheld : ∀ h, handle = some h → h.mode = .hidden ∨ occasion.graphChanged = true ∨ h.graph ≠ name)
    (hcompress : occasion.compress = false) (g : Graph) (selector : Option Text) :
    (∃ visible : Element → Bool, (g.rehide name handle selector occasion).1.elements =
      g.elements.map fun e => e.withVisible (visible e)) ∧
    ∀ h, handleOf (g.rehide name handle selector occasion).2 = some h → h.mode = .hidden := by
  obtain ⟨shown, hshown⟩ := release_visible name occasion.graphChanged hheld g
  unfold rehide
  generalize g.release name handle occasion.graphChanged = released at hshown
  cases selector with
  -- nothing is asked to be hidden, so only the release changes what is seen
  | none => exact ⟨⟨shown, hshown⟩, fun h hh => nomatch hh⟩
  | some text =>
    cases hclosure : released.hideClosure text with
    | error fault =>
      simp only [hclosure]
      exact ⟨⟨shown, hshown⟩, fun h hh => nomatch hh⟩
    | ok ids =>
      simp only [hclosure, hcompress, Bool.false_eq_true, if_false]
      refine ⟨⟨fun e => if e.id ∈ (released.conceal .hidden ids).2 then false else shown e, ?_⟩,
        fun h hh => ?_⟩
      · -- what is concealed goes out of sight, the rest is as the release left it
        refine (released.conceal_elements .hidden ids).trans ?_
        rw [HideMode.conceal, Element.changed_withVisible, hshown, List.map_map]
        rfl
      · cases hh
        rfl

end Graph

/-- What a `HideOutcome` says is invisible, and what it says is taken out. -/
def HideOutcome.concealed (outcome : HideOutcome) : List Text × List Text :=
  (outcome.hidden, outcome.removed)

/-- `outcome` says what a handle holds, whether a layout is asked for or not. -/
theorem HideHandle.concealed_outcome (handle : Option HideHandle) (requested requested' : Bool) :
    (outcome handle requested).concealed = (outcome handle requested').concealed := by
  unfold outcome
  split
  · rfl
  · split <;> rfl

namespace Hider

variable {g : Graph} {name : Text} {hider : Hider} {selector : Option Text} {occasion : HideOccasion}

/-- `apply` leaves a hider that differs in the handle only. -/
theorem apply_hider (hider : Hider) (name : Text) (g : Graph) (selector : Option Text)
    (occasion : HideOccasion) : (hider.apply name g selector occasion).1 =
      { hider with
        handle := Graph.handleOf (g.startBatch.rehide name hider.handle selector occasion).2 } := by
  have hbatch := g.batch_result fun g => g.rehide name hider.handle selector occasion
  unfold apply conclude
  split
  rename_i g' result hresult
  rw [hresult] at hbatch
  rw [← hbatch]
  cases result <;> rfl

/-- `apply` that makes elements invisible leaves a snapshot at rest, and answers what the hider
holds. -/
theorem rests_apply (hnodup : g.ids.Nodup) (hplain : Selector.PlainText selector)
    (hcompress : occasion.compress = false) (hider : Hider) (name : Text) :
    let call := hider.apply name g selector occasion
    call.2.1.Rests name selector call.1.handle ∧
      (selector = none ∨ call.1.handle ≠ none → ∃ outcome, call.2.2 = .ok outcome ∧
        outcome.concealed = (HideHandle.outcome call.1.handle false).concealed) := by
  have hrests : Graph.Rests _ name selector _ :=
    Graph.rests_rehide (g := g.startBatch) hnodup hplain hcompress hider.handle
  intro call
  have helements : call.2.1.elements =
      (g.startBatch.rehide name hider.handle selector occasion).1.elements :=
    hider.apply_elements name g selector occasion
  have hhider := hider.apply_hider name g selector occasion
  refine ⟨?_, ?_⟩
  · rw [hhider]
    exact hrests.of_unmarked hplain (congrArg _ helements)
  · rw [hhider, hider.apply_result]
    cases hresult : (g.startBatch.rehide name hider.handle selector occasion).2 with
    | error fault =>
      -- without a selector nothing is evaluated, and after a failure nothing is held
      rintro (rfl | hheld)
      · cases hresult
      · exact absurd rfl hheld
    | ok handle => exact fun _ => ⟨_, rfl, HideHandle.concealed_outcome handle _ _⟩

/-- `apply` in a snapshot at rest changes nothing. -/
theorem apply_of_rests (h : g.Rests name selector hider.handle)
    (hplain : Selector.PlainText selector) (hgraph : occasion.graphChanged = false)
    (hcompress : occasion.compress = false) :
    let call := hider.apply name g selector occasion
    call.2.1.elements = g.elements ∧ call.1 = hider ∧
      ∀ outcome, call.2.2 = .ok outcome → (selector = none ∨ hider.handle ≠ none) ∧
        outcome.concealed = (HideHandle.outcome hider.handle false).concealed := by
  have hrests : g.startBatch.Rests name selector hider.handle := h.of_unmarked hplain rfl
  obtain ⟨helements, hhandle, hheld⟩ := hrests.rehide_eq hplain hgraph hcompress
  refine ⟨(hider.apply_elements name g selector occasion).trans helements, ?_, fun outcome hok => ?_⟩
  · rw [hider.apply_hider, hhandle]
  · rw [hider.apply_result] at hok
    obtain ⟨handle, hresult, rfl⟩ := Except.map_eq_ok hok
    obtain rfl : handle = hider.handle := by
      rw [← hhandle, hresult]
      rfl
    exact ⟨hheld _ hresult, HideHandle.concealed_outcome _ _ _⟩

end Hider

end MeshLens
