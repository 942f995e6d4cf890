import MeshLens.Find
import MeshLens.Proofs.Hide.HistoryIndependence

/-!
# When a layout is asked for

Changing elements, in whatever way, asks for renderings at most. A layout is asked for once, after a
call of a hider that says so, and never by marking.

## Key results

- `Hider.apply_layouts`, `Graph.applyFind_layouts`: the layouts asked for by hiding and by finding
-/

namespace MeshLens

namespace Graph

/-! ## Bookkeeping -/

/-- `modify` asks for no layout. -/
@[simp] theorem modify_layouts (g : Graph) (ids : List Text) (change : Element → Element) :
    (g.modify ids change).layouts = g.layouts :=
  rfl

/-- `note` asks for no layout. -/
@[simp] theorem note_layouts (g : Graph) (notice : Notice) : (g.note notice).layouts = g.layouts :=
  rfl

/-- `touch` asks for no layout. -/
@[simp] theorem touch_layouts (g : Graph) : g.touch.layouts = g.layouts := by
  unfold touch
  dsimp only
  split <;> rfl

/-- `batch` asks for the layouts that its step asks for. -/
theorem batch_layouts {α : Type} (g : Graph) (step : Graph → Graph × α) :
    (g.batch step).1.layouts = (step g.startBatch).1.layouts := by
  simp only [batch, endBatch?]
  split
  · rfl
  · simp only [Option.getD_some]
    split <;> rfl

/-! ## Changing elements -/

/-- `setVisible` asks for no layout. -/
@[simp] theorem setVisible_layouts (g : Graph) (ids : List Text) (visible : Bool) :
    (g.setVisible ids visible).layouts = g.layouts := by
  rw [setVisible, touch_layouts, modify_layouts]

/-- `updateClasses` asks for no layout. -/
@[simp] theorem updateClasses_layouts (g : Graph) (ids : List Text) (add drop : Text) :
    (g.updateClasses ids add drop).layouts = g.layouts := by
  rw [updateClasses, touch_layouts, modify_layouts]

/-- `remove` asks for no layout. -/
@[simp] theorem remove_layouts (g : Graph) (ids : List Text) :
    (g.remove ids).1.layouts = g.layouts := by
  simp only [remove, note_layouts, touch_layouts, modify_layouts]

/-- `putBack` asks for no layout. -/
theorem putBack_layouts (g : Graph) (es : List Element) : (g.putBack es).1.layouts = g.layouts := by
  induction es generalizing g with
  | nil => rfl
  | cons e es ih =>
    simp only [putBack]
    split
    · exact ih _
    · exact ih _

/-- `restore` asks for no layout. -/
theorem restore_layouts (g : Graph) (ids : List Text) :
    (g.restore ids).1.layouts = g.layouts := by
  simp only [restore, touch_layouts]
  exact putBack_layouts g _

/-- `removeEmptyBoxes` asks for no layout. -/
theorem removeEmptyBoxes_layouts (g : Graph) (removed : List Text) :
    (g.removeEmptyBoxes removed).1.layouts = g.layouts := by
  by_cases hboxes : g.emptyBoxes = []
  · rw [removeEmptyBoxes_of_nil hboxes]
  · -- by induction on the number of live elements, which each round lowers
    have hlt := emptyBoxes_liveCount_lt hboxes
    rw [removeEmptyBoxes_of_ne_nil hboxes, removeEmptyBoxes_layouts, remove_layouts]
termination_by g.liveCount

/-- `hideBlankBoxes` asks for no layout. -/
theorem hideBlankBoxes_layouts (g : Graph) (hidden : List Text) :
    (g.hideBlankBoxes hidden).1.layouts = g.layouts := by
  by_cases hboxes : g.blankBoxes = []
  · rw [hideBlankBoxes_of_nil hboxes]
  · -- by induction on the number of visible elements, which each round lowers
    have hlt := blankBoxes_visibleCount_lt hboxes
    rw [hideBlankBoxes_of_ne_nil hboxes, hideBlankBoxes_layouts, setVisible_layouts]
termination_by g.visibleCount

/-- `conceal` asks for no layout. -/
theorem conceal_layouts (g : Graph) (mode : HideMode) (ids : List Text) :
    (g.conceal mode ids).1.layouts = g.layouts := by
  cases mode with
  | hidden => exact (hideBlankBoxes_layouts _ ids).trans (setVisible_layouts g ids false)
  | removed => exact (removeEmptyBoxes_layouts _ _).trans (remove_layouts g ids)

/-- `release` asks for no layout. -/
theorem release_layouts (g : Graph) (name : Text) (handle : Option HideHandle)
    (graphChanged : Bool) : (g.release name handle graphChanged).layouts = g.layouts := by
  unfold release
  split
  · rfl
  · split
    · rfl
    · split
      · exact setVisible_layouts g _ true
      · exact restore_layouts g _

/-- `rehide` asks for no layout: neither undoing nor hiding does. -/
theorem rehide_layouts (g : Graph) (name : Text) (handle : Option HideHandle)
    (selector : Option Text) (occasion : HideOccasion) :
    (g.rehide name handle selector occasion).1.layouts = g.layouts := by
  have hrelease := g.release_layouts name handle occasion.graphChanged
  unfold rehide
  cases selector with
  | none => exact hrelease
  | some text =>
    dsimp only
    split
    · exact hrelease
    · exact (conceal_layouts _ _ _).trans hrelease

/-- `applyFind` asks for no layout. -/
theorem applyFind_layouts (g : Graph) (marker : Text) (selector : Option Text) :
    (g.applyFind marker selector).1.layouts = g.layouts := by
  -- each way through marking changes style classes only
  have hremark (g : Graph) : (g.remark marker selector).1.layouts = g.layouts := by
    unfold remark
    split
    · rfl
    · split
      · rfl
      · cases selector with
        | none => exact updateClasses_layouts g _ _ _
        | some text =>
          dsimp only
          split
          · exact updateClasses_layouts g _ _ _
          · split
            · exact updateClasses_layouts g _ _ _
            · exact (updateClasses_layouts _ _ _ _).trans (updateClasses_layouts g _ _ _)
  have hbatch := (g.batch_layouts fun g => g.remark marker selector).trans (hremark g.startBatch)
  unfold applyFind
  split
  rename_i g' result hresult
  rw [hresult] at hbatch
  split <;> exact hbatch

end Graph

/-- `HideHandle.outcome` says whether a layout was asked for. -/
theorem HideHandle.layoutRequested_outcome (handle : Option HideHandle) (layoutRequested : Bool) :
    (outcome handle layoutRequested).layoutRequested = layoutRequested := by
  unfold outcome
  split
  · rfl
  · split <;> rfl

/-- `Hider.apply` asks for one layout where it says so, and else for none. -/
theorem Hider.apply_layouts (hider : Hider) (name : Text) (g : Graph) (selector : Option Text)
    (occasion : HideOccasion) :
    let call := hider.apply name g selector occasion
    call.2.1.layouts = g.layouts ++
      match call.2.2 with
      | .error _ => []
      | .ok outcome =>
        if outcome.layoutRequested then
          [if occasion.layout = [] then hider.layout else occasion.layout]
        else [] := by
  have hrehide := g.startBatch.rehide_layouts name hider.handle selector occasion
  have hbatch := (g.batch_layouts fun g => g.rehide name hider.handle selector occasion).trans hrehide
  have hlayouts : g.startBatch.layouts = g.layouts := rfl
  rw [hlayouts] at hbatch
  unfold apply conclude
  split
  rename_i g' result hresult
  rw [hresult] at hbatch
  cases result with
  | error fault => exact hbatch.trans (List.append_nil _).symm
  | ok handle =>
    dsimp only
    rw [HideHandle.layoutRequested_outcome]
    -- what is reported after the layout asks for nothing
    cases needsLayout occasion selector handle with
    | true =>
      cases handle <;> exact congrArg (· ++ _) hbatch
    | false =>
      cases handle <;> exact hbatch.trans (List.append_nil _).symm

/-- `Hider.apply` asks for no layout where neither the query, nor the way of hiding, nor the
elements are others than before. -/
theorem Hider.apply_layouts_eq (hider : Hider) (name : Text) (g : Graph) (selector : Option Text)
    {occasion : HideOccasion} (hhide : occasion.hideChanged = false)
    (hcompress : occasion.compressChanged = false) (helements : occasion.elementsChanged = false) :
    (hider.apply name g selector occasion).2.1.layouts = g.layouts := by
  have hquiet (handle : Option HideHandle) : needsLayout occasion selector handle = false := by
    simp [needsLayout, hhide, hcompress, helements]
  rw [hider.apply_layouts, hider.apply_result]
  cases (g.startBatch.rehide name hider.handle selector occasion).2 with
  | error fault => exact List.append_nil _
  | ok handle =>
    have houtcome : (HideHandle.outcome handle (needsLayout occasion selector handle)).layoutRequested =
        false := by
      rw [HideHandle.layoutRequested_outcome, hquiet]
    simp only [Except.map, houtcome]
    exact List.append_nil _

end MeshLens
