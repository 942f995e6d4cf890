import MeshLens.Hide.Workspace
import MeshLens.Proofs.Hide.HistoryIndependence
import MeshLens.Proofs.Session.Run

/-!
# Hiding with a handle on another snapshot

What a handle holds are elements of the snapshot that it was made on, and undoing it changes them where
they live. A hider looks at one snapshot at a time, so a handle that reached into another one would be
out of its sight. These lemmas tell hiding over all snapshots at once, every member of a handle being
changed in the snapshot that it belongs to, and find that nothing happens but what the hider sees.

## Key results

- `Workspace.graphAt_release`: undoing reaches the snapshot at hand only
- `Workspace.hide_spec`: hiding over all snapshots is hiding on the one at hand
-/

namespace MeshLens

/-- `Entries.get?` of a table whose values were changed, each with its name. -/
theorem Entries.get?_map {α β : Type} (f : Text → α → β) (entries : Entries α) (name : Text) :
    Entries.get? (entries.map fun (key, value) => (key, f key value)) name =
      (entries.get? name).map (f name) := by
  induction entries with
  | nil => rfl
  | cons entry rest ih =>
    obtain ⟨key, value⟩ := entry
    rw [List.map_cons, get?_cons, get?_cons, ih]
    split
    · rename_i hkey
      rw [hkey]
      rfl
    · rfl

/-- `HideHandle.refs` all live in one snapshot. -/
theorem HideHandle.ids_refs (handle : HideHandle) (name : Text) :
    (handle.refs.filter (·.graph = name)).map (·.id) =
      if handle.graph = name then handle.elements else [] := by
  rw [refs, List.filter_map, List.map_map]
  split
  · rename_i hname
    simp [Function.comp_def, hname]
  · rename_i hname
    simp [Function.comp_def, hname]

namespace Hider

/-- `apply` is `conclude` after the batch. -/
theorem apply_eq_conclude (hider : Hider) (name : Text) (g : Graph) (selector : Option Text)
    (occasion : HideOccasion) :
    let batched := g.batch fun g => g.rehide name hider.handle selector occasion
    hider.apply name g selector occasion = hider.conclude selector occasion batched.1 batched.2 :=
  rfl

end Hider

namespace Workspace

variable (w : Workspace) (name : Text)

/-- `graphAt` after `modify` of a workspace: in each snapshot those elements change that live there.
-/
theorem graphAt_modify (refs : List ElementRef) (change : Element → Element) :
    (w.modify refs change).graphAt name =
      (w.graphAt name).modify ((refs.filter (·.graph = name)).map (·.id)) change := by
  have hfound := Entries.get?_map
    (fun name g => Graph.modify g ((refs.filter (·.graph = name)).map (·.id)) change) w.graphs name
  rw [graphAt, graph?, modify, hfound, graphAt, graph?]
  cases w.graphs.get? name with
  | none => rfl
  | some g => rfl

/-- `release` over all snapshots reaches the one at hand only. -/
theorem graphAt_release (handle : Option HideHandle) (graphChanged : Bool) (other : Text) :
    (w.release name handle graphChanged).graphAt other =
      if name = other then (w.graphAt name).release name handle graphChanged
      else w.graphAt other := by
  -- cases on the handle, which may be stale or on another snapshot
  cases handle with
  | none =>
    split
    · rename_i hname
      rw [← hname]
      rfl
    · rfl
  | some h =>
    unfold release Graph.release
    dsimp only
    by_cases hstale : graphChanged = true ∨ h.graph ≠ name
    · rw [if_pos hstale, if_pos hstale, graphAt_put]
    · rw [if_neg hstale, if_neg hstale]
      -- the handle is on the snapshot at hand
      obtain ⟨-, hsame⟩ := not_or.1 hstale
      obtain rfl := Decidable.not_not.1 hsame
      cases h.mode with
      | hidden =>
        simp only [setVisible, touch, graphAt_put, graphAt_modify, h.ids_refs, if_true]
        split
        · rfl
        · rw [Graph.modify_nil]
      | removed => simp only [restore, graphAt_put, h.ids_refs, if_true]

/-- `hide` over all snapshots is what `Hider.apply` does on the one at hand, and nothing on any
other. -/
theorem hide_spec (hider : Hider) (selector : Option Text) (occasion : HideOccasion) :
    let call := hider.apply name (w.graphAt name) selector occasion
    (w.hide name hider selector occasion).1 = call.1 ∧
      (w.hide name hider selector occasion).2.2 = call.2.2 ∧
      ∀ other, (w.hide name hider selector occasion).2.1.graphAt other =
        if name = other then call.2.1 else w.graphAt other := by
  intro call
  -- only the snapshot that is named may have been released
  have hreleased (other : Text) : ((w.put name (w.graphAt name).startBatch).release name hider.handle
      occasion.graphChanged).graphAt other =
        if name = other then
          (w.graphAt name).startBatch.release name hider.handle occasion.graphChanged
        else w.graphAt other := by
    rw [graphAt_release, graphAt_put, if_pos rfl, graphAt_put]
    split <;> rfl
  have hcall : call = hider.conclude selector occasion _ _ :=
    hider.apply_eq_conclude name (w.graphAt name) selector occasion
  rw [hcall, hide, hreleased name, if_pos rfl]
  refine ⟨rfl, rfl, fun other => ?_⟩
  dsimp only
  -- the snapshot that is concealed in is put back under its name, the others are not touched
  rw [graphAt_put, hreleased]
  split <;> rfl

end Workspace

end MeshLens
