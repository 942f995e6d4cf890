import MeshLens.Proofs.Hide.ConcealEffect

/-!
# What hiding leaves alone

Hiding and undoing it, in either way and from any state, touch nothing of an element but whether it is
visible and whether it is taken out. In particular style classes stay, also while an element is out
of the graph.

## Key results

- `Hider.apply_bare`: the elements of a snapshot but for the two flags are those from before
-/

namespace MeshLens

namespace Element

/-- What hiding leaves of an `Element`: all but the two flags. -/
def bare (e : Element) : Element :=
  { e with visible := true, removed := false }

/-- `bare` lists that are the same: their elements are found in pairs. -/
theorem exists_bare_eq {es es' : List Element} (h : es'.map bare = es.map bare) {x : Element}
    (hx : x ∈ es') : ∃ d ∈ es, d.bare = x.bare := by
  have hmem : x.bare ∈ es.map bare := h ▸ List.mem_map_of_mem hx
  exact List.mem_map.1 hmem

/-- `bare` after `withVisible` is as before. -/
@[simp] theorem bare_withVisible (visible : Bool) (e : Element) :
    (e.withVisible visible).bare = e.bare :=
  rfl

/-- `bare` after `withRemoved` is as before. -/
@[simp] theorem bare_withRemoved (removed : Bool) (e : Element) :
    (e.withRemoved removed).bare = e.bare :=
  rfl

end Element

namespace HideMode

/-- `bare` after `HideMode.conceal` is as before. -/
theorem bare_conceal (mode : HideMode) (e : Element) : (mode.conceal e).bare = e.bare := by
  cases mode <;> rfl

end HideMode

namespace Graph

/-- What hiding leaves of the elements of a `Graph`. -/
def bare (g : Graph) : List Element :=
  g.elements.map Element.bare

/-- `bare` depends on the elements only. -/
theorem bare_congr {g g' : Graph} (h : g'.elements = g.elements) : g'.bare = g.bare := by
  rw [bare, bare, h]

/-- `ids` depend on the `bare` elements only. -/
theorem ids_of_bare {g g' : Graph} (h : g'.bare = g.bare) : g'.ids = g.ids := by
  have hids := congrArg (List.map (·.id)) h
  rwa [bare, bare, List.map_map, List.map_map] at hids

/-- `bare` elements stay the same in `setVisible`. -/
@[simp] theorem bare_setVisible (g : Graph) (ids : List Text) (visible : Bool) :
    (g.setVisible ids visible).bare = g.bare := by
  rw [bare, setVisible_elements]
  exact Element.map_changed (Element.bare_withVisible visible)

/-- `bare` elements stay the same in `remove`. -/
theorem bare_remove (g : Graph) (ids : List Text) : (g.remove ids).1.bare = g.bare := by
  rw [bare, remove_elements]
  exact Element.map_changed (Element.bare_withRemoved true)

/-- `ids` stay the same in `remove`. -/
theorem ids_remove (g : Graph) (ids : List Text) : (g.remove ids).1.ids = g.ids :=
  ids_changed (Element.withRemoved_id true) (remove_elements g ids)

/-- `bare` elements stay the same in `putBack`. -/
theorem bare_putBack (g : Graph) (es : List Element) : (g.putBack es).1.bare = g.bare := by
  induction es generalizing g with
  | nil => rfl
  | cons e es ih =>
    simp only [putBack]
    split
    · exact ih _
    · refine (ih _).trans ?_
      exact Element.map_changed (Element.bare_withRemoved false)

/-- `bare` elements stay the same in `restore`. -/
theorem bare_restore (g : Graph) (ids : List Text) : (g.restore ids).1.bare = g.bare := by
  simp only [restore]
  exact (bare_congr (touch_elements _)).trans (bare_putBack g _)

/-- `bare` elements stay the same in `release`. -/
theorem bare_release (g : Graph) (name : Text) (handle : Option HideHandle) (graphChanged : Bool) :
    (g.release name handle graphChanged).bare = g.bare := by
  unfold release
  split
  · rfl
  · split
    · rfl
    · split
      · exact bare_setVisible g _ true
      · exact bare_restore g _

/-- `bare` elements stay the same in `conceal`. -/
theorem bare_conceal (g : Graph) (mode : HideMode) (ids : List Text) :
    (g.conceal mode ids).1.bare = g.bare := by
  rw [bare, conceal_elements]
  exact Element.map_changed mode.bare_conceal

/-- `bare` elements stay the same in `rehide`. -/
theorem bare_rehide (g : Graph) (name : Text) (handle : Option HideHandle) (selector : Option Text)
    (occasion : HideOccasion) : (g.rehide name handle selector occasion).1.bare = g.bare := by
  have hrelease := g.bare_release name handle occasion.graphChanged
  unfold rehide
  cases selector with
  | none => exact hrelease
  | some text =>
    dsimp only
    split
    · exact hrelease
    · exact (bare_conceal _ _ _).trans hrelease

end Graph

/-- `Hider.apply` leaves all but the two flags alone, however a hider is used, and in whatever
state. -/
theorem Hider.apply_bare (hider : Hider) (name : Text) (g : Graph) (selector : Option Text)
    (occasion : HideOccasion) : (hider.apply name g selector occasion).2.1.bare = g.bare := by
  have hbatch := g.batch_elements fun g => g.rehide name hider.handle selector occasion
  have hrehide := g.startBatch.bare_rehide name hider.handle selector occasion
  have hbare : (g.batch fun g => g.rehide name hider.handle selector occasion).1.bare = g.bare := by
    rw [Graph.bare_congr hbatch, hrehide]
    rfl
  -- what follows the batch is drawing, which changes no element
  unfold apply conclude
  split
  rename_i g' result hresult
  rw [hresult] at hbare
  split
  · exact hbare
  · dsimp only
    split <;> split <;> exact hbare

end MeshLens
