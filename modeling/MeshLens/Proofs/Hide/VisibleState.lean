import MeshLens.Proofs.Hide.ClassIndependence

/-!
# What a viewer sees

Of a snapshot, a viewer sees which elements are visible and which are taken out. A hider that has only
ever worked on it in turn with other snapshots, and a snapshot that has been marked in between, look
like after one call of a new hider on the snapshot as it was built: a veil laid over it.

## Key results

- `Veiled.view_eq`: what is seen through a veil
- `Veiled.mark`, `Veiled.hide`: marking leaves the veil, and hiding lays another one in its place
-/

namespace MeshLens

/-- What is seen of the elements of a `Graph`: which are visible, and which are taken out. -/
def Graph.view (g : Graph) : List (Text × Bool × Bool) :=
  g.elements.map fun e => (e.id, e.visible, e.removed)

/-- `Graph.view` does not depend on style classes. -/
theorem Graph.view_unmarked (g : Graph) : g.unmarked.view = g.view :=
  List.map_map

/-- A way to hide elements, as `Hider.apply` is given it: a selector, if there is one, and whether
what it selects is taken out or made invisible. -/
structure Veil where
  selector : Option Text := none
  compress : Bool := false
  deriving DecidableEq

/-- What one call of a new `Hider` makes of a snapshot. -/
def Veil.over (v : Veil) (name : Text) (g : Graph) : Hider × Graph :=
  let call := ({} : Hider).apply name g v.selector { compress := v.compress }
  (call.1, call.2.1)

namespace HideHandle

/-- The `HideHandle`, if it is on the snapshot of a name. -/
def on (name : Text) (handle : Option HideHandle) : Option HideHandle :=
  handle.filter fun h => h.graph = name

/-- `on` a snapshot, a handle is itself if it is on this one. -/
theorem on_eq_self {name : Text} {handle : Option HideHandle}
    (h : ∀ hd, handle = some hd → hd.graph = name) : on name handle = handle := by
  cases handle with
  | none => rfl
  | some hd => exact Option.filter_some_pos (by simpa using h hd rfl)

/-- `on` a snapshot, a handle is none if it is on another one. -/
theorem on_eq_none {name : Text} {handle : Option HideHandle}
    (h : ∀ hd, handle = some hd → hd.graph ≠ name) : on name handle = none := by
  cases handle with
  | none => rfl
  | some hd => exact Option.filter_some_neg (by simpa using h hd rfl)

/-- `conceal` of changed elements: the change can be made before or after, if hiding does not see
it. -/
theorem conceal_map {f : Element → Element} (hid : ∀ e, (f e).id = e.id)
    (hf : ∀ (mode : HideMode) e, mode.conceal (f e) = f (mode.conceal e))
    (handle : Option HideHandle) (es : List Element) :
    conceal handle (es.map f) = (conceal handle es).map f := by
  cases handle with
  | none => rfl
  | some h =>
    rw [conceal, conceal, Element.changed, Element.changed, List.map_map, List.map_map]
    refine List.map_congr_left fun e _ => ?_
    show (if (f e).id ∈ h.elements then h.mode.conceal (f e) else f e) =
      f (if e.id ∈ h.elements then h.mode.conceal e else e)
    by_cases hmem : e.id ∈ h.elements
    · rw [hid, if_pos hmem, if_pos hmem, hf]
    · rw [hid, if_neg hmem, if_neg hmem]

end HideHandle

/-! ## Elements that differ in style classes -/

/-- `Pristine` does not depend on style classes. -/
theorem Pristine.of_unmarked {es ds : List Element}
    (h : es.map Element.unmarked = ds.map Element.unmarked) (hds : Pristine ds) : Pristine es where
  nodup := by
    have hids (xs : List Element) : xs.map (·.id) = (xs.map Element.unmarked).map (·.id) := by
      rw [List.map_map]
      rfl
    rw [hids, h, ← hids]
    exact hds.nodup
  shown := by
    intro e he
    obtain ⟨d, hd, hsame⟩ := Element.exists_mem_of_unmarked h he
    obtain ⟨-, -, -, hvisible, hremoved⟩ := Element.eq_of_unmarked_eq hsame
    rw [← hvisible, ← hremoved]
    exact hds.shown d hd
  joined := by
    intro e he hedge v hv
    obtain ⟨d, hd, hsame⟩ := Element.exists_mem_of_unmarked h he
    obtain ⟨-, hkind, hdata, -⟩ := Element.eq_of_unmarked_eq hsame
    simp only [Element.isEdge, Element.source, Element.target, Element.field, ← hkind,
      ← hdata] at hedge hv
    -- the end is among the others, and so it is among these
    obtain ⟨n, hn, hnode, hid⟩ := hds.joined d hd hedge v hv
    obtain ⟨m, hm, hsame'⟩ := Element.exists_mem_of_unmarked h.symm hn
    obtain ⟨hid', hkind', -⟩ := Element.eq_of_unmarked_eq hsame'
    refine ⟨m, hm, ?_, hid'.trans hid⟩
    rw [Element.isNode, hkind']
    exact hnode

namespace Graph

variable {g g' : Graph}

/-- `rehide` depends on what undoing the handle leaves, and on the way of hiding. -/
theorem rehide_congr {name : Text} {handle handle' : Option HideHandle} {occasion occasion' : HideOccasion}
    (h : (g.release name handle occasion.graphChanged).elements =
      (g'.release name handle' occasion'.graphChanged).elements)
    (hcompress : occasion.compress = occasion'.compress) (selector : Option Text) :
    (g.rehide name handle selector occasion).2 = (g'.rehide name handle' selector occasion').2 ∧
      (g.rehide name handle selector occasion).1.elements =
        (g'.rehide name handle' selector occasion').1.elements := by
  unfold rehide
  cases selector with
  -- the released graphs agree, so the same closure is found in both
  | none => exact ⟨rfl, h⟩
  | some text =>
    have hclosure := hideClosure_congr h text
    simp only [hclosure, hcompress]
    cases (g'.release name handle' occasion'.graphChanged).hideClosure text with
    | error fault => exact ⟨rfl, h⟩
    | ok ids =>
      -- from here on only the way of hiding is read of an occasion
      generalize (if occasion'.compress then HideMode.removed else HideMode.hidden) = mode
      have hconceal := conceal_congr h mode ids
      refine ⟨by simp only [hconceal], ?_⟩
      show ((g.release name handle occasion.graphChanged).conceal mode ids).1.elements =
        ((g'.release name handle' occasion'.graphChanged).conceal mode ids).1.elements
      rw [conceal_elements, conceal_elements, h, hconceal]

/-- `release` undoes only a handle on the snapshot itself. -/
theorem release_on (g : Graph) {name : Text} {handle : Option HideHandle} {graphChanged : Bool}
    (h : graphChanged = true → HideHandle.on name handle = none) :
    (g.release name handle graphChanged).elements =
      (g.release name (HideHandle.on name handle) false).elements := by
  -- cases: no handle, one on this snapshot, and one on another
  cases handle with
  | none => rfl
  | some hd =>
    by_cases hown : hd.graph = name
    · have hon : HideHandle.on name (some hd) = some hd :=
        HideHandle.on_eq_self fun hd' h' => by cases h'; exact hown
      have hsame : graphChanged = false := by
        cases graphChanged with
        | false => rfl
        | true => cases hon.symm.trans (h rfl)
      rw [hon, hsame]
    · have hon : HideHandle.on name (some hd) = none :=
        HideHandle.on_eq_none fun hd' h' => by cases h'; exact hown
      rw [hon]
      simp [release, hown]

/-- `rehide` as the first thing in two graphs that differ in style classes comes to the same. -/
theorem rehide_result_congr (h : g.elements.map Element.unmarked = g'.elements.map Element.unmarked)
    {selector : Option Text} (hplain : Selector.PlainText selector) (name : Text)
    {occasion occasion' : HideOccasion} (hcompress : occasion.compress = occasion'.compress) :
    (g.rehide name none selector occasion).2 = (g'.rehide name none selector occasion').2 := by
  cases selector with
  | none => rfl
  | some text =>
    simp only [rehide, release, hideClosure_congr_unmarked h hplain, hcompress]
    cases g'.hideClosure text with
    | error fault => rfl
    | ok ids => simp only [conceal_congr_unmarked h]

end Graph

/-! ## Veils -/

/-- Whether a snapshot and a hider look like after one call of a new `Hider`: the snapshot may have
been marked, and the hider may hold something on another snapshot instead. -/
structure Veiled (name : Text) (g₀ : Graph) (v : Veil) (handle : Option HideHandle) (g : Graph) :
    Prop where
  keeps : ∃ es : List Element, es.map Element.unmarked = g₀.elements.map Element.unmarked ∧
    Hider.Keeps name es (HideHandle.on name handle) g
  handle : HideHandle.on name handle = (v.over name g₀).1.handle

namespace Veiled

variable {name : Text} {g₀ g g' : Graph} {v : Veil} {handle : Option HideHandle} {hider : Hider}

/-- `Veil.over` keeps the invariant of a hider. -/
theorem over_keeps (hes : Pristine g₀.elements) (v : Veil) (name : Text) :
    Hider.Keeps name g₀.elements (v.over name g₀).1.handle (v.over name g₀).2 := by
  have hstart : Hider.Keeps name g₀.elements ({} : Hider).handle g₀ := Hider.keeps_none rfl
  exact Hider.keeps_apply hstart hes v.selector rfl

/-- `Veiled`: what is seen is what one call of a new hider shows. -/
theorem view_eq (h : Veiled name g₀ v handle g) (hes : Pristine g₀.elements) :
    g.view = (v.over name g₀).2.view := by
  obtain ⟨⟨es, hsame, hkeeps⟩, hhandle⟩ := h
  have hconceal (es : List Element) : (HideHandle.conceal (v.over name g₀).1.handle es).map
      Element.unmarked = HideHandle.conceal (v.over name g₀).1.handle (es.map Element.unmarked) :=
    (HideHandle.conceal_map Element.unmarked_id HideMode.conceal_unmarked _ es).symm
  have hunmarked : g.unmarked.elements = (v.over name g₀).2.unmarked.elements := by
    rw [Graph.unmarked_elements, Graph.unmarked_elements, hkeeps.elements, hhandle, hconceal, hsame,
      ← hconceal, (over_keeps hes v name).elements]
  rw [← Graph.view_unmarked, Graph.view, hunmarked]
  exact Graph.view_unmarked (v.over name g₀).2

/-- `Veiled` holds of a snapshot that no hider has worked on, without a selector. -/
theorem of_untouched (h : g.elements = g₀.elements) (hhandle : HideHandle.on name handle = none)
    (compress : Bool) : Veiled name g₀ { compress } handle g where
  keeps := by
    refine ⟨g₀.elements, rfl, ?_⟩
    rw [hhandle]
    exact Hider.keeps_none h
  handle := by
    rw [hhandle, Veil.over, Hider.apply_handle]
    rfl

/-- `Veiled` is preserved by marking. -/
theorem mark (h : Veiled name g₀ v handle g) {selector : Option Text}
    (hplain : Selector.PlainText selector)
    (hg' : g'.elements = (g.applyFind Graph.findMarker selector).1.elements) :
    Veiled name g₀ v handle g' := by
  obtain ⟨⟨es, hsame, hkeeps⟩, hhandle⟩ := h
  let mark : Element → Element := fun e => e.withMark Graph.findMarker (e.id ∈ g.found selector)
  have hid (e : Element) : (mark e).id = e.id := (Element.withMark_frame _ _ e).1
  have hmark : g'.elements = g.elements.map mark :=
    hg'.trans (Graph.applyFind_findMarker g hplain)
  refine ⟨⟨es.map mark, ?_, hkeeps.own, ?_, ?_⟩, hhandle⟩
  · rw [← hsame, List.map_map]
    exact List.map_congr_left fun e _ => Element.unmarked_withMark _ _ e
  · -- marking keeps the ids
    have hids : (es.map mark).map (·.id) = es.map (·.id) := by
      rw [List.map_map]
      exact List.map_congr_left fun e _ => hid e
    rw [hids]
    exact hkeeps.held
  · rw [hmark, hkeeps.elements]
    refine (HideHandle.conceal_map hid (fun mode e => ?_) _ es).symm
    simp only [mark, HideMode.conceal_id]
    exact mode.conceal_withMark _ _ e

/-- `Veiled` by another veil after `apply`, which lays it in the place of the one before. -/
theorem hide (h : Veiled name g₀ v hider.handle g) (hes : Pristine g₀.elements)
    {selector : Option Text} (hplain : Selector.PlainText selector) {occasion : HideOccasion}
    (hchanged : occasion.graphChanged = true → HideHandle.on name hider.handle = none)
    (hg' : g'.elements = (hider.apply name g selector occasion).2.1.elements) :
    Veiled name g₀ ⟨selector, occasion.compress⟩ (hider.apply name g selector occasion).1.handle g' := by
  obtain ⟨⟨es, hsame, hkeeps⟩, -⟩ := h
  have hes' := Pristine.of_unmarked hsame hes
  let own := HideHandle.on name hider.handle
  let renewed : HideOccasion := { compress := occasion.compress }
  -- only what the hider holds on this snapshot plays a part
  have hreleased : (g.startBatch.release name hider.handle occasion.graphChanged).elements =
      (g.startBatch.release name own renewed.graphChanged).elements :=
    g.startBatch.release_on hchanged
  have hown := Graph.rehide_congr hreleased rfl selector
  have hbuilt : ({ elements := es } : Graph).elements = es := rfl
  have hrenewed : renewed.graphChanged = false := rfl
  have hspec := Graph.rehide_spec hkeeps.startBatch hes' hbuilt selector hrenewed
  have hfresh : (({ elements := es } : Graph).rehide name none selector renewed).2 =
      (g₀.startBatch.rehide name none selector renewed).2 :=
    Graph.rehide_result_congr hsame hplain name rfl
  have hresult := (hown.1.trans hspec.1).trans hfresh
  have hover : (Veil.over ⟨selector, occasion.compress⟩ name g₀).1.handle =
      (hider.apply name g selector occasion).1.handle := by
    rw [Veil.over, Hider.apply_handle, Hider.apply_handle, hresult]
  have hnext : Hider.Keeps name es (hider.apply name g selector occasion).1.handle g' := by
    rw [Hider.apply_handle, hown.1]
    refine (Hider.keeps_rehide hkeeps.startBatch hes' selector hrenewed).congr ?_
    exact hg'.trans ((hider.apply_elements name g selector occasion).trans hown.2)
  have hon : HideHandle.on name (hider.apply name g selector occasion).1.handle =
      (hider.apply name g selector occasion).1.handle :=
    HideHandle.on_eq_self hnext.own
  refine ⟨⟨es, hsame, ?_⟩, ?_⟩
  · rw [hon]
    exact hnext
  · rw [hon, hover]

end Veiled

/-- `Veil.over` shows the same in both ways of hiding where nothing is selected. -/
theorem Veil.view_over_congr {v w : Veil} (hselector : v.selector = w.selector)
    (hcompress : v.selector ≠ none → v.compress = w.compress) (name : Text) (g : Graph) :
    (v.over name g).2.view = (w.over name g).2.view := by
  obtain ⟨selector, compress⟩ := v
  obtain ⟨selector', compress'⟩ := w
  obtain rfl : selector = selector' := hselector
  cases selector with
  | none =>
    have helements (compress : Bool) :
        (Veil.over ⟨none, compress⟩ name g).2.elements = g.elements :=
      Hider.apply_elements {} name g none { compress }
    rw [Graph.view, Graph.view, helements, helements]
  | some text =>
    obtain rfl : compress = compress' := hcompress (Option.some_ne_none text)
    rfl

/-- `Hider.apply` leaves a handle on the snapshot of the call, or none. -/
theorem Hider.graph_of_apply {hider : Hider} {name : Text} {g : Graph} {selector : Option Text}
    {occasion : HideOccasion} {h : HideHandle}
    (hh : (hider.apply name g selector occasion).1.handle = some h) : h.graph = name := by
  rw [apply_handle] at hh
  unfold Graph.rehide at hh
  cases selector with
  | none => cases hh
  | some text =>
    cases hclosure : (g.startBatch.release name hider.handle occasion.graphChanged).hideClosure
      text with
    | error fault =>
      simp only [hclosure] at hh
      cases hh
    | ok ids =>
      simp only [hclosure] at hh
      cases hh
      rfl

end MeshLens
