import MeshLens.Proofs.Graph.BuiltInvariant
import MeshLens.Proofs.Hide.ClosureRemainder

/-!
# Hiding forgets its history

A hider works on one snapshot for any number of calls. Each call undoes the one before completely:
between calls the snapshot is as it was built, except that the elements of the handle are concealed
in the way of the handle. So what a call does, and what it answers, does not depend on the calls
before it, also when some of these failed.

## Key results

- `Hider.Keeps`: the invariant between calls
- `Hider.keeps_apply`: a call keeps the invariant
- `Hider.apply_forgets_history`: a call after others does what it would do alone
-/

namespace MeshLens

namespace HideHandle

/-- The elements that a `HideHandle` holds hidden in one of the two ways. -/
def held (handle : Option HideHandle) (mode : HideMode) : List Text :=
  match handle with
  | none => []
  | some h => if h.mode = mode then h.elements else []

/-- Elements of which those that a `HideHandle` holds are hidden. -/
def conceal (handle : Option HideHandle) (es : List Element) : List Element :=
  match handle with
  | none => es
  | some h => Element.changed es h.elements h.mode.conceal

end HideHandle

namespace Graph

/-! ## What a closure holds -/

/-- `edgesAt` lists live elements. -/
theorem mem_liveIds_of_mem_edgesAt {g : Graph} {nodes : List Text} {id : Text}
    (h : id ∈ g.edgesAt nodes) : id ∈ g.liveIds := by
  obtain ⟨-, -, e, he, -, rfl⟩ := mem_edgesAt.1 h
  exact mem_liveIds he

/-- `hideClosure` holds live elements. -/
theorem mem_liveIds_of_mem_hideClosure {g : Graph} {selector : Text} {ids : List Text}
    (h : g.hideClosure selector = .ok ids) : ∀ id ∈ ids, id ∈ g.liveIds := by
  unfold hideClosure at h
  split at h
  · cases h
  · rename_i hits hhits
    -- hits, edges at them, and nodes that are left without edges: all of them are live elements
    unfold closureOf at h
    obtain ⟨joined, -, rfl⟩ := Except.map_eq_ok h
    intro id hid
    have hmem := mem_distinct.1 (List.mem_filter.1 hid).1
    rcases List.mem_append.1 hmem with hchosen | horphan
    · rcases List.mem_append.1 (mem_distinct.1 hchosen) with hhit | hedge
      · obtain ⟨e, he, rfl⟩ := List.mem_map.1 hhit
        exact mem_liveIds ((mem_select hhits).1 he).1
      · exact mem_liveIds_of_mem_edgesAt hedge
    · obtain ⟨e, he, rfl⟩ := List.mem_map.1 horphan
      exact mem_liveIds (List.mem_filter.1 (List.mem_filter.1 he).1).1

/-- `hideClosure` holds elements of the graph. -/
theorem mem_hideClosure {g : Graph} {selector : Text} {ids : List Text}
    (h : g.hideClosure selector = .ok ids) : ∀ id ∈ ids, id ∈ g.ids := by
  intro id hid
  obtain ⟨e, he, rfl⟩ := List.mem_map.1 (mem_liveIds_of_mem_hideClosure h id hid)
  exact List.mem_map_of_mem (mem_live.1 he).1

end Graph

/-! ## The invariant -/

/-- Elements of a snapshot as it was built, all of whose edges have their ends. -/
structure Pristine (es : List Element) : Prop where
  nodup : (es.map (·.id)).Nodup
  shown : AllShown es
  joined : Graph.Joined es

/-- The invariant of a snapshot between the calls of a `Hider`: it is as it was built, but for what
the handle holds. -/
structure Hider.Keeps (name : Text) (es : List Element) (handle : Option HideHandle) (g : Graph) :
    Prop where
  own : ∀ h, handle = some h → h.graph = name
  held : ∀ mode, ∀ id ∈ HideHandle.held handle mode, id ∈ es.map (·.id)
  elements : g.elements = HideHandle.conceal handle es

/-- `Keeps` holds of the snapshot as it was built, where nothing is held. -/
theorem Hider.keeps_none {name : Text} {es : List Element} {g : Graph} (h : g.elements = es) :
    Hider.Keeps name es none g where
  own := by
    intro h hh
    cases hh
  held := by
    intro mode id hid
    cases hid
  elements := h

/-- `Keeps` depends on the elements of the graph only. -/
theorem Hider.Keeps.congr {name : Text} {es : List Element} {handle : Option HideHandle}
    {g g' : Graph} (hg : Hider.Keeps name es handle g) (h : g'.elements = g.elements) :
    Hider.Keeps name es handle g' :=
  ⟨hg.own, hg.held, h.trans hg.elements⟩

namespace Graph

/-- `release` shows everything again that a handle holds. -/
theorem release_elements {name : Text} {es : List Element} {handle : Option HideHandle}
    {g : Graph} (hg : Hider.Keeps name es handle g) (hes : Pristine es) :
    (g.release name handle false).elements = es := by
  cases handle with
  | none => exact hg.elements
  | some h =>
    have hown : h.graph = name := hg.own h rfl
    have helements : g.elements = Element.changed es h.elements h.mode.conceal := hg.elements
    -- showing again what is concealed gives the snapshot as it was built
    have hundo : Element.changed g.elements h.elements h.mode.reveal = es := by
      rw [helements]
      exact Element.changed_undo (HideMode.conceal_id h.mode)
        fun e he => HideMode.reveal_conceal (hes.shown e he) h.mode
    simp only [release, hown, ne_eq, not_true_eq_false, Bool.false_eq_true, or_self, if_false]
    cases hmode : h.mode with
    | hidden =>
      rw [hmode] at hundo
      rw [setVisible_elements]
      exact hundo
    | removed =>
      rw [hmode] at hundo helements
      have hids : g.ids = es.map (·.id) := by
        rw [ids, helements]
        exact Element.map_id_changed (Element.withRemoved_id true)
      have hjoined' : Joined g.elements := by
        rw [helements]
        exact hes.joined.changed h.elements true
      -- whatever is taken out is held by the handle
      have hall : ∀ e ∈ g.elements, e.removed = true → e.id ∈ h.elements := by
        intro e he hremoved
        rw [helements] at he
        obtain ⟨d, hd, rfl⟩ := List.mem_map.1 he
        by_cases hmem : d.id ∈ h.elements
        · rw [if_pos hmem]
          exact hmem
        · rw [if_neg hmem, (hes.shown d hd).2] at hremoved
          cases hremoved
      rw [restore_elements (by rw [hids]; exact hes.nodup) hjoined' hall]
      exact hundo

/-- `rehide` comes to what it comes to on the snapshot as it was built, and keeps the invariant;
when it fails, everything is shown. -/
theorem rehide_spec {name : Text} {es : List Element} {handle : Option HideHandle} {g g₀ : Graph}
    (hg : Hider.Keeps name es handle g) (hes : Pristine es) (hg₀ : g₀.elements = es)
    (selector : Option Text) {occasion : HideOccasion} (hoccasion : occasion.graphChanged = false) :
    (g.rehide name handle selector occasion).2 = (g₀.rehide name none selector occasion).2 ∧
      match (g.rehide name handle selector occasion).2 with
      | .ok handle' => Hider.Keeps name es handle' (g.rehide name handle selector occasion).1
      | .error _ => (g.rehide name handle selector occasion).1.elements = es := by
  have hreleased : (g.release name handle occasion.graphChanged).elements = es := by
    rw [hoccasion]
    exact release_elements hg hes
  have hsame : (g.release name handle occasion.graphChanged).elements =
      (g₀.release name none occasion.graphChanged).elements := hreleased.trans hg₀.symm
  unfold rehide
  cases selector with
  | none => exact ⟨rfl, Hider.keeps_none hreleased⟩
  | some text =>
    -- once the handle is undone, both graphs have the same elements, and the rest depends on these
    have hclosure := hideClosure_congr hsame text
    simp only [← hclosure]
    cases hids : (g.release name handle occasion.graphChanged).hideClosure text with
    | error fault => exact ⟨rfl, hreleased⟩
    | ok ids =>
      simp only
      generalize (if occasion.compress then HideMode.removed else HideMode.hidden) = mode
      refine ⟨?_, ?_, ?_, ?_⟩
      · rw [conceal_congr hsame]
      · intro h hh
        cases hh
        rfl
      · intro mode' id hid
        have hid' : id ∈ ((g.release name handle occasion.graphChanged).conceal mode ids).2 := by
          simp only [HideHandle.held] at hid
          split at hid
          · exact hid
          · cases hid
        rw [← hreleased]
        exact mem_conceal (mem_hideClosure hids) hid'
      · show ((g.release name handle occasion.graphChanged).conceal mode ids).1.elements = _
        rw [conceal_elements, hreleased]
        rfl

end Graph

namespace Hider

/-! ## Calls -/

/-- `apply` leaves the elements that `rehide` leaves. -/
theorem apply_elements (hider : Hider) (name : Text) (g : Graph) (selector : Option Text)
    (occasion : HideOccasion) :
    (hider.apply name g selector occasion).2.1.elements =
      (g.startBatch.rehide name hider.handle selector occasion).1.elements := by
  have hbatch := g.batch_elements fun g => g.rehide name hider.handle selector occasion
  unfold apply conclude
  split
  rename_i g' result hresult
  rw [hresult] at hbatch
  split
  · exact hbatch
  · dsimp only
    split <;> split <;> simpa using hbatch

/-- `apply` remembers the handle of `rehide`, and none when this fails. -/
theorem apply_handle (hider : Hider) (name : Text) (g : Graph) (selector : Option Text)
    (occasion : HideOccasion) :
    (hider.apply name g selector occasion).1.handle =
      match (g.startBatch.rehide name hider.handle selector occasion).2 with
      | .ok handle => handle
      | .error _ => none := by
  have hbatch := g.batch_result fun g => g.rehide name hider.handle selector occasion
  unfold apply conclude
  split
  rename_i g' result hresult
  rw [hresult] at hbatch
  rw [← hbatch]
  cases result <;> rfl

/-- `apply` has the outcome of the handle that `rehide` gives. -/
theorem apply_result (hider : Hider) (name : Text) (g : Graph) (selector : Option Text)
    (occasion : HideOccasion) :
    (hider.apply name g selector occasion).2.2 =
      (g.startBatch.rehide name hider.handle selector occasion).2.map fun handle =>
        HideHandle.outcome handle (needsLayout occasion selector handle) := by
  have hbatch := g.batch_result fun g => g.rehide name hider.handle selector occasion
  unfold apply conclude
  split
  rename_i g' result hresult
  rw [hresult] at hbatch
  rw [← hbatch]
  cases result <;> rfl

variable {name : Text} {es : List Element} {hider : Hider} {g : Graph}

/-- `Keeps` is preserved by `startBatch`. -/
theorem Keeps.startBatch {handle : Option HideHandle} (hg : Keeps name es handle g) :
    Keeps name es handle g.startBatch :=
  hg.congr rfl

/-- `Keeps` is preserved by `rehide`: where this fails, no handle is left, and nothing hidden. -/
theorem keeps_rehide {handle : Option HideHandle} (hg : Keeps name es handle g) (hes : Pristine es)
    (selector : Option Text) {occasion : HideOccasion} (hoccasion : occasion.graphChanged = false) :
    Keeps name es
      (match (g.rehide name handle selector occasion).2 with
      | .ok handle => handle
      | .error _ => none)
      (g.rehide name handle selector occasion).1 := by
  let built : Graph := { elements := es }
  have hbuilt : built.elements = es := rfl
  have hspec := (Graph.rehide_spec hg hes hbuilt selector hoccasion).2
  cases hresult : (g.rehide name handle selector occasion).2 with
  | error fault =>
    rw [hresult] at hspec
    exact keeps_none hspec
  | ok handle =>
    rw [hresult] at hspec
    exact hspec

/-- `Keeps` is preserved by `apply`. -/
theorem keeps_apply (hg : Keeps name es hider.handle g) (hes : Pristine es)
    (selector : Option Text) {occasion : HideOccasion} (hoccasion : occasion.graphChanged = false) :
    Keeps name es (hider.apply name g selector occasion).1.handle
      (hider.apply name g selector occasion).2.1 := by
  rw [apply_handle]
  exact (keeps_rehide hg.startBatch hes selector hoccasion).congr
    (hider.apply_elements name g selector occasion)

/-- Makes calls in order on the snapshot of a name, by `apply`. -/
def applyAll (hider : Hider) (name : Text) (g : Graph) :
    List (Option Text × HideOccasion) → Hider × Graph
  | [] => (hider, g)
  | (selector, occasion) :: calls =>
    let call := hider.apply name g selector occasion
    applyAll call.1 name call.2.1 calls

/-- `Keeps` is preserved by any number of calls. -/
theorem keeps_applyAll {calls : List (Option Text × HideOccasion)}
    (hg : Keeps name es hider.handle g) (hes : Pristine es)
    (hcalls : ∀ call ∈ calls, call.2.graphChanged = false) :
    Keeps name es (hider.applyAll name g calls).1.handle (hider.applyAll name g calls).2 := by
  induction calls generalizing hider g with
  | nil => exact hg
  | cons call calls ih =>
    obtain ⟨selector, occasion⟩ := call
    have hcall := keeps_apply hg hes selector (hcalls _ List.mem_cons_self)
    exact ih hcall fun call hcall => hcalls call (List.mem_cons_of_mem _ hcall)

/-- `Keeps`: what is invisible and what is taken out between calls is what the handle holds. -/
theorem Keeps.held_iff {handle : Option HideHandle} (hg : Keeps name es handle g)
    (hshown : AllShown es) :
    (∀ e ∈ g.elements, e.visible = false ↔ e.id ∈ HideHandle.held handle .hidden) ∧
      ∀ e ∈ g.elements, e.removed = true ↔ e.id ∈ HideHandle.held handle .removed := by
  have helements := hg.elements
  cases handle with
  | none =>
    rw [HideHandle.conceal] at helements
    rw [helements]
    exact ⟨fun e he => by simp [HideHandle.held, hshown e he],
      fun e he => by simp [HideHandle.held, hshown e he]⟩
  | some h =>
    -- an element is one of the snapshot, concealed when the handle holds it
    have heach : ∀ e ∈ g.elements, ∃ d ∈ es,
        e = if d.id ∈ h.elements then h.mode.conceal d else d := by
      intro e he
      rw [helements] at he
      obtain ⟨d, hd, rfl⟩ := List.mem_map.1 he
      exact ⟨d, hd, rfl⟩
    constructor
    · intro e he
      obtain ⟨d, hd, rfl⟩ := heach e he
      obtain ⟨hvisible, -⟩ := hshown d hd
      by_cases hmem : d.id ∈ h.elements
      · cases hmode : h.mode <;>
          simp [HideHandle.held, hmem, hmode, HideMode.conceal, Element.withVisible,
            Element.withRemoved, hvisible]
      · simp [HideHandle.held, hmem, hvisible]
    · intro e he
      obtain ⟨d, hd, rfl⟩ := heach e he
      obtain ⟨-, hremoved⟩ := hshown d hd
      by_cases hmem : d.id ∈ h.elements
      · cases hmode : h.mode <;>
          simp [HideHandle.held, hmem, hmode, HideMode.conceal, Element.withVisible,
            Element.withRemoved, hremoved]
      · simp [HideHandle.held, hmem, hremoved]

/-- `apply` after any other calls on a snapshot answers what it would answer as the first one, and
leaves the elements as it would leave them then. After a call that fails or hides nothing,
everything is shown; after any call, the handle holds just what is invisible or taken out. -/
theorem apply_forgets_history {payload : Value} {g : Graph} (hbuilt : Graph.ofValue payload = .ok g)
    (hjoined : Graph.Joined g.elements) (layout layout' name : Text)
    {calls : List (Option Text × HideOccasion)}
    (hcalls : ∀ call ∈ calls, call.2.graphChanged = false) (selector : Option Text)
    {occasion : HideOccasion} (hoccasion : occasion.graphChanged = false) :
    let before := applyAll { layout } name g calls
    let after := before.1.apply name before.2 selector occasion
    let alone := apply { layout := layout' } name g selector occasion
    after.2.2 = alone.2.2 ∧ after.2.1.elements = alone.2.1.elements ∧
      (∀ fault, after.2.2 = .error fault →
        AllShown after.2.1.elements ∧ after.1.handle = none) ∧
      (selector = none → AllShown after.2.1.elements) ∧
      (∀ e ∈ after.2.1.elements,
        e.visible = false ↔ e.id ∈ HideHandle.held after.1.handle .hidden) ∧
      (∀ e ∈ after.2.1.elements,
        e.removed = true ↔ e.id ∈ HideHandle.held after.1.handle .removed) ∧
      ∀ mode, ∀ id ∈ HideHandle.held after.1.handle mode, id ∈ after.2.1.ids := by
  intro before after alone
  obtain ⟨hnodup, hshown⟩ := Graph.ofValue_untouched hbuilt
  have hes : Pristine g.elements := ⟨hnodup, hshown, hjoined⟩
  have hstart : Keeps name g.elements none g :=
    ⟨fun h hh => (nomatch hh), fun mode id hid => (nomatch hid), rfl⟩
  have hbefore : Keeps name g.elements before.1.handle before.2 :=
    keeps_applyAll hstart hes hcalls
  have hafter : Keeps name g.elements after.1.handle after.2.1 :=
    keeps_apply hbefore hes selector hoccasion
  have halone : Keeps name g.elements alone.1.handle alone.2.1 :=
    keeps_apply hstart hes selector hoccasion
  have hsame : (before.2.startBatch.rehide name before.1.handle selector occasion).2 =
      (g.startBatch.rehide name none selector occasion).2 :=
    (Graph.rehide_spec hbefore.startBatch hes (Graph.startBatch_elements g) selector hoccasion).1
  -- the same handle on the same snapshot leaves the same elements
  have hhandle : after.1.handle = alone.1.handle := by
    simp only [after, alone, apply_handle, hsame]
  have hnone : after.1.handle = none → AllShown after.2.1.elements := by
    intro h
    rw [hafter.elements, h]
    exact hshown
  have hids : after.2.1.ids = g.ids := by
    rw [Graph.ids, hafter.elements]
    cases after.1.handle with
    | none => rfl
    | some h => exact Element.map_id_changed (HideMode.conceal_id h.mode)
  -- the same result, the same elements, and what the handle says of them
  refine ⟨?_, ?_, ?_, ?_, (hafter.held_iff hshown).1, (hafter.held_iff hshown).2, ?_⟩
  · simp only [after, alone, apply_result, hsame]
  · rw [hafter.elements, halone.elements, hhandle]
  · intro fault hfault
    have hfailed : after.1.handle = none := by
      simp only [after, apply_result] at hfault
      simp only [after, apply_handle]
      cases hresult : (before.2.startBatch.rehide name before.1.handle selector occasion).2 with
      | error _ => rfl
      | ok handle => rw [hresult] at hfault; cases hfault
    exact ⟨hnone hfailed, hfailed⟩
  · rintro rfl
    exact hnone (by simp only [after, apply_handle]; rfl)
  · rw [hids]
    exact hafter.held

/-- Two nodes in a box, joined by an edge, as the JSON data that `Graph.ofValue` reads. -/
def boxedPayload : Value :=
  .list [
    .object [("data", .object [("id", .text "box"), ("isBox", .bool true)])],
    .object [("data", .object [("id", .text "a"), ("parent", .text "box"), ("app", .text "x")])],
    .object [("data", .object [("id", .text "b"), ("parent", .text "box")])],
    .object [("data", .object [("source", .text "a"), ("target", .text "b")])]]

/-- `apply_forgets_history` after everything was taken out and a call failed: nothing is left behind
for hiding the edge, with which the nodes and then their box go. -/
theorem apply_forgets_history_boxed :
    ∃ g, Graph.ofValue boxedPayload = .ok g ∧
      let before := applyAll {} "g" g
        [(some "node[app = \"x\"]", { compress := true }), (some "node[", {})]
      (before.1.apply "g" before.2 (some "edge") {}).2.2.toOption =
        some { hidden := ["a->b", "a", "b", "box"] } := by
  have hbuilt : ∃ g, Graph.ofValue boxedPayload = .ok g ∧ Graph.Joined g.elements ∧
      (apply {} "g" g (some "edge") {}).2.2.toOption =
        some { hidden := ["a->b", "a", "b", "box"] } := by
    refine ⟨_, rfl, ?_, by decide +kernel⟩
    unfold Graph.Joined
    decide +kernel
  obtain ⟨g, hg, hjoined, halone⟩ := hbuilt
  -- one call that takes elements out, and one that fails
  have hcalls : ∀ call ∈ [(some (Text.ofString "node[app = \"x\"]"),
      ({ compress := true } : HideOccasion)), (some "node[", {})],
      call.2.graphChanged = false := by
    simp
  refine ⟨g, hg, ?_⟩
  have hforgets := (apply_forgets_history hg hjoined "dagre" "dagre" "g" hcalls (some "edge")
    (rfl : ({} : HideOccasion).graphChanged = false)).1
  exact (congrArg Except.toOption hforgets).trans halone

end Hider

end MeshLens
