import MeshLens.Proofs.Hide.VisibleState
import MeshLens.Proofs.Session.InputsApart

/-!
# Finding and hiding in either order

An element is known by what it is apart from its style classes and by what it is apart from the two
flags. Finding leaves the one of these, and hiding the other. What is found does not depend on what is
visible, and what is hidden does not depend on style classes. So the two come to the same in either
order, as long as hiding takes nothing out and puts nothing back: what is out is not found.

## Key results

- `Element.eq_of_unmarked_of_bare`: two parts that make up an element
- `Graph.rehide_unmarked`: hiding, with whatever handle, does not depend on style classes
- `Graph.applyFind_visible`: what finding answers and marks does not depend on what is visible
- `Hider.apply_applyFind_comm`: finding and hiding commute
-/

namespace MeshLens

namespace Element

/-- An `Element` is known by its two parts: `unmarked` has all but the style classes, and `bare` all
but the two flags. -/
theorem eq_of_unmarked_of_bare {d e : Element} (hunmarked : d.unmarked = e.unmarked)
    (hbare : d.bare = e.bare) : d = e := by
  obtain ⟨hid, hkind, hdata, hvisible, hremoved⟩ := eq_of_unmarked_eq hunmarked
  simp only [bare, Element.mk.injEq] at hbare
  obtain ⟨-, -, -, hclasses, hothers, -⟩ := hbare
  cases d
  cases e
  simp_all only

/-- `eq_of_unmarked_of_bare` for lists of elements. -/
theorem list_eq_of_unmarked_of_bare {ds es : List Element}
    (hunmarked : ds.map unmarked = es.map unmarked) (hbare : ds.map bare = es.map bare) : ds = es := by
  induction ds generalizing es with
  | nil => exact (List.map_eq_nil_iff.1 hunmarked.symm).symm
  | cons d ds ih =>
    cases es with
    | nil => cases hunmarked
    | cons e es =>
      simp only [List.map_cons, List.cons.injEq] at hunmarked hbare
      rw [eq_of_unmarked_of_bare hunmarked.1 hbare.1, ih hunmarked.2 hbare.2]

/-- `withMark` puts a mark on an element whatever its two flags are. -/
theorem bare_withMark (marker : Text) (marked : Bool) (e : Element) :
    (e.withMark marker marked).bare = e.bare.withMark marker marked := by
  cases marked with
  | false => rfl
  | true =>
    show ((e.dropClass marker).addClass marker).bare = (e.dropClass marker).bare.addClass marker
    unfold addClass
    -- both look for the mark in the same classes
    have hclasses : (e.dropClass marker).bare.classes = (e.dropClass marker).classes := rfl
    rw [hclasses]
    split <;> rfl

end Element

namespace Graph

variable {g g' : Graph} {name : Text} {handle : Option HideHandle} {selector : Option Text}
  {occasion : HideOccasion}

/-! ## Hiding does not depend on style classes -/

/-- `endsLive` does not depend on style classes. -/
theorem endsLive_unmarked (g : Graph) (e : Element) :
    g.unmarked.endsLive e.unmarked = g.endsLive e := by
  have hlive (id : Text) : (g.unmarked.element? id).any (·.live) = (g.element? id).any (·.live) := by
    rw [element?_unmarked, Option.any_map]
    rfl
  simp only [endsLive, hlive]
  rfl

/-- `putBack` does not depend on style classes. -/
theorem putBack_unmarked (g : Graph) (es : List Element) :
    (g.unmarked.putBack (es.map Element.unmarked)).1.elements =
      (g.putBack es).1.elements.map Element.unmarked := by
  induction es generalizing g with
  | nil => rfl
  | cons e es ih =>
    have hkind : e.unmarked.isEdge = e.isEdge := rfl
    simp only [List.map_cons, putBack, endsLive_unmarked, hkind]
    split
    · exact ih (g.note (.endMissing e.id))
    · refine Eq.trans (putBack_congr ?_) (ih (g.modify [e.id] fun e => { e with removed := false }))
      exact Element.changed_map_unmarked (Element.withRemoved_unmarked false) g.elements [e.id]

/-- `release` does not depend on style classes: it undoes a handle on the same elements. -/
theorem release_unmarked (g : Graph) (name : Text) (handle : Option HideHandle)
    (graphChanged : Bool) :
    (g.unmarked.release name handle graphChanged).elements =
      (g.release name handle graphChanged).elements.map Element.unmarked := by
  unfold release
  cases handle with
  | none => rfl
  | some h =>
    dsimp only
    split
    · rfl
    · -- cases on what the handle holds: elements made invisible, or elements taken out
      cases h.mode with
      | hidden =>
        rw [setVisible_elements, setVisible_elements]
        exact Element.changed_map_unmarked (Element.withVisible_unmarked true) _ _
      | removed =>
        have hmembers : (g.unmarked.elements.filter fun e => e.removed && e.id ∈ h.elements) =
            (g.elements.filter fun e => e.removed && e.id ∈ h.elements).map Element.unmarked :=
          Element.filter_map_eq (f := Element.unmarked) (fun _ => rfl) g.elements
        dsimp only [restore]
        rw [touch_elements, touch_elements, hmembers,
          Element.filter_map_eq (f := Element.unmarked) (fun _ => rfl),
          Element.filter_map_eq (f := Element.unmarked) (fun _ => rfl), ← List.map_append]
        exact putBack_unmarked g _

/-- `rehide` comes to the same in two graphs that differ in style classes. -/
theorem rehide_unmarked (h : g.elements.map Element.unmarked = g'.elements.map Element.unmarked)
    (hplain : Selector.PlainText selector) :
    (g.rehide name handle selector occasion).2 = (g'.rehide name handle selector occasion).2 ∧
      (g.rehide name handle selector occasion).1.elements.map Element.unmarked =
        (g'.rehide name handle selector occasion).1.elements.map Element.unmarked := by
  have hreleased : (g.release name handle occasion.graphChanged).elements.map Element.unmarked =
      (g'.release name handle occasion.graphChanged).elements.map Element.unmarked := by
    rw [← release_unmarked, ← release_unmarked]
    exact release_congr h handle name occasion.graphChanged
  refine ⟨rehide_result_congr hreleased hplain name rfl, ?_⟩
  -- what is left to do is to hide in the graphs in which the handle is undone
  unfold rehide
  generalize g.release name handle occasion.graphChanged = released at hreleased
  generalize g'.release name handle occasion.graphChanged = released' at hreleased
  cases selector with
  | none => exact hreleased
  | some text =>
    simp only [hideClosure_congr_unmarked hreleased hplain]
    cases released'.hideClosure text with
    | error fault => exact hreleased
    | ok ids =>
      simp only [conceal_elements, conceal_congr_unmarked hreleased,
        ← Element.changed_map_unmarked (HideMode.conceal_unmarked _), hreleased]

/-! ## Finding does not depend on what is visible -/

/-- `applyFind` answers the same whatever is visible, and makes the same of the elements apart from
the two flags. -/
theorem applyFind_visible {marker : Text} (hmarker : Selector.isClassName marker = true)
    (hplain : Selector.PlainText selector) {visible : Element → Bool}
    (h : g'.elements = g.elements.map fun e => e.withVisible (visible e)) :
    (g'.applyFind marker selector).2 = (g.applyFind marker selector).2 ∧
      (g'.applyFind marker selector).1.bare = (g.applyFind marker selector).1.bare := by
  have hhits : g'.hits selector = g.hits selector :=
    hits_congr (Element.overlooked_withVisible visible) h hplain
  have hfound : g'.found selector = g.found selector := by rw [found_eq, found_eq, hhits]
  constructor
  · rw [applyFind_hits hmarker g' hplain, applyFind_hits hmarker g hplain, hhits]
  · rw [bare, bare, applyFind_elements hmarker g' hplain, applyFind_elements hmarker g hplain, hfound,
      h, List.map_map, List.map_map, List.map_map]
    refine List.map_congr_left fun e _ => ?_
    exact (Element.bare_withMark _ _ (e.withVisible (visible e))).trans (Element.bare_withMark _ _ e).symm

end Graph

/-! ## The two in either order -/

/-- Whether a selector is none, or the one that `compile` gives for a query text. -/
def Selector.OfQuery (selector : Option Text) : Prop :=
  ∀ rendered, selector = some rendered → ∃ text flags c q,
    MeshLens.compile text flags = .ok c ∧ c.query? = some q ∧ rendered = q.render

/-- `OfQuery` holds of what a query renders to that is compiled from a text. -/
theorem Selector.ofQuery_of_compile {text rendered : Text} {flags : DisplayFlags} {q : CompiledQuery}
    (h : (MeshLens.compile text flags).toOption.bind Compilation.query? = some q)
    (hrender : q.render = rendered) : OfQuery (some rendered) := by
  rintro _ ⟨⟩
  obtain ⟨c, hc, hq⟩ := exists_compilation h
  exact ⟨text, flags, c, q, hc, hq, hrender.symm⟩

/-- `OfQuery` implies `PlainText`: a compiled selector asks for no style class. -/
theorem Selector.OfQuery.plainText {selector : Option Text} (h : OfQuery selector) :
    PlainText selector := by
  intro rendered s hsome
  obtain ⟨text, flags, c, q, hc, hq, rfl⟩ := h rendered hsome
  exact Session.plainText_render hc hq _ s rfl

namespace Hider

/-- `apply` and `applyFind` commute. In any state of a graph, with compiled selectors and any marker
that a class filter can name, and with a hider that holds nothing, or what was made invisible, or
something on another snapshot: to mark first and then make invisible, or the other way round, leaves
the same elements, also in style classes and the two flags, leaves the same handle, and answers the
same twice. -/
theorem apply_applyFind_comm (g : Graph) {hider : Hider} {name marker : Text} {find hide : Option Text}
    {occasion : HideOccasion} (hmarker : Selector.isClassName marker = true)
    (hfind : Selector.OfQuery find) (hhide : Selector.OfQuery hide) (hsoft : occasion.compress = false)
    (hheld : ∀ h, hider.handle = some h →
      h.mode = .hidden ∨ occasion.graphChanged = true ∨ h.graph ≠ name) :
    let found := g.applyFind marker find
    let foundHidden := hider.apply name found.1 hide occasion
    let hidden := hider.apply name g hide occasion
    let hiddenFound := hidden.2.1.applyFind marker find
    foundHidden.2.1.elements = hiddenFound.1.elements ∧ foundHidden.1 = hidden.1 ∧
      found.2 = hiddenFound.2 ∧ foundHidden.2.2 = hidden.2.2 := by
  intro found foundHidden hidden hiddenFound
  have hmarked : found.1.elements.map Element.unmarked = g.elements.map Element.unmarked :=
    g.unmarked_applyFind marker find
  -- hiding after marking does what it would have done before
  have hhiding : (found.1.startBatch.rehide name hider.handle hide occasion).2 =
        (g.startBatch.rehide name hider.handle hide occasion).2 ∧
      (found.1.startBatch.rehide name hider.handle hide occasion).1.elements.map Element.unmarked =
        (g.startBatch.rehide name hider.handle hide occasion).1.elements.map Element.unmarked :=
    Graph.rehide_unmarked hmarked hhide.plainText
  obtain ⟨hresult, helements⟩ := hhiding
  -- and marking after hiding does what it would have done before
  obtain ⟨⟨visible, hvisible⟩, -⟩ := Graph.rehide_visible name hheld hsoft g.startBatch hide
  have hseen : hidden.2.1.elements = g.elements.map fun e => e.withVisible (visible e) :=
    (hider.apply_elements name g hide occasion).trans hvisible
  obtain ⟨hanswer, hbare⟩ := Graph.applyFind_visible hmarker hfind.plainText hseen
  -- the elements are the same, since both of their parts are
  refine ⟨Element.list_eq_of_unmarked_of_bare ?_ ?_, ?_, hanswer.symm, ?_⟩
  · rw [hider.apply_elements, helements, ← hider.apply_elements]
    exact (hidden.2.1.unmarked_applyFind marker find).symm
  · exact (hider.apply_bare name found.1 hide occasion).trans hbare.symm
  · rw [apply_hider, apply_hider, hresult]
  · rw [apply_result, apply_result, hresult]

/-- Three nodes in a row, with an edge between the first two and one between the last two, as the
JSON data that `Graph.ofValue` reads. -/
def rowPayload : Value :=
  .list [
    .object [("data", .object [("id", .text "a"), ("app", .text "x")])],
    .object [("data", .object [("id", .text "b"), ("app", .text "y")])],
    .object [("data", .object [("id", .text "c"), ("app", .text "z")])],
    .object [("data", .object [("id", .text "e"), ("source", .text "a"), ("target", .text "b")])],
    .object [("data", .object [("id", .text "f"), ("source", .text "b"), ("target", .text "c")])]]

/-- `apply_applyFind_comm` where the last node is hidden with its edge. The node in the middle is
marked, and the first one is hidden with its edge in place of the last one, in either order. -/
theorem apply_applyFind_comm_row :
    ∃ g, Graph.ofValue rowPayload = .ok g ∧
      let find : Option Text := some "node[app = \"y\"]"
      let hide : Option Text := some "node[app = \"x\"]"
      let before := apply {} "g" g (some "node[app = \"z\"]") {}
      let foundHidden := before.1.apply "g" (before.2.1.applyFind "find" find).1 hide {}
      let hidden := before.1.apply "g" before.2.1 hide {}
      before.1.handle = some ⟨"g", .hidden, ["c", "f"]⟩ ∧
        Selector.OfQuery find ∧ Selector.OfQuery hide ∧
        foundHidden.2.1.elements = (hidden.2.1.applyFind "find" find).1.elements ∧
        foundHidden.2.1.elements.map (fun e => (e.id, e.classes, e.visible)) =
          ([("a", [], false), ("b", ["find"], true), ("c", [], true), ("e", [], false),
            ("f", [], true)] : List (Text × List Text × Bool)) := by
  have hbuilt : ∃ g, Graph.ofValue rowPayload = .ok g ∧
      let before := apply {} "g" g (some "node[app = \"z\"]") {}
      let foundHidden := before.1.apply "g" (before.2.1.applyFind "find" (some "node[app = \"y\"]")).1
        (some "node[app = \"x\"]") {}
      before.1.handle = some ⟨"g", .hidden, ["c", "f"]⟩ ∧
        foundHidden.2.1.elements.map (fun e => (e.id, e.classes, e.visible)) =
          ([("a", [], false), ("b", ["find"], true), ("c", [], true), ("e", [], false),
            ("f", [], true)] : List (Text × List Text × Bool)) :=
    ⟨_, rfl, by decide +kernel, by decide +kernel⟩
  -- both selectors come from a query, which the canonical form is evaluated for
  have hfind : (MeshLens.compile "app = y" {}).toOption.bind Compilation.query? =
      some ⟨[⟨.node, [[.text "app" .eq ['y']]]⟩]⟩ := by
    decide +kernel
  have hhide : (MeshLens.compile "app = x" {}).toOption.bind Compilation.query? =
      some ⟨[⟨.node, [[.text "app" .eq ['x']]]⟩]⟩ := by
    decide +kernel
  have hfind' : Selector.OfQuery (some "node[app = \"y\"]") :=
    Selector.ofQuery_of_compile hfind (by decide +kernel)
  have hhide' : Selector.OfQuery (some "node[app = \"x\"]") :=
    Selector.ofQuery_of_compile hhide (by decide +kernel)
  have hmarker : Selector.isClassName "find" = true := by decide
  obtain ⟨g, hg, hhandle, hseen⟩ := hbuilt
  refine ⟨g, hg, ?_⟩
  intro find hide before foundHidden hidden
  -- the handle that is left from before is one of hidden elements
  have hheld : ∀ h, before.1.handle = some h →
      h.mode = .hidden ∨ ({} : HideOccasion).graphChanged = true ∨ h.graph ≠ "g" := by
    intro h hh
    cases hhandle.symm.trans hh
    exact .inl rfl
  have hsame := apply_applyFind_comm before.2.1 hmarker hfind' hhide' rfl hheld
  exact ⟨hhandle, hfind', hhide', hsame.1, hseen⟩

end Hider

end MeshLens
