import MeshLens.Graph.Definition
import MeshLens.Proofs.Find.FindIdempotent

/-!
# Replacing the marks

Marking takes the old marks off first, also off elements that are out of the graph, and selects
afterwards. So what is selected may depend on style classes but not on the old marks, what is marked in
the end is just what was selected, and apart from the mark no element differs from before.

## Key results

- `Graph.select_eq_filter`: what is selected are the live elements that match, in order
- `Graph.mem_classes_marked`, `Graph.ids_marked`: what carries the mark, and that it is what is answered
- `Graph.applyFind_replaces`: what marking leaves, what it answers, and that it may be done again
-/

namespace MeshLens

namespace Graph

variable {g : Graph} {marker : Text} {selector : Option Text} {ids : List Text}

/-- `select` gives the live elements that match, in the order of the graph. -/
theorem select_eq_filter {text : Text} {hits : List Element} (h : g.select text = .ok hits) :
    hits = g.live.filter (Element.accepted (some text)) := by
  unfold select at h
  cases hs : Selector.parse text with
  | error fault => simp only [hs] at h; cases h
  | ok s =>
    simp only [hs] at h
    have hall := Element.matching_ok_iff.1 ⟨hits, h⟩
    have hfilter : Element.matching s g.live =
        .ok (g.live.filter (Element.accepted (some text))) := by
      refine Element.matching_eq_filter fun e he => ?_
      obtain ⟨accepted, haccepts⟩ := hall e he
      simp only [Element.accepted, hs, haccepts]
    rw [hfilter] at h
    exact (Except.ok.inj h).symm

/-- `hits` gives the ids of the live elements that match, in the order of the graph. -/
theorem hits_eq_filter (h : g.hits selector = .ok ids) :
    ids = (g.live.filter (Element.accepted selector)).map (·.id) := by
  cases selector with
  | none =>
    cases h
    have hnone : g.live.filter (Element.accepted none) = [] := List.filter_eq_nil_iff.2 fun _ _ => nofun
    rw [hnone]
    rfl
  | some text =>
    obtain ⟨hits, hhits, rfl⟩ := Except.map_eq_ok h
    rw [select_eq_filter hhits]

/-- `applyFind` puts the mark on what is selected once the old marks are off. -/
theorem exists_applyFind_eq (hmarker : Selector.isClassName marker = true)
    (hok : (g.applyFind marker selector).2 = .ok ids) : ∃ cleared : Graph,
    cleared.elements = g.elements.map (Element.dropClass marker) ∧
      ids = (cleared.live.filter (Element.accepted selector)).map (·.id) ∧
      (g.applyFind marker selector).1.elements =
        Element.changed cleared.elements ids (Element.addClass marker) := by
  obtain ⟨helements, hresult⟩ := applyFind_eq g marker selector
  obtain ⟨cleared, hcleared, hhits, hmarked⟩ := exists_remark_eq hmarker g.startBatch selector
  have hids : cleared.hits selector = .ok ids := hhits.symm.trans (hresult.symm.trans hok)
  refine ⟨cleared, hcleared, hits_eq_filter hids, ?_⟩
  rw [helements, hmarked, found_eq, hids]
  rfl

/-- What `addClass` on some elements leaves of an element that does not carry the mark. -/
theorem addClass_of_notMem {e : Element} (h : marker ∉ e.classes) (ids : List Text) :
    let marked := if e.id ∈ ids then e.addClass marker else e
    (marker ∈ marked.classes ↔ e.id ∈ ids) ∧ marked.id = e.id ∧ marked.live = e.live ∧
      marked.dropClass marker = e := by
  have hdrop : e.dropClass marker = e := Element.dropClass_eq_self h
  intro marked
  by_cases hid : e.id ∈ ids
  · have hmarked : marked = e.addClass marker := if_pos hid
    obtain ⟨hsame, -, -, hremoved, -⟩ := Element.addClass_frame marker e
    rw [hmarked]
    refine ⟨iff_of_true (Element.mem_classes_addClass.2 (.inr rfl)) hid, hsame, ?_, ?_⟩
    · exact congrArg Bool.not hremoved
    · rw [Element.dropClass_addClass, hdrop]
  · have hmarked : marked = e := if_neg hid
    rw [hmarked]
    exact ⟨iff_of_false h hid, rfl, rfl, hdrop⟩

/-- Where no id occurs twice, the ids that are answered are those of the elements in the graph that
match. -/
theorem mem_ids_iff (hnodup : g.ids.Nodup)
    (hids : ids = (g.live.filter (Element.accepted selector)).map (·.id)) {e : Element}
    (he : e ∈ g.elements) : e.id ∈ ids ↔ e.live = true ∧ e.accepted selector = true := by
  rw [hids, List.mem_map]
  constructor
  · rintro ⟨d, hd, hid⟩
    obtain ⟨hd, haccepted⟩ := List.mem_filter.1 hd
    obtain ⟨hd, hlive⟩ := mem_live.1 hd
    -- an id belongs to one element only
    obtain rfl := eq_of_id_eq hnodup hd he hid
    exact ⟨hlive, haccepted⟩
  · rintro ⟨hlive, haccepted⟩
    exact ⟨e, List.mem_filter.2 ⟨mem_live.2 ⟨he, hlive⟩, haccepted⟩, rfl⟩

section Unmarked

variable (hunmarked : ∀ e ∈ g.elements, marker ∉ e.classes)

include hunmarked

/-- `dropClass` of the mark again leaves a graph without marks as it was. -/
theorem dropClass_marked (ids : List Text) :
    (Element.changed g.elements ids (Element.addClass marker)).map (Element.dropClass marker) =
      g.elements := by
  rw [Element.changed, List.map_map]
  conv => rhs; rw [← List.map_id g.elements]
  refine List.map_congr_left fun e he => ?_
  exact (addClass_of_notMem (hunmarked e he) ids).2.2.2

section Selected

variable (hnodup : g.ids.Nodup) (hids : ids = (g.live.filter (Element.accepted selector)).map (·.id))

include hnodup hids

/-- After `addClass` on what is selected, those elements carry the mark that are in the graph and
match without it. -/
theorem mem_classes_marked {x : Element}
    (hx : x ∈ Element.changed g.elements ids (Element.addClass marker)) :
    marker ∈ x.classes ↔ x.live = true ∧ (x.dropClass marker).accepted selector = true := by
  obtain ⟨e, he, rfl⟩ := List.mem_map.1 hx
  obtain ⟨hcarries, -, hlive, hdrop⟩ := addClass_of_notMem (hunmarked e he) ids
  rw [hlive, hdrop]
  exact hcarries.trans (mem_ids_iff hnodup hids he)

/-- The ids of what is marked are those that were answered, in the same order. -/
theorem ids_marked :
    ((Element.changed g.elements ids (Element.addClass marker)).filter
      fun e => marker ∈ e.classes).map (·.id) = ids := by
  have hsame (e : Element) : (e.addClass marker).id = e.id := (Element.addClass_frame marker e).1
  conv => rhs; rw [hids]
  rw [Element.map_id_filter_changed hsame, live, List.filter_filter]
  refine congrArg (List.map _) (List.filter_congr fun e he => ?_)
  have hcarries := (addClass_of_notMem (hunmarked e he) ids).1.trans (mem_ids_iff hnodup hids he)
  rw [Bool.eq_iff_iff, Bool.and_eq_true, and_comm]
  exact decide_eq_true_iff.trans hcarries

end Selected

end Unmarked

/-- In any state of a graph, with any marker that a class filter can name, and whenever marking answers:
those elements carry the mark that are in the graph and match once it is off; these are answered, in the
order of the graph; and apart from the mark all elements are as before. Where the selector asks for no
style class, marking again changes nothing and answers the same. -/
theorem applyFind_replaces (hnodup : g.ids.Nodup) (hmarker : Selector.isClassName marker = true)
    (hok : (g.applyFind marker selector).2 = .ok ids) :
    let marked := (g.applyFind marker selector).1
    (∀ e ∈ marked.elements,
        marker ∈ e.classes ↔ e.live = true ∧ (e.dropClass marker).Matches selector) ∧
      ids = (marked.elements.filter fun e => marker ∈ e.classes).map (·.id) ∧
      marked.elements.map (Element.dropClass marker) = g.elements.map (Element.dropClass marker) ∧
      (Selector.PlainText selector →
        (marked.applyFind marker selector).1.elements = marked.elements ∧
          (marked.applyFind marker selector).2 = .ok ids) := by
  obtain ⟨cleared, hcleared, hids, helements⟩ := exists_applyFind_eq hmarker hok
  -- all is about the graph `cleared` of its old marks: it has the ids of `g` and no mark
  have hunmarked : ∀ e ∈ cleared.elements, marker ∉ e.classes := by
    rw [hcleared]
    intro e he hmem
    obtain ⟨d, -, rfl⟩ := List.mem_map.1 he
    exact (Element.mem_classes_dropClass.1 hmem).2 rfl
  have hnodup' : cleared.ids.Nodup := by
    have hsame : cleared.ids = g.ids := by rw [Graph.ids, hcleared, List.map_map]; rfl
    rwa [hsame]
  intro marked
  refine ⟨fun e he => ?_, ?_, ?_, fun hplain => ⟨?_, ?_⟩⟩
  · rw [helements] at he
    rw [mem_classes_marked hunmarked hnodup' hids he, Element.accepted_iff]
  · rw [helements, ids_marked hunmarked hnodup' hids]
  · rw [helements, dropClass_marked hunmarked, hcleared]
  · -- the elements are as marking would leave them, so marking again is the identity on them
    rw [applyFind_elements hmarker marked hplain]
    exact (List.map_congr_left (withMark_found_applyFind hmarker hplain)).trans (List.map_id _)
  · rw [applyFind_hits hmarker marked hplain, hits_applyFind hmarker g hplain,
      ← applyFind_hits hmarker g hplain, hok]

/-- Two nodes that carry a mark from before, of which one has a style class that is asked for, and a third
node with this class. -/
def markedPayload : Value :=
  .list [
    .object [("data", .object [("id", .text "a")]), ("classes", .text "hit-1")],
    .object [("data", .object [("id", .text "b")]), ("classes", .text "hot hit-1")],
    .object [("data", .object [("id", .text "c")]), ("classes", .text "hot")]]

/-- A node that is out loses its mark, though it matches, and one in the graph gets one. -/
theorem applyFind_replaces_stale :
    ∃ g, ofValue markedPayload = .ok g ∧
      let before := (g.remove ["b"]).1
      let marked := (before.applyFind "hit-1" (some "node.hot")).1
      before.ids.Nodup ∧ Selector.isClassName "hit-1" = true ∧
        (before.applyFind "hit-1" (some "node.hot")).2 = .ok ["c"] ∧
        (before.elements.filter fun e => ("hit-1" : Text) ∈ e.classes).map (·.id) =
          (["a", "b"] : List Text) ∧
        (marked.elements.filter fun e => ("hit-1" : Text) ∈ e.classes).map (·.id) = (["c"] : List Text) := by
  have hbuilt : ∃ g, ofValue markedPayload = .ok g ∧ (g.remove ["b"]).1.ids.Nodup ∧
      (((g.remove ["b"]).1.applyFind "hit-1" (some "node.hot")).2 = .ok ["c"]) ∧
      ((g.remove ["b"]).1.elements.filter fun e => ("hit-1" : Text) ∈ e.classes).map (·.id) =
        (["a", "b"] : List Text) :=
    ⟨_, rfl, by decide +kernel, by decide +kernel, by decide +kernel⟩
  obtain ⟨g, hg, hnodup, hok, hbefore⟩ := hbuilt
  have hmarker : Selector.isClassName "hit-1" = true := by decide
  obtain ⟨-, hids, -⟩ := applyFind_replaces hnodup hmarker hok
  exact ⟨g, hg, hnodup, hmarker, hok, hbefore, hids.symm⟩

end Graph

end MeshLens
