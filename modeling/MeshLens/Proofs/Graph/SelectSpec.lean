import MeshLens.Graph.Traversal
import MeshLens.Proofs.ForStd

/-!
# What is selected

Selecting goes through the live elements and stops at the first that cannot be matched. A selector
that asks for no style class sees only the kind and the data of an element, which nothing ever
changes.

## Key results

- `Element.mem_matching`, `Graph.mem_select`: what is selected are the elements that match
- `Selector.Plain.accepts_congr`: what a selector without style classes depends on
-/

namespace MeshLens

namespace Element

variable {s : Selector} {es hits : List Element}

/-- `matching` selects the elements that match, when every element is matched or not without a
failure. -/
theorem matching_eq_filter {p : Element → Bool} (h : ∀ e ∈ es, s.accepts e = .ok (p e)) :
    matching s es = .ok (es.filter p) := by
  induction es with
  | nil => rfl
  | cons e es ih =>
    rw [List.forall_mem_cons] at h
    rw [matching, h.1, ih h.2, List.filter_cons]
    simp only [Except.map]

/-- `matching` selects just the elements that match. -/
theorem mem_matching (h : matching s es = .ok hits) {e : Element} :
    e ∈ hits ↔ e ∈ es ∧ s.accepts e = .ok true := by
  -- induction on the elements, as in `matching`
  induction es generalizing hits with
  | nil =>
    cases h
    simp
  | cons d es ih =>
    simp only [matching] at h
    split at h
    · cases h
    · rename_i accepted haccepts
      obtain ⟨rest, hrest, rfl⟩ := Except.map_eq_ok h
      have hiff := ih hrest
      -- the element is added when it matches, and passed over when it does not
      cases accepted with
      | false =>
        have hnot : s.accepts d ≠ .ok true := by
          rw [haccepts]
          intro hsame
          cases hsame
        simp only [Bool.false_eq_true, if_false, hiff, List.mem_cons]
        constructor
        · rintro ⟨he, hs⟩
          exact ⟨.inr he, hs⟩
        · rintro ⟨rfl | he, hs⟩
          · exact absurd hs hnot
          · exact ⟨he, hs⟩
      | true =>
        simp only [if_true, List.mem_cons, hiff]
        constructor
        · rintro (rfl | ⟨he, hs⟩)
          · exact ⟨.inl rfl, haccepts⟩
          · exact ⟨.inr he, hs⟩
        · rintro ⟨rfl | he, hs⟩
          · exact .inl rfl
          · exact .inr ⟨he, hs⟩

/-- `matching` succeeds just when each element is matched or not without a failure. -/
theorem matching_ok_iff : (∃ hits, matching s es = .ok hits) ↔
    ∀ e ∈ es, ∃ accepted, s.accepts e = .ok accepted := by
  induction es with
  | nil => exact iff_of_true ⟨[], rfl⟩ (List.forall_mem_nil _)
  | cons e es ih =>
    rw [List.forall_mem_cons, ← ih, matching]
    cases s.accepts e with
    | error fault => simp
    | ok accepted => cases matching s es <;> simp [Except.map]

/-- `matching` of elements that are changed in a way that the selector does not see: the selected
ones are changed. -/
theorem matching_map {f : Element → Element} (h : ∀ e ∈ es, s.accepts (f e) = s.accepts e) :
    matching s (es.map f) = (matching s es).map (List.map f) := by
  induction es with
  | nil => rfl
  | cons e es ih =>
    rw [List.forall_mem_cons] at h
    rw [List.map_cons, matching, matching, h.1, ih h.2]
    cases s.accepts e with
    | error fault => rfl
    | ok accepted =>
      cases matching s es with
      | error fault => rfl
      | ok rest => cases accepted <;> rfl

end Element

/-! ## Selectors without style classes -/

namespace Selector

/-- Whether a `Selector` asks for no style class. -/
def Plain (s : Selector) : Prop :=
  ∀ g ∈ s.groups, g.classes = []

/-- `Plain` selectors see only the kind and the data of an element. -/
theorem Plain.accepts_congr {s : Selector} (h : s.Plain) {d e : Element} (hkind : d.kind = e.kind)
    (hdata : d.data = e.data) : s.accepts d = s.accepts e := by
  unfold Plain at h
  unfold accepts
  -- the groups are tried one after the other, so by induction on them
  generalize s.groups = gs at h
  induction gs with
  | nil => rfl
  | cons g gs ih =>
    rw [List.forall_mem_cons] at h
    have hgroup : g.accepts d = g.accepts e := by
      simp only [SelectorGroup.accepts, h.1, hkind, hdata, List.all_nil]
    rw [SelectorGroup.anyAccepts, SelectorGroup.anyAccepts, hgroup, ih h.2]

/-- Whether the `Selector` of a text, if there is one, is `Plain`. -/
def PlainText (selector : Option Text) : Prop :=
  ∀ text s, selector = some text → Selector.parse text = .ok s → s.Plain

end Selector

/-- Whether an element matches the `Selector` of a text; without a text, none does. -/
def Element.Matches (selector : Option Text) (e : Element) : Prop :=
  ∃ text s, selector = some text ∧ Selector.parse text = .ok s ∧ s.accepts e = .ok true

namespace Element

/-- Whether `accepts` says of an element that it matches the `Selector` of a text. -/
def accepted (selector : Option Text) (e : Element) : Bool :=
  match selector with
  | none => false
  | some text =>
    match Selector.parse text with
    | .error _ => false
    | .ok s =>
      match s.accepts e with
      | .error _ => false
      | .ok accepted => accepted

/-- `accepted` decides `Matches`. -/
theorem accepted_iff {selector : Option Text} {e : Element} :
    e.accepted selector = true ↔ e.Matches selector := by
  unfold accepted Matches
  cases selector with
  | none => simp
  | some text =>
    cases hs : Selector.parse text with
    | error fault => simp [hs]
    | ok s =>
      cases haccepts : s.accepts e with
      | error fault => simp [hs, haccepts]
      | ok accepted => simp [hs, haccepts]

/-- `Matches` can be decided, by `accepted`. -/
instance (selector : Option Text) (e : Element) : Decidable (e.Matches selector) :=
  decidable_of_iff (e.accepted selector = true) accepted_iff

/-- `Matches` depends on the kind and the data of an element only, for a plain selector. -/
theorem matches_congr {selector : Option Text} (h : Selector.PlainText selector)
    {d e : Element} (hkind : d.kind = e.kind) (hdata : d.data = e.data) :
    d.Matches selector ↔ e.Matches selector := by
  constructor
  · rintro ⟨text, s, hsome, hs, haccepts⟩
    exact ⟨text, s, hsome, hs, by rw [← (h text s hsome hs).accepts_congr hkind hdata, haccepts]⟩
  · rintro ⟨text, s, hsome, hs, haccepts⟩
    exact ⟨text, s, hsome, hs, by rw [(h text s hsome hs).accepts_congr hkind hdata, haccepts]⟩

end Element

/-- `select` gives the live elements that match. -/
theorem Graph.mem_select {g : Graph} {text : Text} {hits : List Element}
    (h : g.select text = .ok hits) {e : Element} :
    e ∈ hits ↔ e ∈ g.live ∧ e.Matches (some text) := by
  unfold select at h
  split at h
  · cases h
  · rename_i s hs
    rw [Element.mem_matching h]
    constructor
    · rintro ⟨he, haccepts⟩
      exact ⟨he, text, s, rfl, hs, haccepts⟩
    · -- the text has only one reading
      rintro ⟨he, text', s', hsome, hs', haccepts⟩
      cases hsome
      rw [hs] at hs'
      cases hs'
      exact ⟨he, haccepts⟩

end MeshLens
