import MeshLens.Graph.Definition
import MeshLens.Proofs.ForStd
import MeshLens.Proofs.Graph.ElementChanges

/-!
# Graphs as they are built

A graph that was built from data and not yet touched holds every id once, and shows all its elements.

## Key results

- `Graph.ofValue_untouched`: what a graph is like when it is built
- `Graph.ends_of_ofValue`: every edge of it names two ends
- `Graph.IsStateOf`: a graph in any state that it can come to after it was built
-/

namespace MeshLens

/-- Whether all elements of a list are in the graph and shown. -/
def AllShown (es : List Element) : Prop :=
  ∀ e ∈ es, e.visible = true ∧ e.removed = false

namespace Graph

/-- A `Graph` to which nothing was done since it was built. -/
structure Untouched (g : Graph) : Prop where
  nodup : g.ids.Nodup
  shown : AllShown g.elements

/-- `Untouched`: every element is live. -/
theorem Untouched.live {g : Graph} (hg : g.Untouched) : ∀ e ∈ g.elements, e.live = true :=
  fun e he => by simp [Element.live, (hg.shown e he).2]

/-- `Untouched`: every element is among the live ones. -/
theorem Untouched.mem_live {g : Graph} (hg : g.Untouched) {e : Element} (he : e ∈ g.elements) :
    e ∈ g.live :=
  Graph.mem_live.2 ⟨he, hg.live e he⟩

/-- `define` reads kind, data and id one after the other, when it does not refuse the definition;
then the id is looked for, and the style classes are read last. -/
theorem exists_of_define {g : Graph} {definition : Value} {e : Element}
    (h : g.define definition = .ok e) :
    ∃ fields data, definition = .object fields ∧
      Entries.get? fields "data" = some (.object data) ∧
      kindOf ((Entries.get? fields "group").getD .null) data = .ok e.kind ∧
      completeData e.kind data = .ok e.data ∧ idOf e.data = .ok e.id ∧ e.id ∉ g.ids ∧
      classesOf ((Entries.get? fields "classes").getD .null) = .ok (e.classes, e.otherClasses) ∧
      e.visible = true ∧ e.removed = false := by
  unfold define at h
  -- each step of the reading may refuse the definition, which contradicts the success
  split at h
  · rename_i fields
    split at h
    · rename_i data hdata
      obtain ⟨kind, hkind, h⟩ := Except.bind_eq_ok h
      obtain ⟨complete, hcomplete, h⟩ := Except.bind_eq_ok h
      obtain ⟨id, hid, h⟩ := Except.bind_eq_ok h
      by_cases hnew : id ∈ g.ids
      · rw [if_pos hnew] at h
        cases h
      · rw [if_neg hnew] at h
        obtain ⟨⟨classes, others⟩, hclasses, h⟩ := Except.bind_eq_ok h
        cases h
        exact ⟨fields, data, rfl, hdata, hkind, hcomplete, hid, hnew, hclasses, rfl, rfl⟩
    · cases h
  · cases h

/-- `define` makes an element with an id of its own, which is shown. -/
theorem define_spec {g : Graph} {definition : Value} {e : Element}
    (h : g.define definition = .ok e) :
    e.id ∉ g.ids ∧ e.visible = true ∧ e.removed = false := by
  obtain ⟨_, _, -, -, -, -, -, hnew, -, hshown⟩ := exists_of_define h
  exact ⟨hnew, hshown⟩

/-- `add` keeps ids apart. -/
theorem nodup_add {g g' : Graph} {definition : Value} {e : Element} (hnodup : g.ids.Nodup)
    (h : g.add definition = .ok (g', e)) : g'.ids.Nodup := by
  obtain ⟨d, hdefine, hadded⟩ := Except.map_eq_ok h
  obtain ⟨hnew, -, -⟩ := define_spec hdefine
  cases hadded
  -- the id of the new element is not among those before it
  simp only [ids, List.map_append, List.map_cons, List.map_nil]
  rw [List.nodup_append]
  refine ⟨hnodup, by simp, fun id hid id' hid' => ?_⟩
  rw [List.mem_singleton] at hid'
  rintro rfl
  exact hnew (hid' ▸ hid)

/-- `Untouched` is preserved by `add`. -/
theorem Untouched.add {g g' : Graph} {definition : Value} {e : Element} (hg : g.Untouched)
    (h : g.add definition = .ok (g', e)) : g'.Untouched := by
  refine ⟨nodup_add hg.nodup h, ?_⟩
  obtain ⟨d, hdefine, hadded⟩ := Except.map_eq_ok h
  obtain ⟨-, hvisible, hremoved⟩ := define_spec hdefine
  cases hadded
  intro e he
  rcases List.mem_append.1 he with he | he
  · exact hg.shown e he
  · rw [List.mem_singleton.1 he]
    exact ⟨hvisible, hremoved⟩

/-- `Untouched` is preserved by `addAll`. -/
theorem Untouched.addAll {g g' : Graph} {definitions : List Value} (hg : g.Untouched)
    (h : g.addAll definitions = .ok g') : g'.Untouched := by
  induction definitions generalizing g with
  | nil =>
    cases h
    exact hg
  | cons definition definitions ih =>
    simp only [Graph.addAll] at h
    split at h
    · cases h
    · rename_i added e hadd
      exact ih (hg.add hadd) h

/-- `Untouched` holds of a graph that `ofValue` has built. -/
theorem ofValue_untouched {payload : Value} {g : Graph} (h : ofValue payload = .ok g) :
    g.Untouched := by
  obtain ⟨definitions, -, h⟩ := Except.bind_eq_ok h
  have hempty : ({} : Graph).Untouched :=
    ⟨List.nodup_nil, fun e he => absurd he List.not_mem_nil⟩
  exact hempty.addAll h

/-- `ofValue`: what holds of every element that a definition can describe holds of all elements of
the graph. -/
theorem forall_mem_of_ofValue {P : Element → Prop}
    (hP : ∀ {g : Graph} {definition : Value} {e : Element}, g.define definition = .ok e → P e)
    {payload : Value} {g : Graph} (h : ofValue payload = .ok g) : ∀ e ∈ g.elements, P e := by
  -- the induction is on the definitions, from a graph whose elements already have the property
  have hadd : ∀ {definitions : List Value} {g g' : Graph}, (∀ e ∈ g.elements, P e) →
      g.addAll definitions = .ok g' → ∀ e ∈ g'.elements, P e := by
    intro definitions
    induction definitions with
    | nil =>
      intro g g' hg h
      cases h
      exact hg
    | cons definition definitions ih =>
      intro g g' hg h
      simp only [addAll] at h
      split at h
      · cases h
      · rename_i added e hadd
        obtain ⟨d, hdefine, hadded⟩ := Except.map_eq_ok hadd
        cases hadded
        refine ih (fun x hx => ?_) h
        -- an element of the bigger graph was there before, or is the one just defined
        rcases List.mem_append.1 hx with hx | hx
        · exact hg x hx
        · rw [List.mem_singleton.1 hx]
          exact hP hdefine
  obtain ⟨definitions, -, h⟩ := Except.bind_eq_ok h
  exact hadd (fun e he => absurd he List.not_mem_nil) h

/-- `completeData` of an edge names two ends. -/
theorem completeData_ends {data complete : Entries Value}
    (h : completeData .edge data = .ok complete) :
    ((complete.get? "source").getD .null).truthy = true ∧
      ((complete.get? "target").getD .null).truthy = true := by
  unfold completeData at h
  dsimp only at h
  split at h
  · rename_i hends
    rw [Bool.and_eq_true] at hends
    -- the id that may be set is no end
    split at h
    · cases h
      exact hends
    · cases h
      rw [Entries.get?_set, Entries.get?_set, if_neg (by decide), if_neg (by decide)]
      exact hends
  · cases h

/-- `ofValue`: every edge of the graph names two ends. -/
theorem ends_of_ofValue {payload : Value} {g : Graph} (h : ofValue payload = .ok g) :
    ∀ e ∈ g.elements, e.isEdge = true → e.source.truthy = true ∧ e.target.truthy = true := by
  refine forall_mem_of_ofValue (fun {g definition e} hdefine hedge => ?_) h
  obtain ⟨_, data, -, -, -, hcomplete, -⟩ := exists_of_define hdefine
  have hkind : e.kind = .edge := by simpa [Element.isEdge] using hedge
  rw [hkind] at hcomplete
  exact completeData_ends hcomplete

end Graph

/-! ## Later states -/

/-- What nothing changes of an `Element`: all but its style classes and the two flags. -/
def Element.core (e : Element) : Element :=
  { e with classes := [], visible := true, removed := false }

namespace Graph

/-- Whether a `Graph` is another one in some state: whatever style classes its elements carry, and
whichever of them are hidden or taken out. -/
def IsStateOf (g g₀ : Graph) : Prop :=
  g.elements.map Element.core = g₀.elements.map Element.core

variable {g g₀ : Graph}

/-- `IsStateOf`: the ids are the same. -/
theorem IsStateOf.ids (h : g.IsStateOf g₀) : g.ids = g₀.ids := by
  have hids := congrArg (List.map (·.id)) h
  rwa [List.map_map, List.map_map] at hids

/-- `IsStateOf`: every element is one that was built, up to its `core`. -/
theorem IsStateOf.exists_mem (h : g.IsStateOf g₀) {e : Element} (he : e ∈ g.elements) :
    ∃ d ∈ g₀.elements, d.core = e.core := by
  have hmem : e.core ∈ g₀.elements.map Element.core := h ▸ List.mem_map_of_mem he
  exact List.mem_map.1 hmem

/-- `IsStateOf`: what does not depend on style classes and flags holds of all elements in every
state. -/
theorem IsStateOf.forall_core {P : Element → Prop} (h : g.IsStateOf g₀)
    (h₀ : ∀ d ∈ g₀.elements, P d.core) : ∀ e ∈ g.elements, P e.core := by
  intro e he
  obtain ⟨d, hd, hsame⟩ := h.exists_mem he
  exact hsame ▸ h₀ d hd

end Graph

end MeshLens
