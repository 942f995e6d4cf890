import MeshLens.Proofs.Graph.ElementChanges

/-!
# What goes with what is taken out

With a node go its edges and the nodes it holds, and so on: what goes is the least set that holds what
was asked for and is closed in this way. So an edge never stays without the nodes at its ends, in
whatever order elements are taken out.

## Key results

- `Search.mem_reach_of_mem_next`, `Search.reach_subset`: what is reached is the least closed set
- `Graph.Severed`: no edge is at a node that is out of the graph, also after taking more out
- `Graph.cascade_subset`: nothing else goes with a set that is closed already
-/

namespace MeshLens

/-! ## Reaching -/

namespace Search

variable {α : Type} [DecidableEq α] {space : List α} {next : α → List α}

/-- `visit` stays within any set that holds the starting points and is closed. -/
theorem visit_subset {S : α → Prop} (hnext : ∀ a, S a → ∀ b ∈ next a, b ∈ space → S b)
    {stack seen : List α} (hstack : ∀ a ∈ stack, a ∈ space → S a) (hseen : ∀ a ∈ seen, S a) :
    ∀ a ∈ visit space next stack seen, S a := by
  fun_induction visit space next stack seen with
  | case1 => exact hseen
  | case2 seen b stack hb ih =>
    have hS : S b := hstack b List.mem_cons_self hb.1
    refine ih (fun a ha hspace => ?_) (List.forall_mem_cons.2 ⟨hS, hseen⟩)
    rcases List.mem_append.1 ha with ha | ha
    · exact hnext b hS a (List.mem_reverse.1 ha) hspace
    · exact hstack a (List.mem_cons_of_mem _ ha) hspace
  | case3 seen b stack hb ih =>
    exact ih (fun a ha => hstack a (List.mem_cons_of_mem _ ha)) hseen

/-- `visit` visits what follows from what was seen, when that was seen or waits on the stack. -/
theorem visit_closed {stack seen : List α}
    (hseen : ∀ a ∈ seen, ∀ b ∈ next a, b ∈ space → b ∈ seen ∨ b ∈ stack) :
    ∀ a ∈ visit space next stack seen, ∀ b ∈ next a, b ∈ space → b ∈ visit space next stack seen := by
  -- induction along `visit`: it ends, visits the first of the stack, or passes over it
  fun_induction visit space next stack seen with
  | case1 seen =>
    intro a ha b hb hspace
    exact (hseen a ha b hb hspace).resolve_right List.not_mem_nil
  | case2 seen c stack hc ih =>
    refine ih fun a ha b hb hspace => ?_
    rcases List.mem_cons.1 ha with rfl | ha
    · exact .inr (List.mem_append_left _ (List.mem_reverse.2 hb))
    · rcases hseen a ha b hb hspace with hb | hb
      · exact .inl (List.mem_cons_of_mem _ hb)
      · rcases List.mem_cons.1 hb with rfl | hb
        · exact .inl List.mem_cons_self
        · exact .inr (List.mem_append_right _ hb)
  | case3 seen c stack hc ih =>
    refine ih fun a ha b hb hspace => ?_
    rcases hseen a ha b hb hspace with hb | hb
    · exact .inl hb
    · rcases List.mem_cons.1 hb with rfl | hb
      · -- what is passed over within the universe was seen before
        exact .inl (Decidable.not_not.1 fun hnew => hc ⟨hspace, hnew⟩)
      · exact .inr hb

/-- `reach` stays in the universe. -/
theorem mem_space_of_mem_reach {starts : List α} {a : α} (h : a ∈ reach space next starts) :
    a ∈ space := by
  rw [reach, List.mem_reverse] at h
  exact visit_subset (S := (· ∈ space)) (fun _ _ _ _ hb => hb) (fun _ _ ha => ha)
    (List.forall_mem_nil _) a h

/-- `reach` is closed: it holds what follows from its members. -/
theorem mem_reach_of_mem_next {starts : List α} {a b : α} (ha : a ∈ reach space next starts)
    (hb : b ∈ next a) (hspace : b ∈ space) : b ∈ reach space next starts := by
  rw [reach, List.mem_reverse] at ha ⊢
  exact visit_closed (List.forall_mem_nil _) a ha b hb hspace

/-- `reach` lies in every closed set that holds the starting points. -/
theorem reach_subset {S : α → Prop} {starts : List α} (hstarts : ∀ a ∈ starts, S a)
    (hnext : ∀ a, S a → ∀ b ∈ next a, b ∈ space → S b) : ∀ a ∈ reach space next starts, S a := by
  intro a ha
  rw [reach, List.mem_reverse] at ha
  exact visit_subset hnext (fun a ha _ => hstarts a (List.mem_reverse.1 ha)) (List.forall_mem_nil _)
    a ha

end Search

namespace Graph

variable {g : Graph}

/-! ## What goes with an element -/

/-- `incidentEdges` lists the live elements that have the id among their `anchors`. -/
theorem mem_incidentEdges {id : Text} {e : Element} :
    e ∈ g.incidentEdges id ↔ e ∈ g.live ∧ id ∈ e.anchors := by
  simp only [incidentEdges, List.mem_flatMap, mem_live]
  constructor
  · rintro ⟨d, hd, he⟩
    split at he
    · rename_i hlive
      obtain ⟨i, hi, rfl⟩ := List.mem_map.1 he
      obtain ⟨hat, rfl⟩ : i ∈ d.anchors ∧ i = id := by simpa using hi
      exact ⟨⟨hd, hlive⟩, hat⟩
    · cases he
  · rintro ⟨⟨he, hlive⟩, hid⟩
    refine ⟨e, he, ?_⟩
    rw [if_pos hlive]
    exact List.mem_map.2 ⟨id, by simpa using hid, rfl⟩

/-- `childrenOf` lists the live elements whose `holder?` is the id. -/
theorem mem_childrenOf {id : Text} {e : Element} :
    e ∈ g.childrenOf id ↔ e ∈ g.live ∧ e.holder? = some id := by
  simp [childrenOf, mem_live, and_assoc]

/-- `dependents` of a node are the edges at it and the nodes it holds. -/
theorem mem_dependents (hnodup : g.ids.Nodup) {n : Element} (hn : n ∈ g.elements) {id : Text} :
    id ∈ g.dependents n.id ↔
      n.isNode = true ∧ ∃ e ∈ g.live, e.id = id ∧ (n.id ∈ e.anchors ∨ e.holder? = some n.id) := by
  rw [dependents, element?_of_mem hnodup hn]
  cases hnode : n.isNode with
  | false => simp [hnode]
  | true =>
    simp only [Option.any_some, hnode, if_true, List.mem_append, List.mem_map, mem_incidentEdges,
      mem_childrenOf, true_and]
    constructor
    · rintro (⟨e, ⟨he, hat⟩, rfl⟩ | ⟨e, ⟨he, hat⟩, rfl⟩)
      · exact ⟨e, he, rfl, .inl hat⟩
      · exact ⟨e, he, rfl, .inr hat⟩
    · rintro ⟨e, he, rfl, hat | hat⟩
      · exact .inl ⟨e, ⟨he, hat⟩, rfl⟩
      · exact .inr ⟨e, ⟨he, hat⟩, rfl⟩

/-! ## What goes with a set -/

/-- `remove` answers the members of the `cascade`. -/
theorem mem_remove {ids : List Text} {id : Text} : id ∈ (g.remove ids).2 ↔ id ∈ g.cascade ids := by
  refine mem_inOrder.trans (and_iff_right_of_imp fun h => ?_)
  obtain ⟨e, he, rfl⟩ := List.mem_map.1 (Search.mem_space_of_mem_reach h)
  exact List.mem_map_of_mem (mem_live.1 he).1

/-- `cascade` stays within a set of elements that holds all that goes with them. -/
theorem cascade_subset {S : Text → Prop} {ids : List Text} (hids : ∀ id ∈ ids, S id)
    (hclosed : ∀ id, S id → ∀ id' ∈ g.dependents id, S id') : ∀ id ∈ g.cascade ids, S id :=
  Search.reach_subset (fun id hid => hids id (List.mem_filter.1 hid).1)
    fun id hid id' hid' _ => hclosed id hid id' hid'

/-- Whether no edge that is `live` is at a node that is out of the graph. -/
def Severed (g : Graph) : Prop :=
  ∀ e ∈ g.live, ∀ n ∈ g.elements, n.isNode = true → n.id ∈ e.anchors → n.live = true

/-- `remove` leaves each element as it was, or marks it as taken out. -/
theorem mem_elements_remove {ids : List Text} {x : Element} (hx : x ∈ (g.remove ids).1.elements) :
    ∃ d ∈ g.elements,
      x = if d.id ∈ (g.remove ids).2 then d.withRemoved true else d := by
  rw [remove_elements] at hx
  obtain ⟨d, hd, rfl⟩ := List.mem_map.1 hx
  exact ⟨d, hd, rfl⟩

/-- `Severed` is preserved by `remove`, which takes the edges at a node along. -/
theorem Severed.remove (hnodup : g.ids.Nodup) (h : g.Severed) (ids : List Text) :
    (g.remove ids).1.Severed := by
  intro x hx y hy hnode hat
  obtain ⟨hx, hlive⟩ := mem_live.1 hx
  obtain ⟨e, he, rfl⟩ := mem_elements_remove hx
  obtain ⟨n, hn, rfl⟩ := mem_elements_remove hy
  -- an edge that is still there was there before, and so were the nodes at it
  by_cases hgone : e.id ∈ (g.remove ids).2
  · rw [if_pos hgone] at hlive
    cases hlive
  rw [if_neg hgone] at hlive hat
  have helive : e ∈ g.live := mem_live.2 ⟨he, hlive⟩
  by_cases hn' : n.id ∈ (g.remove ids).2
  · -- a node that goes takes the edge along
    rw [if_pos hn'] at hnode hat
    have hdependent : e.id ∈ g.dependents n.id :=
      (mem_dependents hnodup hn).2 ⟨hnode, e, helive, rfl, .inl hat⟩
    exact absurd (mem_remove.2 (Search.mem_reach_of_mem_next (mem_remove.1 hn') hdependent
      (mem_liveIds helive))) hgone
  · rw [if_neg hn'] at hnode hat ⊢
    exact h e helive n hn hnode hat

end Graph

end MeshLens
