import MeshLens.Proofs.Query.CriteriaMatching

/-!
# The meaning of alternatives

A clause asks for one of several alternatives, each a conjunction of criteria. In a conjunction the
alternatives of several expressions are multiplied out; since the product keeps their order, going
through it comes upon the same unreadable texts as going through the expressions.

## Key results

- `Means.combine`: multiplying out is conjunction
- `Means.of_any`, `Means.of_all`: the meaning of criteria of which one or all have to hold
-/

namespace MeshLens

/-! ## Meaning of alternatives -/

/-- Whether alternatives on elements of a kind mean what is stated of elements: they can be written,
and they hold and stumble as stated. -/
structure Means (kind : Kind) (alternatives : List (List Criterion))
    (holds stumbles : Element → Prop) : Prop where
  ne_nil : alternatives ≠ []
  writable : ∀ criteria ∈ alternatives, ∀ c ∈ criteria, c.isWritable = true
  relational : ∀ criteria ∈ alternatives, ∀ c ∈ criteria, c.isRelational = true
  holds_iff : ∀ e, holds e ↔ e.kind = kind ∧ AnyHolds alternatives e.data
  stumbles_iff : ∀ e, stumbles e ↔ e.kind = kind ∧ AnyStumbles alternatives e.data

/-- Whether it does not matter for stumbling in which order alternatives are tried: there is only
one, or none of them stumbles. -/
def Steady (alternatives : List (List Criterion)) : Prop :=
  (∃ criteria, alternatives = [criteria]) ∨
    ∀ data, ∀ criteria ∈ alternatives, ¬Criterion.AllStumble criteria data

namespace Criterion

/-- `AllHold` of two rows of criteria is `AllHold` of both. -/
theorem allHold_append {xs ys : List Criterion} {data : Entries Value} :
    AllHold (xs ++ ys) data ↔ AllHold xs data ∧ AllHold ys data := by
  simp only [AllHold, List.mem_append, or_imp, forall_and]

/-- `AllStumble` of two rows of criteria comes upon the second one once the first one holds. -/
theorem allStumble_append {xs ys : List Criterion} {data : Entries Value} :
    AllStumble (xs ++ ys) data ↔
      AllStumble xs data ∨ (AllHold xs data ∧ AllStumble ys data) :=
  comesUpon_append

/-- `AllHold` of a single criterion. -/
@[simp] theorem allHold_singleton {c : Criterion} {data : Entries Value} :
    AllHold [c] data ↔ c.holds data = true := by
  simp [AllHold]

/-- `AllStumble` of a single criterion. -/
@[simp] theorem allStumble_singleton {c : Criterion} {data : Entries Value} :
    AllStumble [c] data ↔ c.Stumbles data := by
  simp [AllStumble, ComesUpon]

/-- `AllStumble` needs a criterion that stumbles. -/
theorem not_allStumble {criteria : List Criterion} {data : Entries Value}
    (h : ∀ c ∈ criteria, ¬c.Stumbles data) : ¬AllStumble criteria data :=
  not_comesUpon h

end Criterion

section Alternatives

variable {data : Entries Value}

/-- `AnyHolds` of a single alternative. -/
@[simp] theorem anyHolds_singleton {criteria : List Criterion} :
    AnyHolds [criteria] data ↔ Criterion.AllHold criteria data := by
  simp [AnyHolds]

/-- `AnyStumbles` of a single alternative. -/
@[simp] theorem anyStumbles_singleton {criteria : List Criterion} :
    AnyStumbles [criteria] data ↔ Criterion.AllStumble criteria data := by
  simp [AnyStumbles, ComesUpon]

/-- `AnyHolds` of an alternative and others. -/
theorem anyHolds_cons {criteria : List Criterion} {rest : List (List Criterion)} :
    AnyHolds (criteria :: rest) data ↔ Criterion.AllHold criteria data ∨ AnyHolds rest data := by
  simp only [AnyHolds, List.mem_cons, exists_eq_or_imp]

/-- `AnyHolds` of two rows of alternatives is `AnyHolds` of either. -/
theorem anyHolds_append {xs ys : List (List Criterion)} :
    AnyHolds (xs ++ ys) data ↔ AnyHolds xs data ∨ AnyHolds ys data := by
  simp only [AnyHolds, List.mem_append, or_and_right, exists_or]

/-- `AnyStumbles` of two rows of alternatives comes upon the second one once nothing of the first
one holds. -/
theorem anyStumbles_append {xs ys : List (List Criterion)} :
    AnyStumbles (xs ++ ys) data ↔
      AnyStumbles xs data ∨ (¬AnyHolds xs data ∧ AnyStumbles ys data) := by
  rw [AnyStumbles, comesUpon_append]
  simp only [AnyStumbles, AnyHolds, not_exists, not_and]

/-- `AnyStumbles` needs an alternative that stumbles. -/
theorem not_anyStumbles {xs : List (List Criterion)}
    (h : ∀ criteria ∈ xs, ¬Criterion.AllStumble criteria data) : ¬AnyStumbles xs data :=
  not_comesUpon h

/-! ## Multiplying out -/

/-- `AnyHolds` of alternatives that share their first criteria needs these and what differs. -/
theorem anyHolds_map_append {x : List Criterion} {ys : List (List Criterion)} :
    AnyHolds (ys.map fun y => x ++ y) data ↔
      Criterion.AllHold x data ∧ AnyHolds ys data := by
  constructor
  · rintro ⟨criteria, hmem, hall⟩
    obtain ⟨y, hy, rfl⟩ := List.mem_map.1 hmem
    rw [Criterion.allHold_append] at hall
    exact ⟨hall.1, y, hy, hall.2⟩
  · rintro ⟨hx, y, hy, hall⟩
    exact ⟨x ++ y, List.mem_map_of_mem hy, Criterion.allHold_append.2 ⟨hx, hall⟩⟩

/-- `AnyStumbles` of alternatives that share their first criteria is stumbling over these or, once
these hold, over what differs. -/
theorem anyStumbles_map_append {x : List Criterion} {ys : List (List Criterion)} (hys : ys ≠ []) :
    AnyStumbles (ys.map fun y => x ++ y) data ↔
      Criterion.AllStumble x data ∨ (Criterion.AllHold x data ∧ AnyStumbles ys data) := by
  induction ys with
  | nil => exact absurd rfl hys
  | cons y ys ih =>
    rw [List.map_cons, ← List.singleton_append, anyStumbles_append, anyStumbles_singleton,
      anyHolds_singleton, Criterion.allStumble_append, Criterion.allHold_append,
      ← List.singleton_append, anyStumbles_append, anyStumbles_singleton, anyHolds_singleton]
    -- the shared criteria are come upon with the first alternative, and again with every other
    by_cases hnil : ys = []
    · subst hnil
      have : ¬AnyStumbles [] data := id
      simp [this]
    · rw [ih hnil]
      by_cases hx : Criterion.AllStumble x data
      · simp [hx]
      · by_cases hall : Criterion.AllHold x data <;> simp [hx, hall]

/-- `AnyHolds` of a product is `AnyHolds` of both factors. -/
theorem anyHolds_combine {xs ys : List (List Criterion)} :
    AnyHolds (Clause.combine xs ys) data ↔ AnyHolds xs data ∧ AnyHolds ys data := by
  induction xs with
  | nil => simp [Clause.combine, AnyHolds]
  | cons x xs ih =>
    have hcons : Clause.combine (x :: xs) ys = (ys.map fun y => x ++ y) ++ Clause.combine xs ys :=
      List.flatMap_cons
    rw [hcons, anyHolds_append, anyHolds_map_append, ih, anyHolds_cons, or_and_right]

/-- `AnyStumbles` of a product is stumbling over the first factor or, once it holds, over the
second. -/
theorem anyStumbles_combine {xs ys : List (List Criterion)} (hxs : Steady xs) (hys : ys ≠ []) :
    AnyStumbles (Clause.combine xs ys) data ↔
      AnyStumbles xs data ∨ (AnyHolds xs data ∧ AnyStumbles ys data) := by
  rcases hxs with ⟨x, rfl⟩ | hsteady
  · have hmap : Clause.combine [x] ys = ys.map fun y => x ++ y := by
      simp [Clause.combine]
    rw [hmap, anyStumbles_map_append hys, anyStumbles_singleton, anyHolds_singleton]
  · -- nothing of the first factor stumbles, so the second is come upon with the first one that holds
    rw [or_iff_right (not_anyStumbles (hsteady data))]
    induction xs with
    | nil => simp [Clause.combine, AnyHolds, AnyStumbles, ComesUpon]
    | cons x xs ih =>
      have hcons : Clause.combine (x :: xs) ys =
          (ys.map fun y => x ++ y) ++ Clause.combine xs ys :=
        List.flatMap_cons
      have hx : ¬Criterion.AllStumble x data := hsteady data x List.mem_cons_self
      have hrest := ih fun data criteria hc => hsteady data criteria (List.mem_cons_of_mem _ hc)
      rw [hcons, anyStumbles_append, anyStumbles_map_append hys, anyHolds_map_append, hrest,
        anyHolds_cons]
      by_cases hall : Criterion.AllHold x data
      · simp only [hx, hall, false_or, true_and, true_or]
        constructor
        · -- the same stumbling again, behind an alternative that did not hold
          rintro (h | ⟨-, -, h⟩)
          · exact h
          · exact h
        · exact .inl
      · simp [hx, hall]

end Alternatives

/-- `combine` is associative. -/
theorem Clause.combine_assoc (xs ys zs : List (List Criterion)) :
    combine (combine xs ys) zs = combine xs (combine ys zs) := by
  simp [combine, List.flatMap_assoc, List.flatMap_map, List.map_flatMap, List.append_assoc,
    Function.comp_def]

/-- `combine` with the empty alternative changes nothing. -/
theorem Clause.combine_nil_right (xs : List (List Criterion)) : combine xs [[]] = xs := by
  simp [combine]

/-- `Means` of a product is that both factors hold. -/
theorem Means.combine {kind : Kind} {xs ys : List (List Criterion)}
    {holds holds' stumbles stumbles' : Element → Prop} (hxs : Means kind xs holds stumbles)
    (hys : Means kind ys holds' stumbles') (hsteady : Steady xs) :
    Means kind (Clause.combine xs ys) (fun e => holds e ∧ holds' e)
      (fun e => stumbles e ∨ (holds e ∧ stumbles' e)) where
  ne_nil := by
    obtain ⟨x, xs', rfl⟩ := List.exists_cons_of_ne_nil hxs.ne_nil
    obtain ⟨y, ys', rfl⟩ := List.exists_cons_of_ne_nil hys.ne_nil
    simp [Clause.combine]
  writable := by
    intro criteria hcriteria c hc
    -- an alternative of the product is one of either factor, and its criteria come from there
    simp only [Clause.combine, List.mem_flatMap, List.mem_map] at hcriteria
    obtain ⟨x, hx, y, hy, rfl⟩ := hcriteria
    rcases List.mem_append.1 hc with hc | hc
    · exact hxs.writable x hx c hc
    · exact hys.writable y hy c hc
  relational := by
    intro criteria hcriteria c hc
    simp only [Clause.combine, List.mem_flatMap, List.mem_map] at hcriteria
    obtain ⟨x, hx, y, hy, rfl⟩ := hcriteria
    rcases List.mem_append.1 hc with hc | hc
    · exact hxs.relational x hx c hc
    · exact hys.relational y hy c hc
  holds_iff := by
    intro e
    rw [hxs.holds_iff, hys.holds_iff, anyHolds_combine]
    constructor
    · rintro ⟨⟨hkind, hx⟩, -, hy⟩
      exact ⟨hkind, hx, hy⟩
    · rintro ⟨hkind, hx, hy⟩
      exact ⟨⟨hkind, hx⟩, hkind, hy⟩
  stumbles_iff := by
    intro e
    rw [hxs.stumbles_iff, hxs.holds_iff, hys.stumbles_iff,
      anyStumbles_combine hsteady hys.ne_nil]
    by_cases hkind : e.kind = kind <;> simp [hkind]

/-! ## Single criteria -/

namespace Criterion

/-- Whether a criterion compares with a number. -/
def isNumeric : Criterion → Bool
  | number _ _ _ => true
  | _ => false

/-- `Stumbles` needs a criterion that compares with a number. -/
theorem not_stumbles {c : Criterion} (h : c.isNumeric = false) (data : Entries Value) :
    ¬c.Stumbles data := by
  cases c with
  | number key op literal => cases h
  | _ => exact id

end Criterion

/-- `AnyHolds` of criteria one by one is that one of them holds. -/
theorem anyHolds_map_singleton {criteria : List Criterion} {data : Entries Value} :
    AnyHolds (criteria.map fun c => [c]) data ↔ ∃ c ∈ criteria, c.holds data = true := by
  induction criteria with
  | nil => simp [AnyHolds]
  | cons c criteria ih =>
    rw [List.map_cons, anyHolds_cons, ih, Criterion.allHold_singleton]
    simp only [List.mem_cons, exists_eq_or_imp]

/-- `AnyStumbles` of criteria one by one is that one of them stumbles, when it does not matter in
which order they are tried. -/
theorem anyStumbles_map_singleton {criteria : List Criterion} {data : Entries Value}
    (h : criteria.length = 1 ∨ ∀ c ∈ criteria, c.isNumeric = false) :
    AnyStumbles (criteria.map fun c => [c]) data ↔ ∃ c ∈ criteria, c.Stumbles data := by
  rcases h with hone | htext
  · -- one criterion, so nothing comes before it
    obtain ⟨c, rfl⟩ := List.length_eq_one_iff.1 hone
    simp
  · constructor
    · intro hstumbles
      refine absurd hstumbles (not_anyStumbles fun alternative halternative => ?_)
      obtain ⟨c, hc, rfl⟩ := List.mem_map.1 halternative
      rw [Criterion.allStumble_singleton]
      exact Criterion.not_stumbles (htext c hc) data
    · rintro ⟨c, hc, hstumbles⟩
      exact absurd hstumbles (Criterion.not_stumbles (htext c hc) data)

/-- `Steady` holds of criteria one by one when there is only one, or when none compares with a
number. -/
theorem steady_map_singleton {criteria : List Criterion}
    (h : criteria.length = 1 ∨ ∀ c ∈ criteria, c.isNumeric = false) :
    Steady (criteria.map fun c => [c]) := by
  rcases h with hone | htext
  · obtain ⟨c, rfl⟩ := List.length_eq_one_iff.1 hone
    exact .inl ⟨[c], rfl⟩
  · refine .inr fun data alternative halternative => ?_
    obtain ⟨c, hc, rfl⟩ := List.mem_map.1 halternative
    rw [Criterion.allStumble_singleton]
    exact Criterion.not_stumbles (htext c hc) data

/-- `Means` of criteria any of which may hold is that one of them holds. -/
theorem Means.of_any {kind : Kind} {criteria : List Criterion} (hne : criteria ≠ [])
    (hwrite : ∀ c ∈ criteria, c.isWritable = true)
    (hrelational : ∀ c ∈ criteria, c.isRelational = true)
    (hsteady : criteria.length = 1 ∨ ∀ c ∈ criteria, c.isNumeric = false) :
    Means kind (criteria.map fun c => [c])
      (fun e => e.kind = kind ∧ ∃ c ∈ criteria, c.holds e.data = true)
      (fun e => e.kind = kind ∧ ∃ c ∈ criteria, c.Stumbles e.data) where
  ne_nil := by simpa using hne
  writable := by
    intro alternative halternative c hc
    -- each alternative is one of the criteria alone
    obtain ⟨d, hd, rfl⟩ := List.mem_map.1 halternative
    rw [List.mem_singleton.1 hc]
    exact hwrite d hd
  relational := by
    intro alternative halternative c hc
    obtain ⟨d, hd, rfl⟩ := List.mem_map.1 halternative
    rw [List.mem_singleton.1 hc]
    exact hrelational d hd
  holds_iff := fun e => by rw [anyHolds_map_singleton]
  stumbles_iff := fun e => by rw [anyStumbles_map_singleton hsteady]

/-- `Means` of criteria all of which have to hold is that they all do. -/
theorem Means.of_all {kind : Kind} {criteria : List Criterion}
    (hwrite : ∀ c ∈ criteria, c.isWritable = true)
    (hrelational : ∀ c ∈ criteria, c.isRelational = true) :
    Means kind [criteria] (fun e => e.kind = kind ∧ Criterion.AllHold criteria e.data)
      (fun e => e.kind = kind ∧ Criterion.AllStumble criteria e.data) where
  ne_nil := List.cons_ne_nil _ _
  writable := fun alternative halternative => by
    rw [List.mem_singleton.1 halternative]
    exact hwrite
  relational := fun alternative halternative => by
    rw [List.mem_singleton.1 halternative]
    exact hrelational
  holds_iff := fun e => by rw [anyHolds_singleton]
  stumbles_iff := fun e => by rw [anyStumbles_singleton]

/-- `Means` goes with what says the same. -/
theorem Means.congr {kind : Kind} {alternatives : List (List Criterion)}
    {holds holds' stumbles stumbles' : Element → Prop} (h : Means kind alternatives holds stumbles)
    (hholds : ∀ e, holds' e ↔ holds e) (hstumbles : ∀ e, stumbles' e ↔ stumbles e) :
    Means kind alternatives holds' stumbles' where
  ne_nil := h.ne_nil
  writable := h.writable
  relational := h.relational
  holds_iff := fun e => (hholds e).trans (h.holds_iff e)
  stumbles_iff := fun e => (hstumbles e).trans (h.stumbles_iff e)

end MeshLens
