import MeshLens.Proofs.ForStd
import MeshLens.Proofs.Query.AlternativesMeaning

/-!
# What phrases resolve to

The alternatives that a phrase resolves to hold of an element exactly when the phrase does.

## Key results

- `Query.Operand.means_resolve`: the same for the comparison of an operand with a value
- `Query.Phrase.means_resolve`: what a phrase resolves to means what the phrase says
-/

namespace MeshLens

/-- `lookUp?` gives the value of an entry. -/
theorem Entries.exists_mem_of_lookUp? {α : Type} {table : Entries α} {word : Text} {value : α}
    (h : Query.lookUp? table word = some value) : ∃ entry ∈ table, entry.2 = value :=
  exists_mem_of_get? h

namespace Query

/-! ## The vocabulary -/

/-- `operands` name attributes that a selector can be written with. -/
theorem isAttribute_of_mem_operands :
    ∀ entry ∈ operands, Selector.isAttribute entry.2.key = true := by
  decide

/-- `nameKeys` are attributes that a selector can be written with. -/
theorem isAttribute_of_mem_nameKeys : ∀ key ∈ nameKeys, Selector.isAttribute key = true := by
  decide

/-- `criteria` of a flag and of its negation can be written, and of several none compares numbers.
-/
theorem criteria_of_mem_flags : ∀ entry ∈ flags, ∀ negated,
    entry.2.criteria negated ≠ [] ∧
      (∀ c ∈ entry.2.criteria negated, c.isWritable = true) ∧
      (∀ c ∈ entry.2.criteria negated, c.isRelational = true) ∧
      ((entry.2.criteria negated).length = 1 ∨
        ∀ c ∈ entry.2.criteria negated, c.isNumeric = false) := by
  decide +kernel

/-! ## Operands -/

/-- `numericCriterion` gives a criterion that compares with the number, or asks whether the
attribute counts as true. -/
theorem numericCriterion_spec {key : Text} {op : Comparison} {value : Text} {c : Criterion}
    (hkey : Selector.isAttribute key = true) (h : numericCriterion key op value = .ok c) :
    c.isWritable = true ∧ c.isRelational = true ∧
      (∀ data, c.holds data =
        if isNumber value then
          op.holdsOfNumber (Selector.literalValue value) (Value.present? data key)
        else (Value.present? data key).any Value.truthy == op.negated) ∧
      ∀ data, c.Stumbles data ↔ isNumber value = true ∧
        ∃ v, Value.present? data key = some v ∧ v.IsUnreadable := by
  have hnumber (hv : isNumber value = true) (hop : op.relation.isPartial = false) :
      (Criterion.number key op value).isWritable = true ∧
        (Criterion.number key op value).isRelational = true := by
    simp [Criterion.isWritable, Criterion.isRelational, Criterion.key, hkey, hv, hop]
  unfold numericCriterion at h
  by_cases hv : isNumber value = true
  · -- a number is compared as it was spelled
    have hc : c = .number key op value ∧ op.relation.isPartial = false := by
      cases op <;> simp_all [Comparison.isOrdering, Comparison.relation, Relation.isPartial]
    obtain ⟨rfl, hop⟩ := hc
    refine ⟨(hnumber hv hop).1, (hnumber hv hop).2, fun data => ?_, fun data => ?_⟩
    · rw [if_pos hv]
      rfl
    · simp [Criterion.Stumbles, hv]
  · -- only to equal what is no number, or to differ from it, makes sense
    have hc : (op = .eq ∧ c = .falsy key) ∨ (op = .ne ∧ c = .truthy key) := by
      cases op <;> simp_all [Comparison.isOrdering]
    rcases hc with ⟨rfl, rfl⟩ | ⟨rfl, rfl⟩
    · refine ⟨?_, rfl, fun data => ?_, fun data => ?_⟩
      · simp [Criterion.isWritable, Criterion.key, hkey]
      · rw [if_neg hv, Criterion.holds]
        cases (Value.present? data key).any Value.truthy <;> rfl
      · simp [Criterion.Stumbles, hv]
    · refine ⟨?_, rfl, fun data => ?_, fun data => ?_⟩
      · simp [Criterion.isWritable, Criterion.key, hkey]
      · rw [if_neg hv, Criterion.holds]
        cases (Value.present? data key).any Value.truthy <;> rfl
      · simp [Criterion.Stumbles, hv]

/-- `rankCriterion` gives the criterion of a numeric comparison. -/
theorem numericCriterion_of_rankCriterion {key : Text} {op : Comparison} {value : Text}
    {c : Criterion} (h : rankCriterion key op value = .ok c) :
    numericCriterion key op value = .ok c := by
  unfold rankCriterion at h
  split at h
  · cases h
  · cases h
  · exact Except.mapError_eq_ok h

namespace Operand

/-- `Means` of a numeric criterion is the comparison of an operand that compares numbers. -/
private theorem means_numeric {operand : Operand} {op : Comparison} {value : Text} {c : Criterion}
    (hkind : operand.kind = .numeric ∨ operand.kind = .rank)
    (hkey : Selector.isAttribute operand.key = true)
    (h : numericCriterion operand.key op value = .ok c) :
    Means operand.target [[c]]
        (fun e => e.kind = operand.target ∧ operand.holds op value e.data = true)
        (fun e => e.kind = operand.target ∧ operand.Stumbles value e.data) ∧
      Steady [[c]] := by
  obtain ⟨hwrite, hrelational, hholds, hstumbles⟩ := numericCriterion_spec hkey h
  have hone : Means operand.target [[c]] _ _ :=
    Means.of_all (by simpa using hwrite) (by simpa using hrelational)
  refine ⟨hone.congr (fun e => ?_) (fun e => ?_), .inl ⟨[c], rfl⟩⟩
  · rw [Criterion.allHold_singleton, hholds]
    rcases hkind with hkind | hkind <;> simp only [holds, hkind]
  · rw [Criterion.allStumble_singleton, hstumbles]
    simp only [Stumbles, hkind, true_and]

/-- `Means` of a criterion on a text is the comparison of an operand that compares texts. -/
private theorem means_text {operand : Operand} {op : Comparison} {value given : Text}
    (hkind : operand.kind ≠ .numeric ∧ operand.kind ≠ .rank)
    (hkey : Selector.isAttribute operand.key = true)
    (hholds : ∀ data, operand.holds op value data =
      op.holdsOfText given (Value.present? data operand.key)) :
    Means operand.target [[.text operand.key op given]]
        (fun e => e.kind = operand.target ∧ operand.holds op value e.data = true)
        (fun e => e.kind = operand.target ∧ operand.Stumbles value e.data) ∧
      Steady [[.text operand.key op given]] := by
  have hone : Means operand.target [[.text operand.key op given]] _ _ :=
    Means.of_all (by simp [Criterion.isWritable, Criterion.key, hkey])
      (by simp [Criterion.isRelational])
  refine ⟨hone.congr (fun e => ?_) (fun e => ?_), .inl ⟨_, rfl⟩⟩
  · rw [Criterion.allHold_singleton, hholds]
    rfl
  · rw [Criterion.allStumble_singleton]
    simp [Criterion.Stumbles, Stumbles, hkind]

/-- `Means` of the alternatives for the names of a node is their comparison. -/
private theorem means_name {operand : Operand} {op : Comparison} {value : Text}
    (hkind : operand.kind = .name) :
    Means operand.target (nameAlternatives op value)
        (fun e => e.kind = operand.target ∧ operand.holds op value e.data = true)
        (fun e => e.kind = operand.target ∧ operand.Stumbles value e.data) ∧
      Steady (nameAlternatives op value) := by
  let criteria := nameKeys.map fun key => Criterion.text key op value
  have hwrite : ∀ c ∈ criteria, c.isWritable = true := by
    intro c hc
    obtain ⟨key, hkey, rfl⟩ := List.mem_map.1 hc
    simp [Criterion.isWritable, Criterion.key, isAttribute_of_mem_nameKeys key hkey]
  have hrelational : ∀ c ∈ criteria, c.isRelational = true := by
    intro c hc
    obtain ⟨key, -, rfl⟩ := List.mem_map.1 hc
    rfl
  have htext : ∀ c ∈ criteria, c.isNumeric = false := by
    intro c hc
    obtain ⟨key, -, rfl⟩ := List.mem_map.1 hc
    rfl
  -- names are compared as texts, so nothing stumbles
  have hnone (data : Entries Value) : ¬operand.Stumbles value data := by
    rintro ⟨hnumeric, -⟩
    simp [hkind] at hnumeric
  by_cases hnegated : op.negated = true
  · -- a negation asks all names at once
    have halternatives : nameAlternatives op value = [criteria] := by
      rw [nameAlternatives, if_pos hnegated]
    rw [halternatives]
    refine ⟨(Means.of_all hwrite hrelational).congr (fun e => ?_) (fun e => ?_), .inl ⟨_, rfl⟩⟩
    · rw [holds, hkind]
      simp [criteria, Criterion.AllHold, hnegated, Criterion.holds]
    · have : ¬Criterion.AllStumble criteria e.data :=
        Criterion.not_allStumble fun c hc => Criterion.not_stumbles (htext c hc) e.data
      simp [this, hnone]
  · -- otherwise each name is an alternative
    have halternatives : nameAlternatives op value = criteria.map fun c => [c] := by
      rw [nameAlternatives, if_neg hnegated]
    rw [halternatives]
    have hany : Means operand.target (criteria.map fun c => [c]) _ _ :=
      Means.of_any (by simp [criteria, nameKeys]) hwrite hrelational (.inr htext)
    refine ⟨hany.congr (fun e => ?_) (fun e => ?_), steady_map_singleton (.inr htext)⟩
    · have hexists : (∃ c ∈ criteria, c.holds e.data = true) ↔
          nameKeys.any (fun key => op.holdsOfText value (Value.present? e.data key)) = true := by
        rw [← List.any_eq_true, List.any_map]
        rfl
      rw [hexists, holds, hkind]
      simp only [if_neg hnegated]
    · have : ¬∃ c ∈ criteria, c.Stumbles e.data := by
        rintro ⟨c, hc, hstumbles⟩
        exact Criterion.not_stumbles (htext c hc) e.data hstumbles
      simp only [this, hnone]

/-- `Operand.resolve` gives alternatives that mean the comparison of the operand with the value. -/
theorem means_resolve {operand : Operand} {conjunctive : Bool} {op : Comparison} {value : Text}
    {alternatives : List (List Criterion)} (hkey : Selector.isAttribute operand.key = true)
    (h : operand.resolve conjunctive op value = .ok alternatives) :
    Means operand.target alternatives
        (fun e => e.kind = operand.target ∧ operand.holds op value e.data = true)
        (fun e => e.kind = operand.target ∧ operand.Stumbles value e.data) ∧
      Steady alternatives := by
  unfold resolve at h
  cases hkind : operand.kind with
  | numeric =>
    simp only [hkind] at h
    -- a number is compared by one criterion
    obtain ⟨c, hc, rfl⟩ := Except.map_eq_ok h
    exact means_numeric (.inl hkind) hkey (Except.mapError_eq_ok hc)
  | rank =>
    simp only [hkind] at h
    obtain ⟨c, hc, rfl⟩ := Except.map_eq_ok h
    exact means_numeric (.inr hkind) hkey (numericCriterion_of_rankCriterion hc)
  | name =>
    simp only [hkind] at h
    split at h
    · cases h
    · cases h
      exact means_name hkind
  | nodeType =>
    simp only [hkind] at h
    split at h
    · cases h
    · rename_i nodeType hlookUp
      cases h
      exact means_text (by simp [hkind]) hkey fun data => by simp [holds, hkind, hlookUp]
  | text =>
    simp only [hkind] at h
    cases h
    exact means_text (by simp [hkind]) hkey fun data => by simp [holds, hkind]

end Operand

/-! ## Phrases -/

/-- `Phrase.resolve` gives alternatives that mean what the phrase says. -/
theorem Phrase.means_resolve {p : Phrase} {conjunctive : Bool} {x : Expression}
    (h : p.resolve conjunctive = .ok x) :
    Means x.target x.alternatives (fun e => p.holds e = true) p.Stumbles ∧
      Steady x.alternatives := by
  cases p with
  | flag negated word =>
    simp only [resolve] at h
    split at h
    · cases h
    · rename_i flag hlookUp
      cases h
      obtain ⟨entry, hentry, rfl⟩ := Entries.exists_mem_of_lookUp? hlookUp
      -- a flag asks for any of its criteria, a comparison for what its operand asks for
      obtain ⟨hne, hwrite, hrelational, hsteady⟩ := criteria_of_mem_flags entry hentry negated
      refine ⟨(Means.of_any hne hwrite hrelational hsteady).congr (fun e => ?_) (fun e => ?_),
        steady_map_singleton hsteady⟩
      · simp [holds, hlookUp]
      · simp [Stumbles, hlookUp]
  | comparison word op value =>
    simp only [resolve] at h
    split at h
    · cases h
    · rename_i operand hlookUp
      obtain ⟨entry, hentry, rfl⟩ := Entries.exists_mem_of_lookUp? hlookUp
      obtain ⟨alternatives, halternatives, rfl⟩ := Except.map_eq_ok h
      have hoperand := Operand.means_resolve (isAttribute_of_mem_operands entry hentry) halternatives
      refine ⟨hoperand.1.congr (fun e => ?_) (fun e => ?_), hoperand.2⟩
      · simp [holds, hlookUp]
      · simp [Stumbles, hlookUp]

end Query

end MeshLens
