import MeshLens.Proofs.Query.CompileCorrect
import MeshLens.Proofs.Query.VerbatimValues

/-!
# Operators and their negations

A comparison and its denial are compiled to different things: of the names of a node one has to compare
or all have to differ, and to differ from what is no number is to be there. All the same the elements
that the denial selects are those of the kind that the comparison does not select, whatever data they
have, and one of the two cannot be matched just when the other cannot.

## Key results

- `Criterion.accepts_opposite`: a conjunction of opposite criteria is the opposite of alternatives
- `Query.Operand.opposed_resolve`: what an operand stands for with an operator and with its negation
- `compile_complement`: a denied comparison selects the rest of its kind
-/

namespace MeshLens

/-! ## Opposite criteria -/

/-- Whether an operator denies the relation that another one states. -/
structure Comparison.Denies (neg op : Comparison) : Prop where
  relation : neg.relation = op.relation
  negated : neg.negated = true
  stated : op.negated = false

namespace Criterion

/-- Whether testing a criterion always comes to the opposite of testing another one, or to the same
fault. -/
def Opposite (c c' : Criterion) : Prop :=
  ∀ data, c'.predicate.holds data = (c.predicate.holds data).map fun b => !b

/-- `Opposite` holds of asking whether an attribute counts as false or as true. -/
theorem opposite_falsy (key : Text) : Opposite (.falsy key) (.truthy key) := by
  intro data
  simp only [predicate, Predicate.holds, Except.map, Bool.not_not]

/-- `holds` of a denial is the opposite of `holds` of the relation; the relation does not hold of a
missing attribute. -/
theorem holds_denied {op neg : Comparison} (h : neg.Denies op) (key : Text) (given : Comparand)
    (data : Entries Value) :
    (Predicate.compare key neg given).holds data =
      ((Predicate.compare key op given).holds data).map fun b => !b := by
  simp only [Predicate.holds, h.relation, h.negated, h.stated]
  cases Value.present? data key with
  | none => rfl
  | some v =>
    simp only
    cases v.standsIn op.relation given with
    | error fault => rfl
    | ok b => cases b <;> rfl

section Denied

variable {op neg : Comparison} (h : neg.Denies op)

include h

/-- `Opposite` holds of comparing with a text by an operator and by its denial. -/
theorem opposite_text (key value : Text) : Opposite (.text key op value) (.text key neg value) :=
  fun data => holds_denied h key _ data

/-- `Opposite` holds of comparing with a number by an operator and by its denial. -/
theorem opposite_number (key literal : Text) :
    Opposite (.number key op literal) (.number key neg literal) :=
  fun data => holds_denied h key _ data

end Denied

/-- `accepts` of a conjunction of opposite criteria is the opposite of trying the criteria as
alternatives. -/
theorem accepts_opposite {cs cs' : List Criterion} (h : List.Forall₂ Opposite cs cs') (e : Element) :
    (SelectorGroup.ofCriteria e.kind cs').accepts e =
      (SelectorGroup.anyAccepts (cs.map fun c => .ofCriteria e.kind [c]) e).map fun b => !b := by
  rw [SelectorGroup.accepts_ofCriteria]
  -- induction on the criteria, tested from the front on both sides
  induction h with
  | nil => rfl
  | @cons c c' cs cs' hc _ ih =>
    rw [List.map_cons, List.map_cons, Predicate.allHold_cons, SelectorGroup.anyAccepts_cons,
      SelectorGroup.accepts_ofCriteria, List.map_singleton,
      Predicate.allHold_singleton, hc e.data, ih]
    -- the first alternative decides when it holds, and so does the first of the opposite criteria
    cases c.predicate.holds e.data with
    | error fault => rfl
    | ok b => cases b <;> rfl

end Criterion

/-- Whether the first of two lists of alternatives is about single criteria, and the second one is the
conjunction of the opposite ones. -/
def Opposed (alternatives denied : List (List Criterion)) : Prop :=
  ∃ cs cs', alternatives = cs.map (fun c => [c]) ∧ denied = [cs'] ∧
    List.Forall₂ Criterion.Opposite cs cs'

/-- `Opposed` holds of two criteria that are opposite. -/
theorem opposed_singleton {c c' : Criterion} (h : c.Opposite c') : Opposed [[c]] [[c']] :=
  ⟨[c], [c'], rfl, rfl, .cons h .nil⟩

namespace Query

/-! ## Resolving -/

section Denied

variable {op neg : Comparison} {key value : Text}

/-- `numericCriterion` refuses relations on parts of texts. -/
theorem numericCriterion_of_isPartial (h : op.relation.isPartial = true) :
    numericCriterion key op value = .error (.notForNumbers op.symbol) := by
  cases op with
  | contains | notContains | startsWith | notStartsWith | endsWith | notEndsWith => rfl
  | _ => exact absurd h (by decide)

/-- `Denies` holds of equality, and otherwise of relations on parts of texts only. -/
theorem eq_or_isPartial_of_denies (h : neg.Denies op) :
    (op = .eq ∧ neg = .ne) ∨ op.relation.isPartial = true := by
  obtain ⟨hrelation, hnegated, hstated⟩ := h
  rw [← hrelation]
  cases neg with
  | ne =>
    refine .inl ⟨?_, rfl⟩
    cases op with
    | eq => rfl
    | ne => exact absurd hstated (by decide)
    | _ => exact absurd hrelation (by decide)
  | notContains | notStartsWith | notEndsWith => exact .inr rfl
  | _ => exact absurd hnegated (by decide)

/-- `numericCriterion` of an operator and of its denial are opposite. -/
theorem opposite_numericCriterion (h : neg.Denies op) {c c' : Criterion}
    (hc : numericCriterion key op value = .ok c)
    (hc' : numericCriterion key neg value = .ok c') : c.Opposite c' := by
  rcases eq_or_isPartial_of_denies h with ⟨rfl, rfl⟩ | hpartial
  · cases hc
    cases hc'
    -- a number is compared, and what is no number is not there
    cases isNumber value with
    | true => exact Criterion.opposite_number h key value
    | false => exact Criterion.opposite_falsy key
  · rw [numericCriterion_of_isPartial hpartial] at hc
    cases hc

/-- `rankCriterion` of an operator and of its denial are opposite. -/
theorem opposite_rankCriterion (h : neg.Denies op) {c c' : Criterion}
    (hc : rankCriterion key op value = .ok c) (hc' : rankCriterion key neg value = .ok c') :
    c.Opposite c' := by
  unfold rankCriterion at hc hc'
  cases hrank : isRank value with
  | error fault =>
    rw [hrank] at hc
    cases hc
  | ok isRank =>
    rw [hrank] at hc hc'
    cases isRank with
    | false => cases hc
    | true => exact opposite_numericCriterion h (Except.mapError_eq_ok hc) (Except.mapError_eq_ok hc')

/-- `nameAlternatives` of an operator and of its denial are opposed: one name compares with the
value, or all differ from it. -/
theorem opposed_nameAlternatives (h : neg.Denies op) (value : Text) :
    Opposed (nameAlternatives op value) (nameAlternatives neg value) := by
  refine ⟨nameKeys.map fun key => .text key op value, nameKeys.map fun key => .text key neg value,
    ?_, ?_, ?_⟩
  · simp only [nameAlternatives, h.stated, Bool.false_eq_true, if_false]
  · simp only [nameAlternatives, h.negated, if_true]
  · rw [List.forall₂_map_left_iff, List.forall₂_map_right_iff, List.forall₂_same]
    exact fun key _ => Criterion.opposite_text h key value

/-- `Operand.resolve` of an operator and of its denial gives opposed alternatives. -/
theorem Operand.opposed_resolve {operand : Operand} (h : neg.Denies op)
    {alternatives denied : List (List Criterion)}
    (hop : operand.resolve false op value = .ok alternatives)
    (hneg : operand.resolve false neg value = .ok denied) : Opposed alternatives denied := by
  unfold Operand.resolve at hop hneg
  cases hkind : operand.kind with
  | text =>
    simp only [hkind] at hop hneg
    cases hop
    cases hneg
    exact opposed_singleton (Criterion.opposite_text h operand.key value)
  | numeric =>
    simp only [hkind] at hop hneg
    obtain ⟨c, hc, rfl⟩ := Except.map_eq_ok hop
    obtain ⟨c', hc', rfl⟩ := Except.map_eq_ok hneg
    exact opposed_singleton
      (opposite_numericCriterion h (Except.mapError_eq_ok hc) (Except.mapError_eq_ok hc'))
  | rank =>
    simp only [hkind] at hop hneg
    obtain ⟨c, hc, rfl⟩ := Except.map_eq_ok hop
    obtain ⟨c', hc', rfl⟩ := Except.map_eq_ok hneg
    exact opposed_singleton (opposite_rankCriterion h hc hc')
  | name =>
    simp only [hkind, Bool.false_eq_true, if_false] at hop hneg
    cases hop
    cases hneg
    exact opposed_nameAlternatives h value
  | nodeType =>
    simp only [hkind] at hop hneg
    -- the same node type is looked up on both sides
    cases hlookUp : lookUp? nodeTypes value with
    | none =>
      rw [hlookUp] at hop
      cases hop
    | some nodeType =>
      rw [hlookUp] at hop hneg
      cases hop
      cases hneg
      exact opposed_singleton (Criterion.opposite_text h operand.key nodeType)

end Denied

end Query

/-! ## Compiled comparisons -/

open Query

/-- `compile` of a comparison with a value that is taken as it stands gives one clause, and its
selector is that of the clause. -/
theorem parse_of_compile_comparison {word s value : Text} {operand : Operand} {op : Comparison}
    {flags : DisplayFlags} {c : Compilation} {q : CompiledQuery}
    (hoperand : operands.get? word = some operand) (hs : Spells s word)
    (hvalue : IsVerbatim value)
    (hc : compile (Text.join " " [s, op.symbol, value]) flags = .ok c) (hq : c.query? = some q) :
    ∃ alternatives, operand.resolve false op (givenValue value) = .ok alternatives ∧
      Selector.parse q.render = .ok
        { text := q.render, groups := alternatives.map (.ofCriteria operand.target) } := by
  have hread := read_of_compile hc hq
  have hparse := CompiledQuery.parse_of_read hread
  rw [CompiledQuery.read_comparison hoperand hs hvalue op] at hread
  obtain ⟨alternatives, hresolve, rfl⟩ := Except.map_eq_ok hread
  refine ⟨alternatives, hresolve, ?_⟩
  rw [hparse]
  simp [CompiledQuery.groups, CompiledQuery.alternatives, Function.comp_def]

/-- A comparison and its denial select opposite elements of the kind that the operand is about, or
matching fails for both. Elements of the other kind are selected by neither. -/
theorem compile_complement {word s value : Text} {operand : Operand} {op neg : Comparison}
    {flags flags' : DisplayFlags} {c c' : Compilation} {q q' : CompiledQuery}
    (hoperand : operands.get? word = some operand) (hs : Spells s word) (hneg : neg.Denies op)
    (hvalue : IsVerbatim value)
    (hc : compile (Text.join " " [s, op.symbol, value]) flags = .ok c) (hq : c.query? = some q)
    (hc' : compile (Text.join " " [s, neg.symbol, value]) flags' = .ok c')
    (hq' : c'.query? = some q') :
    ∃ stated denied, Selector.parse q.render = .ok stated ∧ Selector.parse q'.render = .ok denied ∧
      ∀ e : Element,
        (e.kind = operand.target →
          denied.accepts e = (stated.accepts e).map fun b => !b) ∧
        (e.kind ≠ operand.target → stated.accepts e = .ok false ∧ denied.accepts e = .ok false) := by
  obtain ⟨alternatives, hop, hparse⟩ := parse_of_compile_comparison hoperand hs hvalue hc hq
  obtain ⟨_, hop', hparse'⟩ := parse_of_compile_comparison hoperand hs hvalue hc' hq'
  refine ⟨_, _, hparse, hparse', fun e => ⟨fun hkind => ?_, fun hkind => ?_⟩⟩
  · -- the criteria are opposite, so it is alternatives against one conjunction
    obtain ⟨cs, cs', rfl, rfl, hopposite⟩ := Operand.opposed_resolve hneg hop hop'
    rw [← hkind, Selector.accepts, Selector.accepts, List.map_singleton,
      SelectorGroup.anyAccepts_singleton, List.map_map]
    exact Criterion.accepts_opposite hopposite e
  · exact ⟨SelectorGroup.anyAccepts_of_ne hkind _, SelectorGroup.anyAccepts_of_ne hkind _⟩

/-- Of a node with one name that holds two words, another name that is no text, and none besides, the
comparison of the names says that they hold the words and the denial that they do not. -/
theorem compile_complement_names :
    let e : Element := {
      id := "n"
      kind := .node
      data := [("app", .text "see a b*"), ("service", .list [.null])] }
    ∃ stated denied,
      Selector.parse ("node[aggregateValue *= \"a b*\"],node[app *= \"a b*\"]," ++
        "node[service *= \"a b*\"],node[workload *= \"a b*\"]") = .ok stated ∧
      Selector.parse ("node[aggregateValue !*= \"a b*\"][app !*= \"a b*\"]" ++
        "[service !*= \"a b*\"][workload !*= \"a b*\"]") = .ok denied ∧
      stated.accepts e = .ok true ∧ denied.accepts e = .ok false := by
  intro e
  let value : Text := " a  b* "
  let q : CompiledQuery := ⟨[⟨.node, nameKeys.map fun key => [.text key .contains "a b*"]⟩]⟩
  let q' : CompiledQuery := ⟨[⟨.node, [nameKeys.map fun key => .text key .notContains "a b*"]⟩]⟩
  have hstated : (compile (Text.join " " ["Name", Comparison.contains.symbol, value])
      {}).toOption.bind Compilation.query? = some q := by
    decide +kernel
  have hdenied : (compile (Text.join " " ["Name", Comparison.notContains.symbol, value])
      {}).toOption.bind Compilation.query? = some q' := by
    decide +kernel
  obtain ⟨c, hc, hq⟩ := exists_compilation hstated
  obtain ⟨c', hc', hq'⟩ := exists_compilation hdenied
  have hoperand : operands.get? "name" = some (nodeOperand "aggregateValue" .name) := by
    decide +kernel
  have hs : Spells "Name" "name" := by decide
  have hdenies : Comparison.Denies .notContains .contains := ⟨rfl, rfl, rfl⟩
  have hvalue : IsVerbatim value := ⟨by decide +kernel, by decide +kernel⟩
  obtain ⟨stated, denied, hparse, hparse', hselects⟩ :=
    compile_complement hoperand hs hdenies hvalue hc hq hc' hq'
  -- matching the first selector is run, and the second one then does the opposite
  have hrun : (Selector.parse q.render).map (·.accepts e) = .ok (.ok true) := by
    decide +kernel
  rw [hparse] at hrun
  have haccepts : stated.accepts e = .ok true := Except.ok.inj hrun
  refine ⟨stated, denied, (congrArg Selector.parse ?_).trans hparse,
    (congrArg Selector.parse ?_).trans hparse', haccepts, ?_⟩
  · decide +kernel
  · decide +kernel
  · rw [(hselects e).1 rfl, haccepts]
    rfl

end MeshLens
