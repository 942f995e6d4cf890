import MeshLens.Proofs.Selector.RoundTrip

/-!
# Reading rendered queries

The selector text of a compiled query reads back as the groups that the query stands for: one group
for each alternative of each clause, with one predicate for each criterion. What a value holds does
not matter, since it stands escaped between quotes.

## Key results

- `Criterion.spelling_body`: a criterion is a way of writing its predicate
- `CompiledQuery.parse_render`: the text of a query reads back as its groups
-/

namespace MeshLens

/-- The number that a literal spells, apart from white space around it. -/
def Selector.literalValue (literal : Text) : Binary64 :=
  (numberOfText? (Text.trim literal)).getD .notANumber

/-! ## Criteria -/

namespace Criterion

/-- The attribute that a criterion is about. -/
def key : Criterion → Text
  | truthy key | undefined key | falsy key | text key _ _ | number key _ _ => key

/-- Whether a criterion can be written as a predicate: its attribute is a name, and what it takes for
a number is one. -/
def isWritable (c : Criterion) : Bool :=
  Selector.isAttribute c.key &&
    match c with
    | number _ _ literal => isNumber literal
    | _ => true

/-- What stands between the brackets of a criterion. -/
def body : Criterion → Text
  | truthy key => .char '?' :: key
  | undefined key => .char '^' :: key
  | falsy key => .char '!' :: key
  | text key op value =>
    key ++ .char ' ' :: (op.symbol ++ .char ' ' :: .char '"' :: (escape value ++ [.char '"']))
  | number key op literal => key ++ .char ' ' :: (op.symbol ++ .char ' ' :: literal)

/-- The predicate that a criterion is written as. -/
def predicate : Criterion → Predicate
  | truthy key => .truthy key
  | undefined key => .undefined key
  | falsy key => .falsy key
  | text key op value => .compare key op (.text value)
  | number key op literal => .compare key op (.number (Selector.literalValue literal))

/-- `render` puts the body of a criterion between brackets. -/
theorem render_eq_body (c : Criterion) : c.render = .char '[' :: (c.body ++ [.char ']']) := by
  cases c <;>
    simp [render, body, renderText, renderNumber, Text.ofString, Text.ofList]

/-- `body` is a way of writing the predicate of the criterion. -/
theorem spelling_body {c : Criterion} (h : c.isWritable = true) : c.predicate.Spelling c.body := by
  simp only [isWritable, Bool.and_eq_true] at h
  obtain ⟨hkey, hliteral⟩ := h
  have hnone : ∀ c ∈ ([] : Text), Text.isBlank c = true := List.forall_mem_nil _
  have hspace : ∀ c ∈ [CodePoint.char ' '], Text.isBlank c = true := by decide
  have hflag {p : Predicate} {mark : Text} (hmark : Predicate.Mark c.key p mark) :
      p.Spelling (mark ++ c.key) := by
    have hspelling : Predicate.Spelling p _ := .flag hmark hkey hnone hnone hnone
    rwa [List.append_nil] at hspelling
  -- one case for each way of writing; a flag has no value
  cases c with
  | truthy key => exact hflag .truthy
  | undefined key => exact hflag .undefined
  | falsy key => exact hflag .falsy
  | text key op value =>
    have hspelling : (Predicate.compare key op _).Spelling _ :=
      .comparison hkey (Predicate.valueWritten_escape value) hnone hspace hspace hnone
    rwa [List.append_nil] at hspelling
  | number key op literal =>
    -- white space around the literal is white space around the value
    obtain ⟨p, q, hlayout, hp, hq⟩ := Text.exists_trim_append literal
    obtain ⟨x, hx⟩ := Option.isSome_iff_exists.1 hliteral
    obtain ⟨l, hl, rfl⟩ := numberOfText?_eq_some_iff.1 hx
    have hvalue : Selector.literalValue literal = l.value := by rw [Selector.literalValue, hx]; rfl
    have hspelling : (Predicate.compare key op _).Spelling _ :=
      .comparison hkey (.number hl) hnone hspace
        (List.forall_mem_cons.2 ⟨hspace _ List.mem_cons_self, hp⟩) hq
    have hbehind : .char ' ' :: p ++ (Text.trim literal ++ q) = .char ' ' :: literal := by
      rw [List.cons_append, ← hlayout]
    rw [hbehind] at hspelling
    rw [predicate, hvalue]
    exact hspelling

/-- `renderAll` is a way of writing the predicates of the criteria in a row. -/
theorem spelling_renderAll {criteria : List Criterion} (h : ∀ c ∈ criteria, c.isWritable = true) :
    SelectorGroup.PartsWritten Selector.IsEscaped (criteria.map predicate) [] (renderAll criteria) := by
  have hnone : ∀ c ∈ ([] : Text), Text.isBlank c = true := List.forall_mem_nil _
  -- induction on the criteria, the first of which stands between its brackets
  induction criteria with
  | nil => exact .nil hnone
  | cons c criteria ih =>
    have hbody := spelling_body (h c List.mem_cons_self)
    have hrest := ih fun d hd => h d (List.mem_cons_of_mem _ hd)
    -- the text is the first criterion between brackets, and the rest
    have hshape : renderAll (c :: criteria) =
        .char '[' :: (c.body ++ .char ']' :: renderAll criteria) := by
      rw [renderAll, List.flatMap_cons, render_eq_body, List.cons_append, List.append_assoc]
      rfl
    rw [hshape]
    exact .predicate hnone hbody hrest

end Criterion

/-! ## Groups -/

/-- The group that elements of a kind with several criteria are asked for by. -/
def SelectorGroup.ofCriteria (kind : Kind) (criteria : List Criterion) : SelectorGroup where
  kind := some kind
  predicates := criteria.map Criterion.predicate

/-- `ofCriteria` is written as the word for the kind with the criteria behind it. -/
theorem SelectorGroup.spelling_ofCriteria (kind : Kind) {criteria : List Criterion}
    (h : ∀ c ∈ criteria, c.isWritable = true) :
    (ofCriteria kind criteria).Spelling (kind.word ++ Criterion.renderAll criteria) :=
  .kinded (List.forall_mem_nil _) (.word kind) (Criterion.spelling_renderAll h)

/-! ## Queries -/

namespace CompiledQuery

/-- The alternatives of all clauses, each with the kind of element that its clause is about. -/
def alternatives (q : CompiledQuery) : List (Kind × List Criterion) :=
  q.clauses.flatMap fun c => c.alternatives.map fun criteria => (c.target, criteria)

/-- The groups of the selector that a query stands for. -/
def groups (q : CompiledQuery) : List SelectorGroup :=
  q.alternatives.map fun (kind, criteria) => .ofCriteria kind criteria

/-- Whether a query can be written as a selector: it has a clause, each clause has an alternative,
and each criterion can be written. -/
structure Writable (q : CompiledQuery) : Prop where
  clauses_ne : q.clauses ≠ []
  alternatives_ne : ∀ c ∈ q.clauses, c.alternatives ≠ []
  criteria : ∀ c ∈ q.clauses, ∀ criteria ∈ c.alternatives, ∀ d ∈ criteria, d.isWritable = true

/-- `render` of a query is the texts of its alternatives with commas between. -/
theorem render_eq_join {q : CompiledQuery} (h : ∀ c ∈ q.clauses, c.alternatives ≠ []) :
    q.render = Text.join "," (q.alternatives.map fun (kind, criteria) =>
      kind.word ++ Criterion.renderAll criteria) := by
  have hne : ∀ ps ∈ q.clauses.map fun c => c.alternatives.map fun criteria =>
      c.target.word ++ Criterion.renderAll criteria, ps ≠ [] := by
    intro ps hps
    obtain ⟨c, hc, rfl⟩ := List.mem_map.1 hps
    simpa using h c hc
  have hjoin := Text.join_join "," hne
  rw [List.map_map] at hjoin
  rw [render, alternatives, List.map_flatMap, List.flatMap_def]
  simp only [List.map_map]
  exact hjoin

/-- `Selector.parse` reads the text of a query back as its groups. -/
theorem parse_render {q : CompiledQuery} (h : q.Writable) :
    Selector.parse q.render = .ok { text := q.render, groups := q.groups } := by
  have hne : q.alternatives ≠ [] := by
    obtain ⟨clause, clauses, hq⟩ := List.exists_cons_of_ne_nil h.clauses_ne
    have := h.alternatives_ne clause (by rw [hq]; exact List.mem_cons_self)
    simp [alternatives, hq, this]
  have hspelled : List.Forall₂ SelectorGroup.Spelling q.groups
      (q.alternatives.map fun (kind, criteria) => kind.word ++ Criterion.renderAll criteria) := by
    rw [groups, List.forall₂_map_left_iff, List.forall₂_map_right_iff, List.forall₂_same]
    intro a ha
    obtain ⟨clause, hclause, ha⟩ := List.mem_flatMap.1 ha
    obtain ⟨criteria, hcriteria, rfl⟩ := List.mem_map.1 ha
    exact SelectorGroup.spelling_ofCriteria _ (h.criteria clause hclause criteria hcriteria)
  rw [render_eq_join h.alternatives_ne]
  exact Selector.parse_join (by simpa [groups] using hne) hspelled

end CompiledQuery

end MeshLens
