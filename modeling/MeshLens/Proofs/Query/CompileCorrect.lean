import Mathlib.Data.List.Forall2
import MeshLens.Proofs.Query.ResolveMeaning

/-!
# What compiled queries select

The selector of a compiled query is read without complaint, and an element matches it exactly when
the query says so of the element. The one exception are elements that hold a text which looks like a
number and cannot be read as one: where such a text is come upon, matching fails.

## Key results

- `Clause.means_read`: the clause that a text is read as means what the text says
- `compile_selects_iff`: the selector of a compiled query selects what the text of the query says
-/

namespace MeshLens

open Query

/-! ## Expressions and clauses -/

/-- `Expression.read` gives alternatives that mean what the text says. -/
theorem Query.Expression.means_read {conjunctive : Bool} {s : Text} {x : Expression}
    (h : (Expression.read conjunctive s).result = .ok x) :
    Means x.target x.alternatives (Holds · s) (HoldsStumbles · s) ∧ Steady x.alternatives := by
  unfold Expression.read at h
  split at h
  · cases h
  · rename_i p hp
    obtain ⟨hmeans, hsteady⟩ := Phrase.means_resolve h
    refine ⟨hmeans.congr (fun e => ?_) (fun e => ?_), hsteady⟩
    · simp [Holds, hp]
    · simp [HoldsStumbles, hp]

namespace Clause

/-- `narrow` multiplies a clause by the alternatives of an expression of its kind. -/
theorem eq_of_narrow {c c' : Clause} {x : Expression} (h : c.narrow x = .ok c') :
    x.target = c.target ∧ c' = { c with alternatives := combine c.alternatives x.alternatives } := by
  unfold narrow at h
  split at h
  · rename_i hkind
    exact ⟨hkind, (Except.ok.inj h).symm⟩
  · cases h

/-- `readMore` multiplies a clause by alternatives that mean the further expressions. -/
theorem readMore_spec {c c' : Clause} {rest : List Text} (h : (readMore c rest).result = .ok c') :
    ∃ alternatives, c' = { c with alternatives := combine c.alternatives alternatives } ∧
      Means c.target alternatives (fun e => e.kind = c.target ∧ ∀ s ∈ rest, Holds e s)
        (fun e => e.kind = c.target ∧ ComesUpon (Holds e) (HoldsStumbles e) rest) := by
  -- induction on the further expressions, the product being taken from the front
  induction rest generalizing c with
  | nil =>
    rw [readMore] at h
    cases h
    refine ⟨[[]], by rw [combine_nil_right], ?_⟩
    have hnone : Means c'.target [[]] _ _ := Means.of_all (by simp) (by simp)
    exact hnone.congr (fun e => by simp [Criterion.AllHold])
      (fun e => by simp [Criterion.AllStumble, ComesUpon])
  | cons s rest ih =>
    simp only [readMore] at h
    split at h
    · cases h
    · rename_i narrowed hnarrow
      obtain ⟨x, hx, hnarrowed⟩ := Except.bind_eq_ok hnarrow
      obtain ⟨hkind, rfl⟩ := eq_of_narrow hnarrowed
      obtain ⟨hmeans, hsteady⟩ := Expression.means_read hx
      rw [hkind] at hmeans
      -- the alternatives of the rest come behind those of this expression
      obtain ⟨alternatives, hc', hrest⟩ := ih h
      refine ⟨combine x.alternatives alternatives, by rw [hc', combine_assoc], ?_⟩
      refine (hmeans.combine hrest hsteady).congr (fun e => ?_) (fun e => ?_)
      · -- what holds is of the kind of the clause
        rw [List.forall_mem_cons]
        constructor
        · rintro ⟨hkind, hs, hall⟩
          exact ⟨hs, hkind, hall⟩
        · rintro ⟨hs, hkind, hall⟩
          exact ⟨hkind, hs, hall⟩
      · -- and so is what stumbles
        constructor
        · rintro ⟨hkind, hs | ⟨hs, hrest⟩⟩
          · exact .inl hs
          · exact .inr ⟨hs, hkind, hrest⟩
        · rintro (hs | ⟨hs, hkind, hrest⟩)
          · exact ⟨((hmeans.stumbles_iff e).1 hs).1, .inl hs⟩
          · exact ⟨hkind, .inr ⟨hs, hrest⟩⟩

/-- `Clause.read` gives a clause that means what the text says. -/
theorem means_read {s : Text} {c : Clause} (h : (Clause.read s).result = .ok c) :
    Means c.target c.alternatives (ClauseHolds · s) (ClauseStumbles · s) := by
  simp only [Clause.read] at h
  split at h
  · cases h
  · rename_i x hx
    obtain ⟨hmeans, hsteady⟩ := Expression.means_read hx
    obtain ⟨alternatives, rfl, hrest⟩ := readMore_spec h
    have hboth : Means x.target (combine x.alternatives alternatives) _ _ :=
      hmeans.combine hrest hsteady
    refine hboth.congr (fun e => ?_) (fun e => ?_)
    · -- the first expression fixes the kind, and the others have to agree
      rw [ClauseHolds, Text.splitOn, List.forall_mem_cons]
      constructor
      · rintro ⟨hs, hall⟩
        exact ⟨hs, ((hmeans.holds_iff e).1 hs).1, hall⟩
      · rintro ⟨hs, -, hall⟩
        exact ⟨hs, hall⟩
    · rw [ClauseStumbles, Text.splitOn, ComesUpon]
      constructor
      · rintro (hs | ⟨hs, hstumbles⟩)
        · exact .inl hs
        · exact .inr ⟨hs, ((hmeans.holds_iff e).1 hs).1, hstumbles⟩
      · rintro (hs | ⟨hs, -, hstumbles⟩)
        · exact .inl hs
        · exact .inr ⟨hs, hstumbles⟩

end Clause

/-- `readClauses` gives clauses that mean what the texts say, one by one. -/
theorem CompiledQuery.means_readClauses {pieces : List Text} {clauses : List Clause}
    (h : (readClauses pieces).result = .ok clauses) :
    List.Forall₂ (fun s c => Means c.target c.alternatives (ClauseHolds · s) (ClauseStumbles · s))
      pieces clauses := by
  induction pieces generalizing clauses with
  | nil =>
    rw [readClauses] at h
    cases h
    exact .nil
  | cons s rest ih =>
    simp only [readClauses] at h
    split at h
    · cases h
    · rename_i c hc
      obtain ⟨others, hothers, rfl⟩ := Except.map_eq_ok h
      exact .cons (Clause.means_read hc) (ih hothers)

/-! ## Matching -/

/-- `Verdict` of trying the groups of alternatives: whether what they mean holds. -/
theorem Means.verdict {kind : Kind} {alternatives : List (List Criterion)}
    {holds stumbles : Element → Prop} (h : Means kind alternatives holds stumbles) {e : Element}
    (hfit : ∀ entry ∈ e.data, entry.2.fits = true) :
    Verdict (SelectorGroup.anyAccepts (alternatives.map (SelectorGroup.ofCriteria kind)) e)
      (holds e) (stumbles e) := by
  rw [h.holds_iff, h.stumbles_iff]
  by_cases hkind : e.kind = kind
  · subst hkind
    -- the groups ask for the kind of the element, so that only the criteria matter
    have hgroups : ∀ criteria ∈ alternatives,
        Verdict ((SelectorGroup.ofCriteria e.kind criteria).accepts e)
          (Criterion.AllHold criteria e.data) (Criterion.AllStumble criteria e.data) := by
      intro criteria hcriteria
      rw [SelectorGroup.accepts_ofCriteria]
      exact Criterion.verdict_allHold (h.relational criteria hcriteria) hfit
    simpa [AnyHolds, AnyStumbles] using verdict_anyAccepts hgroups
  · -- no group asks for elements of this kind
    rw [SelectorGroup.anyAccepts_of_ne hkind]
    simpa [hkind] using Verdict.of_ok (Eq.refl false)

namespace CompiledQuery

/-- `Verdict` of trying the groups of clauses: whether one of their texts holds. -/
theorem verdict_of_forall₂ {pieces : List Text} {clauses : List Clause}
    (h : List.Forall₂ (fun s c => Means c.target c.alternatives (ClauseHolds · s)
      (ClauseStumbles · s)) pieces clauses) {e : Element}
    (hfit : ∀ entry ∈ e.data, entry.2.fits = true) :
    Verdict (SelectorGroup.anyAccepts (CompiledQuery.mk clauses).groups e)
      (∃ s ∈ pieces, ClauseHolds e s)
      (ComesUpon (fun s => ¬ClauseHolds e s) (ClauseStumbles e) pieces) := by
  -- induction on the clauses, the first of which is tried before all others
  induction h with
  | nil => exact ⟨fun _ => ⟨false, rfl, by simp⟩, False.elim⟩
  | @cons s c pieces clauses hclause _ ih =>
    -- the groups of the first clause are tried before all others
    have hgroups : (CompiledQuery.mk (c :: clauses)).groups =
        c.alternatives.map (SelectorGroup.ofCriteria c.target) ++
          (CompiledQuery.mk clauses).groups := by
      simp [groups, alternatives, Function.comp_def]
    rw [hgroups, SelectorGroup.anyAccepts_append]
    simp only [List.mem_cons, exists_eq_or_imp]
    exact (hclause.verdict hfit).either ih

/-- `Writable` holds of a query that was read. -/
theorem writable_of_forall₂ {pieces : List Text} {clauses : List Clause}
    (h : List.Forall₂ (fun s c => Means c.target c.alternatives (ClauseHolds · s)
      (ClauseStumbles · s)) pieces clauses) (hne : pieces ≠ []) :
    (CompiledQuery.mk clauses).Writable := by
  -- that a clause means something includes that it can be written
  have hclauses : ∀ c ∈ clauses, ∃ s, Means c.target c.alternatives (ClauseHolds · s)
      (ClauseStumbles · s) := by
    clear hne
    induction h with
    | nil => simp
    | cons hclause _ ih => exact List.forall_mem_cons.2 ⟨⟨_, hclause⟩, ih⟩
  constructor
  · rintro rfl
    cases h
    exact hne rfl
  · intro c hc
    obtain ⟨s, hmeans⟩ := hclauses c hc
    exact hmeans.ne_nil
  · intro c hc
    obtain ⟨s, hmeans⟩ := hclauses c hc
    exact hmeans.writable

end CompiledQuery

/-! ## Readable data -/

/-- `Criterion.Stumbles` at no element whose texts can all be read where they look like numbers. -/
theorem Criterion.not_stumbles_of_readable {e : Element}
    (h : ∀ entry ∈ e.data, ¬entry.2.IsUnreadable) (c : Criterion) : ¬c.Stumbles e.data := by
  cases c with
  | number key op literal =>
    rintro ⟨v, hv, hunreadable⟩
    obtain ⟨entry, hentry, rfl⟩ := Entries.exists_mem_of_get? (Value.get?_of_present? hv)
    exact h entry hentry hunreadable
  | _ => exact id

/-- `Query.Stumbles` at no element whose texts can all be read where they look like numbers. -/
theorem Query.not_stumbles_of_readable {e : Element}
    (h : ∀ entry ∈ e.data, ¬entry.2.IsUnreadable) (s : Text) : ¬Query.Stumbles s e := by
  have hphrase (p : Phrase) : ¬p.Stumbles e := by
    cases p with
    | flag negated word =>
      rintro ⟨flag, -, -, c, -, hstumbles⟩
      exact Criterion.not_stumbles_of_readable h c hstumbles
    | comparison word op value =>
      rintro ⟨operand, -, -, -, -, v, hv, hunreadable⟩
      obtain ⟨entry, hentry, rfl⟩ := Entries.exists_mem_of_get? (Value.get?_of_present? hv)
      exact h entry hentry hunreadable
  -- what stumbles nowhere is come upon in no clause and in no expression
  refine not_comesUpon fun clause _ => not_comesUpon fun expression _ => ?_
  rintro ⟨p, -, hstumbles⟩
  exact hphrase p hstumbles

/-! ## Compiled queries -/

/-- `query?` of what a text compiles to is that of a compilation. -/
theorem exists_compilation {text : Text} {flags : DisplayFlags} {q : CompiledQuery}
    (h : (compile text flags).toOption.bind Compilation.query? = some q) :
    ∃ c, compile text flags = .ok c ∧ c.query? = some q := by
  cases hc : compile text flags with
  | error fault => rw [hc] at h; cases h
  | ok c => rw [hc] at h; exact ⟨c, rfl, h⟩

/-- `compile` reads a query from the canonical text. -/
theorem read_of_compile {text : Text} {flags : DisplayFlags} {c : Compilation} {q : CompiledQuery}
    (hc : compile text flags = .ok c) (hq : c.query? = some q) :
    (CompiledQuery.read (Query.canonical text)).result = .ok q := by
  unfold compile at hc
  split at hc
  · cases hc
    cases hq
  · dsimp only at hc
    split at hc
    · rename_i query hread
      cases hc
      cases hq
      exact hread
    · cases hc
      cases hq
    · cases hc

/-- `CompiledQuery.read` gives clauses that mean what the clauses of the text say. -/
theorem CompiledQuery.means_read {s : Text} {q : CompiledQuery}
    (h : (CompiledQuery.read s).result = .ok q) :
    List.Forall₂ (fun s c => Means c.target c.alternatives (ClauseHolds · s) (ClauseStumbles · s))
      (Text.splitOn " OR " s) q.clauses := by
  obtain ⟨clauses, hclauses, rfl⟩ := Except.map_eq_ok h
  exact means_readClauses hclauses

/-- `Selector.parse` reads the selector of a query that was read as its groups. -/
theorem CompiledQuery.parse_of_read {s : Text} {q : CompiledQuery}
    (h : (CompiledQuery.read s).result = .ok q) :
    Selector.parse q.render = .ok { text := q.render, groups := q.groups } := by
  have hpieces : Text.splitOn " OR " s ≠ [] := List.cons_ne_nil _ _
  exact parse_render (writable_of_forall₂ (means_read h) hpieces)

/-- The selector of a compiled query is read without complaint, and matching it answers whether the
text of the query selects an element, unless a text that cannot be read as a number is come upon:
then matching fails. -/
theorem compile_selects_iff {text : Text} {flags : DisplayFlags} {c : Compilation}
    {q : CompiledQuery} (hc : compile text flags = .ok c) (hq : c.query? = some q) :
    ∃ s, Selector.parse q.render = .ok s ∧
      ∀ e : Element, (∀ entry ∈ e.data, entry.2.fits = true) →
        (¬Query.Stumbles (Query.canonical text) e →
          ∃ b, s.accepts e = .ok b ∧ (b = true ↔ Query.Selects (Query.canonical text) e)) ∧
        (Query.Stumbles (Query.canonical text) e →
          ∃ fault, s.accepts e = .error (.unreadable fault)) := by
  have hread := read_of_compile hc hq
  have hmeans := CompiledQuery.means_read hread
  refine ⟨_, CompiledQuery.parse_of_read hread, fun e hfit => ?_⟩
  have hverdict := CompiledQuery.verdict_of_forall₂ hmeans hfit
  exact ⟨hverdict.answer, hverdict.fault⟩

/-- A value may hold whatever a selector gives a meaning to. -/
theorem compile_selects_iff_delimiters :
    ∃ s, Selector.parse "node[app = \"a],[b\"][!httpIn]" = .ok s ∧
      s.accepts { id := "n", kind := .node, data := [("app", .text "a],[b")] } = .ok true := by
  have hcompile : (compile "app = a],[b and httpin = x" {}).toOption.bind Compilation.query? =
      some ⟨[⟨.node, [[.text "app" .eq "a],[b", .falsy "httpIn"]]⟩]⟩ := by
    decide +kernel
  obtain ⟨c, hc, hq⟩ := exists_compilation hcompile
  obtain ⟨s, hs, hselects⟩ := compile_selects_iff hc hq
  -- the only attribute of the node is no integer, and looks like no number
  have hfit : ∀ entry ∈ [((("app" : Text), Value.text "a],[b"))], entry.2.fits = true := by
    decide +kernel
  have hreadable : ∀ entry ∈ [((("app" : Text), Value.text "a],[b"))], ¬entry.2.IsUnreadable := by
    simp only [List.forall_mem_singleton]
    rintro ⟨t, ht, hnumber, -⟩
    cases ht
    exact absurd hnumber (by decide +kernel)
  let e : Element := { id := "n", kind := .node, data := [("app", .text "a],[b")] }
  obtain ⟨b, hb, hiff⟩ := (hselects e hfit).1 (not_stumbles_of_readable hreadable _)
  refine ⟨s, hs, ?_⟩
  have hholds : Query.Selects (Query.canonical "app = a],[b and httpin = x") e := by
    -- the text says that the app is the given one and that there is no rate of requests
    have hcanonical : Query.canonical "app = a],[b and httpin = x" =
        "app = a],[b AND httpin = x" := by
      decide +kernel
    have hpieces : Text.splitOn " AND " "app = a],[b AND httpin = x" =
        [Text.ofString "app = a],[b", Text.ofString "httpin = x"] := by
      decide +kernel
    rw [hcanonical]
    refine ⟨"app = a],[b AND httpin = x", by decide +kernel, ?_⟩
    rw [ClauseHolds, hpieces, List.forall_mem_cons, List.forall_mem_singleton]
    exact ⟨⟨.comparison "app" .eq "a],[b", by decide +kernel, by decide +kernel⟩,
      ⟨.comparison "httpin" .eq "x", by decide +kernel, by decide +kernel⟩⟩
  rw [hb, hiff.2 hholds]

/-- A node whose rate of requests has an information separator behind it. -/
def separatedNode : Element where
  id := "n"
  kind := .node
  data := [("httpIn", .text ['5', CodePoint.ofNat 28]), ("app", .text "x")]

/-- A query of which one clause holds, and whose selector cannot be matched all the same. -/
theorem compile_selects_not_separated :
    ∃ c q s, compile "httpin > 3 or app = x" {} = .ok c ∧ c.query? = some q ∧
      Selector.parse q.render = .ok s ∧
      Query.Selects (Query.canonical "httpin > 3 or app = x") separatedNode ∧
      s.accepts separatedNode = .error (.unreadable ⟨['5', CodePoint.ofNat 28]⟩) := by
  have hcompile : (compile "httpin > 3 or app = x" {}).toOption.bind Compilation.query? =
      some ⟨[⟨.node, [[.number "httpIn" .gt ['3']]]⟩, ⟨.node, [[.text "app" .eq ['x']]]⟩]⟩ := by
    decide +kernel
  obtain ⟨c, hc, hq⟩ := exists_compilation hcompile
  refine ⟨c, _, ⟨_, [.ofCriteria .node [.number "httpIn" .gt ['3']],
    .ofCriteria .node [.text "app" .eq ['x']]]⟩, hc, hq, CompiledQuery.parse_render ?_, ?_, ?_⟩
  · exact ⟨by simp, by simp, by decide +kernel⟩
  · have hcanonical : Query.canonical "httpin > 3 or app = x" = "httpin > 3 OR app = x" := by
      decide +kernel
    rw [hcanonical]
    -- the second clause holds
    refine ⟨"app = x", by decide +kernel, ?_⟩
    intro s hs
    have hone : Text.splitOn " AND " "app = x" = [Text.ofString "app = x"] := by decide +kernel
    rw [hone, List.mem_singleton] at hs
    subst hs
    exact ⟨.comparison "app" .eq ['x'], by decide +kernel, by decide +kernel⟩
  · decide +kernel

end MeshLens
