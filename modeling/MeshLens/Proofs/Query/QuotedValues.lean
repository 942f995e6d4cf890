import MeshLens.Proofs.Query.CompileCorrect
import MeshLens.Proofs.Query.RespelledSpans
import MeshLens.Proofs.Query.VerbatimValues

/-!
# Values between quotes

Quotes around a value are only looked at once a query has been made canonical, cut at its conjunctions and
searched for its operator, and none of this heeds them. So a value between quotes is taken as it stands when
there is nothing in it that these steps look for, and otherwise it is not: its spaces and words come out
changed, or the query is cut within it, or an operator is found in it.

## Key results

- `canonical_quoted`: the canonical text of a comparison with a value between quotes
- `isLiteral_iff`: when a value is left as it is
- `compile_quoted`: which values between quotes are taken as they stand, and what is selected then
-/

namespace MeshLens

namespace Query

/-! ## Spaces -/

/-- `collapse` leaves a text without two spaces in a row, and makes any other text shorter. -/
theorem collapse_cases (s : Text) :
    (¬("  " : Text) <:+: s ∧ collapse s = s) ∨
      (("  " : Text) <:+: s ∧ (collapse s).length < s.length) := by
  induction s with
  | nil => exact .inl ⟨by decide, rfl⟩
  | cons c s ih =>
    rw [List.infix_cons_iff]
    -- two spaces at the start are made one, which is where the text gets shorter
    by_cases hspaces : c = .char ' ' ∧ s.head? = some (.char ' ')
    · obtain ⟨rfl, hhead⟩ := hspaces
      obtain ⟨rest, rfl⟩ := List.head?_eq_some_iff.1 hhead
      have hle : (collapse (.char ' ' :: rest)).length ≤ (.char ' ' :: rest).length := by
        rcases ih with ⟨-, hsame⟩ | ⟨-, hshorter⟩
        · exact Nat.le_of_eq (congrArg List.length hsame)
        · exact Nat.le_of_lt hshorter
      rw [collapse_space, if_pos hhead]
      exact .inr ⟨.inl ⟨rest, rfl⟩, Nat.lt_succ_of_le hle⟩
    · -- elsewhere the first code point stays, and the rest decides
      have hstep : collapse (c :: s) = c :: collapse s := by
        rw [collapse]
        exact if_neg hspaces
      rw [hstep]
      rcases ih with ⟨hnone, hsame⟩ | ⟨hinside, hshorter⟩
      · refine .inl ⟨?_, by rw [hsame]⟩
        rintro (⟨rest, hrest⟩ | hinside)
        · obtain ⟨rfl, rfl⟩ := List.cons.inj hrest
          exact hspaces ⟨rfl, rfl⟩
        · exact hnone hinside
      · exact .inr ⟨.inr hinside, Nat.succ_lt_succ hshorter⟩

/-! ## The canonical text -/

/-- A comparison with a value between quotes. -/
def quoted (s value : Text) : Text :=
  s ++ " = \"" ++ value ++ "\""

/-- What a value between quotes becomes in the canonical text. -/
def settled (value : Text) : Text :=
  respellings.foldl (fun s r => r.apply s) (collapse value)

/-- `quoted` with the two quotes set apart. -/
theorem quoted_eq (s value : Text) :
    quoted s value = (s ++ (" = " : Text)) ++ .char '"' :: (value ++ [.char '"']) := by
  simp only [quoted, List.append_assoc]
  rfl

section Canonical

variable {word s : Text}

/-- `canonical` of a comparison with a value between quotes changes the value only. -/
theorem canonical_quoted (hs : Spells s word) (hword : isEntry word = true) (value : Text) :
    canonical (quoted s value) = quoted s (settled value) := by
  have hinert := (hs.faithful hword).inert
  have hfront : ∀ w ∈ [s, Comparison.eq.symbol], Inert w :=
    List.forall_mem_cons.2 ⟨hinert, List.forall_mem_singleton.2 (faithful_symbol .eq).inert⟩
  have hquote : CodePoint.char '"' ≠ .char ' ' := by decide
  have hcollapse : CodePoint.char ' ' :: collapse (quoted s value) =
      (Text.spaced [s, Comparison.eq.symbol] ++ [.char ' ']) ++
        .char '"' :: (collapse value ++ .char '"' :: []) := by
    rw [quoted_eq, collapse_append_cons hquote, collapse_append_cons hquote,
      collapse_append hinert.space, Text.spaced_cons, Text.spaced_cons]
    simp only [List.cons_append, List.append_assoc]
    rfl
  have hnil : respellings.foldl (fun s r => r.apply s) [] = [] :=
    foldl_respellings_inert (List.forall_mem_nil Inert) (.inl rfl)
  -- the quotes part the value from what stands around it
  have hrespelled : respellings.foldl (fun s r => r.apply s)
      ((Text.spaced [s, Comparison.eq.symbol] ++ [.char ' ']) ++
        .char '"' :: (collapse value ++ .char '"' :: [])) =
      .char ' ' :: quoted s (settled value) := by
    rw [foldl_append_quote proper_of_mem_respellings, foldl_append_quote proper_of_mem_respellings,
      foldl_respellings_inert hfront (.inr rfl), ← settled, quoted_eq, hnil, Text.spaced_cons,
      Text.spaced_cons]
    simp only [List.cons_append, List.append_assoc]
    rfl
  obtain ⟨d, t, rfl⟩ := List.exists_cons_of_ne_nil hinert.ne_nil
  have hd := hs.isBlank hword d List.mem_cons_self
  have htrim : Text.trim (quoted (d :: t) (settled value)) = quoted (d :: t) (settled value) :=
    Text.trim_cons_append_singleton hd (by decide) (t ++ " = \"" ++ settled value)
  rw [canonical, hcollapse, hrespelled, Text.trim_cons_of_blank (by decide), htrim]

end Canonical

/-! ## Values that are left alone -/

/-- Whether there is nothing in a value that is looked for in a query: no two spaces in a row, no word that
is respelled, and no symbol of an operator but those of one character. -/
structure IsLiteral (value : Text) : Prop where
  space : ¬("  " : Text) <:+: value
  word : ∀ r ∈ respellings, ∀ m, r.Spans m → ¬m <:+: value
  symbol : ∀ op ∈ Operator.all, 2 ≤ op.symbol.length → ¬op.symbol <:+: value

/-- The respelling of a conjunction. -/
def conjunction (word replacement : Text) : Respelling where
  word := word
  replacement := replacement

/-- The respellings before those of the conjunctions. -/
def shortenings : List Respelling :=
  respellings.take 11

/-- `respellings` are the shortenings, and those of the conjunctions behind them. -/
theorem respellings_eq :
    respellings = shortenings ++ [conjunction "and" " AND ", conjunction "or" " OR "] :=
  rfl

/-- `shortenings` put in less than they take out. -/
theorem length_lt_of_mem_shortenings : ∀ r ∈ shortenings, ∀ m, r.Spans m →
    r.replacement.length < m.length := by
  have hshorter : ∀ r ∈ shortenings,
      r.replacement.length < r.word.length + (if r.marked then 3 else 2) := by
    decide
  exact fun r hr m hm => Nat.lt_of_lt_of_le (hshorter r hr) hm.length_le

/-- `apply` of the respelling of a conjunction leaves the conjunction in capitals, or changes
nothing. -/
theorem apply_conjunction {r : Respelling} (hr : r.Proper) {s : Text}
    (h : ¬r.replacement <:+: r.apply s) : (∀ m, r.Spans m → ¬m <:+: s) ∧ r.apply s = s := by
  rcases r.apply_cases hr s with hnone | ⟨a, m, b, -, -, happly⟩
  · exact hnone
  · exact absurd ⟨a, r.apply b, by rw [happly, List.append_assoc]⟩ h

/-- `IsLiteral` holds of a value that is as before in the end and does not come apart at a
conjunction. -/
theorem isLiteral_iff {value : Text} :
    IsLiteral value ↔ settled value = value ∧ ¬(" OR " : Text) <:+: value ∧
      ¬(" AND " : Text) <:+: value ∧
      ∀ op ∈ Operator.all, 2 ≤ op.symbol.length → ¬op.symbol <:+: value := by
  constructor
  · intro h
    have hcollapse : collapse value = value := by
      rcases collapse_cases value with ⟨-, hsame⟩ | ⟨hspace, -⟩
      · exact hsame
      · exact absurd hspace h.space
    refine ⟨?_, h.word (conjunction "or" " OR ") (by simp [respellings_eq]) _ ?_,
      h.word (conjunction "and" " AND ") (by simp [respellings_eq]) _ ?_, h.symbol⟩
    · rw [settled, hcollapse, foldl_eq_self proper_of_mem_respellings h.word]
    · exact ⟨[], "OR", rfl, by decide, rfl⟩
    · exact ⟨[], "AND", rfl, by decide, rfl⟩
  · rintro ⟨hsettled, hor, hand, hsymbol⟩
    have hproper := proper_of_mem_respellings
    rw [respellings_eq, List.forall_mem_append] at hproper
    obtain ⟨hshort, hconjunctions⟩ := hproper
    simp only [List.forall_mem_cons] at hconjunctions
    obtain ⟨hproperAnd, hproperOr, -⟩ := hconjunctions
    rw [settled, respellings_eq, List.foldl_append, List.foldl_cons, List.foldl_cons,
      List.foldl_nil] at hsettled
    -- the conjunctions would show in the value
    obtain ⟨hnoneOr, hsameOr⟩ := apply_conjunction hproperOr (by rwa [hsettled])
    rw [hsameOr] at hsettled
    rw [hsettled] at hnoneOr
    obtain ⟨hnoneAnd, hsameAnd⟩ := apply_conjunction hproperAnd (by rwa [hsettled])
    rw [hsameAnd] at hsettled
    rw [hsettled] at hnoneAnd
    -- whatever else is changed makes the value shorter
    have hspaces : ¬("  " : Text) <:+: value ∧ collapse value = value := by
      rcases collapse_cases value with hnone | ⟨-, hshorter⟩
      · exact hnone
      · have hle := length_foldl_le hshort
          (fun r hr m hm => Nat.le_of_lt (length_lt_of_mem_shortenings r hr m hm)) (collapse value)
        rw [hsettled] at hle
        omega
    obtain ⟨hspace, hcollapse⟩ := hspaces
    rw [hcollapse] at hsettled
    obtain ⟨hnone, -⟩ := foldl_eq_self_of_length_le hshort length_lt_of_mem_shortenings
      (Nat.le_of_eq (congrArg List.length hsettled.symm))
    refine ⟨hspace, ?_, hsymbol⟩
    rw [respellings_eq, List.forall_mem_append]
    simp only [List.forall_mem_cons]
    exact ⟨hnone, hnoneAnd, hnoneOr, List.forall_mem_nil _⟩

/-! ## Where the query is cut -/

section Parts

variable {word s value : Text}

/-- `quoted` holds what does not stand in front of the value, and has no quote in it, when the value
holds it. -/
theorem infix_quoted_iff {part : Text} (hne : part ≠ []) (hquote : .char '"' ∉ part)
    (hfront : ¬part <:+: s ++ (" = " : Text)) : part <:+: quoted s value ↔ part <:+: value := by
  rw [quoted_eq, List.infix_append_cons_iff hquote, List.infix_append_cons_iff hquote,
    List.infix_nil]
  simp [hfront, hne]

/-- `Text.breakOn` finds in front of the value nothing that begins with a character that the word
does not hold. -/
theorem not_infix_front {c : CodePoint} {part : Text} (hc : c ∉ s)
    (h : Text.breakOn (c :: part) " = " = none) : ¬(c :: part) <:+: s ++ (" = " : Text) := by
  rw [← Text.breakOn_eq_none_iff, Text.breakOn_append hc, h]
  rfl

/-- `quoted` holds a conjunction between spaces when the value holds it. -/
theorem conjunction_infix_quoted_iff (hs : Spells s word) (hword : isEntry word = true)
    (value : Text) :
    ((" OR " : Text) <:+: quoted s value ↔ (" OR " : Text) <:+: value) ∧
      ((" AND " : Text) <:+: quoted s value ↔ (" AND " : Text) <:+: value) := by
  have hspace := (hs.faithful hword).inert.space
  exact ⟨infix_quoted_iff (List.cons_ne_nil _ _) (by decide) (not_infix_front hspace (by decide)),
    infix_quoted_iff (List.cons_ne_nil _ _) (by decide) (not_infix_front hspace (by decide))⟩

/-- `quoted` holds a longer symbol of an operator when the value holds it. -/
theorem symbol_infix_quoted_iff (hs : Spells s word) (hword : isEntry word = true) {op : Operator}
    (hop : op ∈ Operator.all) (hlength : 2 ≤ op.symbol.length) :
    op.symbol <:+: quoted s value ↔ op.symbol <:+: value := by
  have hspec : ∀ op ∈ Operator.all, 2 ≤ op.symbol.length →
      .char '"' ∉ op.symbol ∧ Text.breakOn op.symbol " = " = none := by
    decide
  obtain ⟨hquote, hbreak⟩ := hspec op hop hlength
  obtain ⟨c, part, hsymbol, hchars, -⟩ := Operator.symbol_spec op hop
  rw [hsymbol] at hquote hbreak ⊢
  have hc : c ∉ s := fun hmem =>
    hs.notMem_operatorChars hword c hmem (hchars c List.mem_cons_self)
  exact infix_quoted_iff (List.cons_ne_nil _ _) hquote (not_infix_front hc hbreak)

/-- `detect` finds the sign of equality, or one of the longer symbols that stands in the value. -/
theorem detect_quoted (hs : Spells s word) (hword : isEntry word = true) (value : Text) :
    (Operator.detect (quoted s value) = some (.compare .eq) ∧
      ∀ op ∈ Operator.all, 2 ≤ op.symbol.length → ¬op.symbol <:+: value) ∨
    ∃ op ∈ Operator.all, Operator.detect (quoted s value) = some op ∧ 2 ≤ op.symbol.length ∧
      op.symbol <:+: value := by
  -- the longer symbols come first, and the sign of equality comes next
  have hlong : ∀ op ∈ Operator.all, op ∈ Operator.all.take 9 ↔ 2 ≤ op.symbol.length := by decide
  have hdetect : Operator.detect (quoted s value) =
      ((Operator.all.take 9).find? fun op => Text.occursIn op.symbol (quoted s value)).or
        ((Operator.all.drop 9).find? fun op => Text.occursIn op.symbol (quoted s value)) := by
    rw [← List.find?_append, List.take_append_drop, Operator.detect]
  have heq : Text.occursIn (Operator.compare .eq).symbol (quoted s value) = true :=
    Text.occursIn_iff.2 ⟨s ++ [.char ' '], .char ' ' :: .char '"' :: (value ++ [.char '"']), by
      rw [quoted_eq]
      simp only [List.append_assoc]
      rfl⟩
  cases hfound : (Operator.all.take 9).find? fun op => Text.occursIn op.symbol (quoted s value) with
  | none =>
    refine .inl ⟨?_, fun op hop hlength hinside => ?_⟩
    · rw [hdetect, hfound, Option.none_or]
      exact List.find?_cons_of_pos heq
    · have hnone := List.find?_eq_none.1 hfound op ((hlong op hop).2 hlength)
      rw [Text.occursIn_iff, symbol_infix_quoted_iff hs hword hop hlength] at hnone
      exact hnone hinside
  | some op =>
    have hmem := List.mem_of_find?_eq_some hfound
    have hop : op ∈ Operator.all := List.mem_of_mem_take hmem
    have hlength := (hlong op hop).1 hmem
    have hoccurs := List.find?_some hfound
    rw [Text.occursIn_iff, symbol_infix_quoted_iff hs hword hop hlength] at hoccurs
    exact .inr ⟨op, hop, by rw [hdetect, hfound, Option.some_or], hlength, hoccurs⟩

/-! ## What is read -/

/-- `unquote` takes the quotes off the value. -/
theorem unquote_quoted (value : Text) :
    unquote (.char '"' :: (value ++ [.char '"'])) = value := by
  rw [unquote, if_pos]
  · simp
  · refine ⟨by simp, ?_, .inl rfl⟩
    rw [← List.cons_append, List.getLast?_concat]
    rfl

/-- `Phrase.read` reads a comparison with the value between the quotes. -/
theorem Phrase.read_quoted (hs : Spells s word) (hword : isEntry word = true)
    (hdetect : Operator.detect (quoted s value) = some (.compare .eq)) :
    Phrase.read (quoted s value) = .ok (.comparison s .eq value) := by
  -- a word has no sign in it, so the first sign is the one that was written
  have hsign : CodePoint.char '=' ∉ s ++ [.char ' '] := by
    intro hmem
    rcases List.mem_append.1 hmem with hmem | hmem
    · exact hs.notMem_operatorChars hword _ hmem (by decide)
    · exact absurd hmem (by decide)
  have hsplit : quoted s value = (s ++ [.char ' ']) ++
      .char '=' :: .char ' ' :: .char '"' :: (value ++ [.char '"']) := by
    rw [quoted_eq]
    simp only [List.append_assoc]
    rfl
  have hbreak : Text.breakOn (Comparison.eq.symbol) (quoted s value) =
      some (s ++ [.char ' '], .char ' ' :: .char '"' :: (value ++ [.char '"'])) := by
    rw [hsplit]
    exact Text.breakOn_singleton hsign _
  -- blanks around the sign are trimmed, those between the quotes are not at an end
  have hbefore : Text.trim (s ++ [.char ' ']) = s :=
    Text.trim_append_append (p := []) (by simp) (hs.isBlank hword) (by decide)
  have hafter : Text.trim (.char ' ' :: .char '"' :: (value ++ [.char '"'])) =
      .char '"' :: (value ++ [.char '"']) := by
    rw [Text.trim_cons_of_blank (by decide)]
    exact Text.trim_cons_append_singleton (by decide) (by decide) value
  rw [Phrase.read, hdetect]
  simp only [Operator.symbol, hbreak, Option.getD_some, hbefore, hafter, unquote_quoted]

end Parts

/-! ## What a query asks for -/

/-- `numericCriterion` never compares with a text. -/
theorem numericCriterion_ne_text {key k value given : Text} {op o : Comparison} :
    numericCriterion key op value ≠ .ok (.text k o given) := by
  intro h
  unfold numericCriterion at h
  by_cases hvalue : isNumber value = true <;> cases op <;>
    simp [Comparison.isOrdering, hvalue] at h

/-- `Operand.resolve` gives a comparison with a number or of the names of a node, or one with a
text, by the operator of the comparison. -/
theorem Operand.resolve_cases {operand : Operand} {conjunctive : Bool} {op : Comparison} {value : Text}
    {alternatives : List (List Criterion)}
    (h : operand.resolve conjunctive op value = .ok alternatives) :
    (∃ c, numericCriterion operand.key op value = .ok c ∧ alternatives = [[c]]) ∨
      alternatives = nameAlternatives op value ∨
      ∃ given, alternatives = [[.text operand.key op given]] := by
  rw [resolve] at h
  -- the kind of the operand says which way its value is read
  cases hkind : operand.kind with
  | numeric =>
    simp only [hkind] at h
    obtain ⟨c, hc, rfl⟩ := Except.map_eq_ok h
    exact .inl ⟨c, Except.mapError_eq_ok hc, rfl⟩
  | rank =>
    simp only [hkind] at h
    obtain ⟨c, hc, rfl⟩ := Except.map_eq_ok h
    exact .inl ⟨c, numericCriterion_of_rankCriterion hc, rfl⟩
  | name =>
    simp only [hkind] at h
    split at h
    · cases h
    · cases h
      exact .inr (.inl rfl)
  | nodeType =>
    simp only [hkind] at h
    split at h
    · cases h
    · cases h
      exact .inr (.inr ⟨_, rfl⟩)
  | text =>
    simp only [hkind] at h
    cases h
    exact .inr (.inr ⟨_, rfl⟩)

/-- `Operand.resolve` gives a single comparison with a text only by the operator of the comparison.
-/
theorem Operand.op_eq_of_resolve {operand : Operand} {conjunctive : Bool} {op o : Comparison}
    {value key given : Text} (h : operand.resolve conjunctive op value = .ok [[.text key o given]]) :
    op = o := by
  rcases resolve_cases h with ⟨c, hc, hone⟩ | hnames | ⟨text, hone⟩
  · cases hone
    exact absurd hc numericCriterion_ne_text
  · -- there are several names
    rw [nameAlternatives] at hnames
    cases hop : op.negated <;> simp [hop, nameKeys] at hnames
  · cases hone
    rfl

/-- `Operand.resolve` gives no alternative without criteria. -/
theorem Operand.ne_nil_of_resolve {operand : Operand} {conjunctive : Bool} {op : Comparison}
    {value : Text} {alternatives : List (List Criterion)}
    (h : operand.resolve conjunctive op value = .ok alternatives) :
    ∀ criteria ∈ alternatives, criteria ≠ [] := by
  rcases resolve_cases h with ⟨c, -, rfl⟩ | rfl | ⟨text, rfl⟩
  · simp
  · rw [nameAlternatives]
    cases op.negated <;> simp [nameKeys]
  · simp

/-- `Expression.read` gives no alternative without criteria. -/
theorem Expression.ne_nil_of_read {conjunctive : Bool} {s : Text} {x : Expression}
    (h : (Expression.read conjunctive s).result = .ok x) :
    ∀ criteria ∈ x.alternatives, criteria ≠ [] := by
  rw [Expression.read] at h
  split at h
  · cases h
  · rename_i p hp
    cases p with
    | flag negated word =>
      simp only [Phrase.resolve] at h
      split at h
      · cases h
      · cases h; simp
    | comparison word op value =>
      simp only [Phrase.resolve] at h
      split at h
      · cases h
      · obtain ⟨alternatives, halternatives, rfl⟩ := Except.map_eq_ok h
        exact Operand.ne_nil_of_resolve halternatives

end Query

open Query

/-- `readMore` adds a criterion to every alternative with each further expression. -/
theorem Clause.length_of_readMore {c c' : Clause} {rest : List Text}
    (h : (readMore c rest).result = .ok c') :
    ∀ criteria ∈ c'.alternatives, ∃ first ∈ c.alternatives,
      first.length + rest.length ≤ criteria.length := by
  -- induction on the further expressions
  induction rest generalizing c with
  | nil =>
    cases h
    exact fun criteria hcriteria => ⟨criteria, hcriteria, Nat.le_refl _⟩
  | cons s rest ih =>
    simp only [readMore] at h
    split at h
    · cases h
    · rename_i narrowed hnarrow
      obtain ⟨x, hx, hnarrowed⟩ := Except.bind_eq_ok hnarrow
      obtain ⟨-, rfl⟩ := eq_of_narrow hnarrowed
      intro criteria hcriteria
      obtain ⟨both, hboth, hlength⟩ := ih h criteria hcriteria
      simp only [combine, List.mem_flatMap, List.mem_map] at hboth
      obtain ⟨first, hfirst, more, hmore, rfl⟩ := hboth
      have hpos := List.length_pos_iff.2 (Expression.ne_nil_of_read hx more hmore)
      refine ⟨first, hfirst, ?_⟩
      rw [List.length_append] at hlength
      rw [List.length_cons]
      omega

/-- `Clause.read` of a text that is cut asks for two things at least. -/
theorem Clause.two_le_length_of_read {s : Text} {c : Clause} (h : (Clause.read s).result = .ok c)
    (hand : (" AND " : Text) <:+: s) : ∀ criteria ∈ c.alternatives, 2 ≤ criteria.length := by
  obtain ⟨first, second, rest, hcut⟩ := Text.exists_cutOn_of_infix hand (List.cons_ne_nil _ _)
  rw [Clause.read, hcut] at h
  simp only at h
  split at h
  · cases h
  · rename_i x hx
    intro criteria hcriteria
    obtain ⟨one, hone, hlength⟩ := Clause.length_of_readMore h criteria hcriteria
    have hpos := List.length_pos_iff.2 (Expression.ne_nil_of_read hx one hone)
    rw [List.length_cons] at hlength
    omega

/-- `CompiledQuery.read` of a text that is cut gives two clauses at least. -/
theorem CompiledQuery.two_le_length_of_read {s : Text} {q : CompiledQuery}
    (h : (CompiledQuery.read s).result = .ok q) (hor : (" OR " : Text) <:+: s) :
    2 ≤ q.clauses.length := by
  obtain ⟨first, second, rest, hcut⟩ := Text.exists_cutOn_of_infix hor (List.cons_ne_nil _ _)
  rw [← (CompiledQuery.means_read h).length_eq, Text.splitOn, hcut]
  exact Nat.le_add_left 2 rest.length

/-- The query that asks for the elements of which an operand is a text. -/
def literalQuery (operand : Operand) (value : Text) : CompiledQuery :=
  ⟨[{ target := operand.target, alternatives := [[.text operand.key .eq value]] }]⟩

section Literal

variable {word s value : Text} {operand : Operand} (hoperand : operands.get? word = some operand)
  (hkind : operand.kind = .text) (hs : Spells s word)

include hoperand hkind hs

/-- `CompiledQuery.read` of a value that is not cut, and in which no operator is found, asks for the
elements of which the operand is that value. -/
theorem CompiledQuery.read_quoted (hor : ¬(" OR " : Text) <:+: value)
    (hand : ¬(" AND " : Text) <:+: value)
    (hdetect : Operator.detect (quoted s value) = some (.compare .eq)) :
    (CompiledQuery.read (quoted s value)).result = .ok (literalQuery operand value) := by
  have hword : isEntry word = true :=
    isEntry_of_get? isEntry_of_mem_operands (by rw [hoperand]; rfl)
  obtain ⟨hinsideOr, hinsideAnd⟩ := conjunction_infix_quoted_iff hs hword value
  have hlookUp : lookUp? operands s = some operand := by rw [hs.lookUp?_eq hword, hoperand]
  rw [read_of_breakOn (Text.breakOn_eq_none_iff.2 (hinsideOr.not.2 hor))
      (Text.breakOn_eq_none_iff.2 (hinsideAnd.not.2 hand)),
    Expression.read_result (Phrase.read_quoted hs hword hdetect), Phrase.resolve, hlookUp]
  simp only [Operand.resolve, hkind]
  rfl

/-- `CompiledQuery.read` asks for the elements of which the operand is one text for no other value.
-/
theorem CompiledQuery.of_read_quoted {given : Text}
    (h : (CompiledQuery.read (quoted s given)).result = .ok (literalQuery operand value)) :
    given = value ∧ ¬(" OR " : Text) <:+: given ∧ ¬(" AND " : Text) <:+: given ∧
      ∀ op ∈ Operator.all, 2 ≤ op.symbol.length → ¬op.symbol <:+: given := by
  -- another number of clauses, of criteria or another operator would be another query
  have hword : isEntry word = true :=
    isEntry_of_get? isEntry_of_mem_operands (by rw [hoperand]; rfl)
  obtain ⟨hinsideOr, hinsideAnd⟩ := conjunction_infix_quoted_iff hs hword given
  have hor : ¬(" OR " : Text) <:+: given := by
    intro hinside
    have hclauses := two_le_length_of_read h (hinsideOr.2 hinside)
    exact absurd hclauses (by simp [literalQuery])
  have hwhole := Text.breakOn_eq_none_iff.2 (hinsideOr.not.2 hor)
  have hand : ¬(" AND " : Text) <:+: given := by
    intro hinside
    obtain ⟨clauses, hclauses, hquery⟩ := Except.map_eq_ok h
    rw [Text.splitOn, Text.cutOn_of_none hwhole] at hclauses
    simp only [readClauses] at hclauses
    split at hclauses
    · cases hclauses
    · rename_i c hc
      cases hclauses
      cases hquery
      have hlength := Clause.two_le_length_of_read hc (hinsideAnd.2 hinside)
      exact absurd (hlength _ List.mem_cons_self) (by simp)
  rw [read_of_breakOn hwhole (Text.breakOn_eq_none_iff.2 (hinsideAnd.not.2 hand))] at h
  obtain ⟨x, hx, hquery⟩ := Except.map_eq_ok h
  have halternatives : x.alternatives = [[.text operand.key .eq value]] :=
    congrArg Clause.alternatives (List.cons.inj (CompiledQuery.mk.inj hquery)).1
  rcases detect_quoted hs hword given with ⟨hdetect, hsymbol⟩ | ⟨op, -, hdetect, hlength, -⟩
  · rw [Expression.read_result (Phrase.read_quoted hs hword hdetect), Phrase.resolve,
      hs.lookUp?_eq hword, hoperand] at hx
    simp only [Operand.resolve, hkind] at hx
    cases hx
    simp only [List.cons.injEq, Criterion.text.injEq, and_true, true_and] at halternatives
    exact ⟨halternatives, hor, hand, hsymbol⟩
  · -- another operator stands for no test of equality
    cases op with
    | negation => exact absurd hlength (by decide)
    | compare op =>
      rw [Expression.read, Phrase.read, hdetect] at hx
      simp only [Phrase.resolve] at hx
      split at hx
      · cases hx
      · obtain ⟨alternatives, hresolve, rfl⟩ := Except.map_eq_ok hx
        obtain rfl : alternatives = _ := halternatives
        obtain rfl := Operand.op_eq_of_resolve hresolve
        exact absurd hlength (by decide)

end Literal

/-- `holds` of a test for a text is whether the attribute is there, with this text. -/
theorem Criterion.holds_equal (key value : Text) (data : Entries Value) :
    ∃ b, (Criterion.text key .eq value).predicate.holds data = .ok b ∧
      (b = true ↔ ∃ x, Value.present? data key = some x ∧ x.comparisonText = value) := by
  rw [predicate, Predicate.holds]
  cases Value.present? data key with
  | none => exact ⟨false, rfl, by simp⟩
  | some x =>
    refine ⟨(x.comparisonText == value) != false, rfl, ?_⟩
    simp

/-- `accepts` of the groups of `literalQuery` holds of the elements that are asked for. -/
theorem accepts_literalQuery (operand : Operand) (value text : Text) (e : Element) :
    ∃ b, Selector.accepts { text, groups := (literalQuery operand value).groups } e = .ok b ∧
      (b = true ↔ e.kind = operand.target ∧
        ∃ x, Value.present? e.data operand.key = some x ∧ x.comparisonText = value) := by
  have hgroups : (literalQuery operand value).groups =
      [[Criterion.text operand.key .eq value]].map (.ofCriteria operand.target) := rfl
  rw [Selector.accepts, hgroups]
  by_cases hkind : e.kind = operand.target
  · obtain ⟨b, hb, hiff⟩ := Criterion.holds_equal operand.key value e.data
    refine ⟨b, ?_, by rw [hiff]; simp [hkind]⟩
    rw [← hkind, List.map_singleton, SelectorGroup.anyAccepts_singleton,
      SelectorGroup.accepts_ofCriteria, List.map_singleton, Predicate.allHold_singleton, hb]
  · exact ⟨false, SelectorGroup.anyAccepts_of_ne hkind _, by simp [hkind]⟩

/-- A comparison with a value between quotes comes to a query for the elements of which the operand is just
that text when there is nothing in the value that is looked for in a query, and otherwise it does not. When
it does, its selector is read without complaint, and it matches the elements of the kind of the operand that
have the attribute, with this text. -/
theorem compile_quoted {word s : Text} {operand : Operand} (hoperand : operands.get? word = some operand)
    (hkind : operand.kind = .text) (hs : Spells s word) (value : Text) (flags : DisplayFlags) :
    (IsLiteral value ↔ ∃ c, compile (quoted s value) flags = .ok c ∧
      c.query? = some (literalQuery operand value)) ∧
    (IsLiteral value → ∃ selector,
      Selector.parse (literalQuery operand value).render = .ok selector ∧
      ∀ e : Element, ∃ b, selector.accepts e = .ok b ∧
        (b = true ↔ e.kind = operand.target ∧
          ∃ x, Value.present? e.data operand.key = some x ∧ x.comparisonText = value)) := by
  have hword : isEntry word = true :=
    isEntry_of_get? isEntry_of_mem_operands (by rw [hoperand]; rfl)
  have hcanonical := canonical_quoted hs hword value
  have hread (hvalue : IsLiteral value) : (CompiledQuery.read (canonical (quoted s value))).result =
      .ok (literalQuery operand value) := by
    obtain ⟨hsettled, hor, hand, hsymbol⟩ := isLiteral_iff.1 hvalue
    rw [hcanonical, hsettled]
    rcases detect_quoted hs hword value with ⟨hdetect, -⟩ | ⟨op, hop, -, hlength, hinside⟩
    · exact CompiledQuery.read_quoted hoperand hkind hs hor hand hdetect
    · exact absurd hinside (hsymbol op hop hlength)
  refine ⟨⟨fun hvalue => ?_, ?_⟩, fun hvalue => ?_⟩
  · have hne : canonical (quoted s value) ≠ [] := by
      rw [hcanonical, quoted_eq]
      simp
    obtain ⟨c, hc, hresult⟩ := compile_of_read hne (hread hvalue) flags
    exact ⟨c, hc, by rw [Compilation.query?, hresult]⟩
  · rintro ⟨c, hc, hquery⟩
    have hresult := read_of_compile hc hquery
    rw [hcanonical] at hresult
    -- what comes to this query is the value as it was
    obtain ⟨hsettled, hor, hand, hsymbol⟩ := CompiledQuery.of_read_quoted hoperand hkind hs hresult
    rw [hsettled] at hor hand hsymbol
    exact isLiteral_iff.2 ⟨hsettled, hor, hand, hsymbol⟩
  · exact ⟨_, CompiledQuery.parse_of_read (hread hvalue), accepts_literalQuery operand value _⟩

/-- Words, conjunctions and symbols in a value do no harm where they do not stand between spaces or have one
character only. -/
theorem compile_quoted_words :
    ∃ selector, Selector.parse "node[app = \"is a > b = c ! or\"]" = .ok selector ∧
      selector.accepts { id := "n", kind := .node, data := [("app", .text "is a > b = c ! or")] } =
        .ok true := by
  let value : Text := "is a > b = c ! or"
  have hoperand : operands.get? "app" = some (nodeOperand "app") := by decide +kernel
  have hs : Spells "app" "app" := by decide
  obtain ⟨hliteral, hselects⟩ := compile_quoted hoperand rfl hs value {}
  have hrun : (compile (quoted "app" value) {}).toOption.bind Compilation.query? =
      some (literalQuery (nodeOperand "app") value) := by
    decide +kernel
  obtain ⟨selector, hparse, haccepts⟩ := hselects (hliteral.2 (exists_compilation hrun))
  obtain ⟨b, hb, hmatches⟩ :=
    haccepts { id := "n", kind := .node, data := [("app", .text value)] }
  refine ⟨selector, (congrArg Selector.parse ?_).trans hparse, ?_⟩
  · decide +kernel
  · rw [hb, hmatches.2 ⟨rfl, .text value, rfl, rfl⟩]

/-- A conjunction between the quotes cuts the query. -/
theorem compile_quoted_conjunction :
    (operands.get? "app").map (·.kind) = some .text ∧
    (.char '"' : CodePoint) ∉ ("a or b" : Text) ∧
    (compile (quoted "app" "a or b") {}).map (·.error?) = .ok (some (.unknownFlag "b\"")) := by
  decide +kernel

end MeshLens
