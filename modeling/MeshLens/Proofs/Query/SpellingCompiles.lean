import MeshLens.Proofs.Query.AlternativesMeaning
import MeshLens.Proofs.Query.CanonicalWords
import Mathlib.Data.List.Find

/-!
# Every query is accepted

A query is compiled to what it asks for, however it is written. The canonical words of a query come
apart at the conjunctions, since no other word is one. Of the words of a phrase only the operator
holds characters of operators, so the operators that are looked for are those that occur in it, and
the first of these is the operator itself.

## Key results

- `Phrase.read_symbol`: what stands around an operator is read as a word and a value
- `Phrase.Canonical.read_eq`: what the canonical words of a phrase are read as
- `compile_spelling`: a query in any spelling compiles to its meaning
-/

namespace MeshLens

namespace Query

/-! ## Finding the operator -/

/-- The characters that symbols of operators end with. -/
def operatorEnds : Text :=
  ['!', '=', '<', '>']

/-- `operatorEnds` are among the characters of operators. -/
theorem notMem_operatorEnds {c : CodePoint} (h : c ∉ operatorChars) : c ∉ operatorEnds := by
  have hsub : ∀ d ∈ operatorEnds, d ∈ operatorChars := by decide
  exact fun hc => h (hsub c hc)

/-- `symbol` of each operator is made of characters of operators, and ends with one of
`operatorEnds`. -/
theorem Operator.symbol_spec : ∀ op ∈ Operator.all, ∃ c part, op.symbol = c :: part ∧
    (∀ d ∈ c :: part, d ∈ operatorChars) ∧
    ∀ d, (c :: part).getLast? = some d → d ∈ operatorEnds := by
  have hspec : ∀ op ∈ Operator.all, op.symbol ≠ [] ∧ (∀ d ∈ op.symbol, d ∈ operatorChars) ∧
      ∀ d ∈ op.symbol.getLast?, d ∈ operatorEnds := by
    decide
  intro op hop
  obtain ⟨hne, hmem, hends⟩ := hspec op hop
  obtain ⟨c, part, hsymbol⟩ := List.exists_cons_of_ne_nil hne
  rw [hsymbol] at hmem hends
  exact ⟨c, part, hsymbol, hmem, hends⟩

/-- `detect` does not look at what is in front of an operator without the characters of operators,
and behind it without those that operators end with. -/
theorem Operator.detect_append {a b : Text} (ha : ∀ c ∈ a, c ∉ operatorChars)
    (hb : ∀ c ∈ b, c ∉ operatorEnds) (s : Text) : detect (a ++ (s ++ b)) = detect s := by
  refine List.find?_congr fun op hop => ?_
  obtain ⟨c, part, hsymbol, hmem, hends⟩ := symbol_spec op hop
  rw [hsymbol]
  refine Text.occursIn_append_append (fun hc => ?_) (fun d hd hdb => ?_) s
  · exact ha c hc (hmem c List.mem_cons_self)
  · exact hb d hdb (hends d hd)

/-- `detect` finds the operator of a symbol, though other operators occur in it. -/
theorem Operator.detect_symbol (op : Comparison) : detect op.symbol = some (.compare op) := by
  cases op <;> decide

/-! ## Reading phrases -/

/-- `Text.words` of a text without white space is one word at most. -/
theorem words_of_not_blank {s : Text} (hs : ∀ c ∈ s, Text.isBlank c = false) :
    (Text.words s).length ≤ 1 := by
  have hsplit : Text.splitWhere Text.isBlank s = [s] := by
    induction s with
    | nil => rfl
    | cons c s ih =>
      rw [List.forall_mem_cons] at hs
      rw [Text.splitWhere, hs.1, ih hs.2]
      rfl
  rw [Text.words, hsplit]
  exact List.length_filter_le _ _

section Read

variable {s value : Text}

/-- `Phrase.read` reads a word as a flag. -/
theorem Phrase.read_flag (hblank : ∀ c ∈ s, Text.isBlank c = false)
    (hs : ∀ c ∈ s, c ∉ operatorChars) : Phrase.read s = .ok (.flag false s) := by
  have hdetect : Operator.detect s = none := by
    have := Operator.detect_append hs (b := []) (by simp) []
    rwa [List.append_nil, List.append_nil] at this
  have hwords := words_of_not_blank hblank
  rw [Phrase.read, hdetect]
  simp only
  rw [if_neg (by omega), Text.trim_eq_self hblank]

/-- `Phrase.read` reads a mark in front of a word, perhaps with a space between, as a flag that is
denied. -/
theorem Phrase.read_negation (hblank : ∀ c ∈ s, Text.isBlank c = false)
    (hs : ∀ c ∈ s, c ∉ operatorChars) {v : Text} (hv : v = [] ∨ v = [.char ' ']) :
    Phrase.read (.char '!' :: (v ++ s)) = .ok (.flag true s) := by
  have hvs : ∀ c ∈ v ++ s, c ∉ operatorEnds := by
    refine List.forall_mem_append.2 ⟨?_, fun c hc => notMem_operatorEnds (hs c hc)⟩
    rcases hv with rfl | rfl <;> decide
  -- the mark is the only character of an operator
  have hdetect : Operator.detect (.char '!' :: (v ++ s)) = some .negation :=
    Operator.detect_append (a := []) (by simp) hvs [.char '!']
  have hbreak : Text.breakOn Operator.negation.symbol (.char '!' :: (v ++ s)) =
      some ([], v ++ s) :=
    Text.breakOn_self (.char '!') [] (v ++ s)
  have htrim : Text.trim (v ++ s) = s := by
    have hvblank : ∀ c ∈ v, Text.isBlank c = true := by
      rcases hv with rfl | rfl <;> decide
    rw [Text.trim_blank_append hvblank, Text.trim_eq_self hblank]
  rw [Phrase.read, hdetect]
  simp only [hbreak, Option.getD_some, htrim]

/-- `Phrase.read` reads what stands around the symbol of an operator as a word and a value. -/
theorem Phrase.read_symbol (hblank : ∀ c ∈ s, Text.isBlank c = false)
    (hs : ∀ c ∈ s, c ∉ operatorChars) {rest : Text} (hrest : ∀ c ∈ rest, c ∉ operatorEnds)
    (op : Comparison) :
    Phrase.read (s ++ .char ' ' :: (op.symbol ++ rest)) =
      .ok (.comparison s op (unquote (Text.trim rest))) := by
  have hbefore : ∀ c ∈ s ++ [.char ' '], c ∉ operatorChars :=
    List.forall_mem_append.2 ⟨hs, by decide⟩
  have hsplit : s ++ .char ' ' :: (op.symbol ++ rest) = (s ++ [.char ' ']) ++ (op.symbol ++ rest) :=
    List.append_cons _ _ _
  -- no other operator is in the text, and none ends in what follows the symbol
  have hdetect : Operator.detect (s ++ .char ' ' :: (op.symbol ++ rest)) = some (.compare op) := by
    rw [hsplit, Operator.detect_append hbefore hrest, Operator.detect_symbol]
  have hbreak : Text.breakOn op.symbol (s ++ .char ' ' :: (op.symbol ++ rest)) =
      some (s ++ [.char ' '], rest) := by
    have hmem : .compare op ∈ Operator.all := by cases op <;> decide
    obtain ⟨c, part, hsymbol, hchars, -⟩ := Operator.symbol_spec _ hmem
    rw [Operator.symbol] at hsymbol
    rw [hsplit, hsymbol, Text.breakOn_append fun hc => hbefore c hc (hchars c List.mem_cons_self),
      Text.breakOn_self]
    simp
  have hword : Text.trim (s ++ [.char ' ']) = s :=
    Text.trim_append_append (p := []) (by simp) hblank (by decide)
  rw [Phrase.read, hdetect]
  simp only [Operator.symbol, hbreak, Option.getD_some, hword]

/-- `Phrase.read` reads the canonical words of a comparison. -/
theorem Phrase.read_comparison (hblank : ∀ c ∈ s, Text.isBlank c = false)
    (hs : ∀ c ∈ s, c ∉ operatorChars) (hvalue : IsValue value) (op : Comparison) :
    Phrase.read (Text.join " " [s, op.symbol, value]) = .ok (.comparison s op value) := by
  have hjoin : Text.join " " [s, op.symbol, value] =
      s ++ .char ' ' :: (op.symbol ++ .char ' ' :: value) := by
    rw [Text.join_space]
    simp
  have hrest : ∀ c ∈ CodePoint.char ' ' :: value, c ∉ operatorEnds :=
    List.forall_mem_cons.2
      ⟨by decide, fun c hc => notMem_operatorEnds (hvalue.notMem_operatorChars c hc)⟩
  -- the space in front of the value is trimmed, and the value has no quotes to take off
  have hgiven : Text.trim (.char ' ' :: value) = value := by
    rw [Text.trim_cons_of_blank (by decide), Text.trim_eq_self hvalue.isBlank]
  have hunquote : unquote value = value := by
    rw [unquote, if_neg]
    simpa [isQuoted] using hvalue.isQuoted
  rw [hjoin, Phrase.read_symbol hblank hs hrest, hgiven, hunquote]

end Read

/-! ## Looking words up -/

/-- `Text.lower` of a word of the tables in any case is the word. -/
theorem Spells.lower_eq {word s : Text} (h : Spells s word) (hword : isEntry word = true) :
    Text.lower s = word := by
  have hrange := h.range hword
  -- only a sigma would depend on what is around it
  have hlower (before : Text) : Text.lowerAfter before s = s.map Text.smallLetter := by
    clear h
    induction s generalizing before with
    | nil => rfl
    | cons c s ih =>
      rw [List.forall_mem_cons] at hrange
      have hascii : c.toNat < 128 := by omega
      have hsigma : ¬c = CodePoint.char 'Σ' := by
        rintro rfl
        exact absurd hascii (by decide)
      rw [Text.lowerAfter, if_neg hsigma, Text.lowerChar, if_pos hascii, ih hrange.2]
      rfl
  rw [Text.lower, hlower, h]

/-- `lookUp?` finds a word of the tables in any case. -/
theorem Spells.lookUp?_eq {α : Type} {word s : Text} (h : Spells s word)
    (hword : isEntry word = true) (table : Entries α) : lookUp? table s = table.get? word := by
  rw [lookUp?, h.lower_eq hword]

/-! ## Resolving phrases -/

/-- `numericCriterion` compares with a number, or asks whether the attribute is there. -/
theorem numericCriterion_eq {op : Comparison} {value : Text}
    (h : op = .eq ∨ op = .ne ∨ (isNumber value = true ∧ op.relation.isPartial = false))
    (key : Text) :
    numericCriterion key op value =
      .ok (if isNumber value then .number key op value
        else if op.negated then .truthy key else .falsy key) := by
  rcases h with rfl | rfl | ⟨hnumber, hop⟩
  · rfl
  · rfl
  · cases op <;> first
      | exact absurd hop (by decide)
      | simp [numericCriterion, Comparison.isOrdering, hnumber]

/-- `isRank` holds of numbers only. -/
theorem isNumber_of_isRank {value : Text} (h : isRank value = .ok true) : isNumber value = true := by
  rw [isRank] at h
  split at h
  · assumption
  · cases h

/-- `Operand.resolve` gives what the operand asks for with a value that it takes. -/
theorem Operand.resolve_eq {operand : Operand} {op : Comparison} {value : Text}
    (h : operand.Takes op value) {conjunctive : Bool}
    (hname : conjunctive = true → operand.kind ≠ .name) :
    operand.resolve conjunctive op value = .ok (operand.alternatives op value) := by
  rw [Takes] at h
  rw [resolve, alternatives]
  -- one case for each kind of operand
  cases hkind : operand.kind with
  | text => rfl
  | name =>
    have hnot : ¬conjunctive = true := fun hconjunctive => hname hconjunctive hkind
    simp [hnot]
  | nodeType =>
    rw [hkind] at h
    obtain ⟨nodeType, hnodeType⟩ := Option.isSome_iff_exists.1 h
    simp [hnodeType]
  | numeric =>
    rw [hkind] at h
    simp only
    -- what is no number stands for the attribute being there or not
    rw [numericCriterion_eq h]
    simp only [Except.mapError, Except.map]
    split <;> [rfl; split <;> rfl]
  | rank =>
    rw [hkind] at h
    obtain ⟨hrank, hop⟩ := h
    -- a rank is a number, so it is compared as one
    have hnumber := isNumber_of_isRank hrank
    simp only [rankCriterion, hrank]
    rw [numericCriterion_eq (.inr (.inr ⟨hnumber, hop⟩)), hnumber]
    rfl

/-- `Phrase.resolve` of a flag gives the alternatives of its word. -/
theorem Phrase.flag_resolve {b : Bool} {word s : Text} {flag : Flag}
    (hflag : lookUp? flags s = some flag) (hword : flags.get? word = some flag)
    (conjunctive : Bool) : (Phrase.flag b s).resolve conjunctive =
      .ok { target := flag.target, alternatives := (Phrase.flag b word).alternatives } := by
  simp [Phrase.resolve, hflag, Phrase.alternatives, hword, Flag.criteria]

/-- `Phrase.resolve` of a comparison gives the alternatives of its word. -/
theorem Phrase.comparison_resolve {word s value : Text} {op : Comparison} {operand : Operand}
    (hoperand : lookUp? operands s = some operand) (hword : operands.get? word = some operand)
    (htakes : operand.Takes op value) {conjunctive : Bool}
    (hname : conjunctive = true → operand.kind ≠ .name) :
    (Phrase.comparison s op value).resolve conjunctive =
      .ok { target := operand.target, alternatives := (comparison word op value).alternatives } := by
  simp [Phrase.resolve, hoperand, Operand.resolve_eq htakes hname, Except.map, Phrase.alternatives,
    hword]

/-- `Expression.read` resolves the phrase that is read. -/
theorem Expression.read_result {s : Text} {p : Phrase} (h : Phrase.read s = .ok p)
    (conjunctive : Bool) : (Expression.read conjunctive s).result = p.resolve conjunctive := by
  rw [Expression.read, h]

/-- `Expression.read` reads the canonical words of a phrase as what the phrase asks for. -/
theorem Phrase.Canonical.read_eq {p : Phrase} (hp : p.Admissible) {words : List Text}
    (h : p.Canonical words) {kind : Kind} (hkind : p.target? = some kind) (conjunctive : Bool)
    (hname : conjunctive = true → p.isName = false) :
    (Expression.read conjunctive (Text.join " " words)).result =
      .ok { target := kind, alternatives := p.alternatives } := by
  cases p with
  | flag b word =>
    have hword := isEntry_of_get? isEntry_of_mem_flags hp
    obtain ⟨flag, hflag⟩ := Option.isSome_iff_exists.1 hp
    obtain rfl : flag.target = kind := by
      rw [Phrase.target?, hflag] at hkind
      exact Option.some.inj hkind
    -- the word is looked up in small letters, so only the phrase that is read matters
    have hread {s : Text} (hs : Spells s word)
        (hphrase : Phrase.read (Text.join " " words) = .ok (.flag b s)) :
        (Expression.read conjunctive (Text.join " " words)).result =
          .ok { target := flag.target, alternatives := (Phrase.flag b word).alternatives } := by
      rw [Expression.read_result hphrase]
      exact flag_resolve (by rw [hs.lookUp?_eq hword, hflag]) hflag conjunctive
    cases h with
    | @flag _ s hs =>
      exact hread hs (Phrase.read_flag (hs.isBlank hword) (hs.notMem_operatorChars hword))
    | @glued _ s hs =>
      exact hread hs (Phrase.read_negation (hs.isBlank hword) (hs.notMem_operatorChars hword)
        (v := []) (.inl rfl))
    | @apart _ s hs =>
      exact hread hs (Phrase.read_negation (hs.isBlank hword) (hs.notMem_operatorChars hword)
        (v := [.char ' ']) (.inr rfl))
  | comparison word op value =>
    obtain ⟨operand, hoperand, hvalue, htakes⟩ := hp
    have hword : isEntry word = true :=
      isEntry_of_get? isEntry_of_mem_operands (by rw [hoperand]; rfl)
    obtain rfl : operand.target = kind := by
      rw [Phrase.target?, hoperand] at hkind
      exact Option.some.inj hkind
    cases h with
    | @comparison _ s _ _ hs =>
      have hphrase := Phrase.read_comparison (hs.isBlank hword) (hs.notMem_operatorChars hword)
        hvalue op
      rw [Expression.read_result hphrase]
      refine comparison_resolve (by rw [hs.lookUp?_eq hword, hoperand]) hoperand htakes ?_
      intro hconjunctive hkind
      have hnot := hname hconjunctive
      simp [Phrase.isName, hoperand, hkind] at hnot

/-! ## Cutting at the conjunctions -/

/-- `Phrase.Canonical` words hold no space, and none of them is respelled. -/
theorem Phrase.Canonical.plain {p : Phrase} (hp : p.Admissible) {words : List Text}
    (h : p.Canonical words) : ∀ v ∈ words, .char ' ' ∉ v ∧ isOrdinary v = true := by
  have hplain {s : Text} (hs : (Lexeme.plain s).Faithful) :
      .char ' ' ∉ s ∧ isOrdinary s = true :=
    ⟨Lexeme.space_notMem_text hs, Lexeme.isOrdinary_text hs (by simp)⟩
  cases p with
  | flag b word =>
    -- a flag is its word, after a sign or a word of negation or after none
    have hword := isEntry_of_get? isEntry_of_mem_flags hp
    cases h with
    | flag hs => exact List.forall_mem_singleton.2 (hplain (hs.faithful hword))
    | glued hs =>
      exact List.forall_mem_singleton.2 (hplain (Lexeme.faithful_glue (hs.faithful hword)))
    | apart hs =>
      refine List.forall_mem_cons.2 ⟨by decide, ?_⟩
      exact List.forall_mem_singleton.2 (hplain (hs.faithful hword))
  | comparison word op value =>
    obtain ⟨operand, hoperand, hvalue, -⟩ := hp
    -- a comparison is three words, and only its value is not from the vocabulary
    have hword : isEntry word = true :=
      isEntry_of_get? isEntry_of_mem_operands (by rw [hoperand]; rfl)
    cases h with
    | comparison hs =>
      refine List.forall_mem_cons.2 ⟨hplain (hs.faithful hword), List.forall_mem_cons.2 ?_⟩
      exact ⟨hplain (faithful_symbol op), List.forall_mem_singleton.2 (hplain hvalue.faithful)⟩

/-- `List.intercalate` of rows with a word between them holds this word and those of the rows. -/
theorem mem_intercalate {w v : Text} {rows : List (List Text)} (h : v ∈ [w].intercalate rows) :
    v = w ∨ ∃ row ∈ rows, v ∈ row := by
  induction rows with
  | nil => cases h
  | cons row rows ih =>
    by_cases hne : rows = []
    · subst hne
      exact .inr ⟨row, List.mem_cons_self, by simpa using h⟩
    · rw [List.intercalate_cons_of_ne_nil hne, List.mem_append, List.mem_append,
        List.mem_singleton] at h
      rcases h with (h | h) | h
      · exact .inr ⟨row, List.mem_cons_self, h⟩
      · exact .inl h
      · rcases ih h with h | ⟨r, hr, hv⟩
        · exact .inl h
        · exact .inr ⟨r, List.mem_cons_of_mem _ hr, hv⟩

/-- `isOrdinary` texts are no conjunctions. -/
theorem and_ne_of_isOrdinary {v : Text} (h : isOrdinary v = true) :
    v ≠ Text.ofString "AND" ∧ v ≠ Text.ofString "OR" := by
  constructor
  · rintro rfl
    exact absurd h (by decide)
  · rintro rfl
    exact absurd h (by decide)

section Rows

variable {phrases : List Phrase} {rows : List (List Text)} {row : List Text}

/-- `Phrase.Canonical` rows are not empty, and hold no space and no word that is respelled. -/
theorem rows_spec (hphrases : ∀ p ∈ phrases, p.Admissible)
    (h : List.Forall₂ Phrase.Canonical phrases rows) :
    ∀ r ∈ rows, r ≠ [] ∧ ∀ v ∈ r, .char ' ' ∉ v ∧ isOrdinary v = true := by
  induction h with
  | nil => exact fun r hr => absurd hr List.not_mem_nil
  | cons hp _ ih =>
    rw [List.forall_mem_cons] at hphrases
    exact List.forall_mem_cons.2 ⟨⟨hp.ne_nil, hp.plain hphrases.1⟩, ih hphrases.2⟩

/-- `ClauseCanonical` words hold no space, and none of them is `OR`. -/
theorem ClauseCanonical.row_spec (hphrases : ∀ p ∈ phrases, p.Admissible) (hne : phrases ≠ [])
    (h : ClauseCanonical phrases row) :
    row ≠ [] ∧ ∀ v ∈ row, .char ' ' ∉ v ∧ v ≠ Text.ofString "OR" := by
  obtain ⟨rows, hrows, rfl⟩ := h
  have hspec := rows_spec hphrases hrows
  constructor
  · cases hrows with
    | nil => exact absurd rfl hne
    | @cons p r ps rows hp hrest =>
      obtain ⟨v, vs, rfl⟩ := List.exists_cons_of_ne_nil hp.ne_nil
      rw [List.intercalate_cons_cons_left]
      exact List.cons_ne_nil _ _
  · -- a word of a clause is `AND` or a word of a phrase
    intro v hv
    rcases mem_intercalate hv with rfl | ⟨r, hr, hv⟩
    · decide
    · obtain ⟨hspace, hordinary⟩ := (hspec r hr).2 v hv
      exact ⟨hspace, (and_ne_of_isOrdinary hordinary).2⟩

/-- `Text.cutOn` cuts the text of a clause into those of its phrases. -/
theorem ClauseCanonical.cutOn_eq (hphrases : ∀ p ∈ phrases, p.Admissible) (hne : phrases ≠ [])
    (h : ClauseCanonical phrases row) :
    ∃ first rest, List.Forall₂ Phrase.Canonical phrases (first :: rest) ∧
      Text.cutOn " AND " (Text.join " " row) =
        (Text.join " " first, rest.map (Text.join " ")) := by
  obtain ⟨rows, hrows, rfl⟩ := h
  have hspec := rows_spec hphrases hrows
  cases hrows with
  | nil => exact absurd rfl hne
  | @cons p first ps rest hp hrest =>
    refine ⟨first, rest, .cons hp hrest, ?_⟩
    -- no word of a phrase is `AND`, so the text is cut between the phrases only
    rw [Text.join_space_intercalate _ fun r hr => (hspec r hr).1]
    refine Text.cutOn_words (w := Text.ofString "AND") (by decide) (fun r hr => (hspec r hr).1) ?_
    intro r hr v hv
    obtain ⟨hspace, hordinary⟩ := (hspec r hr).2 v hv
    exact ⟨hspace, (and_ne_of_isOrdinary hordinary).1⟩

end Rows

/-- `Text.cutOn` cuts the text of a query into those of its clauses. -/
theorem cutOn_or {clauses : List (List Phrase)} (hclauses : ∀ ps ∈ clauses, IsClause ps)
    {row : List Text} {rows : List (List Text)}
    (h : List.Forall₂ ClauseCanonical clauses (row :: rows)) :
    Text.cutOn " OR " (Text.join " " ([Text.ofString "OR"].intercalate (row :: rows))) =
      (Text.join " " row, rows.map (Text.join " ")) := by
  have hspec : ∀ r ∈ row :: rows, r ≠ [] ∧ ∀ v ∈ r, .char ' ' ∉ v ∧ v ≠ Text.ofString "OR" := by
    -- for all rows, by induction on the clauses
    generalize row :: rows = all at h
    induction h with
    | nil => exact fun r hr => absurd hr List.not_mem_nil
    | cons hp _ ih =>
      rw [List.forall_mem_cons] at hclauses
      refine List.forall_mem_cons.2 ⟨?_, ih hclauses.2⟩
      exact hp.row_spec hclauses.1.admissible hclauses.1.ne_nil
  rw [Text.join_space_intercalate _ fun r hr => (hspec r hr).1]
  exact Text.cutOn_words (w := Text.ofString "OR") (by decide) (fun r hr => (hspec r hr).1)
    fun r hr => (hspec r hr).2

end Query

/-! ## Reading clauses -/

namespace Clause

open Query

/-- `readMore` narrows a clause by what further phrases ask for. -/
theorem readMore_eq {kind : Kind} {phrases : List Phrase} {rows : List (List Text)}
    (h : List.Forall₂ Phrase.Canonical phrases rows) (hphrases : ∀ p ∈ phrases, p.Admissible)
    (hkind : ∀ p ∈ phrases, p.target? = some kind) (hname : ∀ p ∈ phrases, p.isName = false)
    (alternatives : List (List Criterion)) :
    (readMore ⟨kind, alternatives⟩ (rows.map (Text.join " "))).result =
      .ok ⟨kind, combine alternatives
        (phrases.foldr (fun p rest => combine p.alternatives rest) [[]])⟩ := by
  induction h generalizing alternatives with
  | nil =>
    rw [List.map_nil, readMore, List.foldr_nil, combine_nil_right]
  | @cons p row phrases rows hp _ ih =>
    rw [List.forall_mem_cons] at hphrases hkind hname
    -- the next phrase is of the kind of the clause, so it narrows it
    have hread := hp.read_eq hphrases.1 hkind.1 true fun _ => hname.1
    have hrest := ih hphrases.2 hkind.2 hname.2 (combine alternatives p.alternatives)
    rw [List.map_cons, readMore]
    simp only [hread, Except.bind, narrow, if_true, hrest]
    rw [combine_assoc, List.foldr_cons]

/-- `Clause.read` reads the canonical words of a clause as what the clause asks for. -/
theorem read_eq {phrases : List Phrase} (hclause : IsClause phrases) {row : List Text}
    (h : ClauseCanonical phrases row) :
    (Clause.read (Text.join " " row)).result = .ok (clauseMeaning phrases) := by
  obtain ⟨first, rest, hrows, hcut⟩ := h.cutOn_eq hclause.admissible hclause.ne_nil
  obtain ⟨kind, hkind⟩ := hclause.target
  cases hrows with
  | @cons p _ phrases _ hp hrest =>
    obtain ⟨hp', hphrases⟩ := List.forall_mem_cons.1 hclause.admissible
    obtain ⟨hpkind, hkinds⟩ := List.forall_mem_cons.1 hkind
    -- a phrase about names is the only one, so none is read in a conjunction
    have hname : phrases ≠ [] → ∀ q ∈ p :: phrases, q.isName = false := by
      intro hne q hq
      refine Bool.eq_false_iff.2 fun hqname => ?_
      have halone := hclause.name_alone q hq hqname
      exact hne (List.cons.inj halone).2
    -- the first phrase is in a conjunction when others follow
    have hfirst := hp.read_eq hp' hpkind (!(rest.map (Text.join " ")).isEmpty) (by
      intro hmore
      refine hname ?_ p List.mem_cons_self
      rintro rfl
      cases hrest
      cases hmore)
    have hmore : (readMore ⟨kind, p.alternatives⟩ (rest.map (Text.join " "))).result =
        .ok ⟨kind, combine p.alternatives
          (phrases.foldr (fun p rest => combine p.alternatives rest) [[]])⟩ := by
      by_cases hne : phrases = []
      · subst hne
        cases hrest
        exact readMore_eq .nil (by simp) (by simp) (by simp) p.alternatives
      · exact readMore_eq hrest hphrases hkinds
          (fun q hq => hname hne q (List.mem_cons_of_mem _ hq)) p.alternatives
    rw [Clause.read, hcut]
    simp only [hfirst, ofExpression, hmore]
    rw [clauseMeaning, List.head?_cons, Option.bind_some, hpkind, Option.getD_some,
      List.foldr_cons]

end Clause

/-! ## Reading queries -/

open Query

/-- `readClauses` reads the canonical words of clauses as what the clauses ask for. -/
theorem CompiledQuery.readClauses_eq {clauses : List (List Phrase)}
    (hclauses : ∀ ps ∈ clauses, IsClause ps) {rows : List (List Text)}
    (h : List.Forall₂ ClauseCanonical clauses rows) :
    (readClauses (rows.map (Text.join " "))).result = .ok (clauses.map clauseMeaning) := by
  induction h with
  | nil => rfl
  | cons hp _ ih =>
    rw [List.forall_mem_cons] at hclauses
    rw [List.map_cons, readClauses]
    simp only [Clause.read_eq hclauses.1 hp, ih hclauses.2]
    rfl

/-- `compile` comes to what is read from the canonical text. -/
theorem compile_of_read {text : Text} {q : CompiledQuery} (hne : canonical text ≠ [])
    (h : (CompiledQuery.read (canonical text)).result = .ok q) (flags : DisplayFlags) :
    ∃ c, compile text flags = .ok c ∧ c.result = .ok (some q) := by
  unfold compile
  split
  · rename_i hnil
    exact absurd hnil hne
  · simp only [h]
    exact ⟨_, rfl, rfl⟩

/-- `compile` of a query in any spelling, with any spaces, comes to what the query asks for. -/
theorem compile_spelling {q : List (List Phrase)} (hq : IsQuery q) {words : List Text}
    (hwords : Spelling q words) {s : Text} (hs : Layout words s) (n : Nat) (flags : DisplayFlags) :
    ∃ c, compile (List.replicate n (.char ' ') ++ s) flags = .ok c ∧
      c.result = .ok (some (meaning q)) := by
  obtain ⟨ls, rows, rfl, hrows, hls⟩ :=
    hwords.exists_lexemes fun ps hps => (hq.isClause ps hps).admissible
  -- the canonical text, and what its clauses are read as
  have hcanonical := canonical_layout hls hs n
  have hclauses := CompiledQuery.readClauses_eq hq.isClause hrows
  cases hrows with
  | nil => exact absurd rfl hq.ne_nil
  | @cons phrases row clauses rows hrow hrows =>
    refine compile_of_read (by rw [hcanonical]; exact hls.join_ne_nil) ?_ flags
    rw [hcanonical, CompiledQuery.read, Text.splitOn, cutOn_or hq.isClause (.cons hrow hrows)]
    simp only
    rw [← List.map_cons, hclauses]
    rfl

/-- A clause with a flag that is denied, and another one with a word for a relation that is denied,
in several cases and with spaces to spare. -/
theorem compile_spelling_negations :
    ∃ c, compile "  Idle and not is HEALTHY OR app  ! Contains x " {} = .ok c ∧
      c.result = .ok (some ⟨[
        ⟨.node, [[.truthy "isIdle", .text "healthStatus" .eq "Failure"],
          [.truthy "isIdle", .text "healthStatus" .eq "Degraded"]]⟩,
        ⟨.node, [[.text "app" .notContains "x"]]⟩]⟩) := by
  have hidle : IsClause [.flag false "idle", .flag true "healthy"] := by
    refine ⟨by simp, List.forall_mem_cons.2 ⟨?_, List.forall_mem_singleton.2 ?_⟩, ⟨.node, ?_⟩, ?_⟩
    · show (flags.get? (Text.ofString "idle")).isSome = true
      decide
    · show (flags.get? (Text.ofString "healthy")).isSome = true
      decide
    · decide
    · decide
  have happ : IsClause [.comparison "app" .notContains "x"] := by
    have hvalue : IsValue "x" := by constructor <;> decide
    refine ⟨by simp, List.forall_mem_singleton.2 ?_, ⟨.node, by decide⟩, by simp⟩
    exact ⟨nodeOperand "app", by decide, hvalue, trivial⟩
  have hflags : ClauseSpelling [.flag false "idle", .flag true "healthy"]
      [Text.ofString "Idle", "and", "not", "is", "HEALTHY"] := by
    refine .more (.flag (.inl rfl) (by decide)) (by decide) (.one ?_)
    exact .negated (.inl rfl) (.inr (by decide)) (.inr ⟨_, rfl, .inl (by decide)⟩) (by decide)
  have hdenied : ClauseSpelling [.comparison "app" .notContains "x"]
      [Text.ofString "app", "!", "Contains", "x"] :=
    .one (.negatedOperator (by decide) (.inl (by decide)) rfl rfl (by decide))
  have hq : IsQuery [[.flag false "idle", .flag true "healthy"],
      [.comparison "app" .notContains "x"]] :=
    ⟨by simp, List.forall_mem_cons.2 ⟨hidle, List.forall_mem_singleton.2 happ⟩⟩
  have hor : Spells "OR" "or" := by decide
  have hlayout := Layout.next "Idle" 0 (.next "and" 0 (.next "not" 0 (.next "is" 0
    (.next "HEALTHY" 0 (.next "OR" 0 (.next "app" 1 (.next "!" 0 (.next "Contains" 0
    (.last "x" 1)))))))))
  exact compile_spelling hq (.more hflags hor (.one hdenied)) hlayout 2 {}

end MeshLens
