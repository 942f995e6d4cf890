import MeshLens.Proofs.Query.SpellingCompiles

/-!
# Values that are taken as they stand

A value may be any text in which no operator and no respelled word stands. The respellings leave it
alone, and it cannot be cut at a conjunction, so a comparison with it is read as one expression. Of its
spaces only those between its words are left, one at each place, and this does not depend on the
operator in front of it.

## Key results

- `collapse_spaced`: what is left of the spaces between pieces
- `canonical_join`: the canonical text of words that are not respelled
- `CompiledQuery.read_comparison`: what the canonical text of a comparison is read as
-/

namespace MeshLens

namespace Query

/-! ## Words that are left alone -/

/-- Whether no respelling changes a word that stands between spaces. -/
structure Inert (w : Text) : Prop where
  ne_nil : w ≠ []
  space : .char ' ' ∉ w
  isOrdinary : isOrdinary w = true
  /-- Behind a mark there is no word that is respelled either. -/
  marked : ∀ t, w = .char '!' :: t →
    t ≠ [] ∧ (∀ c ∈ t, Text.isBlank c = false) ∧ Query.isOrdinary t = true

/-- `Inert` holds of the text of a plain lexeme. -/
theorem Lexeme.Faithful.inert {w : Text} (h : (Lexeme.plain w).Faithful) : Inert w where
  ne_nil := h.1
  space := Lexeme.space_notMem_text h
  isOrdinary := h.2.2.2.1
  marked := by
    obtain ⟨-, halone, hblank, -, hrest⟩ := h
    rintro t rfl
    exact ⟨fun ht => halone (by rw [ht]), fun c hc => hblank c (List.mem_cons_of_mem _ hc),
      hrest rfl⟩

namespace Inert

variable {w : Text}

/-- `Inert` holds of a word without a mark that is not respelled. -/
theorem of_notMem (hne : w ≠ []) (hspace : .char ' ' ∉ w) (hword : Query.isOrdinary w = true)
    (hmark : .char '!' ∉ w) : Inert w where
  ne_nil := hne
  space := hspace
  isOrdinary := hword
  marked := by
    rintro t rfl
    exact absurd List.mem_cons_self hmark

/-- `rest?` finds nothing at an inert word. -/
theorem rest?_eq_none (h : Inert w) {u : Text}
    (hu : ∀ c, u.head? = some c → c = CodePoint.char ' ') (r : Rewrite) :
    r.respelling.rest? (.char ' ' :: (w ++ u)) = none := by
  cases hr : r.marked with
  | false =>
    have hform := not_isForm_of_isOrdinary h.isOrdinary r.word
    rw [Respelling.rest?_unmarked hr r.word.isLower_text h.space hu]
    simp [Rewrite.respelling, hform]
  | true =>
    by_cases hmark : w.head? = some (.char '!')
    · -- what is behind the mark is looked at
      obtain ⟨t, rfl⟩ := List.head?_eq_some_iff.1 hmark
      obtain ⟨hne, hblank, ht⟩ := h.marked t rfl
      have hform := not_isForm_of_isOrdinary ht r.word
      rw [Respelling.rest?_glued hr r.word.isLower_text hne hblank hu]
      simp [Rewrite.respelling, hform]
    · exact Respelling.rest?_no_mark hr h.ne_nil hmark

end Inert

section Words

variable {ws : List Text} {u : Text}

/-- `apply` leaves inert words. -/
theorem Rewrite.apply_inert (r : Rewrite) (hws : ∀ w ∈ ws, Inert w) (hu : u = [] ∨ u = [.char ' ']) :
    r.respelling.apply (Text.spaced ws ++ u) = Text.spaced ws ++ u := by
  have hblank : ∀ c ∈ u, Text.isBlank c = true := by
    rcases hu with rfl | rfl <;> decide
  have hhead : ∀ c, u.head? = some c → c = CodePoint.char ' ' := by
    rcases hu with rfl | rfl <;> simp
  induction ws with
  | nil => exact Respelling.apply_blank r.word.isLower_text r.word.text_ne_nil hblank
  | cons w ws ih =>
    rw [List.forall_mem_cons] at hws
    have hnone := hws.1.rest?_eq_none (Text.head?_spaced ws hhead) r
    rw [Text.spaced_cons, List.cons_append, List.append_assoc,
      Respelling.apply_skip hws.1.space hnone, ih hws.2]

/-- `respellings` leave inert words, one after the other. -/
theorem foldl_respellings_inert (hws : ∀ w ∈ ws, Inert w) (hu : u = [] ∨ u = [.char ' ']) :
    respellings.foldl (fun s r => r.apply s) (Text.spaced ws ++ u) = Text.spaced ws ++ u := by
  rw [← map_respelling_rewrites, List.foldl_map]
  -- for any passes, by induction on them
  generalize rewrites = rs
  induction rs with
  | nil => rfl
  | cons r rs ih => rw [List.foldl_cons, r.apply_inert hws hu, ih]

end Words

/-! ## Spaces -/

/-- `collapse` leaves one space in front of every piece that is not empty, and perhaps one at the
end. -/
theorem collapse_spaced {ps : List Text} (hps : ∀ p ∈ ps, .char ' ' ∉ p) :
    ∃ u, (u = [] ∨ u = [.char ' ']) ∧
      collapse (Text.spaced ps) = Text.spaced (ps.filter (· ≠ [])) ++ u := by
  -- induction on the pieces, each with a space in front of it
  induction ps with
  | nil => exact ⟨[], .inl rfl, rfl⟩
  | cons p ps ih =>
    rw [List.forall_mem_cons] at hps
    obtain ⟨u, hu, hrest⟩ := ih hps.2
    cases p with
    | nil =>
      rw [Text.spaced_cons, List.nil_append, collapse_space]
      cases ps with
      | nil => exact ⟨[.char ' '], .inr rfl, rfl⟩
      | cons q ps =>
        -- the space in front of the next piece takes the place of this one
        refine ⟨u, hu, ?_⟩
        have hhead : (Text.spaced (q :: ps)).head? = some (.char ' ') := rfl
        rw [if_pos hhead, hrest]
        rfl
    | cons c p =>
      have hc : ¬(c :: p ++ Text.spaced ps).head? = some (.char ' ') := fun h =>
        hps.1 (Option.some.inj h ▸ List.mem_cons_self)
      refine ⟨u, hu, ?_⟩
      rw [Text.spaced_cons, collapse_space, if_neg hc, collapse_append hps.1, hrest,
        List.filter_cons_of_pos (by simp), Text.spaced_cons]
      simp only [List.cons_append, List.append_assoc]

/-- `canonical` of inert words are the words with single spaces between them. -/
theorem canonical_join {p : Text} {ps : List Text} (hp : Inert p)
    (hps : ∀ q ∈ ps, .char ' ' ∉ q) (hinert : ∀ q ∈ ps, q ≠ [] → Inert q) :
    canonical (Text.join " " (p :: ps)) =
      Text.trim (p ++ Text.spaced (ps.filter (· ≠ []))) := by
  obtain ⟨u, hu, hcollapse⟩ := collapse_spaced hps
  have hwords : ∀ w ∈ p :: ps.filter (· ≠ []), Inert w := by
    refine List.forall_mem_cons.2 ⟨hp, fun w hw => ?_⟩
    rw [List.mem_filter, decide_eq_true_iff] at hw
    exact hinert w hw.1 hw.2
  have hblank : ∀ c ∈ u, Text.isBlank c = true := by
    rcases hu with rfl | rfl <;> decide
  have hspaced : CodePoint.char ' ' :: collapse (Text.join " " (p :: ps)) =
      Text.spaced (p :: ps.filter (· ≠ [])) ++ u := by
    rw [Text.join_space, collapse_append hp.space, hcollapse, Text.spaced_cons, List.cons_append,
      List.append_assoc]
  rw [canonical, hspaced, foldl_respellings_inert hwords hu, Text.trim_append_blank _ hblank,
    Text.spaced_cons, Text.trim_cons_of_blank (by decide)]

/-! ## Values -/

/-- Whether a text can stand behind an operator as a value: no symbol of an operator occurs in it, and
none of its words is respelled. -/
structure IsVerbatim (value : Text) : Prop where
  detect : Operator.detect value = none
  isKeyword : ∀ word ∈ Text.splitOn " " value, isKeyword word = false

/-- The words of a value. -/
def valueWords (value : Text) : List Text :=
  (Text.splitOn " " value).filter (· ≠ [])

/-- What a canonical text has behind the symbol of an operator. -/
def behindSymbol (value : Text) : Text :=
  Text.trimEnd (Text.spaced (valueWords value))

/-- The value that a comparison is read with. -/
def givenValue (value : Text) : Text :=
  unquote (Text.trim (behindSymbol value))

/-- `behindSymbol` holds spaces and characters of the value. -/
theorem mem_of_mem_behindSymbol {value : Text} {c : CodePoint} (h : c ∈ behindSymbol value) :
    c = .char ' ' ∨ c ∈ value := by
  obtain ⟨q, hq, -⟩ := Text.exists_trimEnd_append (Text.spaced (valueWords value))
  have hspaced : c ∈ Text.spaced (valueWords value) := by
    rw [hq]
    exact List.mem_append_left _ h
  obtain ⟨w, hw, hc⟩ := Text.mem_spaced.1 hspaced
  have hword : w ⊆ value := Text.subset_of_mem_splitOn (List.cons_ne_nil _ _) (List.mem_filter.1 hw).1
  exact hc.imp_right fun h => hword h

namespace IsVerbatim

variable {value : Text}

/-- `IsVerbatim` values hold none of the characters that symbols end with. -/
theorem notMem_operatorEnds (h : IsVerbatim value) : ∀ c ∈ value, c ∉ operatorEnds := by
  intro c hc hend
  -- such a character is the symbol of an operator
  have hsymbol : ∀ d ∈ operatorEnds, ∃ op ∈ Operator.all, op.symbol = [d] := by decide
  obtain ⟨op, hop, hd⟩ := hsymbol c hend
  have hoccurs := List.find?_eq_none.1 h.detect op hop
  rw [hd, Text.occursIn, Bool.not_eq_true, Option.isSome_eq_false_iff, Option.isNone_iff_eq_none,
    Text.breakOn_singleton_eq_none_iff] at hoccurs
  exact hoccurs hc

/-- `IsVerbatim` values are made of inert words. -/
theorem inert (h : IsVerbatim value) : ∀ p ∈ Text.splitOn " " value, p ≠ [] → Inert p := by
  intro p hp hne
  refine .of_notMem hne (Text.notMem_of_mem_splitOn hp) ?_ fun hmark => ?_
  · rw [isOrdinary_eq_not_isKeyword, h.isKeyword p hp]
    rfl
  · have hpiece : p ⊆ value := Text.subset_of_mem_splitOn (List.cons_ne_nil _ _) hp
    exact h.notMem_operatorEnds _ (hpiece hmark) (by decide)

/-- `behindSymbol` holds none of the characters that symbols end with. -/
theorem notMem_behindSymbol (h : IsVerbatim value) : ∀ c ∈ behindSymbol value, c ∉ operatorEnds := by
  intro c hc
  rcases mem_of_mem_behindSymbol hc with rfl | hvalue
  · decide
  · exact h.notMem_operatorEnds c hvalue

end IsVerbatim

/-! ## Comparisons -/

section Comparison

variable {word s value : Text}

/-- `symbol` of an operator ends with no white space. -/
theorem exists_symbol_concat (op : Comparison) :
    ∃ init c, op.symbol = init ++ [c] ∧ Text.isBlank c = false := by
  have hsymbol := faithful_symbol op
  rcases List.eq_nil_or_concat op.symbol with hnil | ⟨init, c, hconcat⟩
  · exact absurd hnil hsymbol.1
  · rw [List.concat_eq_append] at hconcat
    exact ⟨init, c, hconcat, hsymbol.2.2.1 c (by rw [hconcat]; simp)⟩

/-- `canonical` of a comparison with a value that is taken as it stands leaves the word, the symbol
and the words of the value. -/
theorem canonical_comparison (hs : Spells s word) (hword : isEntry word = true)
    (hvalue : IsVerbatim value) (op : Comparison) :
    canonical (Text.join " " [s, op.symbol, value]) =
      s ++ .char ' ' :: (op.symbol ++ behindSymbol value) := by
  have hinert := (hs.faithful hword).inert
  have hsymbol := (faithful_symbol op).inert
  have hpieces : ∀ q ∈ op.symbol :: Text.splitOn " " value, .char ' ' ∉ q :=
    List.forall_mem_cons.2 ⟨hsymbol.space, fun q hq => Text.notMem_of_mem_splitOn hq⟩
  have hwords : ∀ q ∈ op.symbol :: Text.splitOn " " value, q ≠ [] → Inert q :=
    List.forall_mem_cons.2 ⟨fun _ => hsymbol, hvalue.inert⟩
  have hjoin : Text.join " " [s, op.symbol, value] =
      Text.join " " (s :: op.symbol :: Text.splitOn " " value) := by
    rw [Text.join_space, Text.join_space, Text.spaced_cons, Text.spaced_cons, Text.spaced_cons,
      Text.spaced_splitOn, Text.spaced_nil, List.append_nil]
  obtain ⟨init, c, hconcat, hc⟩ := exists_symbol_concat op
  obtain ⟨d, t, rfl⟩ := List.exists_cons_of_ne_nil hinert.ne_nil
  have hd := hs.isBlank hword d List.mem_cons_self
  -- nothing is trimmed in front of the word, and at the end nothing of the symbol
  have htrim := Text.trimEnd_append_cons hc (d :: t ++ .char ' ' :: init)
    (Text.spaced (valueWords value))
  rw [hjoin, canonical_join hinert hpieces hwords, List.filter_cons_of_pos (by simp [hsymbol.ne_nil]),
    Text.spaced_cons, List.cons_append, Text.trim, Text.trimStart_cons_of_not_blank hd]
  rw [hconcat]
  simpa [behindSymbol, valueWords] using htrim

/-- `Phrase.read` reads the canonical text of such a comparison with the same value whatever the
operator is. -/
theorem Phrase.read_canonical (hs : Spells s word) (hword : isEntry word = true)
    (hvalue : IsVerbatim value) (op : Comparison) :
    Phrase.read (canonical (Text.join " " [s, op.symbol, value])) =
      .ok (.comparison s op (givenValue value)) := by
  rw [canonical_comparison hs hword hvalue op]
  exact Phrase.read_symbol (hs.isBlank hword) (hs.notMem_operatorChars hword)
    hvalue.notMem_behindSymbol op

/-- `Text.breakOn` finds no conjunction in the canonical text of such a comparison. -/
theorem breakOn_canonical (hs : Spells s word) (hword : isEntry word = true)
    (hvalue : IsVerbatim value) (op : Comparison) {w : Text} (hw : .char ' ' ∉ w)
    (hkeyword : isOrdinary w = false) :
    Text.breakOn (.char ' ' :: (w ++ [.char ' ']))
      (canonical (Text.join " " [s, op.symbol, value])) = none := by
  have hinert := (hs.faithful hword).inert
  have hsymbol := (faithful_symbol op).inert
  have hwords : ∀ v ∈ op.symbol :: valueWords value, .char ' ' ∉ v ∧ v ≠ w := by
    have hne {v : Text} (hv : Inert v) : .char ' ' ∉ v ∧ v ≠ w := by
      refine ⟨hv.space, fun heq => ?_⟩
      have hv := hv.isOrdinary
      rw [heq, hkeyword] at hv
      cases hv
    refine List.forall_mem_cons.2 ⟨hne hsymbol, fun v hv => ?_⟩
    obtain ⟨hmem, hnil⟩ := List.mem_filter.1 hv
    exact hne (hvalue.inert v hmem (by simpa using hnil))
  have huntrimmed : Text.breakOn (.char ' ' :: (w ++ [.char ' ']))
      (s ++ Text.spaced (op.symbol :: valueWords value)) = none := by
    have hrest := Text.breakOn_spaced hw hwords (s := []) (by simp)
    rw [List.append_nil] at hrest
    rw [Text.breakOn_append hinert.space, hrest]
    rfl
  obtain ⟨q, hq, -⟩ := Text.exists_trimEnd_append (Text.spaced (valueWords value))
  have hfront : s ++ Text.spaced (op.symbol :: valueWords value) =
      canonical (Text.join " " [s, op.symbol, value]) ++ q := by
    rw [canonical_comparison hs hword hvalue op, Text.spaced_cons, hq]
    simp [behindSymbol]
  -- before the end is trimmed the text has no such word, so it has none afterwards
  rw [hfront] at huntrimmed
  exact Text.breakOn_eq_none_of_append huntrimmed

end Comparison

end Query

open Query

/-! ## Reading comparisons -/

/-- `CompiledQuery.read` reads a text without conjunctions as one clause of one expression. -/
theorem CompiledQuery.read_of_breakOn {text : Text} (hor : Text.breakOn " OR " text = none)
    (hand : Text.breakOn " AND " text = none) :
    (CompiledQuery.read text).result =
      (Expression.read false text).result.map fun x => ⟨[Clause.ofExpression x]⟩ := by
  have hclause : (Clause.read text).result =
      (Expression.read false text).result.map Clause.ofExpression := by
    rw [Clause.read, Text.cutOn_of_none hand]
    simp only [List.isEmpty_nil, Bool.not_true]
    cases (Expression.read false text).result <;> rfl
  rw [CompiledQuery.read, Text.splitOn, Text.cutOn_of_none hor]
  simp only [readClauses, hclause]
  cases (Expression.read false text).result <;> rfl

/-- `CompiledQuery.read` reads the canonical text of such a comparison as one clause, which asks for
what the operand stands for with the value. -/
theorem CompiledQuery.read_comparison {word s value : Text} {operand : Operand}
    (hoperand : operands.get? word = some operand) (hs : Spells s word)
    (hvalue : IsVerbatim value) (op : Comparison) :
    (CompiledQuery.read (canonical (Text.join " " [s, op.symbol, value]))).result =
      (operand.resolve false op (givenValue value)).map fun alternatives =>
        ⟨[{ target := operand.target, alternatives }]⟩ := by
  have hword : isEntry word = true :=
    isEntry_of_get? isEntry_of_mem_operands (by rw [hoperand]; rfl)
  have hor := breakOn_canonical hs hword hvalue op (w := "OR") (by decide) (by decide)
  have hand := breakOn_canonical hs hword hvalue op (w := "AND") (by decide) (by decide)
  have hlookUp : lookUp? operands s = some operand := by rw [hs.lookUp?_eq hword, hoperand]
  -- the text is not cut, so all of it is one expression
  rw [read_of_breakOn hor hand, Expression.read_result (Phrase.read_canonical hs hword hvalue op),
    Phrase.resolve, hlookUp]
  cases hresolve : operand.resolve false op (givenValue value) with
  | error fault => simp only [hresolve, Except.map]
  | ok alternatives => simp only [hresolve, Except.map, Clause.ofExpression]

end MeshLens
