import MeshLens.Proofs.Query.Grammar
import MeshLens.Proofs.Query.Lexeme
import Mathlib.Data.List.Forall2

/-!
# Canonical words

However a query is written in words, its canonical text has the same words, up to the case of the
words of the tables and the place of the mark of a negated flag. A phrase is respelled on its own,
except that a conjunction in front of it is respelled along with its first word: a respelling takes
the space on both sides of its word, and so passes over a word behind another one.

## Key results

- `Phrase.Spelling.exists_lexemes`: the canonical words of a phrase
- `canonical_layout`: the canonical text of words between spaces
- `Spelling.exists_lexemes`: the canonical words of a query, in rows
-/

namespace MeshLens.Query

/-- The ways that a phrase is written in a canonical text. -/
inductive Phrase.Canonical : Phrase → List Text → Prop
  | flag {word s : Text} (h : Spells s word) : Canonical (.flag false word) [s]
  | glued {word s : Text} (h : Spells s word) : Canonical (.flag true word) [.char '!' :: s]
  | apart {word s : Text} (h : Spells s word) : Canonical (.flag true word) [[.char '!'], s]
  | comparison {word s value : Text} {op : Comparison} (h : Spells s word) :
    Canonical (.comparison word op value) [s, op.symbol, value]

/-! ## Words of the tables -/

/-- Whether a text is made of small letters and percent signs, and is no word that is respelled. -/
def isEntry (word : Text) : Bool :=
  !word.isEmpty && word.all (fun c => c == '%' || 'a' ≤ c && c ≤ 'z') && isOrdinary word

/-- `isEntry` holds of the words for operands. -/
theorem isEntry_of_mem_operands : ∀ entry ∈ operands, isEntry entry.1 = true := by
  decide +kernel

/-- `isEntry` holds of the words for flags. -/
theorem isEntry_of_mem_flags : ∀ entry ∈ flags, isEntry entry.1 = true := by
  decide +kernel

/-- `isEntry` holds of what is found in a table of such words. -/
theorem isEntry_of_get? {α : Type} {table : Entries α} (h : ∀ entry ∈ table, isEntry entry.1 = true)
    {word : Text} (hword : (table.get? word).isSome = true) : isEntry word = true := by
  induction table with
  | nil => cases hword
  | cons entry table ih =>
    obtain ⟨key, value⟩ := entry
    rw [Entries.get?_cons] at hword
    split at hword
    · rename_i hkey
      rw [← hkey]
      exact h _ List.mem_cons_self
    · exact ih (fun e he => h e (List.mem_cons_of_mem _ he)) hword

/-- `Text.smallLetter` of a character is one of a word of the tables for percent signs and letters
only. -/
theorem range_of_smallLetter {c : CodePoint}
    (h : (Text.smallLetter c == '%' || 'a' ≤ Text.smallLetter c && Text.smallLetter c ≤ 'z') = true) :
    c.toNat = 37 ∨ (65 ≤ c.toNat ∧ c.toNat ≤ 90) ∨ (97 ≤ c.toNat ∧ c.toNat ≤ 122) := by
  -- a capital is in range, and any other character is its own small letter
  by_cases hcapital : ('A' : CodePoint) ≤ c ∧ c ≤ ('Z' : CodePoint)
  · exact .inr (.inl hcapital)
  · rw [Text.smallLetter, if_neg hcapital] at h
    simp only [Bool.or_eq_true, Bool.and_eq_true, beq_iff_eq, decide_eq_true_eq] at h
    rcases h with rfl | h
    · exact .inl rfl
    · exact .inr (.inr h)

section Spells

variable {word s : Text}

/-- `Spells` of a word of the tables holds percent signs and letters only. -/
theorem Spells.range (h : Spells s word) (hword : isEntry word = true) :
    ∀ c ∈ s, c.toNat = 37 ∨ (65 ≤ c.toNat ∧ c.toNat ≤ 90) ∨ (97 ≤ c.toNat ∧ c.toNat ≤ 122) := by
  intro c hc
  simp only [isEntry, Bool.and_eq_true] at hword
  refine range_of_smallLetter (List.all_eq_true.1 hword.1.2 _ ?_)
  rw [← h]
  exact List.mem_map_of_mem hc

/-- `Spells` of a word of the tables is not empty. -/
theorem Spells.ne_nil (h : Spells s word) (hword : isEntry word = true) : s ≠ [] := by
  rintro rfl
  rw [← h] at hword
  cases hword

/-- `Spells` of a word of the tables holds no white space. -/
theorem Spells.isBlank (h : Spells s word) (hword : isEntry word = true) :
    ∀ c ∈ s, Text.isBlank c = false := by
  intro c hc
  have hrange := h.range hword c hc
  simp [Text.isBlank]
  omega

/-- `Spells` of a word of the tables holds no character of an operator. -/
theorem Spells.notMem_operatorChars (h : Spells s word) (hword : isEntry word = true) :
    ∀ c ∈ s, c ∉ operatorChars := by
  intro c hc hmem
  have hrange := h.range hword c hc
  simp only [operatorChars, List.mem_cons, List.not_mem_nil, or_false] at hmem
  rcases hmem with rfl | rfl | rfl | rfl | rfl | rfl | rfl <;> exact absurd hrange (by decide)

/-- `Spells` of a word of the tables is no word that is respelled, in whatever case. -/
theorem Spells.isOrdinary (h : Spells s word) (hword : isEntry word = true) :
    isOrdinary s = true := by
  have hrange := h.range hword
  -- the long s and the forms of i cannot occur, so folding is putting in small letters
  have hfold : s.map folded = word := by
    rw [← h]
    refine List.map_congr_left fun c hc => ?_
    have hc := hrange c hc
    have hs : ¬c = CodePoint.char 'ſ' := by rintro rfl; exact absurd hc (by decide)
    have hi : ¬(c = CodePoint.char 'İ' ∨ c = CodePoint.char 'ı') := by
      rintro (rfl | rfl) <;> exact absurd hc (by decide)
    rw [folded, if_neg hs, if_neg hi]
  simp only [isEntry, Bool.and_eq_true] at hword
  simp only [Query.isOrdinary, List.all_eq_true, Bool.not_eq_true', Bool.eq_false_iff]
  intro w _ hform
  have hself : word = w.text := by rw [← hfold, map_folded_of_isForm w.isLower_text hform]
  refine absurd (not_isForm_of_isOrdinary hword.2 w) ?_
  rw [hself, isForm_of_map_smallLetter]
  · exact Bool.noConfusion
  · cases w <;> decide

/-- `Spells` of a word of the tables is a plain lexeme. -/
theorem Spells.faithful (h : Spells s word) (hword : isEntry word = true) :
    (Lexeme.plain s).Faithful := by
  have hmark (t : Text) : s ≠ .char '!' :: t := by
    intro hs
    refine h.notMem_operatorChars hword (.char '!') ?_ (by decide)
    rw [hs]
    exact List.mem_cons_self
  refine ⟨h.ne_nil hword, hmark [], h.isBlank hword, h.isOrdinary hword, fun hhead => ?_⟩
  obtain ⟨t, ht⟩ := List.head?_eq_some_iff.1 hhead
  exact absurd ht (hmark t)

end Spells

/-! ## Values -/

/-- `isOrdinary` holds of the texts that are no keyword. -/
theorem isOrdinary_eq_not_isKeyword (s : Text) : isOrdinary s = !isKeyword s := by
  simp [isOrdinary, isKeyword, isForm, Keyword.all, Keyword.text]

/-- `IsValue` texts are plain lexemes. -/
theorem IsValue.faithful {value : Text} (h : IsValue value) : (Lexeme.plain value).Faithful := by
  have hmark (t : Text) : value ≠ .char '!' :: t := by
    intro hvalue
    refine h.notMem_operatorChars (.char '!') ?_ (by decide)
    rw [hvalue]
    exact List.mem_cons_self
  refine ⟨h.ne_nil, hmark [], h.isBlank, ?_, fun hhead => ?_⟩
  · rw [isOrdinary_eq_not_isKeyword, h.isKeyword]
    rfl
  · obtain ⟨t, ht⟩ := List.head?_eq_some_iff.1 hhead
    exact absurd ht (hmark t)

/-- `symbol` of an operator is a plain lexeme. -/
theorem faithful_symbol (op : Comparison) : (Lexeme.plain op.symbol).Faithful := by
  cases op <;> decide

/-! ## Rows of lexemes -/

/-- What may stand in front of a phrase, and what becomes of it. -/
inductive Lead : List Lexeme → List Lexeme → Prop
  | none : Lead [] []
  | and (s : Text) : Lead [.word .and s] [.word .and "AND"]
  | or (s : Text) : Lead [.word .or s] [.word .or "OR"]

/-- Whether lexemes are respelled as words, also behind a conjunction. -/
structure Respells (ls : List Lexeme) (words : List Text) : Prop where
  faithful : ∀ x ∈ ls, x.Faithful
  ne_nil : ls ≠ []
  endsPlain : Rewrite.EndsPlain ls
  respelled_lead : ∀ {lead kept : List Lexeme}, Lead lead kept →
    (respelled (lead ++ ls)).map Lexeme.text = kept.map Lexeme.text ++ words

/-- `Respells` holds of a row that ends with a plain lexeme. -/
theorem Respells.of_concat {init out : List Lexeme} {s : Text} {words : List Text}
    (hinit : ∀ x ∈ init, x.Faithful) (hs : (Lexeme.plain s).Faithful)
    (h : ∀ {lead kept : List Lexeme}, Lead lead kept →
      respelled (lead ++ (init ++ [.plain s])) = kept ++ out)
    (hout : out.map Lexeme.text = words) : Respells (init ++ [.plain s]) words where
  faithful := List.forall_mem_append.2 ⟨hinit, List.forall_mem_singleton.2 hs⟩
  ne_nil := List.append_ne_nil_of_right_ne_nil _ (List.cons_ne_nil _ _)
  endsPlain := Rewrite.endsPlain_append _ (List.cons_ne_nil _ _) (Rewrite.endsPlain_singleton s)
  respelled_lead := fun hlead => by rw [h hlead, List.map_append, hout]

/-- `Respells` goes through two rows with a conjunction between them one by one. -/
theorem Respells.append {xs ys : List Lexeme} {words more : List Text} (hxs : Respells xs words)
    (hys : Respells ys more) {x : Lexeme} {w : Text} (hx : x.Faithful)
    (hlead : Lead [x] [.word .and w] ∨ Lead [x] [.word .or w]) :
    Respells (xs ++ x :: ys) (words ++ w :: more) where
  faithful := List.forall_mem_append.2 ⟨hxs.faithful, List.forall_mem_cons.2 ⟨hx, hys.faithful⟩⟩
  ne_nil := List.append_ne_nil_of_left_ne_nil hxs.ne_nil _
  endsPlain := by
    rw [List.append_cons]
    exact Rewrite.endsPlain_append _ hys.ne_nil hys.endsPlain
  respelled_lead := by
    intro lead kept h
    have hfront := Rewrite.endsPlain_append lead hxs.ne_nil hxs.endsPlain
    -- the conjunction is in front of the second row, and the first row does not see it
    have hback : (respelled (x :: ys)).map Lexeme.text = w :: more := by
      rcases hlead with hlead | hlead
      all_goals
        have := hys.respelled_lead hlead
        rwa [List.singleton_append] at this
    rw [← List.append_assoc, respelled_append hfront, List.map_append, hxs.respelled_lead h, hback,
      List.append_assoc]

/-! ## Phrases -/

/-- The rows of words that mean nothing in front of a flag. -/
inductive Qualifiers : List Lexeme → Prop
  | none : Qualifiers []
  | is (s : Text) : Qualifiers [.word .is s]
  | has (s : Text) : Qualifiers [.word .has s]

/-- `AreQualifiers` words are lexemes that mean nothing in front of a flag. -/
theorem AreQualifiers.exists_lexemes {words : List Text} (h : AreQualifiers words) :
    ∃ ls, Qualifiers ls ∧ ls.map Lexeme.text = words ∧ ∀ x ∈ ls, x.Faithful := by
  rcases h with rfl | ⟨s, rfl, hs | hs⟩
  · exact ⟨[], .none, rfl, by simp⟩
  · exact ⟨_, .is s, rfl, List.forall_mem_singleton.2 (isForm_of_map_smallLetter hs)⟩
  · exact ⟨_, .has s, rfl, List.forall_mem_singleton.2 (isForm_of_map_smallLetter hs)⟩

section Cases

variable {lead kept front back : List Lexeme}

/-- `respelled` drops words that mean nothing in front of a flag. -/
theorem respelled_flag (hlead : Lead lead kept) (hfront : Qualifiers front) (s : Text) :
    respelled (lead ++ (front ++ [.plain s])) = kept ++ [.plain s] := by
  cases hlead <;> cases hfront <;> simp [respelled, rewrites, Rewrite.run, Rewrite.put]

/-- `respelled` makes a mark that stands alone of a mark on a word that means nothing. -/
theorem respelled_marked (hlead : Lead lead kept) (hfront : Qualifiers front) {w : Keyword}
    (hw : w = .is ∨ w = .has) (q s : Text) :
    respelled (lead ++ ((front ++ [.marked w q]) ++ [.plain s])) = kept ++ [.mark, .plain s] := by
  rcases hw with rfl | rfl <;> cases hlead <;> cases hfront <;>
    simp [respelled, rewrites, Rewrite.run, Rewrite.put]

/-- `respelled` leaves a mark in front of a flag, and drops the words around it. -/
theorem respelled_mark (hlead : Lead lead kept) (hfront : Qualifiers front)
    (hback : Qualifiers back) (s : Text) :
    respelled (lead ++ ((front ++ .mark :: back) ++ [.plain s])) = kept ++ [.mark, .plain s] := by
  cases hlead <;> cases hfront <;> cases hback <;>
    simp [respelled, rewrites, Rewrite.run, Rewrite.put]

/-- `respelled` makes a mark on the next word that is not dropped of a word of negation. -/
theorem respelled_not (hlead : Lead lead kept) (hfront : Qualifiers front)
    (hback : Qualifiers back) (n s : Text) :
    respelled (lead ++ ((front ++ .word .not n :: back) ++ [.plain s])) =
      kept ++ [.plain (.char '!' :: s)] := by
  cases hlead <;> cases hfront <;> cases hback <;>
    simp [respelled, rewrites, Rewrite.run, Rewrite.put, Lexeme.glue, Lexeme.text]

/-- `respelled` leaves a comparison that is written with its symbol. -/
theorem respelled_symbol (hlead : Lead lead kept) (s t v : Text) :
    respelled (lead ++ ([.plain s, .plain t] ++ [.plain v])) =
      kept ++ [.plain s, .plain t, .plain v] := by
  cases hlead <;> simp [respelled, rewrites, Rewrite.run, Rewrite.put]

/-- `respelled` puts a word of negation as a mark on the symbol behind it. -/
theorem respelled_notSymbol (hlead : Lead lead kept) (s n t v : Text) :
    respelled (lead ++ ([.plain s, .word .not n, .plain t] ++ [.plain v])) =
      kept ++ [.plain s, .plain (.char '!' :: t), .plain v] := by
  cases hlead <;> simp [respelled, rewrites, Rewrite.run, Rewrite.put, Lexeme.glue, Lexeme.text]

/-- `respelled` makes its symbol of a word for a relation. -/
theorem respelled_operator {op : Comparison} (hop : op.negated = false) {w : Text}
    (hw : op.relation.word? = some w) : ∃ k : Keyword, k.text = w ∧
      ∀ {lead kept : List Lexeme}, Lead lead kept → ∀ s t v,
        respelled (lead ++ ([.plain s, .word k t] ++ [.plain v])) =
          kept ++ [.plain s, .plain op.symbol, .plain v] := by
  -- three relations have a word
  cases op <;> cases hop <;> cases hw
  case contains =>
    refine ⟨.contains, rfl, fun hlead s t v => ?_⟩
    cases hlead <;> simp [respelled, rewrites, Rewrite.run, Rewrite.put] <;> rfl
  case startsWith =>
    refine ⟨.startsWith, rfl, fun hlead s t v => ?_⟩
    cases hlead <;> simp [respelled, rewrites, Rewrite.run, Rewrite.put] <;> rfl
  case endsWith =>
    refine ⟨.endsWith, rfl, fun hlead s t v => ?_⟩
    cases hlead <;> simp [respelled, rewrites, Rewrite.run, Rewrite.put] <;> rfl

/-- The ways of denying a relation by words, in lexemes. -/
inductive Denies (k : Keyword) : List Lexeme → Prop
  | marked (t : Text) : Denies k [.marked k t]
  | mark (t : Text) : Denies k [.mark, .word k t]
  | not (n t : Text) : Denies k [.word .not n, .word k t]

/-- `respelled` makes the symbol of the negation of a word for a relation that is denied. -/
theorem respelled_denied {op : Comparison} (hop : op.negated = true) {w : Text}
    (hw : op.relation.word? = some w) : ∃ k : Keyword, k.text = w ∧
      ∀ {lead kept ls : List Lexeme}, Lead lead kept → Denies k ls → ∀ s v,
        respelled (lead ++ ((.plain s :: ls) ++ [.plain v])) =
          kept ++ [.plain s, .plain op.symbol, .plain v] := by
  -- the negations of the same three relations
  cases op <;> cases hop <;> cases hw
  case notContains =>
    refine ⟨.contains, rfl, fun hlead hls s v => ?_⟩
    cases hlead <;> cases hls <;>
      simp [respelled, rewrites, Rewrite.run, Rewrite.put, Lexeme.glue] <;> rfl
  case notStartsWith =>
    refine ⟨.startsWith, rfl, fun hlead hls s v => ?_⟩
    cases hlead <;> cases hls <;>
      simp [respelled, rewrites, Rewrite.run, Rewrite.put, Lexeme.glue] <;> rfl
  case notEndsWith =>
    refine ⟨.endsWith, rfl, fun hlead hls s v => ?_⟩
    cases hlead <;> cases hls <;>
      simp [respelled, rewrites, Rewrite.run, Rewrite.put, Lexeme.glue] <;> rfl

end Cases

/-- `Spells` of a keyword is a lexeme of it. -/
theorem faithful_word {k : Keyword} {s : Text} (h : Spells s k.text) :
    (Lexeme.word k s).Faithful :=
  isForm_of_map_smallLetter h

/-- `Phrase.Spelling` of a flag is respelled as canonical words. -/
theorem Phrase.Spelling.exists_lexemes_flag {b : Bool} {word : Text} (hword : isEntry word = true)
    {words : List Text} (h : (Phrase.flag b word).Spelling words) :
    ∃ ls kept, ls.map Lexeme.text = words ∧ (Phrase.flag b word).Canonical kept ∧
      Respells ls kept := by
  -- one case for each way of writing a flag
  cases h with
  | @flag _ s front hfront hs =>
    obtain ⟨fs, hqualifiers, rfl, hfaithful⟩ := hfront.exists_lexemes
    exact ⟨_, _, List.map_append, .flag hs, .of_concat hfaithful (hs.faithful hword)
      (fun hlead => respelled_flag hlead hqualifiers s) rfl⟩
  | @glued _ s front hfront hs =>
    obtain ⟨fs, hqualifiers, rfl, hfaithful⟩ := hfront.exists_lexemes
    exact ⟨_, _, List.map_append, .glued hs,
      .of_concat hfaithful (Lexeme.faithful_glue (hs.faithful hword))
        (fun hlead => respelled_flag hlead hqualifiers _) rfl⟩
  | @gluedQualifier _ s q front hfront hq hs =>
    obtain ⟨fs, hqualifiers, rfl, hfaithful⟩ := hfront.exists_lexemes
    obtain ⟨w, hw, hform⟩ : ∃ w : Keyword, (w = .is ∨ w = .has) ∧ isForm w.text q = true := by
      rcases hq with hq | hq
      · exact ⟨.is, .inl rfl, isForm_of_map_smallLetter hq⟩
      · exact ⟨.has, .inr rfl, isForm_of_map_smallLetter hq⟩
    have hinit : ∀ x ∈ fs ++ [.marked w q], x.Faithful :=
      List.forall_mem_append.2 ⟨hfaithful, List.forall_mem_singleton.2 hform⟩
    exact ⟨(fs ++ [.marked w q]) ++ [.plain s], _, by simp [Lexeme.text], .apart hs,
      .of_concat hinit (hs.faithful hword)
        (fun hlead => respelled_marked hlead hqualifiers hw q s) rfl⟩
  | @negated _ s n front back hfront hn hback hs =>
    obtain ⟨fs, hqualifiers, rfl, hfaithful⟩ := hfront.exists_lexemes
    obtain ⟨bs, hmore, rfl, hrest⟩ := hback.exists_lexemes
    -- a mark stays where it is, and `not` becomes a mark on the flag
    rcases hn with rfl | hn
    · have hinit : ∀ x ∈ fs ++ .mark :: bs, x.Faithful :=
        List.forall_mem_append.2 ⟨hfaithful, List.forall_mem_cons.2 ⟨trivial, hrest⟩⟩
      exact ⟨(fs ++ .mark :: bs) ++ [.plain s], _, by simp [Lexeme.text], .apart hs,
        .of_concat hinit (hs.faithful hword)
          (fun hlead => respelled_mark hlead hqualifiers hmore s) rfl⟩
    · have hinit : ∀ x ∈ fs ++ .word .not n :: bs, x.Faithful :=
        List.forall_mem_append.2 ⟨hfaithful, List.forall_mem_cons.2 ⟨faithful_word hn, hrest⟩⟩
      exact ⟨(fs ++ .word .not n :: bs) ++ [.plain s], _, by simp [Lexeme.text], .glued hs,
        .of_concat hinit (hs.faithful hword)
          (fun hlead => respelled_not hlead hqualifiers hmore n s) rfl⟩

/-- `Phrase.Spelling` of a comparison is respelled as canonical words. -/
theorem Phrase.Spelling.exists_lexemes_comparison {word value : Text} {op : Comparison}
    (hword : isEntry word = true) (hvalue : IsValue value) {words : List Text}
    (h : (Phrase.comparison word op value).Spelling words) :
    ∃ ls kept, ls.map Lexeme.text = words ∧ (Phrase.comparison word op value).Canonical kept ∧
      Respells ls kept := by
  have hsymbol := faithful_symbol op
  -- one case for each way of writing a comparison
  cases h with
  | @symbol _ s _ _ hs =>
    refine ⟨[.plain s, .plain op.symbol] ++ [.plain value], _, rfl, .comparison hs,
      .of_concat ?_ hvalue.faithful (fun hlead => respelled_symbol hlead s _ value) rfl⟩
    simpa using ⟨hs.faithful hword, hsymbol⟩
  | @operator _ s w t _ _ hs hop hw ht =>
    obtain ⟨k, rfl, hrespelled⟩ := respelled_operator hop hw
    refine ⟨[.plain s, .word k t] ++ [.plain value], _, rfl, .comparison hs,
      .of_concat ?_ hvalue.faithful (fun hlead => hrespelled hlead s t value) rfl⟩
    simpa using ⟨hs.faithful hword, faithful_word ht⟩
  | @gluedOperator _ s w t _ _ hs hop hw ht =>
    obtain ⟨k, rfl, hrespelled⟩ := respelled_denied hop hw
    refine ⟨[.plain s, .marked k t] ++ [.plain value], _, rfl, .comparison hs,
      .of_concat ?_ hvalue.faithful (fun hlead => hrespelled hlead (.marked t) s value) rfl⟩
    simpa using ⟨hs.faithful hword, (faithful_word ht : (Lexeme.marked k t).Faithful)⟩
  | @negatedOperator _ s n w t _ _ hs hn hop hw ht =>
    obtain ⟨k, rfl, hrespelled⟩ := respelled_denied hop hw
    rcases hn with rfl | hn
    · refine ⟨[.plain s, .mark, .word k t] ++ [.plain value], _, rfl, .comparison hs,
        .of_concat ?_ hvalue.faithful (fun hlead => hrespelled hlead (.mark t) s value) rfl⟩
      simpa using ⟨hs.faithful hword, trivial, faithful_word ht⟩
    · refine ⟨[.plain s, .word .not n, .word k t] ++ [.plain value], _, rfl, .comparison hs,
        .of_concat ?_ hvalue.faithful (fun hlead => hrespelled hlead (.not n t) s value) rfl⟩
      simpa using ⟨hs.faithful hword, faithful_word (k := .not) hn, faithful_word ht⟩
  | @notSymbol _ s n sym _ _ hs hn hop =>
    have hsym : (Lexeme.plain sym).Faithful := by
      cases op <;> cases hop <;> decide
    refine ⟨[.plain s, .word .not n, .plain sym] ++ [.plain value], _, rfl, .comparison hs,
      .of_concat ?_ hvalue.faithful (fun hlead => respelled_notSymbol hlead s n sym value) ?_⟩
    · simpa using ⟨hs.faithful hword, faithful_word (k := .not) hn, hsym⟩
    · rw [hop]
      rfl

/-- `Phrase.Spelling` is respelled as canonical words. -/
theorem Phrase.Spelling.exists_lexemes {p : Phrase} (hp : p.Admissible) {words : List Text}
    (h : p.Spelling words) :
    ∃ ls kept, ls.map Lexeme.text = words ∧ p.Canonical kept ∧ Respells ls kept := by
  cases p with
  | flag b word => exact exists_lexemes_flag (isEntry_of_get? isEntry_of_mem_flags hp) h
  | comparison word op value =>
    obtain ⟨operand, hoperand, hvalue, -⟩ := hp
    have hsome : (operands.get? word).isSome = true := by rw [hoperand]; rfl
    exact exists_lexemes_comparison (isEntry_of_get? isEntry_of_mem_operands hsome) hvalue h

/-! ## Clauses and queries -/

/-- `Phrase.Canonical` words are some. -/
theorem Phrase.Canonical.ne_nil {p : Phrase} {words : List Text} (h : p.Canonical words) :
    words ≠ [] := by
  cases h <;> exact List.cons_ne_nil _ _

/-- The canonical words of the phrases of a clause, with `AND` between them. -/
def ClauseCanonical (phrases : List Phrase) (words : List Text) : Prop :=
  ∃ rows, List.Forall₂ Phrase.Canonical phrases rows ∧ words = [Text.ofString "AND"].intercalate rows

/-- `ClauseSpelling` is respelled as canonical words, with `AND` between the phrases. -/
theorem ClauseSpelling.exists_lexemes {phrases : List Phrase}
    (hphrases : ∀ p ∈ phrases, p.Admissible) {words : List Text}
    (h : ClauseSpelling phrases words) :
    ∃ ls kept, ls.map Lexeme.text = words ∧ ClauseCanonical phrases kept ∧ Respells ls kept := by
  -- induction on the clause, a conjunction standing between its phrases
  induction h with
  | one h =>
    obtain ⟨ls, kept, hwords, hkept, hls⟩ := h.exists_lexemes (hphrases _ List.mem_cons_self)
    exact ⟨ls, kept, hwords, ⟨[kept], .cons hkept .nil, by simp⟩, hls⟩
  | @more p ps words rest s h hs hrest ih =>
    rw [List.forall_mem_cons] at hphrases
    obtain ⟨ls, kept, rfl, hkept, hls⟩ := h.exists_lexemes hphrases.1
    obtain ⟨ms, more, rfl, ⟨rows, hrows, rfl⟩, hms⟩ := ih hphrases.2
    refine ⟨ls ++ .word .and s :: ms, _, by simp [Lexeme.text],
      ⟨kept :: rows, .cons hkept hrows, rfl⟩, ?_⟩
    -- a clause that goes on has another phrase
    have hne : rows ≠ [] := by
      rintro rfl
      cases hrows
      cases hrest
    rw [List.intercalate_cons_of_ne_nil hne, List.append_assoc]
    exact hls.append hms (faithful_word hs) (.inl (.and s))

/-- `Spelling` is respelled as canonical words, with `OR` between the clauses. -/
theorem Spelling.exists_lexemes {clauses : List (List Phrase)}
    (hclauses : ∀ phrases ∈ clauses, ∀ p ∈ phrases, p.Admissible) {words : List Text}
    (h : Spelling clauses words) :
    ∃ ls rows, ls.map Lexeme.text = words ∧ List.Forall₂ ClauseCanonical clauses rows ∧
      Respells ls ([Text.ofString "OR"].intercalate rows) := by
  -- induction on the query, a conjunction standing between its clauses
  induction h with
  | one h =>
    obtain ⟨ls, kept, hwords, hkept, hls⟩ := h.exists_lexemes (hclauses _ List.mem_cons_self)
    exact ⟨ls, [kept], hwords, .cons hkept .nil, by simpa using hls⟩
  | @more phrases clauses words rest s h hs hrest ih =>
    rw [List.forall_mem_cons] at hclauses
    obtain ⟨ls, kept, rfl, hkept, hls⟩ := h.exists_lexemes hclauses.1
    obtain ⟨ms, rows, rfl, hrows, hms⟩ := ih hclauses.2
    refine ⟨ls ++ .word .or s :: ms, kept :: rows, by simp [Lexeme.text], .cons hkept hrows, ?_⟩
    -- a query that goes on has another clause
    have hne : rows ≠ [] := by
      rintro rfl
      cases hrows
      cases hrest
    rw [List.intercalate_cons_of_ne_nil hne, List.append_assoc]
    exact hls.append hms (faithful_word hs) (.inr (.or s))

/-! ## The canonical text -/

/-- `collapse` leaves a character that is no space. -/
theorem collapse_cons {c : CodePoint} (hc : c ≠ .char ' ') (s : Text) :
    collapse (c :: s) = c :: collapse s := by
  rw [collapse]
  exact if_neg fun h => hc h.1

/-- `collapse` leaves a space unless another one follows. -/
theorem collapse_space (s : Text) :
    collapse (.char ' ' :: s) =
      if s.head? = some (.char ' ') then collapse s else .char ' ' :: collapse s := by
  rw [collapse]
  by_cases hs : s.head? = some (.char ' ')
  · rw [if_pos hs]
    exact if_pos ⟨rfl, hs⟩
  · rw [if_neg hs]
    exact if_neg fun h => hs h.2

/-- `collapse` leaves a word without spaces. -/
theorem collapse_append {w : Text} (hw : .char ' ' ∉ w) (s : Text) :
    collapse (w ++ s) = w ++ collapse s := by
  induction w with
  | nil => rfl
  | cons c w ih =>
    rw [List.mem_cons, not_or] at hw
    rw [List.cons_append, collapse_cons (Ne.symm hw.1), ih hw.2]
    rfl

/-- `collapse` takes spaces on both sides of another character out apart. -/
theorem collapse_append_cons {c : CodePoint} (hc : c ≠ .char ' ') (a b : Text) :
    collapse (a ++ c :: b) = collapse a ++ c :: collapse b := by
  induction a with
  | nil => exact collapse_cons hc b
  | cons d a ih =>
    by_cases hd : d = .char ' '
    · subst hd
      have hhead : (a ++ c :: b).head? = some (.char ' ') ↔ a.head? = some (.char ' ') := by
        cases a <;> simp [hc]
      rw [List.cons_append, collapse_space, collapse_space, ih]
      by_cases hspace : a.head? = some (.char ' ')
      · rw [if_pos hspace, if_pos (hhead.2 hspace)]
      · rw [if_neg hspace, if_neg fun h => hspace (hhead.1 h), List.cons_append]
    · rw [List.cons_append, collapse_cons hd, collapse_cons hd, ih, List.cons_append]

/-- `collapse` leaves one space of several. -/
theorem collapse_replicate (n : Nat) {s : Text} (hs : s.head? ≠ some (.char ' ')) :
    collapse (List.replicate n (.char ' ') ++ s) =
      (if n = 0 then [] else [.char ' ']) ++ collapse s := by
  induction n with
  | zero => rfl
  | succ n ih =>
    rw [List.replicate_succ, List.cons_append, collapse_space, ih]
    -- a space stays only in front of something else, so the last one does
    cases n with
    | zero => simp [hs]
    | succ n => simp [List.replicate_succ]

/-- `Layout` texts begin with no space. -/
theorem Layout.head? {words : List Text} {s : Text} (h : Layout words s)
    (hwords : ∀ w ∈ words, w ≠ [] ∧ .char ' ' ∉ w) : s.head? ≠ some (.char ' ') := by
  have hfront {w t : Text} (hw : w ≠ [] ∧ .char ' ' ∉ w) :
      (w ++ t).head? ≠ some (.char ' ') := by
    obtain ⟨c, w, rfl⟩ := List.exists_cons_of_ne_nil hw.1
    intro h
    exact hw.2 ((Option.some.inj h) ▸ List.mem_cons_self)
  cases h with
  | last w n => exact hfront (hwords w List.mem_cons_self)
  | next w n h => exact hfront (hwords w List.mem_cons_self)

/-- `collapse` of a layout leaves single spaces between the words, and one at most behind them. -/
theorem Layout.collapse_eq {words : List Text} {s : Text} (h : Layout words s)
    (hwords : ∀ w ∈ words, w ≠ [] ∧ .char ' ' ∉ w) :
    ∃ u, (u = [] ∨ u = [.char ' ']) ∧ .char ' ' :: collapse s = Text.spaced words ++ u := by
  induction h with
  | last w n =>
    -- of the spaces behind the last word one is left, if there are any
    refine ⟨if n = 0 then [] else [.char ' '], ?_, ?_⟩
    · split
      · exact .inl rfl
      · exact .inr rfl
    · have hend := collapse_replicate n (s := []) (by simp)
      rw [List.append_nil, collapse, List.append_nil] at hend
      rw [collapse_append (hwords w List.mem_cons_self).2, hend]
      simp
  | @next w n words s h ih =>
    rw [List.forall_mem_cons] at hwords
    obtain ⟨u, hu, hrest⟩ := ih hwords.2
    refine ⟨u, hu, ?_⟩
    -- of the spaces between two words one is left
    rw [collapse_append hwords.1.2, collapse_replicate _ (h.head? hwords.2)]
    rw [if_neg (Nat.succ_ne_zero n), List.singleton_append, hrest, Text.spaced_cons,
      List.cons_append, List.append_assoc]

/-- `Respells` without anything in front. -/
theorem Respells.words_eq {ls : List Lexeme} {words : List Text} (h : Respells ls words) :
    (respelled ls).map Lexeme.text = words := by
  have := h.respelled_lead .none
  rwa [List.nil_append, List.map_nil, List.nil_append] at this

/-- `Respells` into one word at least. -/
theorem Respells.words_ne_nil {ls : List Lexeme} {words : List Text} (h : Respells ls words) :
    words ≠ [] := by
  rw [← h.words_eq]
  exact fun hnil => respelled_ne_nil h.ne_nil (List.map_eq_nil_iff.1 hnil)

/-- `Respells` into words without white space. -/
theorem Respells.plain {ls : List Lexeme} {words : List Text} (h : Respells ls words) :
    ∀ w ∈ words, w ≠ [] ∧ ∀ c ∈ w, Text.isBlank c = false := by
  intro w hw
  rw [← h.words_eq] at hw
  obtain ⟨x, hx, rfl⟩ := List.mem_map.1 hw
  have hx := faithful_respelled h.faithful x hx
  exact ⟨Lexeme.text_ne_nil hx, Lexeme.isBlank_text hx⟩

/-- `canonical` of words between spaces are the words that they are respelled as, with single spaces
between. -/
theorem canonical_layout {ls : List Lexeme} {words : List Text} (hls : Respells ls words) {s : Text}
    (h : Layout (ls.map Lexeme.text) s) (n : Nat) :
    canonical (List.replicate n (.char ' ') ++ s) = Text.join " " words := by
  have hplain : ∀ w ∈ ls.map Lexeme.text, w ≠ [] ∧ .char ' ' ∉ w := by
    intro w hw
    obtain ⟨x, hx, rfl⟩ := List.mem_map.1 hw
    have hx := hls.faithful x hx
    exact ⟨Lexeme.text_ne_nil hx, Lexeme.space_notMem_text hx⟩
  obtain ⟨u, hu, hrest⟩ := h.collapse_eq hplain
  -- of the spaces in front one may be left besides the one that is put there
  obtain ⟨v, hv, hfront⟩ : ∃ v : Text, (v = [] ∨ v = [.char ' ']) ∧
      .char ' ' :: collapse (List.replicate n (.char ' ') ++ s) =
        v ++ (Text.spaced (ls.map Lexeme.text) ++ u) := by
    rw [← hrest, collapse_replicate n (h.head? hplain)]
    split
    · exact ⟨[], .inl rfl, rfl⟩
    · exact ⟨[.char ' '], .inr rfl, rfl⟩
  have hblank {t : Text} (ht : t = [] ∨ t = [.char ' ']) : ∀ c ∈ t, Text.isBlank c = true := by
    rcases ht with rfl | rfl <;> decide
  rw [canonical, hfront, foldl_respellings hls.ne_nil hls.faithful hls.endsPlain hv hu,
    hls.words_eq]
  exact Text.trim_spaced (hblank hv) (hblank hu) hls.words_ne_nil hls.plain

/-- `Respells` into words whose text is not empty. -/
theorem Respells.join_ne_nil {ls : List Lexeme} {words : List Text} (hls : Respells ls words) :
    Text.join " " words ≠ [] := by
  obtain ⟨w, ws, rfl⟩ := List.exists_cons_of_ne_nil hls.words_ne_nil
  rw [Text.join_space]
  exact List.append_ne_nil_of_left_ne_nil (hls.plain w List.mem_cons_self).1 _

end MeshLens.Query
