import MeshLens.Proofs.Selector.Syntax

/-!
# Reading selectors back

A text that is written by the syntax reads back as what it was written for, also where a value is a row
of literals: both scans pass over the row, and the reader of values looks at its two ends only.

## Key results

- `Predicate.Written.read_eq`: a predicate reads back
- `Selector.readGroup_written`: a group reads back
- `Selector.Written.parse_eq`: a selector reads back
-/

namespace MeshLens

/-! ## Names -/

namespace Selector

/-- The numbers of the characters that are white space. -/
private def blanks : List Nat :=
  [9, 10, 11, 12, 13, 28, 29, 30, 31, 32, 0x85, 0xA0, 0x1680, 0x2000, 0x2001, 0x2002, 0x2003,
    0x2004, 0x2005, 0x2006, 0x2007, 0x2008, 0x2009, 0x200A, 0x2028, 0x2029, 0x202F, 0x205F, 0x3000]

/-- `isNameStart`, `isAttributeChar` and `isClassChar` hold of no white space. -/
theorem name_chars_of_isBlank {c : CodePoint} (h : Text.isBlank c = true) :
    isNameStart c = false ∧ isAttributeChar c = false ∧ isClassChar c = false := by
  -- the few characters that are white space are tried one by one
  have hall : ∀ n ∈ blanks, isNameStart (.ofNat n) = false ∧ isAttributeChar (.ofNat n) = false ∧
      isClassChar (.ofNat n) = false := by
    decide +kernel
  rw [← CodePoint.ofNat_toNat c]
  refine hall c.toNat ?_
  simp only [Text.isBlank, Bool.or_eq_true, Bool.and_eq_true, decide_eq_true_eq,
    beq_iff_eq] at h
  simp only [blanks, List.mem_cons, List.not_mem_nil]
  omega

/-- `head?` of a text ends a name behind white space, if it does without. -/
theorem head_blank_append {more : CodePoint → Bool}
    (hblank : ∀ c, Text.isBlank c = true → more c = false) {gap rest : Text}
    (hgap : ∀ c ∈ gap, Text.isBlank c = true)
    (hrest : ∀ c, rest.head? = some c → more c = false) :
    ∀ c, (gap ++ rest).head? = some c → more c = false := by
  cases gap with
  | nil => exact hrest
  | cons d gap =>
    intro c hc
    cases hc
    exact hblank _ (hgap _ List.mem_cons_self)

/-- `readName` reads a name up to the first character that cannot belong to it. -/
theorem readName_append {more : CodePoint → Bool} {c : CodePoint} {s rest : Text}
    (hc : isNameStart c = true) (hs : s.all more = true)
    (hrest : ∀ c, rest.head? = some c → more c = false) :
    readName more (c :: s ++ rest) = some (c :: s, rest) := by
  have hs' := List.all_eq_true.1 hs
  -- the name is read with all of it, and stops in front of `rest`
  have htake : rest.takeWhile more = [] := by
    cases rest with
    | nil => rfl
    | cons c rest => exact List.takeWhile_cons_of_neg (by simp [hrest c rfl])
  have hdrop : rest.dropWhile more = rest := by
    cases rest with
    | nil => rfl
    | cons c rest => exact List.dropWhile_cons_of_neg (by simp [hrest c rfl])
  rw [List.cons_append, readName, if_pos hc, List.takeWhile_append_of_pos hs',
    List.dropWhile_append_of_pos hs', htake, hdrop, List.append_nil]

variable {key name : Text}

/-- `readName` reads an attribute. -/
theorem readName_attribute (hkey : isAttribute key = true) {rest : Text}
    (hrest : ∀ c, rest.head? = some c → isAttributeChar c = false) :
    readName isAttributeChar (key ++ rest) = some (key, rest) := by
  cases key with
  | nil => cases hkey
  | cons c s =>
    simp only [isAttribute, Bool.and_eq_true] at hkey
    exact readName_append hkey.1 hkey.2 hrest

/-- `readName` reads a style class. -/
theorem readName_className (hname : isClassName name = true) {rest : Text}
    (hrest : ∀ c, rest.head? = some c → isClassChar c = false) :
    readName isClassChar (name ++ rest) = some (name, rest) := by
  cases name with
  | nil => cases hname
  | cons c s =>
    simp only [isClassName, Bool.and_eq_true] at hname
    exact readName_append hname.1 hname.2 hrest

/-- `isAttribute` texts begin with neither white space nor a mark. -/
theorem head_attribute (hkey : isAttribute key = true) :
    ∃ c s, key = c :: s ∧ Text.isBlank c = false ∧ c ≠ '?' ∧ c ≠ '!' ∧ c ≠ '^' := by
  cases key with
  | nil => cases hkey
  | cons c s =>
    simp only [isAttribute, Bool.and_eq_true] at hkey
    refine ⟨c, s, rfl, ?_, ?_, ?_, ?_⟩
    · cases hblank : Text.isBlank c with
      | false => rfl
      | true =>
        rw [(name_chars_of_isBlank hblank).1] at hkey
        cases hkey.1
    all_goals (rintro rfl; exact absurd hkey.1 (by decide))

/-- `Text.trimStart` drops the white space in front of an attribute. -/
theorem trimStart_attribute (hkey : isAttribute key = true) {gap : Text}
    (hgap : ∀ c ∈ gap, Text.isBlank c = true) (rest : Text) :
    Text.trimStart (gap ++ (key ++ rest)) = key ++ rest := by
  obtain ⟨c, s, rfl, hblank, -⟩ := head_attribute hkey
  rw [Text.trimStart_blank_append hgap]
  exact Text.trimStart_cons_of_not_blank hblank _

/-- `isAttribute` texts hold nothing that a scan of a selector looks for. -/
theorem plain_of_isAttribute (hkey : isAttribute key = true) :
    ∀ c ∈ key, c ≠ '"' ∧ c ≠ '[' ∧ c ≠ ']' := by
  cases key with
  | nil => cases hkey
  | cons d s =>
    simp only [isAttribute, Bool.and_eq_true, List.all_eq_true] at hkey
    intro c hc
    rcases List.mem_cons.1 hc with rfl | hc
    · refine ⟨?_, ?_, ?_⟩ <;> (rintro rfl; exact absurd hkey.1 (by decide))
    · refine ⟨?_, ?_, ?_⟩ <;> (rintro rfl; exact absurd (hkey.2 _ hc) (by decide))

/-- `isClassName` texts hold nothing that a scan of a selector looks for. -/
theorem plain_of_isClassName (hname : isClassName name = true) :
    ∀ c ∈ name, c ≠ ',' ∧ c ≠ '"' ∧ c ≠ '[' ∧ c ≠ ']' := by
  cases name with
  | nil => cases hname
  | cons d s =>
    simp only [isClassName, Bool.and_eq_true, List.all_eq_true] at hname
    intro c hc
    rcases List.mem_cons.1 hc with rfl | hc
    · refine ⟨?_, ?_, ?_, ?_⟩ <;> (rintro rfl; exact absurd hname.1 (by decide))
    · refine ⟨?_, ?_, ?_, ?_⟩ <;> (rintro rfl; exact absurd (hname.2 _ hc) (by decide))

/-- `Text.isBlank` characters are nothing that a scan of a selector looks for. -/
theorem plain_of_isBlank {gap : Text} (hgap : ∀ c ∈ gap, Text.isBlank c = true) :
    ∀ c ∈ gap, c ≠ ',' ∧ c ≠ '"' ∧ c ≠ '[' ∧ c ≠ ']' := by
  intro c hc
  refine ⟨?_, ?_, ?_, ?_⟩ <;> (rintro rfl; exact absurd (hgap _ hc) (by decide))

end Selector

/-! ## Predicates -/

namespace Selector

open Predicate

/-! ### Values -/

/-- `ValueWritten` texts begin and end with no white space, and are no operator. -/
theorem trim_written {value : Comparand} {s : Text} (h : ValueWritten Row value s) :
    Text.trim s = s ∧ s ≠ [] ∧ s.head? ≠ some '=' := by
  cases h with
  | text _ =>
    exact ⟨Text.trim_cons_append_singleton rfl rfl _, List.cons_ne_nil _ _, by simp⟩
  | @number literal s h =>
    have hparse := numberOfText?_eq_some_iff.2 ⟨literal, h, rfl⟩
    refine ⟨Text.trim_eq_self fun c hc => isBlank_of_numberOfText? hparse hc, ?_, ?_⟩
    · rintro rfl
      cases hparse
    · intro hhead
      have hmem := List.mem_of_head? hhead
      exact absurd (isLiteralChar_of_numberOfText? hparse hmem) (by decide)

/-- `readComparand` reads a value as what it was written for. -/
theorem readComparand_written {value : Comparand} {s : Text} (h : ValueWritten Row value s) :
    readComparand s = .ok value := by
  cases h with
  | @text content _ =>
    have hquoted : isQuoted (.char '"' :: (content ++ [.char '"'])) = true := by
      rw [isQuoted, ← List.cons_append, List.getLast?_append]
      simp
    rw [readComparand, if_pos hquoted, List.drop_one, List.tail_cons, List.dropLast_concat]
  | @number literal s h =>
    have hparse := numberOfText?_eq_some_iff.2 ⟨literal, h, rfl⟩
    -- no literal begins with a quote
    have hplain : isQuoted s = false := by
      cases s with
      | nil => rfl
      | cons c s =>
        have hc : c ≠ '"' := by
          rintro rfl
          exact absurd (isLiteralChar_of_numberOfText? hparse List.mem_cons_self) (by decide)
        simp [isQuoted, hc]
    rw [readComparand, hplain, hparse]
    rfl

/-- `ValueWritten` texts are passed over by scans. -/
theorem sealed_written {value : Comparand} {s : Text} (h : ValueWritten Row value s) :
    Quoting.Sealed .outside s := by
  cases h with
  | text h => exact (Quoting.sealed_outside_quote _).2 (row_iff_sealed.1 h)
  | @number literal s h =>
    have hparse := numberOfText?_eq_some_iff.2 ⟨literal, h, rfl⟩
    refine Quoting.sealed_of_plain fun c hc => ?_
    have hchar := isLiteralChar_of_numberOfText? hparse hc
    refine ⟨?_, ?_, ?_⟩ <;> (rintro rfl; exact absurd hchar (by decide))

/-! ### Operators -/

/-- `valueText?` finds behind an operator what stands there between white space. -/
theorem valueText?_written {value : Comparand} {s behind back : Text} (h : ValueWritten Row value s)
    (hbehind : ∀ c ∈ behind, Text.isBlank c = true) (hback : ∀ c ∈ back, Text.isBlank c = true) :
    valueText? (behind ++ (s ++ back)) = some s := by
  obtain ⟨htrim, hne, -⟩ := trim_written h
  rw [valueText?, Text.trim_blank_append hbehind, Text.trim_append_blank s hback, htrim]
  split
  · exact absurd rfl hne
  · rfl

/-- `readOperator?` reads an operator as itself, unless it can be continued. -/
theorem readOperator?_symbol (op : Comparison) {s raw : Text} (hs : s.head? ≠ some '=')
    (hraw : valueText? s = some raw) : readOperator? (op.symbol ++ s) = some (op, raw) := by
  have hne : Text.after? ['='] s = none := by
    cases s with
    | nil => rfl
    | cons c s =>
      have hc : ¬CodePoint.char '=' = c := fun h => hs (h ▸ rfl)
      rw [Text.after?, if_neg hc]
  cases op <;> simp [readOperator?, operators, Comparison.symbol, Text.after?, hraw, hne]

/-- `symbol` of an operator begins with no white space and with no character of a name. -/
theorem head_symbol (op : Comparison) :
    ∃ c s, op.symbol = c :: s ∧ Text.isBlank c = false ∧ isAttributeChar c = false ∧
      c ≠ '[' ∧ c ≠ ']' := by
  cases op <;> exact ⟨_, _, rfl, by decide⟩

/-! ### Reading a predicate -/

/-- `readFlag?` reads an attribute that is asked for alone, with white space behind it at most. -/
theorem readFlag?_attribute {key rest : Text} (hkey : isAttribute key = true)
    (hrest : ∀ c, rest.head? = some c → isAttributeChar c = false) :
    readFlag? (key ++ rest) = if Text.isBlankText rest then some (.defined key) else none := by
  have htrim := trimStart_attribute hkey (List.forall_mem_nil (Text.isBlank · = true)) rest
  rw [List.nil_append] at htrim
  obtain ⟨c, s, hcons, -, htruthy, hfalsy, hundefined⟩ := head_attribute hkey
  unfold readFlag?
  rw [htrim]
  split
  rename_i make t ht
  -- none of the three marks stands in front of an attribute
  have hwhole : make = .defined ∧ t = key ++ rest := by
    rw [hcons, List.cons_append] at ht ⊢
    split at ht
    · rename_i heq
      exact absurd (List.cons.inj heq).1 htruthy
    · rename_i heq
      exact absurd (List.cons.inj heq).1 hfalsy
    · rename_i heq
      exact absurd (List.cons.inj heq).1 hundefined
    · cases ht
      exact ⟨rfl, rfl⟩
  rw [hwhole.1, hwhole.2, readName_attribute hkey hrest]

/-- `readFlag?` reads an attribute with a mark in front of it as the predicate of the mark. -/
theorem readFlag?_flag {predicate : Predicate} {key mark front gap back : Text}
    (hmark : Mark key predicate mark) (hkey : isAttribute key = true)
    (hfront : ∀ c ∈ front, Text.isBlank c = true) (hgap : ∀ c ∈ gap, Text.isBlank c = true)
    (hback : ∀ c ∈ back, Text.isBlank c = true) :
    readFlag? (front ++ (mark ++ (gap ++ (key ++ back)))) = some predicate := by
  have hend : ∀ c, back.head? = some c → isAttributeChar c = false :=
    fun c hc => (name_chars_of_isBlank (hback c (List.mem_of_head? hc))).2.1
  have hname := readName_attribute hkey hend
  have htrim := trimStart_attribute hkey hgap back
  have hblank := Text.isBlankText_iff.2 hback
  -- the three marks are read off, and without one the attribute comes first
  have hmarked {c : CodePoint} (hc : Text.isBlank c = false) (s : Text) :
      Text.trimStart (front ++ (c :: s)) = c :: s := by
    rw [Text.trimStart_blank_append hfront, Text.trimStart_cons_of_not_blank hc]
  cases hmark with
  | truthy => simp [readFlag?, hmarked (c := .char '?') rfl, htrim, hname, hblank]
  | falsy => simp [readFlag?, hmarked (c := .char '!') rfl, htrim, hname, hblank]
  | undefined => simp [readFlag?, hmarked (c := .char '^') rfl, htrim, hname, hblank]
  | defined =>
    have hboth : ∀ c ∈ front ++ gap, Text.isBlank c = true := by
      intro c hc
      rcases List.mem_append.1 hc with hc | hc
      · exact hfront c hc
      · exact hgap c hc
    have hskip : readFlag? (front ++ (gap ++ (key ++ back))) = readFlag? (key ++ back) := by
      rw [← List.append_assoc]
      simp only [readFlag?, Text.trimStart_blank_append hboth]
    rw [List.nil_append, hskip, readFlag?_attribute hkey hend, if_pos hblank]

/-- `readPredicate` reads a comparison as its attribute, its operator and its value. -/
theorem readPredicate_comparison {key : Text} {op : Comparison} {value : Comparand}
    {s front before behind back : Text} (hkey : isAttribute key = true)
    (hvalue : ValueWritten Row value s) (hfront : ∀ c ∈ front, Text.isBlank c = true)
    (hbefore : ∀ c ∈ before, Text.isBlank c = true)
    (hbehind : ∀ c ∈ behind, Text.isBlank c = true) (hback : ∀ c ∈ back, Text.isBlank c = true) :
    readPredicate (front ++ (key ++ (before ++ (op.symbol ++ (behind ++ (s ++ back)))))) =
      .ok (.compare key op value) := by
  obtain ⟨htrim, hne, hvalueHead⟩ := trim_written hvalue
  obtain ⟨c, symbol, hsymbol, hblank, hchar, -⟩ := head_symbol op
  generalize hrest : before ++ (op.symbol ++ (behind ++ (s ++ back))) = rest
  -- white space or the operator ends the attribute
  have hend : ∀ c, rest.head? = some c → isAttributeChar c = false := by
    rw [← hrest, hsymbol]
    refine head_blank_append (fun c hc => (name_chars_of_isBlank hc).2.1) hbefore ?_
    intro d hd
    cases hd
    exact hchar
  have hnotBlank : Text.isBlankText rest = false := by
    rw [← hrest, hsymbol]
    simp [Text.isBlankText, hblank]
  -- more than white space stands behind the attribute, so it is not asked for alone
  have hflag : readFlag? (front ++ (key ++ rest)) = none := by
    have hskip : readFlag? (front ++ (key ++ rest)) = readFlag? (key ++ rest) := by
      simp only [readFlag?, Text.trimStart_blank_append hfront]
    rw [hskip, readFlag?_attribute hkey hend, hnotBlank]
    rfl
  have hoperator : Text.trimStart rest = op.symbol ++ (behind ++ (s ++ back)) := by
    rw [← hrest, Text.trimStart_blank_append hbefore, hsymbol]
    exact Text.trimStart_cons_of_not_blank hblank _
  -- what follows the operator does not continue it
  have hstop : (behind ++ (s ++ back)).head? ≠ some '=' := by
    cases behind with
    | nil =>
      obtain ⟨d, t, rfl⟩ := List.exists_cons_of_ne_nil hne
      exact hvalueHead
    | cons d behind =>
      intro hd
      cases hd
      exact absurd (hbehind _ List.mem_cons_self) (by decide)
  have hread := readOperator?_symbol op hstop (valueText?_written hvalue hbehind hback)
  rw [readPredicate, hflag]
  simp only [readComparison?, trimStart_attribute hkey hfront, readName_attribute hkey hend,
    Option.bind_some, hoperator, hread, Option.map_some, readComparand_written hvalue]

end Selector

namespace Predicate

open Selector

/-- `readPredicate` reads a predicate back. -/
theorem Written.read_eq {p : Predicate} {s : Text} (h : p.Written Row s) : readPredicate s = .ok p := by
  cases h with
  | flag hmark hkey hfront hgap hback =>
    rw [readPredicate, readFlag?_flag hmark hkey hfront hgap hback]
  | comparison hkey hvalue hfront hbefore hbehind hback =>
    exact readPredicate_comparison hkey hvalue hfront hbefore hbehind hback

/-- `Written` predicates are passed over by scans. -/
theorem Written.sealed {p : Predicate} {s : Text} (h : p.Written Row s) :
    Quoting.Sealed .outside s := by
  have hgap {gap : Text} (hgap : ∀ c ∈ gap, Text.isBlank c = true) : Quoting.Sealed .outside gap :=
    Quoting.sealed_of_plain fun c hc => (plain_of_isBlank hgap c hc).2
  have hname {key : Text} (hkey : isAttribute key = true) : Quoting.Sealed .outside key :=
    Quoting.sealed_of_plain (plain_of_isAttribute hkey)
  cases h with
  | flag hmark hkey hfront hmid hback =>
    refine (hgap hfront).append (Quoting.Sealed.append ?_
      ((hgap hmid).append ((hname hkey).append (hgap hback))))
    cases hmark <;> exact Quoting.sealed_of_plain (by decide)
  | @comparison key op value s front before behind back hkey hvalue hfront hbefore hbehind hback =>
    have hsymbol : Quoting.Sealed .outside op.symbol :=
      Quoting.sealed_of_plain (by cases op <;> decide)
    exact (hgap hfront).append ((hname hkey).append ((hgap hbefore).append (hsymbol.append
      ((hgap hbehind).append ((sealed_written hvalue).append (hgap hback))))))

end Predicate

/-! ## Groups -/

namespace Selector

open SelectorGroup

/-! ### Reading parts -/

/-- `readParts` skips white space in front. -/
theorem readParts_blank_append {gap : Text} (hgap : ∀ c ∈ gap, Text.isBlank c = true) (s : Text) :
    readParts (gap ++ s) = readParts s := by
  induction gap with
  | nil => rfl
  | cons c gap ih =>
    rw [List.cons_append, readParts, if_pos (hgap c List.mem_cons_self)]
    exact ih fun d hd => hgap d (List.mem_cons_of_mem _ hd)

/-- `readParts` reads a predicate between brackets in front of any other parts. -/
theorem readParts_bracketed {p : Predicate} {body : Text} (h : p.Written Row body) (rest : Text) :
    readParts (.char '[' :: (body ++ .char ']' :: rest)) =
      (readParts rest).map fun (ps, cs) => (p :: ps, cs) := by
  have hread := readBracketed_sealed h.sealed rest
  rw [readParts, if_neg (by decide), if_pos rfl]
  split
  · rename_i hnone
    rw [hread] at hnone
    cases hnone
  · rename_i body' rest' hsome
    rw [hread] at hsome
    cases hsome
    rw [h.read_eq]

/-- `readParts` reads a style class in front of what does not continue its name. -/
theorem readParts_className {name : Text} (h : isClassName name = true) {rest : Text}
    (hrest : ∀ c, rest.head? = some c → isClassChar c = false) :
    readParts (.char '.' :: (name ++ rest)) =
      (readParts rest).map fun (ps, cs) => (ps, name :: cs) := by
  have hread := readName_className h hrest
  rw [readParts, if_neg (by decide), if_neg (by decide), if_pos rfl]
  split
  · rename_i hnone
    rw [hread] at hnone
    cases hnone
  · rename_i name' rest' hsome
    rw [hread] at hsome
    cases hsome
    rfl

variable {ps : List Predicate} {cs : List Text} {s : Text}

/-- `PartsWritten` texts begin with no character that continues a name. -/
theorem head_parts (h : PartsWritten Row ps cs s) : ∀ c, s.head? = some c → isClassChar c = false := by
  have hblank {gap rest : Text} (hgap : ∀ c ∈ gap, Text.isBlank c = true)
      (hrest : ∀ c, rest.head? = some c → isClassChar c = false) :
      ∀ c, (gap ++ rest).head? = some c → isClassChar c = false :=
    head_blank_append (fun c hc => (name_chars_of_isBlank hc).2.2) hgap hrest
  cases h with
  | nil hgap => exact fun c hc => (name_chars_of_isBlank (hgap c (List.mem_of_head? hc))).2.2
  | predicate hgap _ _ =>
    refine hblank hgap fun c hc => ?_
    cases hc
    rfl
  | className hgap _ _ =>
    refine hblank hgap fun c hc => ?_
    cases hc
    rfl

/-- `readParts` reads parts back. -/
theorem readParts_parts (h : PartsWritten Row ps cs s) : readParts s = .ok (ps, cs) := by
  induction h with
  | @nil gap hgap =>
    have hskip := readParts_blank_append hgap []
    rwa [List.append_nil, readParts] at hskip
  | predicate hgap hbody hrest ih =>
    rw [readParts_blank_append hgap, readParts_bracketed hbody, ih]
    rfl
  | className hgap hname hrest ih =>
    rw [readParts_blank_append hgap, readParts_className hname (head_parts hrest), ih]
    rfl

/-- `PartsWritten` texts are not cut at commas. -/
theorem uncut_parts (h : PartsWritten Row ps cs s) : Uncut s := by
  have hblank {gap : Text} (hgap : ∀ c ∈ gap, Text.isBlank c = true) : Uncut gap :=
    uncut_of_plain (plain_of_isBlank hgap)
  induction h with
  | nil hgap => exact hblank hgap
  | predicate hgap hbody hrest ih =>
    have hrow := (uncut_bracketed hbody.sealed).append ih
    rw [List.cons_append, List.append_assoc] at hrow
    exact (hblank hgap).append hrow
  | @className name ps cs gap rest hgap hname hrest ih =>
    have hdot : Uncut [.char '.'] := uncut_of_plain (by decide)
    have hrow := (hdot.append (uncut_of_plain (plain_of_isClassName hname))).append ih
    exact (hblank hgap).append hrow

/-- `PartsWritten` texts with a part begin with a bracket or a dot behind the white space. -/
theorem trimStart_parts (hne : ps ≠ [] ∨ cs ≠ []) (h : PartsWritten Row ps cs s) :
    ∃ c rest, Text.trimStart s = c :: rest ∧ (c = '[' ∨ c = '.') := by
  cases h with
  | nil hgap => exact absurd hne (by simp)
  | predicate hgap _ _ =>
    rw [Text.trimStart_blank_append hgap, Text.trimStart_cons_of_not_blank rfl]
    exact ⟨_, _, rfl, .inl rfl⟩
  | className hgap _ _ =>
    rw [Text.trimStart_blank_append hgap, Text.trimStart_cons_of_not_blank rfl]
    exact ⟨_, _, rfl, .inr rfl⟩

/-! ### Reading groups -/

/-- `isBlankText` does not hold of a text with anything but white space in it. -/
theorem isBlankText_of_trimStart {c : CodePoint} {rest : Text}
    (h : Text.trimStart s = c :: rest) : Text.isBlankText s = false := by
  cases hblank : Text.isBlankText s with
  | false => rfl
  | true =>
    have hnil := Text.trimStart_blank_append (Text.isBlankText_iff.1 hblank) []
    rw [List.append_nil, h] at hnil
    cases hnil

/-- `trimStart` leaves the word for a kind. -/
theorem trimStart_word {kind : Option Kind} {gap word : Text}
    (hgap : ∀ c ∈ gap, Text.isBlank c = true) (hword : KindSpelling kind word) (rest : Text) :
    Text.trimStart (gap ++ (word ++ rest)) = word ++ rest := by
  rw [Text.trimStart_blank_append hgap]
  cases hword with
  | any => exact Text.trimStart_cons_of_not_blank rfl _
  | word kind => cases kind <;> exact Text.trimStart_cons_of_not_blank rfl _

/-- `readKind` reads the word for a kind as the kind. -/
theorem readKind_word {kind : Option Kind} {gap word : Text}
    (hgap : ∀ c ∈ gap, Text.isBlank c = true) (hword : KindSpelling kind word) (rest : Text) :
    readKind (gap ++ (word ++ rest)) = (kind, rest) := by
  unfold readKind
  rw [trimStart_word hgap hword]
  cases hword with
  | any => rfl
  | word kind => cases kind <;> rfl

/-- `readKind` leaves all of a group that has no word for the kind. -/
theorem readKind_bare (h : ∃ c rest, Text.trimStart s = c :: rest ∧ (c = '[' ∨ c = '.')) :
    readKind s = (none, s) := by
  obtain ⟨c, rest, htrim, hc⟩ := h
  unfold readKind
  rw [htrim]
  rcases hc with rfl | rfl <;> rfl

/-- `readGroup` reads a group back. -/
theorem readGroup_written {g : SelectorGroup} {s : Text} (h : g.Written Row s) :
    readGroup s = .ok g := by
  have hread {kind : Option Kind} {ps : List Predicate} {cs : List Text} {parts : Text}
      (hblank : Text.isBlankText s = false) (hkind : readKind s = (kind, parts))
      (hparts : PartsWritten Row ps cs parts) : readGroup s = .ok ⟨kind, ps, cs⟩ := by
    rw [readGroup, hblank, if_neg Bool.false_ne_true, hkind]
    simp only [readParts_parts hparts]
    rfl
  cases h with
  | @kinded kind ps cs gap word parts hgap hword hparts =>
    -- `readKind` looks at the first code point of the word, so the word is given one
    have hne : ∃ c rest, word = c :: rest := by
      cases hword with
      | any => exact ⟨_, _, rfl⟩
      | word kind => cases kind <;> exact ⟨_, _, rfl⟩
    obtain ⟨c, rest, rfl⟩ := hne
    exact hread (isBlankText_of_trimStart (trimStart_word hgap hword parts))
      (readKind_word hgap hword parts) hparts
  | bare hne hparts =>
    obtain ⟨c, rest, htrim, hc⟩ := trimStart_parts hne hparts
    exact hread (isBlankText_of_trimStart htrim) (readKind_bare ⟨c, rest, htrim, hc⟩) hparts

/-- `Written` groups are not blank. -/
theorem not_blank_of_written {g : SelectorGroup} {s : Text} (h : g.Written Row s) :
    Text.isBlankText s = false := by
  have hread := readGroup_written h
  rw [readGroup] at hread
  split at hread
  · cases hread
  · rename_i hblank
    exact Bool.eq_false_iff.2 hblank

/-- `Written` groups are not cut at commas. -/
theorem uncut_written {g : SelectorGroup} {s : Text} (h : g.Written Row s) : Uncut s := by
  cases h with
  | bare _ hparts => exact uncut_parts hparts
  | @kinded kind ps cs gap word parts hgap hword hparts =>
    have hplain : Uncut word := by
      cases hword with
      | any => exact uncut_of_plain (by decide)
      | word kind => cases kind <;> exact uncut_of_plain (by decide)
    exact (uncut_of_plain (plain_of_isBlank hgap)).append (hplain.append (uncut_parts hparts))

/-- `readGroups` reads groups one after the other. -/
theorem readGroups_written {groups : List SelectorGroup} {parts : List Text}
    (h : List.Forall₂ (SelectorGroup.Written Row) groups parts) : readGroups parts = .ok groups := by
  induction h with
  | nil => rfl
  | cons hg _ ih =>
    rw [readGroups, readGroup_written hg]
    simp only [ih]
    rfl

/-! ## Selectors -/

/-- `isBlankText` does not hold of a text that begins with one that is not blank. -/
theorem isBlankText_append_left {s : Text} (h : Text.isBlankText s = false) (t : Text) :
    Text.isBlankText (s ++ t) = false := by
  rw [Text.isBlankText] at h ⊢
  rw [List.all_append, h, Bool.false_and]

/-- `parse` reads a text from the pieces that it is cut into at commas. -/
theorem parse_eq_ok_iff {text : Text} {s : Selector} :
    parse text = .ok s ↔ s.text = text ∧ Text.isBlankText text = false ∧
      ∃ pieces, splitGroups text = some pieces ∧ readGroups pieces = .ok s.groups := by
  constructor
  · -- the three failures of `parse` are no results, and what is left is the way it succeeds
    intro h
    rw [parse] at h
    split at h
    · rename_i groups hread
      cases h
      rw [read] at hread
      split at hread
      · cases hread
      · rename_i hblank
        split at hread
        · cases hread
        · rename_i pieces hsplit
          exact ⟨rfl, Bool.eq_false_iff.2 hblank, pieces, hsplit, hread⟩
    · cases h
  · rintro ⟨rfl, hblank, pieces, hsplit, hread⟩
    rw [parse, read, hblank, if_neg Bool.false_ne_true, hsplit]
    simp only [hread]

/-- `parse` reads a selector back as the groups that it was written for. -/
theorem Written.parse_eq {groups : List SelectorGroup} {text : Text} (h : Written Row groups text) :
    parse text = .ok ⟨text, groups⟩ := by
  obtain ⟨hne, parts, rfl, h⟩ := h
  have huncut : ∀ s ∈ parts, Uncut s := by
    clear hne
    induction h with
    | nil => exact fun s hs => nomatch hs
    | cons hg _ ih => exact List.forall_mem_cons.2 ⟨uncut_written hg, ih⟩
  have hread := readGroups_written h
  cases h with
  | nil => exact absurd rfl hne
  -- the text is cut where the groups were joined, and its first group is not blank
  | @cons g part groups parts hg hrest =>
    have hsplit := splitGroups_join (List.cons_ne_nil part parts) huncut
    refine parse_eq_ok_iff.2 ⟨rfl, ?_, _, hsplit, hread⟩
    cases parts with
    | nil => exact not_blank_of_written hg
    | cons part' parts =>
      rw [Text.join_cons _ _ (List.cons_ne_nil _ _)]
      exact isBlankText_append_left (not_blank_of_written hg) _

end Selector

end MeshLens
