import MeshLens.Proofs.ForStd
import MeshLens.Proofs.Selector.ReadBack

/-!
# What is accepted as a selector

A text is accepted just when it is written by the syntax with rows of literals for values. One scan cuts
the text at commas, and counts brackets for that; another one finds the bracket that closes a predicate,
and does not count. So a bracket may be opened within a predicate as far as the second scan is concerned,
but then the first one would be left with an open bracket at the end of the group.

## Key results

- `Quoting.Paired`: whether quotes and brackets are closed
- `Selector.cutGroups_spec`: a text is cut into pieces that close what they open
- `Selector.written_of_readPredicate`, `Selector.written_of_readParts`, `Selector.written_of_readGroup`:
  what is accepted is written by the syntax
- `Selector.parse_ok_iff`: the texts that are accepted, and their groups
- `Selector.Written.exists_content`: what was written for a value stands in the text
-/

namespace MeshLens

namespace Quoting

/-! ## Quotes and brackets in pairs -/

/-- Whether a text that is entered in a given state, and at a given depth of brackets, closes its quotes
and ends at depth zero. -/
def Paired : Quoting → Int → Text → Prop
  | q, depth, [] => q = .outside ∧ depth = 0
  | q, depth, c :: s =>
    Paired (q.step c) (if q = .outside then Selector.depthAfter depth c else depth) s

/-- `Paired` does not depend on a text in front without quotes and brackets. -/
theorem paired_plain_append {gap : Text} (h : ∀ c ∈ gap, c ≠ '"' ∧ c ≠ '[' ∧ c ≠ ']') (depth : Int)
    (rest : Text) : Paired .outside depth (gap ++ rest) ↔ Paired .outside depth rest := by
  induction gap with
  | nil => rfl
  | cons c gap ih =>
    obtain ⟨hquote, hopen, hclose⟩ := h c List.mem_cons_self
    rw [List.cons_append, Paired, step, if_neg hquote, if_pos rfl, Selector.depthAfter, if_neg hopen,
      if_neg hclose]
    exact ih fun d hd => h d (List.mem_cons_of_mem _ hd)

end Quoting

namespace Selector

open Quoting Predicate SelectorGroup

/-- `cutGroups` cuts a text at commas into pieces, the first of which is paired up from where the
cut begins, and the others from outside. -/
theorem cutGroups_spec {q : Quoting} {depth : Int} {s : Text} {pieces : List Text}
    (h : cutGroups q depth s = some pieces) : ∃ piece rest, pieces = piece :: rest ∧
      s = Text.join "," pieces ∧ Paired q depth piece ∧ ∀ t ∈ rest, Paired .outside 0 t := by
  -- induction on the text: a comma outside of quotes and brackets begins a new piece
  induction s generalizing q depth pieces with
  | nil =>
    rw [cutGroups] at h
    split at h
    · rename_i hend
      cases h
      exact ⟨[], [], rfl, rfl, hend, List.forall_mem_nil _⟩
    · cases h
  | cons c s ih =>
    rw [cutGroups] at h
    split at h
    · rename_i hcomma
      obtain ⟨rfl, rfl, rfl⟩ := hcomma
      obtain ⟨pieces, hpieces, rfl⟩ := Option.map_eq_some_iff.1 h
      obtain ⟨piece, rest, rfl, rfl, hpiece, hrest⟩ := ih hpieces
      refine ⟨[], _, rfl, ?_, ⟨rfl, rfl⟩, List.forall_mem_cons.2 ⟨hpiece, hrest⟩⟩
      rw [Text.join_cons _ _ (List.cons_ne_nil _ _)]
      rfl
    · obtain ⟨pieces, hpieces, rfl⟩ := Option.map_eq_some_iff.1 h
      obtain ⟨piece, rest, rfl, rfl, hpiece, hrest⟩ := ih hpieces
      refine ⟨c :: piece, rest, rfl, ?_, hpiece, hrest⟩
      cases rest <;> rfl

/-- `readBracketed` finds a body that leads out of quotes, and opens some brackets. When it opens
none, scans pass over it. -/
theorem readBracketed_spec {q : Quoting} {s body rest : Text}
    (h : readBracketed q s = some (body, rest)) : s = body ++ .char ']' :: rest ∧
      ∀ depth, Paired q depth s → ∃ opened : Nat,
        Paired .outside (depth + opened - 1) rest ∧ (opened = 0 → Sealed q body) := by
  -- induction on the text; what is read of the rest is known for every depth
  induction s generalizing q body with
  | nil => cases h
  | cons c s ih =>
    rw [readBracketed] at h
    split at h
    · rename_i hclose
      obtain ⟨rfl, rfl⟩ := hclose
      cases h
      exact ⟨rfl, fun depth hs => ⟨0, by simpa [Paired, step, depthAfter] using hs, fun _ => rfl⟩⟩
    · rename_i hinside
      obtain ⟨⟨body', rest'⟩, hfound, heq⟩ := Option.map_eq_some_iff.1 h
      cases heq
      obtain ⟨rfl, hrest⟩ := ih hfound
      refine ⟨rfl, fun depth hs => ?_⟩
      obtain ⟨opened, hpaired, hsealed⟩ := hrest _ hs
      by_cases hopen : q = .outside ∧ c = '['
      · -- one more bracket is open, and none is closed here
        obtain ⟨rfl, rfl⟩ := hopen
        refine ⟨opened + 1, ?_, fun hnone => absurd hnone (Nat.succ_ne_zero _)⟩
        have hdepth : depth + (opened + 1 : Nat) - 1 = depth + 1 + opened - 1 := by omega
        rw [hdepth]
        exact hpaired
      · have hsame : (if q = .outside then depthAfter depth c else depth) = depth := by
          split
          · rename_i hq
            rw [depthAfter, if_neg fun hc => hopen ⟨hq, hc⟩, if_neg fun hc => hinside ⟨hq, hc⟩]
          · rfl
        rw [hsame] at hpaired
        exact ⟨opened, hpaired, fun hnone =>
          ⟨fun hq => ⟨fun hc => hopen ⟨hq, hc⟩, fun hc => hinside ⟨hq, hc⟩⟩, hsealed hnone⟩⟩

/-! ## Predicates -/

/-- `readName` reads a name from the front. -/
theorem readName_eq_some {more : CodePoint → Bool} {s name rest : Text}
    (h : readName more s = some (name, rest)) : s = name ++ rest ∧
      ∃ c t, name = c :: t ∧ isNameStart c = true ∧ t.all more = true := by
  cases s with
  | nil => cases h
  | cons c s =>
    rw [readName] at h
    split at h
    · rename_i hc
      cases h
      exact ⟨congrArg (c :: ·) List.takeWhile_append_dropWhile.symm, c, _, rfl, hc, List.all_takeWhile⟩
    · cases h

/-- `readName` with the characters of attributes reads an attribute from the front. -/
theorem readName_attribute_eq_some {s name rest : Text}
    (h : readName isAttributeChar s = some (name, rest)) :
    s = name ++ rest ∧ isAttribute name = true := by
  obtain ⟨hs, c, t, rfl, hc, ht⟩ := readName_eq_some h
  exact ⟨hs, by simp only [isAttribute, hc, ht, Bool.and_self]⟩

/-- `readName` with the characters of style classes reads a style class from the front. -/
theorem readName_className_eq_some {s name rest : Text}
    (h : readName isClassChar s = some (name, rest)) :
    s = name ++ rest ∧ isClassName name = true := by
  obtain ⟨hs, c, t, rfl, hc, ht⟩ := readName_eq_some h
  exact ⟨hs, by simp only [isClassName, hc, ht, Bool.and_self]⟩

/-- `readFlag?` reads what is written as an attribute alone. -/
theorem written_of_readFlag? {quotable : Text → Prop} {body : Text} {p : Predicate}
    (h : readFlag? body = some p) : p.Written quotable body := by
  obtain ⟨front, hfront, hblank⟩ := Text.exists_append_trimStart body
  unfold readFlag? at h
  split at h
  rename_i make s hsplit
  split at h
  · rename_i name rest hname
    split at h
    · rename_i hback
      cases h
      obtain ⟨hs, hattribute⟩ := readName_attribute_eq_some hname
      -- behind the mark, if any, come white space and the attribute
      have hmarked {mark gap : Text} (hmark : Mark name (make name) mark)
          (hgap : ∀ c ∈ gap, Text.isBlank c = true) (hbody : body = front ++ (mark ++ (gap ++ s))) :
          (make name).Written quotable body := by
        rw [hbody, hs]
        exact .flag hmark hattribute hblank hgap (Text.isBlankText_iff.1 hback)
      have hbehind {c : CodePoint} {t : Text} (hmark : Mark name (make name) [c])
          (ht : Text.trimStart body = c :: t) (htrim : Text.trimStart t = s) :
          (make name).Written quotable body := by
        obtain ⟨gap, hgap, hgapBlank⟩ := Text.exists_append_trimStart t
        refine hmarked hmark hgapBlank (hfront.trans ?_)
        rw [ht, List.singleton_append, ← htrim, ← hgap]
      -- the three marks, and no mark
      split at hsplit <;> obtain ⟨rfl, htrim⟩ := Prod.mk.inj hsplit
      · exact hbehind .truthy ‹_› htrim
      · exact hbehind .falsy ‹_› htrim
      · exact hbehind .undefined ‹_› htrim
      · exact hmarked .defined (List.forall_mem_nil _) (htrim ▸ hfront)
    · cases h
  · cases h

/-- `readOperator?` reads an operator in front of its value. -/
theorem readOperator?_eq_some {s raw : Text} {op : Comparison} (h : readOperator? s = some (op, raw)) :
    ∃ rest, s = op.symbol ++ rest ∧ valueText? rest = some raw := by
  obtain ⟨op', -, hop⟩ := List.exists_of_findSome?_eq_some h
  obtain ⟨rest, hafter, hraw⟩ := Option.bind_eq_some_iff.1 hop
  obtain ⟨raw', hvalue, heq⟩ := Option.map_eq_some_iff.1 hraw
  cases heq
  exact ⟨rest, Text.eq_append_of_after? hafter, hvalue⟩

/-- `valueText?` finds a value between white space, when it can be read. -/
theorem valueText?_eq_some {s raw : Text} {value : Comparand} (h : valueText? s = some raw)
    (hread : readComparand raw = .ok value) : ∃ behind back : Text, s = behind ++ (raw ++ back) ∧
      (∀ c ∈ behind, Text.isBlank c = true) ∧ ∀ c ∈ back, Text.isBlank c = true := by
  obtain ⟨behind, back, hs, hbehind, hback⟩ := Text.exists_trim_append s
  rw [valueText?] at h
  split at h
  · rename_i htrim
    -- the text is white space, of which the last character is taken for the value; it is none
    obtain ⟨c, hc, rfl⟩ := Option.map_eq_some_iff.1 h
    have hblank : Text.isBlank c = true := by
      have hmem := List.mem_of_getLast? hc
      rw [hs, htrim, List.nil_append] at hmem
      rcases List.mem_append.1 hmem with hmem | hmem
      · exact hbehind c hmem
      · exact hback c hmem
    have hnumber : numberOfText? [c] = none := by
      cases hx : numberOfText? [c] with
      | none => rfl
      | some x =>
        rw [isBlank_of_numberOfText? hx (List.mem_singleton_self c)] at hblank
        cases hblank
    rw [readComparand, if_neg (by simp [isQuoted]), hnumber] at hread
    cases hread
  · cases h
    exact ⟨behind, back, hs, hbehind, hback⟩

/-- `Sealed` holds of what stands in front of white space. -/
theorem sealed_of_append_blank {q : Quoting} {s back : Text}
    (hback : ∀ c ∈ back, Text.isBlank c = true) (h : Sealed q (s ++ back)) : Sealed q s := by
  induction s generalizing q with
  | cons c s ih => exact ⟨h.1, ih h.2⟩
  | nil =>
    -- white space closes no quotes
    induction back generalizing q with
    | nil => exact h
    | cons c back ih =>
      have hrest : q.step c = .outside := ih (fun d hd => hback d (List.mem_cons_of_mem _ hd)) h.2
      have hquote : c ≠ '"' := (plain_of_isBlank hback c List.mem_cons_self).2.1
      cases q with
      | outside => rfl
      | inside =>
        rw [step, if_neg hquote] at hrest
        split at hrest <;> cases hrest
      | escaped => cases hrest

/-- `isQuoted` texts are a content between two quotes. -/
theorem exists_of_isQuoted {raw : Text} (h : isQuoted raw = true) :
    ∃ content : Text, raw = .char '"' :: (content ++ [.char '"']) := by
  simp only [isQuoted, Bool.and_eq_true, decide_eq_true_eq, beq_iff_eq] at h
  obtain ⟨⟨hlength, hhead⟩, hlast⟩ := h
  obtain ⟨tail, rfl⟩ := List.head?_eq_some_iff.1 hhead
  obtain ⟨init, hinit⟩ := List.getLast?_eq_some_iff.1 hlast
  cases init with
  | nil =>
    rw [hinit] at hlength
    exact absurd hlength (by decide)
  | cons c content =>
    obtain ⟨rfl, rfl⟩ := List.cons.inj hinit
    exact ⟨content, rfl⟩

/-- `readComparand` reads a number or a row of literals, where quotes are closed. -/
theorem written_of_readComparand {raw : Text} {value : Comparand} (h : readComparand raw = .ok value)
    (hsealed : Sealed .outside raw) : ValueWritten Row value raw := by
  rw [readComparand] at h
  split at h
  · rename_i hquoted
    obtain ⟨content, rfl⟩ := exists_of_isQuoted hquoted
    rw [List.drop_one, List.tail_cons, List.dropLast_concat] at h
    cases h
    exact .text (row_iff_sealed.2 ((sealed_outside_quote _).1 hsealed))
  · split at h
    · rename_i x hx
      cases h
      obtain ⟨literal, hliteral, rfl⟩ := numberOfText?_eq_some_iff.1 hx
      exact .number hliteral
    · cases h

/-- `symbol` of an operator holds no quotes and no brackets. -/
theorem plain_symbol (op : Comparison) : ∀ c ∈ op.symbol, c ≠ '"' ∧ c ≠ '[' ∧ c ≠ ']' := by
  cases op <;> decide

/-- `readComparison?` reads an attribute, an operator and a value, between white space. -/
theorem readComparison?_eq_some {body key raw : Text} {op : Comparison} {value : Comparand}
    (h : readComparison? body = some (key, op, raw)) (hvalue : readComparand raw = .ok value) :
    isAttribute key = true ∧ ∃ front before behind back : Text,
      body = front ++ (key ++ (before ++ (op.symbol ++ (behind ++ (raw ++ back))))) ∧
        (∀ c ∈ front, Text.isBlank c = true) ∧ (∀ c ∈ before, Text.isBlank c = true) ∧
        (∀ c ∈ behind, Text.isBlank c = true) ∧ ∀ c ∈ back, Text.isBlank c = true := by
  obtain ⟨⟨name, rest⟩, hname, hmap⟩ := Option.bind_eq_some_iff.1 h
  obtain ⟨⟨op', raw'⟩, hop, heq⟩ := Option.map_eq_some_iff.1 hmap
  cases heq
  obtain ⟨hrest, hkey⟩ := readName_attribute_eq_some hname
  obtain ⟨tail, htail, hraw⟩ := readOperator?_eq_some hop
  obtain ⟨front, hfront, hfrontBlank⟩ := Text.exists_append_trimStart body
  obtain ⟨before, hbefore, hbeforeBlank⟩ := Text.exists_append_trimStart rest
  obtain ⟨behind, back, hbehind, hbehindBlank, hbackBlank⟩ := valueText?_eq_some hraw hvalue
  refine ⟨hkey, front, before, behind, back, ?_, hfrontBlank, hbeforeBlank, hbehindBlank, hbackBlank⟩
  rw [← hbehind, ← htail, ← hbefore, ← hrest, ← hfront]

/-- `readPredicate` reads what is written as a predicate, where scans pass over it. -/
theorem written_of_readPredicate {body : Text} {p : Predicate} (h : readPredicate body = .ok p)
    (hsealed : Sealed .outside body) : p.Written Row body := by
  rw [readPredicate] at h
  split at h
  · -- asked for alone, or compared
    rename_i hflag
    cases h
    exact written_of_readFlag? hflag
  · split at h
    · cases h
    · rename_i hcomparison
      split at h
      · rename_i hvalue
        cases h
        obtain ⟨hkey, front, before, behind, back, rfl, hfront, hbefore, hbehind, hback⟩ :=
          readComparison?_eq_some hcomparison hvalue
        have hgap {gap : Text} (hgap : ∀ c ∈ gap, Text.isBlank c = true) :
            ∀ c ∈ gap, c ≠ '"' ∧ c ≠ '[' ∧ c ≠ ']' := fun c hc => (plain_of_isBlank hgap c hc).2
        -- no quote is open where the value begins
        rw [sealed_plain_append (hgap hfront), sealed_plain_append (plain_of_isAttribute hkey),
          sealed_plain_append (hgap hbefore), sealed_plain_append (plain_symbol _),
          sealed_plain_append (hgap hbehind)] at hsealed
        exact .comparison hkey (written_of_readComparand hvalue (sealed_of_append_blank hback hsealed))
          hfront hbefore hbehind hback
      · cases h

/-! ## Groups -/

/-- `PartsWritten` texts may have white space in front. -/
theorem written_blank_append {quotable : Text → Prop} {ps : List Predicate} {cs : List Text}
    {gap s : Text} (hgap : ∀ c ∈ gap, Text.isBlank c = true) (h : PartsWritten quotable ps cs s) :
    PartsWritten quotable ps cs (gap ++ s) := by
  have hboth {gap' : Text} (hgap' : ∀ c ∈ gap', Text.isBlank c = true) :
      ∀ c ∈ gap ++ gap', Text.isBlank c = true :=
    fun c hc => (List.mem_append.1 hc).elim (hgap c) (hgap' c)
  cases h with
  | nil hgap' => exact .nil (hboth hgap')
  | predicate hgap' hbody hrest =>
    rw [← List.append_assoc]
    exact .predicate (hboth hgap') hbody hrest
  | className hgap' hname hrest =>
    rw [← List.append_assoc]
    exact .className (hboth hgap') hname hrest

/-- `readParts` reads what is written as parts, if it ends at depth zero. Reading cannot close a
bracket that was open before, so that none was. -/
theorem written_of_readParts {s : Text} {ps : List Predicate} {cs : List Text}
    (h : readParts s = .ok (ps, cs)) {depth : Int} (hdepth : 0 ≤ depth)
    (hs : Paired .outside depth s) : depth = 0 ∧ PartsWritten Row ps cs s := by
  -- along the recursion of reading: white space, a predicate or a style class comes first
  cases s with
  | nil =>
    rw [readParts] at h
    cases h
    exact ⟨hs.2, .nil (List.forall_mem_nil _)⟩
  | cons c s =>
    have hnone : ∀ c ∈ ([] : Text), Text.isBlank c = true := List.forall_mem_nil _
    rw [readParts] at h
    split at h
    · -- white space
      rename_i hblank
      have hgap : ∀ d ∈ [c], Text.isBlank d = true := by simpa using hblank
      have hplain : ∀ d ∈ [c], d ≠ '"' ∧ d ≠ '[' ∧ d ≠ ']' :=
        fun d hd => (plain_of_isBlank hgap d hd).2
      obtain ⟨hzero, hparts⟩ :=
        written_of_readParts h hdepth ((paired_plain_append hplain depth s).1 hs)
      exact ⟨hzero, written_blank_append hgap hparts⟩
    split at h
    · -- a predicate
      rename_i hopen
      subst hopen
      split at h
      · cases h
      rename_i body rest hbody
      have hlt := length_readBracketed hbody
      obtain ⟨rfl, hspec⟩ := readBracketed_spec hbody
      obtain ⟨opened, hpaired, hsealed⟩ := hspec (depth + 1) hs
      split at h
      · cases h
      rename_i p hp
      obtain ⟨⟨ps', cs'⟩, hrest, heq⟩ := Except.map_eq_ok h
      cases heq
      obtain ⟨hzero, hparts⟩ := written_of_readParts hrest (by omega) hpaired
      -- behind the body `depth + opened` brackets are open, and the rest says that none is
      have hclosed : opened = 0 := by omega
      exact ⟨by omega, .predicate hnone (written_of_readPredicate hp (hsealed hclosed)) hparts⟩
    split at h
    · -- a style class
      rename_i hdot
      subst hdot
      split at h
      · cases h
      rename_i name rest hname
      have hlt := length_readName hname
      obtain ⟨rfl, hclass⟩ := readName_className_eq_some hname
      obtain ⟨⟨ps', cs'⟩, hrest, heq⟩ := Except.map_eq_ok h
      cases heq
      have hpaired : Paired .outside depth rest :=
        (paired_plain_append (fun c hc => (plain_of_isClassName hclass c hc).2) depth rest).1 hs
      obtain ⟨hzero, hparts⟩ := written_of_readParts hrest hdepth hpaired
      exact ⟨hzero, .className hnone hclass hparts⟩
    · cases h
termination_by s.length

/-- `readKind` reads a kind from its word, or there is none and nothing is read. -/
theorem readKind_eq {part rest : Text} {kind : Option Kind} (h : readKind part = (kind, rest)) :
    (∃ gap word, part = gap ++ (word ++ rest) ∧ (∀ c ∈ gap, Text.isBlank c = true) ∧
      KindSpelling kind word) ∨ kind = none ∧ rest = part := by
  obtain ⟨gap, hgap, hblank⟩ := Text.exists_append_trimStart part
  have hkind {word : Text} (hword : KindSpelling kind word)
      (hafter : Text.after? word (Text.trimStart part) = some rest) :
      ∃ gap word, part = gap ++ (word ++ rest) ∧ (∀ c ∈ gap, Text.isBlank c = true) ∧
        KindSpelling kind word :=
    ⟨gap, word, by rw [← Text.eq_append_of_after? hafter, ← hgap], hblank, hword⟩
  unfold readKind at h
  dsimp only at h
  split at h <;> cases h
  · exact .inl (hkind (.word .node) ‹_›)
  · exact .inl (hkind (.word .edge) ‹_›)
  · exact .inl (hkind .any ‹_›)
  · exact .inr ⟨rfl, rfl⟩

/-- `KindSpelling` words hold no quotes and no brackets. -/
theorem plain_word {kind : Option Kind} {word : Text} (h : KindSpelling kind word) :
    ∀ c ∈ word, c ≠ '"' ∧ c ≠ '[' ∧ c ≠ ']' := by
  cases h with
  | any => decide
  | word kind => cases kind <;> decide

/-- `readGroup` reads what is written as a group, if it closes what it opens. -/
theorem written_of_readGroup {part : Text} {g : SelectorGroup} (h : readGroup part = .ok g)
    (hs : Paired .outside 0 part) : g.Written Row part := by
  rw [readGroup] at h
  split at h
  · cases h
  rename_i hblank
  split at h
  rename_i kind rest hkind
  obtain ⟨⟨ps, cs⟩, hparts, rfl⟩ := Except.map_eq_ok h
  rcases readKind_eq hkind with ⟨gap, word, rfl, hgap, hword⟩ | ⟨rfl, rfl⟩
  · rw [paired_plain_append (fun c hc => (plain_of_isBlank hgap c hc).2),
      paired_plain_append (plain_word hword)] at hs
    exact .kinded hgap hword (written_of_readParts hparts (Int.le_refl 0) hs).2
  · have hwritten := (written_of_readParts hparts (Int.le_refl 0) hs).2
    refine .bare (Decidable.byContradiction fun hnone => hblank ?_) hwritten
    -- without any part there is white space only
    simp only [ne_eq, not_or, Decidable.not_not] at hnone
    obtain ⟨rfl, rfl⟩ := hnone
    cases hwritten with
    | nil hgap => exact Text.isBlankText_iff.2 hgap

/-- `readGroups` reads what is written as groups, if each closes what it opens. -/
theorem written_of_readGroups {parts : List Text} {groups : List SelectorGroup}
    (h : readGroups parts = .ok groups) (hs : ∀ part ∈ parts, Paired .outside 0 part) :
    List.Forall₂ (SelectorGroup.Written Row) groups parts := by
  induction parts generalizing groups with
  | nil =>
    cases h
    exact .nil
  | cons part parts ih =>
    rw [List.forall_mem_cons] at hs
    rw [readGroups] at h
    split at h
    · cases h
    rename_i g hg
    obtain ⟨rest, hrest, rfl⟩ := Except.map_eq_ok h
    exact .cons (written_of_readGroup hg hs.1) (ih hrest hs.2)

/-! ## Selectors -/

/-- `parse` reads what is written for the groups of the selector. -/
theorem written_of_parse {text : Text} {s : Selector} (h : parse text = .ok s) :
    s.text = text ∧ Written Row s.groups text := by
  obtain ⟨htext, -, pieces, hsplit, hread⟩ := parse_eq_ok_iff.1 h
  obtain ⟨piece, rest, rfl, hjoin, hpiece, hrest⟩ := cutGroups_spec hsplit
  have hwritten := written_of_readGroups hread (List.forall_mem_cons.2 ⟨hpiece, hrest⟩)
  refine ⟨htext, ?_, _, hjoin, hwritten⟩
  intro hnone
  rw [hnone] at hwritten
  cases hwritten

/-- A text parses as a selector if and only if it is written by the syntax, where the value of a
comparison may be a row of literals; and then it parses as what it was written for. In particular all
that is written with single literals parses. -/
theorem parse_ok_iff (text : Text) :
    (∀ s, parse text = .ok s ↔ s.text = text ∧ Written Row s.groups text) ∧
      ∀ groups, Written Enclosed groups text → parse text = .ok ⟨text, groups⟩ := by
  refine ⟨fun s => ⟨written_of_parse, ?_⟩, fun groups h => (h.mono fun _ => .single).parse_eq⟩
  rintro ⟨rfl, h⟩
  exact h.parse_eq

/-- Two predicates and a style class in one group, and a further group; a quote is escaped in the one
value, and the other one is a number. -/
theorem parse_ok_iff_escaped :
    let text : Text := "node [ a *= \"x\\\"y\" ] .cls[^b],[n<-3]"
    let groups : List SelectorGroup :=
      [⟨some .node, [.compare "a" .contains (.text "x\"y"), .undefined "b"], ["cls"]⟩,
        ⟨none, [.compare "n" .lt (.number (NumberLiteral.value ⟨true, 3, 0, 0⟩))], []⟩]
    Written Enclosed groups text ∧ parse text = .ok ⟨text, groups⟩ ∧ Written Row groups text := by
  intro text groups
  have blank (s : Text) (h : Text.isBlankText s = true) : ∀ c ∈ s, Text.isBlank c = true :=
    Text.isBlankText_iff.1 h
  -- a value with a quote after a backslash, and blanks around every part
  have hfirst : SelectorGroup.Written Enclosed
      ⟨some .node, [.compare "a" .contains (.text "x\"y"), .undefined "b"], ["cls"]⟩
      "node [ a *= \"x\\\"y\" ] .cls[^b]" := by
    have hcontent : Enclosed "x\\\"y" := .plain (by decide) (.escaped _ (.plain (by decide) .nil))
    have hcomparison : Predicate.Written Enclosed (.compare "a" .contains (.text "x\"y"))
        " a *= \"x\\\"y\" " :=
      .comparison (by decide) (.text hcontent) (blank " " rfl) (blank " " rfl) (blank " " rfl)
        (blank " " rfl)
    have hflag : Predicate.Written Enclosed (.undefined "b") "^b" :=
      .flag .undefined (by decide) (blank "" rfl) (blank "" rfl) (blank "" rfl)
    exact .kinded (blank "" rfl) (.word .node)
      (.predicate (blank " " rfl) hcomparison
        (.className (blank " " rfl) (by decide)
          (.predicate (blank "" rfl) hflag (.nil (blank "" rfl)))))
  -- a number, and no blank at all
  have hsecond : SelectorGroup.Written Enclosed
      ⟨none, [.compare "n" .lt (.number (NumberLiteral.value ⟨true, 3, 0, 0⟩))], []⟩ "[n<-3]" := by
    have hdigits : NumberLiteral.AreDigits "3" := List.forall_mem_singleton.2 rfl
    have hliteral : NumberLiteral.Spelling ⟨true, 3, 0, 0⟩ "-3" :=
      .whole .minus hdigits (by decide) .none
    have hcomparison : Predicate.Written Enclosed
        (.compare "n" .lt (.number (NumberLiteral.value ⟨true, 3, 0, 0⟩))) "n<-3" :=
      .comparison (by decide) (.number hliteral) (blank "" rfl) (blank "" rfl) (blank "" rfl)
        (blank "" rfl)
    exact .bare (.inl (List.cons_ne_nil _ _))
      (.predicate (blank "" rfl) hcomparison (.nil (blank "" rfl)))
  have hwritten : Written Enclosed groups text :=
    ⟨List.cons_ne_nil _ _, _, rfl, .cons hfirst (.cons hsecond .nil)⟩
  have hparse := (parse_ok_iff text).2 groups hwritten
  exact ⟨hwritten, hparse, (((parse_ok_iff text).1 _).1 hparse).2⟩

/-! ## Rows of two literals -/

/-- What is written without a backslash is one literal only if it holds no quote, and is read as it
stands. -/
theorem Enclosed.unescape_eq_self {s : Text} (h : Enclosed s) (hs : CodePoint.char '\\' ∉ s) :
    unescape s = s ∧ CodePoint.char '"' ∉ s := by
  induction h with
  | nil => exact ⟨rfl, List.not_mem_nil⟩
  | @plain c s hc _ ih =>
    obtain ⟨heq, hquote⟩ := ih fun hmem => hs (List.mem_cons_of_mem _ hmem)
    exact ⟨(unescape_cons_of_plain hc.1 s).trans (congrArg (c :: ·) heq),
      List.not_mem_cons_of_ne_of_not_mem (Ne.symm hc.2) hquote⟩
  | escaped => exact absurd List.mem_cons_self hs

end Selector

namespace SelectorGroup

/-- What was written for the value of a comparison stands in the text. -/
theorem PartsWritten.exists_content {quotable : Text → Prop} {ps : List Predicate} {cs : List Text}
    {s : Text} (h : PartsWritten quotable ps cs s) {key value : Text} {op : Comparison}
    (hp : Predicate.compare key op (.text value) ∈ ps) :
    ∃ content, quotable content ∧ value = Selector.unescape content ∧ content ⊆ s := by
  induction h with
  | nil => cases hp
  | predicate _ hbody _ ih =>
    rcases List.mem_cons.1 hp with rfl | hp
    · cases hbody with
      | flag hmark => cases hmark
      | comparison _ hvalue =>
        cases hvalue with
        | text hcontent => exact ⟨_, hcontent, rfl, fun c hc => by simp [hc]⟩
    · obtain ⟨content, hcontent, hvalue, hsub⟩ := ih hp
      exact ⟨content, hcontent, hvalue, fun c hc => by simp [hsub hc]⟩
  | className _ _ _ ih =>
    obtain ⟨content, hcontent, hvalue, hsub⟩ := ih hp
    exact ⟨content, hcontent, hvalue, fun c hc => by simp [hsub hc]⟩

/-- `Written` groups hold the literal of each text that they compare with. -/
theorem Written.exists_content {quotable : Text → Prop} {g : SelectorGroup} {s : Text}
    (h : g.Written quotable s) {key value : Text} {op : Comparison}
    (hp : Predicate.compare key op (.text value) ∈ g.predicates) :
    ∃ content, quotable content ∧ value = Selector.unescape content ∧ content ⊆ s := by
  cases h with
  | kinded _ _ hparts =>
    obtain ⟨content, hcontent, hvalue, hsub⟩ := hparts.exists_content hp
    exact ⟨content, hcontent, hvalue, fun c hc => by simp [hsub hc]⟩
  | bare _ hparts => exact hparts.exists_content hp

end SelectorGroup

namespace Selector

/-- `Written` selectors hold the text of each of their groups. -/
theorem Written.exists_part {quotable : Text → Prop} {groups : List SelectorGroup} {text : Text}
    (h : Written quotable groups text) {g : SelectorGroup} (hg : g ∈ groups) :
    ∃ part, g.Written quotable part ∧ part ⊆ text := by
  obtain ⟨-, parts, rfl, hparts⟩ := h
  suffices hpart : ∃ part ∈ parts, g.Written quotable part from
    hpart.imp fun _ h => ⟨h.2, Text.subset_join "," h.1⟩
  induction hparts with
  | nil => cases hg
  | cons hpart _ ih =>
    rcases List.mem_cons.1 hg with rfl | hg
    · exact ⟨_, List.mem_cons_self, hpart⟩
    · exact (ih hg).imp fun _ h => ⟨List.mem_cons_of_mem _ h.1, h.2⟩

/-- `Written` selectors hold the literal of each text that they compare with. -/
theorem Written.exists_content {quotable : Text → Prop} {groups : List SelectorGroup} {text : Text}
    (h : Written quotable groups text) {g : SelectorGroup} (hg : g ∈ groups) {key value : Text}
    {op : Comparison} (hp : Predicate.compare key op (.text value) ∈ g.predicates) :
    ∃ content, quotable content ∧ value = unescape content ∧ content ⊆ text := by
  obtain ⟨part, hpart, hsub⟩ := h.exists_part hg
  obtain ⟨content, hcontent, hvalue, hsub'⟩ := hpart.exists_content hp
  exact ⟨content, hcontent, hvalue, fun c hc => hsub (hsub' hc)⟩

/-- Two literals in a row are accepted, and their value is no single literal. -/
theorem parse_accepts_row :
    let text : Text := "[app = \"a\" \"b\"]"
    let groups : List SelectorGroup := [⟨none, [.compare "app" .eq (.text "a\" \"b")], []⟩]
    parse text = .ok ⟨text, groups⟩ ∧ ¬Written Enclosed groups text := by
  intro text groups
  have blank (s : Text) (h : Text.isBlankText s = true) : ∀ c ∈ s, Text.isBlank c = true :=
    Text.isBlankText_iff.1 h
  refine ⟨Written.parse_eq ⟨List.cons_ne_nil _ _, [text], rfl, .cons ?_ .nil⟩, fun h => ?_⟩
  · have letter (c : CodePoint) (hc : c ≠ '\\' ∧ c ≠ '"') : Enclosed [c] := .plain hc .nil
    have hgap : ∀ c ∈ ([' '] : Text), c ≠ '"' ∧ c ≠ '[' ∧ c ≠ ']' := by decide
    have hrow : Row "a\" \"b" :=
      .cons (letter 'a' (by decide)) hgap (.single (letter 'b' (by decide)))
    have hcomparison : Predicate.Written Row (.compare "app" .eq (.text "a\" \"b"))
        "app = \"a\" \"b\"" :=
      .comparison (by decide) (.text hrow) (blank "" rfl) (blank " " rfl) (blank " " rfl)
        (blank "" rfl)
    exact .bare (.inl (List.cons_ne_nil _ _))
      (.predicate (blank "" rfl) hcomparison (.nil (blank "" rfl)))
  · -- the value holds a quote, which no single literal can without a backslash
    obtain ⟨content, hcontent, hvalue, hsub⟩ :=
      h.exists_content List.mem_cons_self List.mem_cons_self
    obtain ⟨hself, hquote⟩ := hcontent.unescape_eq_self fun hmem => absurd (hsub hmem) (by decide)
    rw [← hself, ← hvalue] at hquote
    exact absurd hquote (by decide)

end Selector

end MeshLens
