import MeshLens.Proofs.Selector.ParseAccepted
import MeshLens.Selector.Matching

/-!
# Closing brackets

A selector text is cut at commas by a scan that counts brackets, and the bracket that closes a predicate is
looked for by one that does not count. The two can be of different opinions about where they stand: a
predicate may hold an opening bracket, which the second scan passes over. But then brackets that are opened
outnumber those that are closed, and so wherever a predicate begins, the first scan has seen to it that
there is a closing bracket further on.

## Key results

- `exists_readBracketed`: a text that closes more brackets than it opens has one that the second scan finds
- `Paired.of_comesTo`: where reading comes to, no bracket of an earlier predicate has been closed too often
- `readParts_eq_unterminated_iff`: what it means that a predicate is not closed
- `scans_agree`: this does not happen, and every operator that is read is one that matching knows
-/

namespace MeshLens

namespace Selector

open Quoting

/-! ## Where reading comes to -/

/-- Whether the reading of the parts of a group comes from one place in its text to another one: over white
space, over predicates that can be read and over style classes. -/
inductive ComesTo : Text → Text → Prop
  | refl (s : Text) : ComesTo s s
  | blank {c : CodePoint} {s t : Text} (hc : Text.isBlank c = true) (h : ComesTo s t) :
    ComesTo (c :: s) t
  | predicate {s body rest t : Text} {p : Predicate}
    (hbody : readBracketed .outside s = some (body, rest)) (hp : readPredicate body = .ok p)
    (h : ComesTo rest t) : ComesTo (.char '[' :: s) t
  | className {s name rest t : Text} (hname : readName isClassChar s = some (name, rest))
    (h : ComesTo rest t) : ComesTo (.char '.' :: s) t

/-- `readPredicate` never fails with the fault of a predicate that is not closed. -/
theorem readPredicate_ne_unterminated (body : Text) : readPredicate body ≠ .error .unterminated := by
  intro h
  rw [readPredicate] at h
  split at h
  · cases h
  split at h
  · cases h
  split at h
  · cases h
  · rename_i raw _ fault hfault
    cases h
    -- a value that cannot be read is reported as such
    rw [readComparand] at hfault
    split at hfault
    · cases hfault
    · split at hfault <;> cases hfault

section Parts

variable {s body name rest : Text} {p : Predicate}

/-- `readParts` at a predicate that can be read goes on behind it. -/
theorem readParts_predicate (hbody : readBracketed .outside s = some (body, rest))
    (hp : readPredicate body = .ok p) : readParts (.char '[' :: s) =
      (readParts rest).map fun (predicates, classes) => (p :: predicates, classes) := by
  rw [readParts, if_neg (by decide), if_pos rfl]
  split
  · rename_i hnone
    rw [hbody] at hnone
    cases hnone
  · rename_i hsome
    rw [hbody] at hsome
    cases hsome
    rw [hp]

/-- `readParts` at a bracket that is not closed fails. -/
theorem readParts_unterminated (hnone : readBracketed .outside s = none) :
    readParts (.char '[' :: s) = .error .unterminated := by
  rw [readParts, if_neg (by decide), if_pos rfl]
  split
  · rfl
  · rename_i hsome
    rw [hnone] at hsome
    cases hsome

/-- `readParts` at a style class goes on behind it. -/
theorem readParts_class (hname : readName isClassChar s = some (name, rest)) :
    readParts (.char '.' :: s) =
      (readParts rest).map fun (predicates, classes) => (predicates, name :: classes) := by
  rw [readParts, if_neg (by decide), if_neg (by decide), if_pos rfl]
  split
  · rename_i hnone
    rw [hname] at hnone
    cases hnone
  · rename_i hsome
    rw [hname] at hsome
    cases hsome
    rfl

/-- `ComesTo` carries a fault where reading comes to back to the whole. -/
theorem ComesTo.readParts_eq_error {t : Text} (h : ComesTo s t) {fault : SelectorFault}
    (ht : readParts t = .error fault) : readParts s = .error fault := by
  induction h with
  | refl => exact ht
  | blank hc _ ih => rw [readParts, if_pos hc, ih ht]
  | predicate hbody hp _ ih => rw [readParts_predicate hbody hp, ih ht]; rfl
  | className hname _ ih => rw [readParts_class hname, ih ht]; rfl

end Parts

/-- `readParts` finds a predicate that is not closed just when reading comes to an opening bracket
behind which the scan finds no closing one. -/
theorem readParts_eq_unterminated_iff {s : Text} : readParts s = .error .unterminated ↔
    ∃ t, ComesTo s (.char '[' :: t) ∧ readBracketed .outside t = none := by
  constructor
  · intro h
    -- along the recursion of reading, which comes to each place where it goes on
    fun_induction readParts s with
    | case1 => cases h
    | case2 c s hblank ih =>
      obtain ⟨t, hcomes, hnone⟩ := ih h
      exact ⟨t, .blank hblank hcomes, hnone⟩
    | case3 s hnone => exact ⟨s, .refl _, hnone⟩
    | case4 s body rest hbody _ fault hfault =>
      cases h
      exact absurd hfault (readPredicate_ne_unterminated body)
    | case5 s body rest hbody _ p hp _ ih =>
      obtain ⟨t, hcomes, hnone⟩ := ih (Except.map_eq_error h)
      exact ⟨t, .predicate hbody hp hcomes, hnone⟩
    | case6 => cases h
    | case7 s name rest hname _ _ _ ih =>
      obtain ⟨t, hcomes, hnone⟩ := ih (Except.map_eq_error h)
      exact ⟨t, .className hname hcomes, hnone⟩
    | case8 => cases h
  · rintro ⟨t, hcomes, hnone⟩
    exact hcomes.readParts_eq_error (readParts_unterminated hnone)

/-! ## Closing brackets -/

/-- `readBracketed` finds a body in front of a closing bracket, which leads out of quotes. -/
theorem readBracketed_eq_some {q : Quoting} {s body rest : Text}
    (h : readBracketed q s = some (body, rest)) :
    s = body ++ .char ']' :: rest ∧ body.foldl step q = .outside := by
  induction s generalizing q body with
  | nil => cases h
  | cons c s ih =>
    rw [readBracketed] at h
    split at h
    · rename_i hclose
      obtain ⟨rfl, rfl⟩ := hclose
      cases h
      exact ⟨rfl, rfl⟩
    · obtain ⟨⟨body', rest'⟩, hfound, heq⟩ := Option.map_eq_some_iff.1 h
      cases heq
      obtain ⟨rfl, hout⟩ := ih hfound
      exact ⟨rfl, hout⟩

/-- `readBracketed` finds a closing bracket in a text that leads out of brackets. -/
theorem exists_readBracketed {q : Quoting} {depth : Int} {s : Text} (hs : Paired q depth s)
    (hdepth : 0 < depth) : ∃ body rest, readBracketed q s = some (body, rest) := by
  induction s generalizing q depth with
  | nil =>
    have hzero := hs.2
    omega
  | cons c s ih =>
    by_cases hclose : q = .outside ∧ c = ']'
    · exact ⟨[], s, by rw [readBracketed, if_pos hclose]⟩
    · -- any other character leaves the depth or goes down one level more
      have hdeeper : 0 < if q = .outside then depthAfter depth c else depth := by
        split
        · rename_i hq
          rw [depthAfter, if_neg fun hc => hclose ⟨hq, hc⟩]
          split <;> omega
        · exact hdepth
      obtain ⟨body, rest, hfound⟩ := ih hs hdeeper
      exact ⟨c :: body, rest, by rw [readBracketed, if_neg hclose, hfound]; rfl⟩

/-- `Paired` goes along with reading, which never closes a bracket that it has not opened: at least
as many are open where it comes to as where it began. -/
theorem Paired.of_comesTo {s t : Text} (h : ComesTo s t) {depth : Int} (hdepth : 0 ≤ depth)
    (hs : Paired .outside depth s) : ∃ depth', 0 ≤ depth' ∧ Paired .outside depth' t := by
  induction h generalizing depth with
  | refl => exact ⟨depth, hdepth, hs⟩
  | @blank c s t hc _ ih =>
    have hgap : ∀ d ∈ [c], Text.isBlank d = true := List.forall_mem_singleton.2 hc
    exact ih hdepth ((paired_plain_append (fun d hd => (plain_of_isBlank hgap d hd).2) depth s).1 hs)
  | predicate hbody _ _ ih =>
    -- what is opened within the predicate and not closed there stays open behind it
    obtain ⟨-, hspec⟩ := readBracketed_spec hbody
    obtain ⟨opened, hpaired, -⟩ := hspec (depth + 1) hs
    exact ih (by omega) hpaired
  | @className s name rest t hname _ ih =>
    obtain ⟨rfl, hclass⟩ := readName_className_eq_some hname
    exact ih hdepth
      ((paired_plain_append (fun c hc => (plain_of_isClassName hclass c hc).2) depth rest).1 hs)

/-- `readKind` opens and closes nothing in front of the parts of a group. -/
theorem paired_readKind {part : Text} (h : Paired .outside 0 part) :
    Paired .outside 0 (readKind part).2 := by
  rcases hkind : readKind part with ⟨kind, rest⟩
  rcases readKind_eq hkind with ⟨gap, word, rfl, hgap, hword⟩ | ⟨-, rfl⟩
  · rwa [paired_plain_append (fun c hc => (plain_of_isBlank hgap c hc).2),
      paired_plain_append (plain_word hword)] at h
  · exact h

/-- `splitGroups` cuts a text into pieces that close what they open. -/
theorem paired_of_mem_splitGroups {text part : Text} {parts : List Text}
    (h : splitGroups text = some parts) (hpart : part ∈ parts) : Paired .outside 0 part := by
  obtain ⟨piece, rest, rfl, -, hpiece, hrest⟩ := cutGroups_spec h
  exact List.forall_mem_cons.2 ⟨hpiece, hrest⟩ part hpart

/-- `readBracketed` finds a closing bracket wherever a predicate begins in a piece of a text. -/
theorem exists_readBracketed_of_comesTo {text part t : Text} {parts : List Text}
    (h : splitGroups text = some parts) (hpart : part ∈ parts)
    (hcomes : ComesTo (readKind part).2 (.char '[' :: t)) :
    ∃ body rest, readBracketed .outside t = some (body, rest) := by
  have hpaired := paired_readKind (paired_of_mem_splitGroups h hpart)
  obtain ⟨depth, hdepth, ht⟩ := Paired.of_comesTo hcomes (Int.le_refl 0) hpaired
  have hopened : Paired .outside (depth + 1) t := ht
  exact exists_readBracketed hopened (by omega)

/-- `readGroup` finds a predicate that is not closed in the parts of the group. -/
theorem readGroup_eq_unterminated {part : Text} (h : readGroup part = .error .unterminated) :
    readParts (readKind part).2 = .error .unterminated := by
  rw [readGroup] at h
  split at h
  · cases h
  · exact Except.map_eq_error h

/-- `readGroups` fails with the fault of one of the groups. -/
theorem exists_of_readGroups_eq_error {parts : List Text} {fault : SelectorFault}
    (h : readGroups parts = .error fault) : ∃ part ∈ parts, readGroup part = .error fault := by
  induction parts with
  | nil => cases h
  | cons part parts ih =>
    rw [readGroups] at h
    split at h
    · rename_i hgroup
      cases h
      exact ⟨part, List.mem_cons_self, hgroup⟩
    · obtain ⟨part', hpart', hfault⟩ := ih (Except.map_eq_error h)
      exact ⟨part', List.mem_cons_of_mem _ hpart', hfault⟩

/-- `read` refuses no text for a predicate that is not closed. -/
theorem read_ne_unterminated (text : Text) : read text ≠ .error .unterminated := by
  intro h
  rw [read] at h
  split at h
  · cases h
  split at h
  · cases h
  · rename_i parts hsplit
    obtain ⟨part, hpart, hgroup⟩ := exists_of_readGroups_eq_error h
    obtain ⟨t, hcomes, hnone⟩ :=
      readParts_eq_unterminated_iff.1 (readGroup_eq_unterminated hgroup)
    obtain ⟨body, rest, hfound⟩ := exists_readBracketed_of_comesTo hsplit hpart hcomes
    rw [hnone] at hfound
    cases hfound

end Selector

/-! ## Operators -/

/-- The symbol of an operator without the exclamation mark that may stand in front. -/
def Comparison.bareSymbol (op : Comparison) : Text :=
  (Text.after? ['!'] op.symbol).getD op.symbol

/-- The symbols that matching knows, with the relations that they stand for. -/
def Relation.symbols : List (Text × Relation) := [
  ("=", .equal), (">", .above), ("<", .below), (">=", .atLeast), ("<=", .atMost),
  ("*=", .contains), ("^=", .startsWith), ("$=", .endsWith)]

/-- `relation` of each operator is the one that its bare symbol stands for. -/
theorem Comparison.mem_symbols (op : Comparison) : (op.bareSymbol, op.relation) ∈ Relation.symbols := by
  cases op <;> decide

/-- `holds` of a comparison only fails at a number: one that is too large, or one that cannot be
read. -/
theorem Predicate.error_of_holds_compare {key : Text} {op : Comparison} {given : Comparand}
    {data : Entries Value} {e : EvaluationError}
    (h : (Predicate.compare key op given).holds data = .error e) :
    e = .integerTooLarge ∨ ∃ fault, e = .unreadable fault := by
  rw [holds] at h
  split at h
  · cases h
  rename_i value _
  have hstands := Except.map_eq_error h
  -- a text is compared with texts, which cannot fail
  cases given with
  | text s =>
    rw [Value.standsIn] at hstands
    split at hstands <;> cases hstands
  | number x =>
    rw [Value.standsIn] at hstands
    split at hstands
    · cases hstands
    split at hstands
    · rename_i hnumber
      cases hstands
      unfold Value.number? at hnumber
      split at hnumber
      · split at hnumber <;> cases hnumber
        exact .inl rfl
      · cases hnumber
      · split at hnumber
        · split at hnumber <;> cases hnumber
          exact .inr ⟨_, rfl⟩
        · cases hnumber
      · cases hnumber
    · cases hstands
    · cases hstands

namespace SelectorGroup

variable {quotable : Text → Prop} {key : Text} {op : Comparison} {value : Comparand}

/-- `symbol` of the operator stands in the parts that a comparison was written in. -/
theorem PartsWritten.symbol_infix {ps : List Predicate} {cs : List Text} {s : Text}
    (h : PartsWritten quotable ps cs s) (hp : Predicate.compare key op value ∈ ps) :
    op.symbol <:+: s := by
  -- induction on the writing of the parts, in one of which the comparison stands
  induction h with
  | nil => cases hp
  | @predicate p ps cs gap body rest _ hbody _ ih =>
    rcases List.mem_cons.1 hp with rfl | hp
    · have hinside : op.symbol <:+: body := by
        cases hbody with
        | flag hmark => cases hmark
        | @comparison _ _ _ s front before behind back =>
          exact ⟨front ++ (key ++ before), behind ++ (s ++ back), by simp⟩
      exact hinside.trans ⟨gap ++ [.char '['], .char ']' :: rest, by simp⟩
    · exact (ih hp).trans ⟨gap ++ .char '[' :: (body ++ [.char ']']), [], by simp⟩
  | @className name ps cs gap rest _ _ _ ih =>
    exact (ih hp).trans ⟨gap ++ .char '.' :: name, [], by simp⟩

/-- `symbol` of the operator stands in the group that a comparison was written in. -/
theorem Written.symbol_infix {g : SelectorGroup} {s : Text} (h : g.Written quotable s)
    (hp : Predicate.compare key op value ∈ g.predicates) : op.symbol <:+: s := by
  cases h with
  | @kinded _ _ _ gap word parts _ _ hparts =>
    exact (hparts.symbol_infix hp).trans ⟨gap ++ word, [], by simp⟩
  | bare _ hparts => exact hparts.symbol_infix hp

end SelectorGroup

namespace Selector

open Quoting

/-- `symbol` of the operator stands in the text that a comparison was written in. -/
theorem Written.symbol_infix {quotable : Text → Prop} {groups : List SelectorGroup} {text : Text}
    (h : Written quotable groups text) {g : SelectorGroup} (hg : g ∈ groups) {key : Text}
    {op : Comparison} {value : Comparand} (hp : Predicate.compare key op value ∈ g.predicates) :
    op.symbol <:+: text := by
  obtain ⟨-, parts, rfl, hparts⟩ := h
  obtain ⟨part, hpart, hwritten⟩ : ∃ part ∈ parts, g.Written quotable part := by
    induction hparts with
    | nil => cases hg
    | cons hpart _ ih =>
      rcases List.mem_cons.1 hg with rfl | hg
      · exact ⟨_, List.mem_cons_self, hpart⟩
      · exact (ih hg).imp fun _ h => ⟨List.mem_cons_of_mem _ h.1, h.2⟩
  exact (hwritten.symbol_infix hp).trans (Text.infix_join "," hpart)

/-! ## The two scans -/

/-- When a text is cut into pieces, every predicate that reading comes to in one of them is closed by a
bracket outside of quotes, so that no text is refused for one that is not. The operator of a comparison that
is read stands in the text; without an exclamation mark in front it is a symbol that matching knows, and
matching fails at numbers only. -/
theorem scans_agree (text : Text) :
    (∀ parts, splitGroups text = some parts → ∀ part ∈ parts, ∀ t,
      ComesTo (readKind part).2 (.char '[' :: t) → ∃ body rest,
        readBracketed .outside t = some (body, rest) ∧ t = body ++ .char ']' :: rest ∧
          body.foldl step .outside = .outside) ∧
    (∀ e, parse text = .error e → e.fault ≠ .unterminated) ∧
    ∀ s, parse text = .ok s → ∀ g ∈ s.groups, ∀ key op value, .compare key op value ∈ g.predicates →
      op.symbol <:+: text ∧ (op.bareSymbol, op.relation) ∈ Relation.symbols ∧
        ∀ data e, (Predicate.compare key op value).holds data = .error e →
          e = .integerTooLarge ∨ ∃ fault, e = .unreadable fault := by
  refine ⟨fun parts hsplit part hpart t hcomes => ?_, fun e he hfault => ?_,
    fun s hs g hg key op value hp => ?_⟩
  · -- the scan of the whole text cut it outside of every quote, so the scan of a part ends
    obtain ⟨body, rest, hfound⟩ := exists_readBracketed_of_comesTo hsplit hpart hcomes
    obtain ⟨ht, hout⟩ := readBracketed_eq_some hfound
    exact ⟨body, rest, hfound, ht, hout⟩
  · rw [parse] at he
    split at he
    · cases he
    · rename_i fault hread
      cases he
      -- the only way to that fault is a bracket that stays open, which a cut text has not
      exact read_ne_unterminated text (hread.trans (congrArg Except.error hfault))
  · obtain ⟨-, hwritten⟩ := written_of_parse hs
    exact ⟨hwritten.symbol_infix hg hp, op.mem_symbols, fun _ _ => Predicate.error_of_holds_compare⟩

/-- The first predicate holds a bracket that is opened and not closed, and the second one is closed all the
same. An operator with a mark is one that matching knows without it. -/
theorem scans_agree_nested :
    let text : Text := "[a = \"x\" [ \"y\"] [b] ]"
    let marked : Text := "[a !*= \"x\"]"
    splitGroups text = some [text] ∧ ComesTo (readKind text).2 "[b] ]" ∧
      (∃ body rest, readBracketed .outside "b] ]" = some (body, rest) ∧
        ("b] ]" : Text) = body ++ .char ']' :: rest ∧ body.foldl step .outside = .outside) ∧
      parse marked = .ok ⟨marked, [⟨none, [.compare "a" .notContains (.text "x")], []⟩]⟩ ∧
      Comparison.notContains.symbol <:+: marked := by
  intro text marked
  have hsplit : splitGroups text = some [text] := by decide
  have hbody : readBracketed .outside "a = \"x\" [ \"y\"] [b] ]" =
      some (("a = \"x\" [ \"y\"" : Text), (" [b] ]" : Text)) := by
    decide
  have hpredicate : readPredicate "a = \"x\" [ \"y\"" =
      .ok (.compare "a" .eq (.text "x\" [ \"y")) := by
    decide
  have hcomes : ComesTo (readKind text).2 "[b] ]" :=
    .predicate hbody hpredicate (.blank (by decide) (.refl _))
  have hparse : parse marked =
      .ok ⟨marked, [⟨none, [.compare "a" .notContains (.text "x")], []⟩]⟩ := by
    decide +kernel
  exact ⟨hsplit, hcomes, (scans_agree text).1 _ hsplit _ List.mem_cons_self _ hcomes, hparse,
    ((scans_agree marked).2.2 _ hparse _ List.mem_cons_self _ _ _ List.mem_cons_self).1⟩

end Selector

end MeshLens
