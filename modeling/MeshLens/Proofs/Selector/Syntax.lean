import Mathlib.Data.List.Forall2
import MeshLens.Proofs.Number.LiteralSyntax
import MeshLens.Proofs.Selector.Scan

/-!
# The syntax of selectors

A selector is written as groups with commas between. In a group stand a word for a kind, predicates
between brackets and style classes, with any white space between the parts of a group and between the
parts of a predicate. The value of a comparison is a number, or what may stand between two quotes. What
this is, is left open here: `Enclosed` is one literal, in which a quote has a backslash in front, and
`Row` is a row of them with anything but brackets between.

## Key results

- `Predicate.Written`, `SelectorGroup.Written`, `Selector.Written`: the ways of writing
- `Selector.row_iff_sealed`: rows are what scans pass over between two quotes
-/

namespace MeshLens

/-! ## Names -/

namespace Selector

/-- Whether a text is an attribute as a predicate can name it. -/
def isAttribute : Text → Bool
  | [] => false
  | c :: s => isNameStart c && s.all isAttributeChar

/-- Whether a text is a style class as a class filter can name it. -/
def isClassName : Text → Bool
  | [] => false
  | c :: s => isNameStart c && s.all isClassChar

end Selector

/-! ## Values -/

namespace Selector

/-- What may stand between the quotes of a literal: a backslash takes the character behind it along, and
no other character is a quote. -/
inductive Enclosed : Text → Prop
  | nil : Enclosed []
  | plain {c : CodePoint} {s : Text} (hc : c ≠ '\\' ∧ c ≠ '"') (hs : Enclosed s) : Enclosed (c :: s)
  | escaped (c : CodePoint) {s : Text} (hs : Enclosed s) : Enclosed (.char '\\' :: c :: s)

/-- What stands between the first and the last quote of a row of literals, with anything but quotes and
brackets between them. -/
inductive Row : Text → Prop
  | single {content : Text} (h : Enclosed content) : Row content
  | cons {content gap rest : Text} (h : Enclosed content)
    (hgap : ∀ c ∈ gap, c ≠ '"' ∧ c ≠ '[' ∧ c ≠ ']') (hrest : Row rest) :
    Row (content ++ .char '"' :: (gap ++ .char '"' :: rest))

/-- `Criterion.escape` of any text may stand between quotes. -/
theorem enclosed_escape (s : Text) : Enclosed (Criterion.escape s) := by
  induction s with
  | nil => exact .nil
  | cons c s ih =>
    by_cases hc : c = '\\' ∨ c = '"'
    · rw [Criterion.escape_cons_of_special hc]
      exact .escaped c ih
    · rw [Criterion.escape_cons_of_plain hc]
      exact .plain (not_or.1 hc) ih

end Selector

namespace Quoting

open Selector

/-- `Sealed` inside quotes: a literal that is entered is left at its quote. -/
theorem sealed_inside_append {content : Text} (h : Enclosed content) (rest : Text) :
    Sealed .inside (content ++ .char '"' :: rest) ↔ Sealed .outside rest := by
  induction h with
  | nil => simp [Sealed, step]
  | plain hc _ ih => simpa [Sealed, step, hc.1, hc.2] using ih
  | escaped c _ ih => simpa [Sealed, step] using ih

/-- `Sealed` outside of quotes: a quote enters a literal. -/
theorem sealed_outside_quote (rest : Text) :
    Sealed .outside (.char '"' :: rest) ↔ Sealed .inside rest := by
  simp [Sealed, step]

/-- `Sealed` texts that are entered inside quotes begin with the rest of a literal. -/
theorem exists_enclosed_of_sealed {s : Text} (h : Sealed .inside s) :
    ∃ content rest, s = content ++ .char '"' :: rest ∧ Enclosed content ∧ Sealed .outside rest := by
  cases s with
  | nil => cases h
  | cons c s =>
    by_cases hback : c = '\\'
    · subst hback
      -- a backslash takes the next character along
      cases s with
      | nil => cases h.2
      | cons d s =>
        obtain ⟨content, rest, rfl, hcontent, hrest⟩ := exists_enclosed_of_sealed (s := s) h.2.2
        exact ⟨_, rest, rfl, .escaped d hcontent, hrest⟩
    · by_cases hquote : c = '"'
      · subst hquote
        exact ⟨[], s, rfl, .nil, h.2⟩
      · have hs : Sealed .inside s := by simpa [step, hback, hquote] using h.2
        obtain ⟨content, rest, rfl, hcontent, hrest⟩ := exists_enclosed_of_sealed hs
        exact ⟨_, rest, rfl, .plain ⟨hback, hquote⟩ hcontent, hrest⟩
termination_by s.length

/-- `Sealed` texts that are entered outside of quotes hold none, or begin with anything but brackets
up to one. -/
theorem exists_gap_of_sealed {s : Text} (h : Sealed .outside s) :
    CodePoint.char '"' ∉ s ∨ ∃ gap rest : Text, s = gap ++ .char '"' :: rest ∧
      (∀ c ∈ gap, c ≠ '"' ∧ c ≠ '[' ∧ c ≠ ']') ∧ Sealed .inside rest := by
  induction s with
  | nil => exact .inl List.not_mem_nil
  | cons c s ih =>
    by_cases hquote : c = '"'
    · subst hquote
      exact .inr ⟨[], s, rfl, List.forall_mem_nil _, h.2⟩
    · have hs : Sealed .outside s := by simpa [step, hquote] using h.2
      rcases ih hs with hnone | ⟨gap, rest, rfl, hgap, hrest⟩
      · exact .inl (List.not_mem_cons_of_ne_of_not_mem (Ne.symm hquote) hnone)
      · exact .inr ⟨c :: gap, rest, rfl, List.forall_mem_cons.2 ⟨⟨hquote, h.1 rfl⟩, hgap⟩, hrest⟩

end Quoting

namespace Selector

open Quoting

/-- `Row` holds of the texts that scans pass over between two quotes. -/
theorem row_iff_sealed {s : Text} : Row s ↔ Sealed .inside (s ++ [.char '"']) := by
  constructor
  · intro h
    -- along the row: each literal is left at its quote, and the next one is entered at its own
    induction h with
    | single h => exact (sealed_inside_append h []).2 rfl
    | cons h hgap hrest ih =>
      rw [List.append_assoc, List.cons_append, List.append_assoc, List.cons_append,
        sealed_inside_append h, sealed_plain_append hgap, sealed_outside_quote]
      exact ih
  · intro h
    -- the first literal ends at a quote; either the text ends there, or another one is entered
    obtain ⟨content, rest, heq, hcontent, hrest⟩ := exists_enclosed_of_sealed h
    rcases List.eq_nil_or_concat rest with rfl | ⟨rest, c, rfl⟩
    · obtain rfl : s = content := (List.append_inj' heq rfl).1
      exact .single hcontent
    -- there is a quote behind the first literal, so that a further one begins
    rw [List.concat_eq_append, ← List.cons_append, ← List.append_assoc] at heq
    obtain ⟨rfl, hc⟩ := List.append_inj' heq rfl
    obtain rfl := List.singleton_inj.1 hc
    rw [List.concat_eq_append] at hrest
    rcases exists_gap_of_sealed hrest with hnone | ⟨gap, further, hsplit, hgap, hfurther⟩
    · exact absurd (List.mem_append_right _ (List.mem_singleton_self _)) hnone
    rcases List.eq_nil_or_concat further with rfl | ⟨further, d, rfl⟩
    · cases hfurther
    rw [List.concat_eq_append, ← List.cons_append, ← List.append_assoc] at hsplit
    obtain ⟨rfl, hd⟩ := List.append_inj' hsplit rfl
    obtain rfl := List.singleton_inj.1 hd
    rw [List.concat_eq_append] at hfurther
    exact .cons hcontent hgap (row_iff_sealed.2 hfurther)
termination_by s.length

end Selector

/-! ## Predicates -/

namespace Predicate

/-- The mark in front of an attribute that is asked for alone. -/
inductive Mark (key : Text) : Predicate → Text → Prop
  | defined : Mark key (.defined key) []
  | truthy : Mark key (.truthy key) ['?']
  | falsy : Mark key (.falsy key) ['!']
  | undefined : Mark key (.undefined key) ['^']

/-- The ways of writing a value, given what may stand between quotes. -/
inductive ValueWritten (quotable : Text → Prop) : Comparand → Text → Prop
  | text {content : Text} (h : quotable content) :
    ValueWritten quotable (.text (Selector.unescape content))
      (.char '"' :: (content ++ [.char '"']))
  | number {literal : NumberLiteral} {s : Text} (h : literal.Spelling s) :
    ValueWritten quotable (.number literal.value) s

/-- The ways of writing a predicate between its brackets, with white space around each part. -/
inductive Written (quotable : Text → Prop) : Predicate → Text → Prop
  | flag {predicate : Predicate} {key mark front gap back : Text}
    (hmark : Mark key predicate mark) (hkey : Selector.isAttribute key = true)
    (hfront : ∀ c ∈ front, Text.isBlank c = true) (hgap : ∀ c ∈ gap, Text.isBlank c = true)
    (hback : ∀ c ∈ back, Text.isBlank c = true) :
    Written quotable predicate (front ++ (mark ++ (gap ++ (key ++ back))))
  | comparison {key : Text} {op : Comparison} {value : Comparand} {s front before behind back : Text}
    (hkey : Selector.isAttribute key = true) (hvalue : ValueWritten quotable value s)
    (hfront : ∀ c ∈ front, Text.isBlank c = true) (hbefore : ∀ c ∈ before, Text.isBlank c = true)
    (hbehind : ∀ c ∈ behind, Text.isBlank c = true) (hback : ∀ c ∈ back, Text.isBlank c = true) :
    Written quotable (.compare key op value)
      (front ++ (key ++ (before ++ (op.symbol ++ (behind ++ (s ++ back))))))

variable {quotable quotable' : Text → Prop} (hsub : ∀ s, quotable s → quotable' s)

include hsub

/-- `ValueWritten` grows with what may stand between quotes. -/
theorem ValueWritten.mono {value : Comparand} {s : Text} (h : ValueWritten quotable value s) :
    ValueWritten quotable' value s := by
  cases h with
  | text h => exact .text (hsub _ h)
  | number h => exact .number h

/-- `Written` predicates grow with what may stand between quotes. -/
theorem Written.mono {p : Predicate} {s : Text} (h : p.Written quotable s) :
    p.Written quotable' s := by
  cases h with
  | flag hmark hkey hfront hgap hback => exact .flag hmark hkey hfront hgap hback
  | comparison hkey hvalue hfront hbefore hbehind hback =>
    exact .comparison hkey (hvalue.mono hsub) hfront hbefore hbehind hback

end Predicate

/-! ## Groups -/

namespace SelectorGroup

/-- The ways of writing predicates and style classes in one row, with white space around each. -/
inductive PartsWritten (quotable : Text → Prop) : List Predicate → List Text → Text → Prop
  | nil {gap : Text} (hgap : ∀ c ∈ gap, Text.isBlank c = true) : PartsWritten quotable [] [] gap
  | predicate {p : Predicate} {ps : List Predicate} {cs : List Text} {gap body rest : Text}
    (hgap : ∀ c ∈ gap, Text.isBlank c = true) (hbody : p.Written quotable body)
    (hrest : PartsWritten quotable ps cs rest) :
    PartsWritten quotable (p :: ps) cs (gap ++ .char '[' :: (body ++ .char ']' :: rest))
  | className {name : Text} {ps : List Predicate} {cs : List Text} {gap rest : Text}
    (hgap : ∀ c ∈ gap, Text.isBlank c = true) (hname : Selector.isClassName name = true)
    (hrest : PartsWritten quotable ps cs rest) :
    PartsWritten quotable ps (name :: cs) (gap ++ .char '.' :: (name ++ rest))

/-- The words for what kind of element is asked for. -/
inductive KindSpelling : Option Kind → Text → Prop
  | word (kind : Kind) : KindSpelling (some kind) kind.word
  | any : KindSpelling none ['*']

/-- The ways of writing a group: with a word for the kind in front, or without one when there is a
predicate or a style class. -/
inductive Written (quotable : Text → Prop) : SelectorGroup → Text → Prop
  | kinded {kind : Option Kind} {ps : List Predicate} {cs : List Text} {gap word parts : Text}
    (hgap : ∀ c ∈ gap, Text.isBlank c = true) (hword : KindSpelling kind word)
    (hparts : PartsWritten quotable ps cs parts) :
    Written quotable ⟨kind, ps, cs⟩ (gap ++ (word ++ parts))
  | bare {ps : List Predicate} {cs : List Text} {parts : Text} (hne : ps ≠ [] ∨ cs ≠ [])
    (hparts : PartsWritten quotable ps cs parts) : Written quotable ⟨none, ps, cs⟩ parts

variable {quotable quotable' : Text → Prop} (hsub : ∀ s, quotable s → quotable' s)

include hsub

/-- `PartsWritten` grows with what may stand between quotes. -/
theorem PartsWritten.mono {ps : List Predicate} {cs : List Text} {s : Text}
    (h : PartsWritten quotable ps cs s) : PartsWritten quotable' ps cs s := by
  induction h with
  | nil hgap => exact .nil hgap
  | predicate hgap hbody _ ih => exact .predicate hgap (hbody.mono hsub) ih
  | className hgap hname _ ih => exact .className hgap hname ih

/-- `Written` groups grow with what may stand between quotes. -/
theorem Written.mono {g : SelectorGroup} {s : Text} (h : g.Written quotable s) :
    g.Written quotable' s := by
  cases h with
  | kinded hgap hword hparts => exact .kinded hgap hword (hparts.mono hsub)
  | bare hne hparts => exact .bare hne (hparts.mono hsub)

end SelectorGroup

/-! ## Selectors -/

namespace Selector

/-- The ways of writing groups: their texts, at least one, with commas between. -/
def Written (quotable : Text → Prop) (groups : List SelectorGroup) (text : Text) : Prop :=
  groups ≠ [] ∧ ∃ parts, text = Text.join "," parts ∧
    List.Forall₂ (SelectorGroup.Written quotable) groups parts

/-- `Written` selectors grow with what may stand between quotes. -/
theorem Written.mono {quotable quotable' : Text → Prop} (hsub : ∀ s, quotable s → quotable' s)
    {groups : List SelectorGroup} {text : Text} (h : Written quotable groups text) :
    Written quotable' groups text := by
  obtain ⟨hne, parts, htext, hparts⟩ := h
  exact ⟨hne, parts, htext, hparts.imp fun _ _ hg => hg.mono hsub⟩

end Selector

end MeshLens
