import Mathlib.Data.List.DropRight
import MeshLens.Proofs.Query.RespelledSpans
import MeshLens.Proofs.Query.CanonicalWords
import MeshLens.Query.Compile

/-!
# Spaces around and within a query

How many spaces there are in a row never matters, and neither does a space in front of a query. Behind it
one space can matter, since a word is only respelled between spaces, and only one in front is put there. The
space behind is taken off in the end, but a respelling may have found its word because of it.

## Key results

- `canonical_replicate_append`, `canonical_lengthen`: spaces in front and more spaces in a row
- `Respelling.apply_concat_cases`: what one more character behind a text changes
- `trim_foldl_eq_iff`: when a space behind a text changes what it is respelled as
- `compile_spacing`: which spaces matter to a query, and when
-/

namespace MeshLens

namespace Query

/-! ## Last words -/

/-- Whether a character is a part of a word: neither white space nor an exclamation mark. -/
def inWord (c : CodePoint) : Bool :=
  !Text.isBlank c && c != '!'

/-- What follows the last white space or exclamation mark of a text. -/
def lastWord (s : Text) : Text :=
  s.rtakeWhile inWord

/-- `inWord` holds of all characters of a form of a word. -/
theorem inWord_of_isForm {word s : Text} (hword : isLower word = true) (h : isForm word s = true) :
    ∀ c ∈ s, inWord c = true := by
  intro c hc
  obtain ⟨hblank, hmark⟩ := plain_of_isForm hword h c hc
  simp [inWord, hblank, hmark]

/-- `inWord` holds of no white space. -/
theorem inWord_eq_false_of_isBlank {c : CodePoint} (h : Text.isBlank c = true) : inWord c = false := by
  simp [inWord, h]

section LastWord

variable {c : CodePoint} {s t : Text}

/-- `lastWord` goes on with a character of a word. -/
theorem lastWord_concat (h : inWord c = true) (s : Text) : lastWord (s ++ [c]) = lastWord s ++ [c] :=
  List.rtakeWhile_concat_pos _ _ _ h

/-- `lastWord` is empty behind a character of no word. -/
theorem lastWord_concat_eq_nil (h : inWord c = false) (s : Text) : lastWord (s ++ [c]) = [] :=
  List.rtakeWhile_concat_neg _ _ _ (by simp [h])

/-- `lastWord` of a word is the word. -/
theorem lastWord_eq_self (h : ∀ c ∈ s, inWord c = true) : lastWord s = s :=
  List.rtakeWhile_eq_self_iff.2 h

/-- `lastWord` of a text without characters of words is empty. -/
theorem lastWord_eq_nil (h : ∀ c ∈ s, inWord c = false) : lastWord s = [] :=
  List.rtakeWhile_eq_nil_iff.2 fun hne => by simp [h _ (List.getLast_mem hne)]

/-- `lastWord` of two texts is empty when it is empty in the second one. -/
theorem lastWord_append_eq_nil (s : Text) (hne : t ≠ []) (h : lastWord t = []) :
    lastWord (s ++ t) = [] := by
  rcases List.eq_nil_or_concat t with rfl | ⟨t, c, rfl⟩
  · exact absurd rfl hne
  · rw [List.concat_eq_append] at h ⊢
    cases hc : inWord c with
    | true =>
      rw [lastWord_concat hc] at h
      exact absurd h (List.append_ne_nil_of_right_ne_nil _ (List.cons_ne_nil _ _))
    | false => rw [← List.append_assoc, lastWord_concat_eq_nil hc]

/-- `lastWord` is empty behind a space and others that are in no word. -/
theorem lastWord_append_space (s : Text) (h : ∀ c ∈ t, inWord c = false) :
    lastWord (s ++ .char ' ' :: t) = [] :=
  lastWord_append_eq_nil s (List.cons_ne_nil _ _)
    (lastWord_eq_nil (List.forall_mem_cons.2 ⟨by decide, h⟩))

/-- `lastWord` begins anew behind the end of a word. -/
theorem lastWord_append (h : lastWord s = []) (t : Text) : lastWord (s ++ t) = lastWord t := by
  induction t using List.reverseRecOn with
  | nil => rw [List.append_nil, h]; rfl
  | append_singleton t c ih =>
    rw [← List.append_assoc]
    cases hc : inWord c with
    | true => rw [lastWord_concat hc, lastWord_concat hc, ih]
    | false => rw [lastWord_concat_eq_nil hc, lastWord_concat_eq_nil hc]

/-- `lastWord` is left when the front is trimmed. -/
theorem lastWord_trimStart (s : Text) : lastWord (Text.trimStart s) = lastWord s := by
  obtain ⟨p, hs, hp⟩ := Text.exists_append_trimStart s
  have hnil := lastWord_eq_nil fun c hc => inWord_eq_false_of_isBlank (hp c hc)
  conv_rhs => rw [hs, lastWord_append hnil]

end LastWord

/-! ## Spaces in a row -/

/-- `collapse` takes one of two spaces in a row out, whatever stands in front. -/
theorem collapse_append_space_space (a b : Text) :
    collapse (a ++ .char ' ' :: .char ' ' :: b) = collapse (a ++ .char ' ' :: b) := by
  induction a with
  | nil => exact collapse_space (.char ' ' :: b)
  | cons c a ih =>
    have hhead : (a ++ .char ' ' :: .char ' ' :: b).head? = (a ++ .char ' ' :: b).head? := by
      cases a <;> rfl
    rw [List.cons_append, List.cons_append, collapse, collapse, hhead, ih]

/-- `collapse` takes all further spaces in a row out. -/
theorem collapse_lengthen (a b : Text) (n : Nat) :
    collapse (a ++ (List.replicate n (.char ' ') ++ .char ' ' :: b)) =
      collapse (a ++ .char ' ' :: b) := by
  induction n with
  | zero => rfl
  | succ n ih =>
    rw [← ih, List.replicate_succ, List.cons_append]
    -- the spaces that are there already begin with one
    cases n with
    | zero => exact collapse_append_space_space a b
    | succ n =>
      rw [List.replicate_succ, List.cons_append]
      exact collapse_append_space_space a _

/-- `collapse` leaves a space behind a text when there is none before it. -/
theorem collapse_concat_space (s : Text) :
    collapse (s ++ [.char ' ']) =
      if s.getLast? = some (.char ' ') then collapse s else collapse s ++ [.char ' '] := by
  rcases List.eq_nil_or_concat s with rfl | ⟨s, c, rfl⟩
  · rfl
  rw [List.concat_eq_append, List.getLast?_concat]
  by_cases hc : c = .char ' '
  · rw [if_pos (congrArg some hc), hc, List.append_assoc]
    exact collapse_append_space_space s []
  · rw [if_neg fun h => hc (Option.some.inj h), List.append_assoc, List.singleton_append,
      collapse_append_cons hc, collapse_append_cons hc, List.append_assoc]
    rfl

/-- `collapse` leaves the last word. -/
theorem lastWord_collapse (s : Text) : lastWord (collapse s) = lastWord s := by
  -- induction from the end of the text: only spaces are taken out there
  induction s using List.reverseRecOn with
  | nil => rfl
  | append_singleton s c ih =>
    by_cases hc : c = .char ' '
    · subst hc
      have hspace : inWord (.char ' ') = false := by decide
      rw [collapse_concat_space, lastWord_concat_eq_nil hspace]
      split
      · rename_i hlast
        obtain ⟨init, rfl⟩ := List.getLast?_eq_some_iff.1 hlast
        rw [ih, lastWord_concat_eq_nil hspace]
      · exact lastWord_concat_eq_nil hspace _
    · rw [collapse_append_cons hc]
      show lastWord (collapse s ++ [c]) = _
      cases hword : inWord c with
      | true => rw [lastWord_concat hword, lastWord_concat hword, ih]
      | false => rw [lastWord_concat_eq_nil hword, lastWord_concat_eq_nil hword]

/-! ## What is respelled at the end -/

namespace Respelling

variable {r : Respelling}

/-- `Spans` holds of texts that end with a space, and in front of it there is the word, behind
characters that are in no word. -/
theorem Spans.eq_of_concat {m : Text} {c : CodePoint} (h : r.Spans (m ++ [c])) :
    c = .char ' ' ∧ ∃ front form, m = .char ' ' :: (front ++ form) ∧ isForm r.word form = true ∧
      (∀ d ∈ front, inWord d = false) ∧ (r.marked = false → front = []) := by
  obtain ⟨front, form, hm, hform, hfront⟩ := h
  have hsplit : m ++ [c] = (.char ' ' :: (front ++ form)) ++ [.char ' '] := by
    rw [hm, List.cons_append, List.append_assoc]
  obtain ⟨rfl, hc⟩ := List.append_inj' hsplit rfl
  refine ⟨(List.cons.inj hc).1, front, form, rfl, hform, ?_⟩
  cases hmarked : r.marked with
  | false =>
    rw [hmarked] at hfront
    obtain rfl : front = [] := hfront
    exact ⟨List.forall_mem_nil _, fun _ => rfl⟩
  | true =>
    rw [hmarked, if_pos rfl] at hfront
    obtain ⟨gap, rfl, hgap⟩ := hfront
    exact ⟨List.forall_mem_cons.2 ⟨by decide, fun d hd => inWord_eq_false_of_isBlank (hgap d hd)⟩,
      nofun⟩

/-- `Spans` holds of texts that end with a space. -/
theorem Spans.exists_concat {m : Text} (h : r.Spans m) : ∃ t, m = t ++ [.char ' '] ∧
    r.Spans (t ++ [.char ' ']) := by
  rcases List.eq_nil_or_concat m with rfl | ⟨t, c, rfl⟩
  · exact absurd rfl h.ne_nil
  · rw [List.concat_eq_append] at h ⊢
    obtain ⟨rfl, -⟩ := h.eq_of_concat
    exact ⟨t, rfl, h⟩

/-- `apply` puts the replacement in the place of what a respelling spans. -/
theorem Spans.apply_append (hr : r.Proper) {m : Text} (h : r.Spans m) (t : Text) :
    r.apply (m ++ t) = r.replacement ++ r.apply t := by
  obtain ⟨c, m, rfl⟩ := List.exists_cons_of_ne_nil h.ne_nil
  exact apply_of_some ((rest?_eq_some_iff hr).2 ⟨c :: m, h, rfl⟩)

/-- `apply` leaves a text that ends with its only word. -/
theorem apply_eq_self_of_pairwise (hr : r.Proper) {s : Text}
    (h : s.Pairwise fun c d => inWord c = true → inWord d = true) : r.apply s = s := by
  refine apply_eq_self hr fun m hm hinside => ?_
  obtain ⟨t, rfl, hspans⟩ := hm.exists_concat
  obtain ⟨-, front, form, rfl, hform, -⟩ := hspans.eq_of_concat
  obtain ⟨c, form, rfl⟩ := List.exists_cons_of_ne_nil (ne_nil_of_isForm hr.ne_nil hform)
  have hc := inWord_of_isForm hr.isLower hform c List.mem_cons_self
  -- a letter of the word stands in front of the space behind it
  have hpair := (h.sublist hinside.sublist).rel_of_mem_append (x := c) (by simp)
    (List.mem_singleton_self _) hc
  exact absurd hpair (by decide)

/-- `apply` leaves what a respelling spans once its last character is missing. -/
theorem Spans.apply_eq_self (hr : r.Proper) {m : Text} {c : CodePoint} (h : r.Spans (m ++ [c])) :
    r.apply m = m := by
  obtain ⟨-, front, form, rfl, hform, hfront, -⟩ := h.eq_of_concat
  have hfront : ∀ d ∈ .char ' ' :: front, inWord d = false :=
    List.forall_mem_cons.2 ⟨by decide, hfront⟩
  rw [← List.cons_append]
  refine apply_eq_self_of_pairwise hr (List.pairwise_append.2 ⟨?_, ?_, ?_⟩)
  · refine List.pairwise_of_forall_mem_list fun c hc d hd hword => ?_
    rw [hfront c hc] at hword
    cases hword
  · exact List.pairwise_of_forall_mem_list fun c _ d hd _ =>
      inWord_of_isForm hr.isLower hform d hd
  · exact fun c _ d hd _ => inWord_of_isForm hr.isLower hform d hd

/-- `apply` leaves one more character behind a text, or the character ends a part that is replaced.
-/
theorem apply_concat_cases (hr : r.Proper) (s : Text) (c : CodePoint) :
    r.apply (s ++ [c]) = r.apply s ++ [c] ∨
      ∃ a m, r.Spans (m ++ [c]) ∧ s = a ++ m ∧ r.apply s = r.apply a ++ m ∧
        r.apply (s ++ [c]) = r.apply a ++ r.replacement := by
  have hnil : r.apply [] = [] := by rw [apply]
  -- along the recursion: the front is replaced, or its first character stays
  fun_induction apply r s with
  | case1 => exact .inl (apply_eq_self_of_pairwise hr (List.pairwise_singleton _ c))
  | case2 d s rest hfound _ ih =>
    obtain ⟨m, hm, hs⟩ := (rest?_eq_some_iff hr).1 hfound
    rw [hs, List.append_assoc, hm.apply_append hr]
    rcases ih with hsame | ⟨a, m', hm', rfl, happly, hlonger⟩
    · exact .inl (by rw [hsame, List.append_assoc])
    · refine .inr ⟨m ++ a, m', hm', (List.append_assoc _ _ _).symm, ?_, ?_⟩
      · rw [happly, hm.apply_append hr, List.append_assoc]
      · rw [hlonger, hm.apply_append hr, List.append_assoc]
  | case3 d s hnone ih =>
    cases hfound : r.rest? (d :: (s ++ [c])) with
    | none =>
      rw [List.cons_append, apply_of_none hfound]
      rcases ih with hsame | ⟨a, m, hm, rfl, happly, hlonger⟩
      · exact .inl (by rw [hsame, List.cons_append])
      · have hstep := apply_of_none (rest?_eq_none_of_append hr (s := d :: a) hnone)
        exact .inr ⟨d :: a, m, hm, rfl, by rw [hstep, happly, List.cons_append],
          by rw [hstep, hlonger, List.cons_append]⟩
    | some rest =>
      -- without the character nothing is replaced at the front, so that it ends what is replaced there
      obtain ⟨m, hm, hs⟩ := (rest?_eq_some_iff hr).1 hfound
      rcases List.eq_nil_or_concat rest with rfl | ⟨rest, e, rfl⟩
      · rw [List.append_nil] at hs
        have hfront : r.Spans ((d :: s) ++ [c]) := by rwa [List.cons_append, hs]
        have happly := hfront.apply_append hr []
        rw [List.append_nil, hnil, List.append_nil] at happly
        refine .inr ⟨[], d :: s, hfront, rfl, ?_, by rw [hnil, happly, List.nil_append]⟩
        rw [← apply_of_none hnone, hfront.apply_eq_self hr, hnil, List.nil_append]
      · rw [List.concat_eq_append, ← List.cons_append, ← List.append_assoc] at hs
        rw [(rest?_eq_some_iff hr).2 ⟨m, hm, (List.append_inj' hs rfl).1⟩] at hnone
        cases hnone

/-- `apply` leaves a word behind a text. -/
theorem apply_append_word (hr : r.Proper) (s : Text) {w : Text} (hw : .char ' ' ∉ w) :
    r.apply (s ++ w) = r.apply s ++ w := by
  induction w using List.reverseRecOn with
  | nil => rw [List.append_nil, List.append_nil]
  | append_singleton w c ih =>
    rw [List.mem_append, not_or] at hw
    rw [← List.append_assoc, ← List.append_assoc, ← ih hw.1]
    rcases apply_concat_cases hr (s ++ w) c with hsame | ⟨a, m, hm, -⟩
    · exact hsame
    · exact absurd (List.mem_singleton.2 hm.eq_of_concat.1.symm) hw.2

/-- `apply` leaves the first of two spaces at the front. -/
theorem apply_space_space (hr : r.Proper) (s : Text) :
    r.apply (.char ' ' :: .char ' ' :: s) = .char ' ' :: r.apply (.char ' ' :: s) := by
  refine apply_of_none (Option.eq_none_iff_forall_ne_some.2 fun rest hfound => ?_)
  obtain ⟨m, hm, hs⟩ := (rest?_eq_some_iff hr).1 hfound
  obtain ⟨front, form, rfl, hform, hfront⟩ := hm
  obtain ⟨c, form, rfl⟩ := List.exists_cons_of_ne_nil (ne_nil_of_isForm hr.ne_nil hform)
  cases hmarked : r.marked with
  | false =>
    rw [hmarked] at hfront
    obtain rfl : front = [] := hfront
    obtain ⟨rfl, -⟩ := List.cons.inj (List.cons.inj hs).2
    exact absurd (plain_of_isForm hr.isLower hform _ List.mem_cons_self).1 (by decide)
  | true =>
    rw [hmarked, if_pos rfl] at hfront
    obtain ⟨gap, rfl, -⟩ := hfront
    cases (List.cons.inj (List.cons.inj hs).2).1

/-! ## What all respellings have in common -/

/-- Whether what is put in begins with a space and ends with a space or a mark, and holds one word or sign
at most. This is not the word that is looked for again, unless that is put back as it was. -/
structure Regular (r : Respelling) : Prop extends Proper r where
  replacement : r.replacement = .char ' ' :: Text.trim r.replacement ∨
    r.replacement = .char ' ' :: (Text.trim r.replacement ++ [.char ' '])
  lastWord_replacement : lastWord r.replacement = []
  isBlank_trim : ∀ c ∈ Text.trim r.replacement, Text.isBlank c = false
  eq_space : Text.trim r.replacement = [] → r.marked = false ∧ r.replacement = [.char ' ']
  eq_word : isForm r.word (lastWord (Text.trim r.replacement)) = true → r.marked = false ∧
    r.replacement = .char ' ' :: (lastWord (Text.trim r.replacement) ++ [.char ' '])

/-- `Regular` replacements are not empty. -/
theorem Regular.replacement_ne_nil (hr : r.Regular) : r.replacement ≠ [] := by
  rcases hr.replacement with h | h <;> rw [h] <;> exact List.cons_ne_nil _ _

/-- `apply` leaves the space in front of a text. -/
theorem Regular.exists_apply_space (hr : r.Regular) (s : Text) :
    ∃ t, r.apply (.char ' ' :: s) = .char ' ' :: t := by
  cases hfound : r.rest? (.char ' ' :: s) with
  | none => exact ⟨_, apply_of_none hfound⟩
  | some rest =>
    rw [apply_of_some hfound]
    rcases hr.replacement with h | h <;> rw [h] <;> exact ⟨_, rfl⟩

/-- `apply` leaves the last word. -/
theorem Regular.lastWord_apply (hr : r.Regular) (s : Text) : lastWord (r.apply s) = lastWord s := by
  -- induction on the length: behind the first part that is replaced there is a shorter text
  induction hn : s.length using Nat.strongRecOn generalizing s with
  | ind n ih =>
    rcases apply_cases hr.toProper s with ⟨-, hsame⟩ | ⟨a, m, b, hm, rfl, happly⟩
    · rw [hsame]
    · have hlength : b.length < n := by
        have hpos := List.length_pos_iff.2 hm.ne_nil
        simp only [List.length_append] at hn
        omega
      have hrest := ih b.length hlength b rfl
      -- both what is taken out and what is put in end behind a word
      obtain ⟨t, rfl, -⟩ := hm.exists_concat
      have hbefore : lastWord (a ++ (t ++ [.char ' '])) = [] := by
        rw [← List.append_assoc, lastWord_concat_eq_nil (by decide)]
      have hafter := lastWord_append_eq_nil a hr.replacement_ne_nil hr.lastWord_replacement
      rw [happly, ← List.append_assoc, ← List.append_assoc, lastWord_append hafter,
        lastWord_append hbefore, hrest]

/-- `apply` leaves a space behind a text that does not end with the word that is looked for. -/
theorem apply_concat_space (hr : r.Proper) {s : Text} (h : isForm r.word (lastWord s) = false) :
    r.apply (s ++ [.char ' ']) = r.apply s ++ [.char ' '] := by
  rcases apply_concat_cases hr s (.char ' ') with hsame | ⟨a, m, hm, rfl, -⟩
  · exact hsame
  · obtain ⟨-, front, form, rfl, hform, hfront, -⟩ := hm.eq_of_concat
    have hlast : lastWord (a ++ .char ' ' :: (front ++ form)) = form := by
      rw [← List.cons_append, ← List.append_assoc, lastWord_append (lastWord_append_space a hfront),
        lastWord_eq_self (inWord_of_isForm hr.isLower hform)]
    rw [hlast, hform] at h
    cases h

end Respelling

/-! ## Respellings in turn -/

open Respelling

/-- Whether none of several respellings, each in its turn, makes anything of a space behind a text. -/
def LeavesSpace : List Respelling → Text → Prop
  | [], _ => True
  | r :: rs, s => r.apply (s ++ [.char ' ']) = r.apply s ++ [.char ' '] ∧ LeavesSpace rs (r.apply s)

/-- `LeavesSpace` is decided by respelling the text with the space and without it. -/
instance : (rs : List Respelling) → (s : Text) → Decidable (LeavesSpace rs s)
  | [], _ => inferInstanceAs (Decidable True)
  | r :: rs, s =>
    have := instDecidableLeavesSpace rs (r.apply s)
    inferInstanceAs (Decidable (_ ∧ _))

section Fold

variable {rs : List Respelling} {s : Text}

/-- `LeavesSpace` leaves a space behind what all respellings make of a text. -/
theorem LeavesSpace.foldl (h : LeavesSpace rs s) :
    rs.foldl (fun s r => r.apply s) (s ++ [.char ' ']) =
      rs.foldl (fun s r => r.apply s) s ++ [.char ' '] := by
  induction rs generalizing s with
  | nil => rfl
  | cons r rs ih =>
    rw [List.foldl_cons, List.foldl_cons, h.1]
    exact ih h.2

/-- `LeavesSpace` leaves no difference once the texts are trimmed. -/
theorem LeavesSpace.trim_foldl (h : LeavesSpace rs s) :
    Text.trim (rs.foldl (fun s r => r.apply s) (s ++ [.char ' '])) =
      Text.trim (rs.foldl (fun s r => r.apply s) s) := by
  rw [h.foldl, Text.trim_append_blank _ (by decide)]

variable (hrs : ∀ r ∈ rs, r.Regular)

include hrs

/-- `LeavesSpace` holds when the last word is none of those that are looked for. -/
theorem leavesSpace_of_lastWord (h : ∀ r ∈ rs, isForm r.word (lastWord s) = false) :
    LeavesSpace rs s := by
  induction rs generalizing s with
  | nil => trivial
  | cons r rs ih =>
    rw [List.forall_mem_cons] at hrs h
    refine ⟨apply_concat_space hrs.1.toProper h.1, ih hrs.2 fun r' hr' => ?_⟩
    rw [hrs.1.lastWord_apply]
    exact h.2 r' hr'

/-- `lastWord` is left by all respellings. -/
theorem lastWord_foldl (s : Text) : lastWord (rs.foldl (fun s r => r.apply s) s) = lastWord s := by
  induction rs generalizing s with
  | nil => rfl
  | cons r rs ih =>
    rw [List.forall_mem_cons] at hrs
    rw [List.foldl_cons, ih hrs.2, hrs.1.lastWord_apply]

/-- `apply` of all respellings leaves a word behind a text. -/
theorem foldl_append_word (s : Text) {w : Text} (hw : .char ' ' ∉ w) :
    rs.foldl (fun s r => r.apply s) (s ++ w) = rs.foldl (fun s r => r.apply s) s ++ w := by
  induction rs generalizing s with
  | nil => rfl
  | cons r rs ih =>
    rw [List.forall_mem_cons] at hrs
    rw [List.foldl_cons, List.foldl_cons, apply_append_word hrs.1.toProper s hw, ih hrs.2]

/-- `apply` of all respellings leaves the first of two spaces at the front. -/
theorem foldl_space_space (s : Text) :
    rs.foldl (fun s r => r.apply s) (.char ' ' :: .char ' ' :: s) =
      .char ' ' :: rs.foldl (fun s r => r.apply s) (.char ' ' :: s) := by
  induction rs generalizing s with
  | nil => rfl
  | cons r rs ih =>
    rw [List.forall_mem_cons] at hrs
    obtain ⟨t, ht⟩ := hrs.1.exists_apply_space s
    rw [List.foldl_cons, List.foldl_cons, apply_space_space hrs.1.toProper, ht, ih hrs.2]

/-- `Text.trim` of what all respellings make of a text that ends with a word leaves the word at its
end. -/
theorem trim_foldl_append_word {w : Text} (hne : w ≠ []) (hw : ∀ c ∈ w, Text.isBlank c = false)
    (hs : lastWord s = []) :
    Text.trim (rs.foldl (fun s r => r.apply s) (s ++ w)) =
        Text.trimStart (rs.foldl (fun s r => r.apply s) s) ++ w ∧
      lastWord (Text.trim (rs.foldl (fun s r => r.apply s) (s ++ w))) = lastWord w := by
  have hspace : CodePoint.char ' ' ∉ w := fun hmem => absurd (hw _ hmem) (by decide)
  have htrim : Text.trim (rs.foldl (fun s r => r.apply s) (s ++ w)) =
      Text.trimStart (rs.foldl (fun s r => r.apply s) s) ++ w := by
    rw [foldl_append_word hrs s hspace, Text.trim_append_word _ hne hw]
  refine ⟨htrim, ?_⟩
  rw [htrim, lastWord_append (by rw [lastWord_trimStart, lastWord_foldl hrs, hs])]

/-- `Text.trim` leaves at the end what a respelling put in there, when no later one looks for it. -/
theorem lastWord_trim_foldl {r : Respelling} (hr : r.Regular) (hne : Text.trim r.replacement ≠ [])
    (hlater : ∀ r' ∈ rs, isForm r'.word (lastWord (Text.trim r.replacement)) = false) (s : Text) :
    lastWord (Text.trim (rs.foldl (fun s r => r.apply s) (s ++ r.replacement))) =
      lastWord (Text.trim r.replacement) := by
  have hspace : lastWord (s ++ [.char ' ']) = [] := lastWord_concat_eq_nil (by decide) s
  obtain ⟨-, hlast⟩ := trim_foldl_append_word hrs hne hr.isBlank_trim hspace
  rw [List.append_assoc, List.singleton_append] at hlast
  rcases hr.replacement with hend | hend
  · rwa [← hend] at hlast
  · -- a space behind it is left there
    have hleaves : LeavesSpace rs (s ++ .char ' ' :: Text.trim r.replacement) := by
      refine leavesSpace_of_lastWord hrs ?_
      rwa [← List.singleton_append, ← List.append_assoc, lastWord_append hspace]
    rwa [← hleaves.trim_foldl, List.append_assoc, List.cons_append, ← hend] at hlast

/-- `Text.trim` leaves a difference once a respelling makes something else of a space behind a text,
and what it puts in is not respelled again. -/
theorem trim_foldl_ne {r : Respelling} (hr : r.Regular)
    (hlater : ∀ r' ∈ rs, isForm r'.word (lastWord (Text.trim r.replacement)) = false)
    (h : r.apply (s ++ [.char ' ']) ≠ r.apply s ++ [.char ' ']) :
    Text.trim (rs.foldl (fun s r => r.apply s) (r.apply (s ++ [.char ' ']))) ≠
      Text.trim (rs.foldl (fun s r => r.apply s) (r.apply s)) := by
  rcases apply_concat_cases hr.toProper s (.char ' ') with hsame | ⟨a, m, hm, rfl, happly, hlonger⟩
  · exact absurd hsame h
  obtain ⟨-, front, form, rfl, hform, hfront, hunmarked⟩ := hm.eq_of_concat
  have hne := ne_nil_of_isForm hr.ne_nil hform
  -- without the space the word stays at the end
  obtain ⟨htrim, hlast⟩ := trim_foldl_append_word hrs hne
    (fun c hc => (plain_of_isForm hr.isLower hform c hc).1) (lastWord_append_space (r.apply a) hfront)
  rw [List.append_assoc, List.cons_append, ← happly] at htrim hlast
  rw [lastWord_eq_self (inWord_of_isForm hr.isLower hform)] at hlast
  rw [hlonger]
  intro heq
  by_cases hempty : Text.trim r.replacement = []
  · -- with it the word is taken out
    obtain ⟨hmarked, hreplacement⟩ := hr.eq_space hempty
    obtain rfl := hunmarked hmarked
    have hshorter := Text.length_trim_le
      (rs.foldl (fun s r => r.apply s) (r.apply a ++ [.char ' ']))
    have hpos := List.length_pos_iff.2 hne
    rw [hreplacement, htrim] at heq
    rw [heq, List.length_append] at hshorter
    omega
  · -- with it another one stands there
    rw [← heq, lastWord_trim_foldl hrs hr hempty hlater] at hlast
    rw [← hlast] at hform
    obtain ⟨hmarked, hreplacement⟩ := hr.eq_word hform
    obtain rfl := hunmarked hmarked
    refine h ?_
    rw [hlonger, hreplacement, happly, hlast, List.nil_append, List.append_assoc, List.cons_append]

/-- `LeavesSpace` holds just when a space behind a text makes no difference. -/
theorem trim_foldl_eq_iff
    (hpairs : rs.Pairwise fun r r' => isForm r'.word (lastWord (Text.trim r.replacement)) = false)
    (s : Text) :
    Text.trim (rs.foldl (fun s r => r.apply s) (s ++ [.char ' '])) =
      Text.trim (rs.foldl (fun s r => r.apply s) s) ↔ LeavesSpace rs s := by
  induction rs generalizing s with
  | nil => exact iff_of_true (Text.trim_append_blank s (by decide)) trivial
  | cons r rs ih =>
    rw [List.forall_mem_cons] at hrs
    obtain ⟨hlater, hpairs⟩ := List.pairwise_cons.1 hpairs
    rw [List.foldl_cons, List.foldl_cons]
    by_cases h : r.apply (s ++ [.char ' ']) = r.apply s ++ [.char ' ']
    · rw [h, ih hrs.2 hpairs, LeavesSpace, and_iff_right h]
    · exact iff_of_false (trim_foldl_ne hrs.2 hrs.1 hlater h) fun hleaves => h hleaves.1

end Fold

/-- `respellings` are regular. -/
theorem regular_of_mem_respellings : ∀ r ∈ respellings, r.Regular := by
  have hshape : ∀ r ∈ respellings,
      (r.replacement = .char ' ' :: Text.trim r.replacement ∨
        r.replacement = .char ' ' :: (Text.trim r.replacement ++ [.char ' '])) ∧
      lastWord r.replacement = [] ∧ (∀ c ∈ Text.trim r.replacement, Text.isBlank c = false) := by
    decide
  have hwords : ∀ r ∈ respellings,
      (Text.trim r.replacement = [] → r.marked = false ∧ r.replacement = [.char ' ']) ∧
      (isForm r.word (lastWord (Text.trim r.replacement)) = true → r.marked = false ∧
        r.replacement = .char ' ' :: (lastWord (Text.trim r.replacement) ++ [.char ' '])) := by
    decide
  intro r hr
  obtain ⟨hreplacement, hlast, hblank⟩ := hshape r hr
  obtain ⟨hspace, hword⟩ := hwords r hr
  exact ⟨proper_of_mem_respellings r hr, hreplacement, hlast, hblank, hspace, hword⟩

/-- `respellings` look for nothing that an earlier one put in. -/
theorem pairwise_respellings : respellings.Pairwise fun r r' =>
    isForm r'.word (lastWord (Text.trim r.replacement)) = false := by
  decide

/-- `respellings` look for the words of `Keyword.all`. -/
theorem word_mem_of_mem_respellings : ∀ r ∈ respellings, r.word ∈ Keyword.all.map Keyword.text := by
  decide

/-- `LeavesSpace` holds of a text that does not end with a word that is respelled. -/
theorem leavesSpace_of_isOrdinary {s : Text} (h : isOrdinary (lastWord s) = true) :
    LeavesSpace respellings s := by
  refine leavesSpace_of_lastWord regular_of_mem_respellings fun r hr => ?_
  obtain ⟨w, -, hw⟩ := List.mem_map.1 (word_mem_of_mem_respellings r hr)
  rw [← hw]
  exact not_isForm_of_isOrdinary h w

/-! ## The canonical text -/

/-- `canonical` leaves out a space in front of a text. -/
theorem canonical_cons_space (s : Text) : canonical (.char ' ' :: s) = canonical s := by
  rw [canonical, canonical, collapse_space]
  split
  · rfl
  · rw [foldl_space_space regular_of_mem_respellings, Text.trim_cons_of_blank (by decide)]

/-- `canonical` leaves out spaces in front of a text. -/
theorem canonical_replicate_append (n : Nat) (s : Text) :
    canonical (List.replicate n (.char ' ') ++ s) = canonical s := by
  induction n with
  | zero => rfl
  | succ n ih => rw [List.replicate_succ, List.cons_append, canonical_cons_space, ih]

/-- `canonical` does not depend on how many spaces there are in a row. -/
theorem canonical_lengthen (a b : Text) (n : Nat) :
    canonical (a ++ (List.replicate n (.char ' ') ++ .char ' ' :: b)) =
      canonical (a ++ .char ' ' :: b) := by
  rw [canonical, canonical, collapse_lengthen]

/-- `lastWord` is left when spaces are taken out, and one is put in front. -/
theorem lastWord_cons_space_collapse (s : Text) :
    lastWord (.char ' ' :: collapse s) = lastWord s := by
  rw [← List.singleton_append, lastWord_append (by decide), lastWord_collapse]

/-- `canonical` does not depend on a space behind a text just when the respellings leave it. -/
theorem canonical_concat_space_eq_iff (s : Text) :
    canonical (s ++ [.char ' ']) = canonical s ↔
      LeavesSpace respellings (.char ' ' :: collapse s) := by
  rw [canonical, canonical, collapse_concat_space]
  split
  · -- there is one already
    rename_i hlast
    obtain ⟨init, rfl⟩ := List.getLast?_eq_some_iff.1 hlast
    refine iff_of_true rfl (leavesSpace_of_isOrdinary ?_)
    rw [lastWord_cons_space_collapse, lastWord_concat_eq_nil (by decide)]
    rfl
  · rw [← List.cons_append]
    exact trim_foldl_eq_iff regular_of_mem_respellings pairwise_respellings _

-- a conjunction in capitals stays as it is, with the space behind it
example : LeavesSpace respellings " a AND" ∧ ¬LeavesSpace respellings " a and" := by decide +kernel

/-- `canonical` depends on one of the spaces behind a text at most. -/
theorem canonical_append_replicate (s : Text) (n : Nat) :
    canonical (s ++ List.replicate (n + 1) (.char ' ')) = canonical (s ++ [.char ' ']) := by
  rw [List.replicate_succ']
  exact canonical_lengthen s [] n

end Query

/-! ## Compiling -/

open Query

/-- `compile` depends on the canonical text only. -/
theorem compile_congr {s t : Text} (h : canonical s = canonical t) (flags : DisplayFlags) :
    compile s flags = compile t flags := by
  rw [compile, compile, h]

/-- Neither spaces in front of a query nor more spaces in a row matter to what it compiles to: the query,
the error and the requests. Behind it spaces leave the canonical text as it is just when no respelling makes
anything of one there; and so they do not matter in particular when the query does not end with one of the
words that are respelled. -/
theorem compile_spacing (text : Text) (flags : DisplayFlags) :
    (∀ n, compile (List.replicate n (.char ' ') ++ text) flags = compile text flags) ∧
    (∀ a b n, text = a ++ .char ' ' :: b →
      compile (a ++ (List.replicate n (.char ' ') ++ .char ' ' :: b)) flags = compile text flags) ∧
    (∀ n, canonical (text ++ List.replicate (n + 1) (.char ' ')) = canonical text ↔
      LeavesSpace respellings (.char ' ' :: collapse text)) ∧
    (LeavesSpace respellings (.char ' ' :: collapse text) →
      ∀ n, compile (text ++ List.replicate n (.char ' ')) flags = compile text flags) ∧
    (isOrdinary (lastWord text) = true → LeavesSpace respellings (.char ' ' :: collapse text)) := by
  -- spaces in front and in the middle are taken out; a space behind is seen by the respellings
  refine ⟨fun n => compile_congr (canonical_replicate_append n text) flags, ?_, fun n => ?_, ?_, ?_⟩
  · rintro a b n rfl
    exact compile_congr (canonical_lengthen a b n) flags
  · rw [canonical_append_replicate, canonical_concat_space_eq_iff]
  · intro hleaves n
    refine compile_congr ?_ flags
    cases n with
    | zero => rw [List.replicate_zero, List.append_nil]
    | succ n => rw [canonical_append_replicate, (canonical_concat_space_eq_iff text).2 hleaves]
  · intro hlast
    refine leavesSpace_of_isOrdinary ?_
    rw [lastWord_cons_space_collapse, hlast]

/-- Words that are respelled stand in front and in the middle, and none at the end. -/
theorem compile_spacing_words :
    let text : Text := "has cb and app = x"
    isOrdinary (lastWord text) = true ∧
      compile (List.replicate 2 (.char ' ') ++ text) {} = compile text {} ∧
      compile (("has cb" : Text) ++ (List.replicate 3 (.char ' ') ++ .char ' ' :: "and app = x")) {} =
        compile text {} ∧
      compile (text ++ List.replicate 2 (.char ' ')) {} = compile text {} := by
  intro text
  have hlast : isOrdinary (lastWord text) = true := by decide
  obtain ⟨hfront, hrow, -, hbehind, hleaves⟩ := compile_spacing text {}
  exact ⟨hlast, hfront 2, hrow "has cb" "and app = x" 3 rfl, hbehind (hleaves hlast) 2⟩

/-- With a space behind it, a value that is a qualifier is dropped like one. -/
theorem compile_spacing_behind :
    let text : Text := "app = is"
    (compile text {}).map (fun c => c.query?.map CompiledQuery.render) =
        .ok (some "node[app = \"is\"]") ∧
      (compile (text ++ List.replicate 1 (.char ' ')) {}).map
          (fun c => c.query?.map CompiledQuery.render) =
        .ok (some "node[app = \"\"]") ∧
      compile (text ++ List.replicate 1 (.char ' ')) {} ≠ compile text {} := by
  intro text
  have hwithout : (compile text {}).map (fun c => c.query?.map CompiledQuery.render) =
      .ok (some "node[app = \"is\"]") := by
    decide +kernel
  have hwith : (compile (text ++ List.replicate 1 (.char ' ')) {}).map
      (fun c => c.query?.map CompiledQuery.render) = .ok (some "node[app = \"\"]") := by
    decide +kernel
  refine ⟨hwithout, hwith, fun heq => ?_⟩
  rw [heq, hwithout] at hwith
  exact absurd hwith (by decide)

end MeshLens
