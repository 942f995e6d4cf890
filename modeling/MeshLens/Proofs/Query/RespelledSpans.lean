import MeshLens.Proofs.Query.Respelling

/-!
# What is respelled

A respelling replaces its word between spaces, and what it replaces can be told from the text alone. So a
text in which no such part stands is left as it is, what stands on both sides of a character that is in no
such part is respelled on its own, and a respelling that puts in less than it takes out leaves a text as long
as before only when there was nothing to respell.

## Key results

- `Respelling.rest?_eq_some_iff`: what a respelling replaces at the front of a text
- `Respelling.apply_cases`: nothing is respelled, or there is a first part that is
- `Respelling.apply_append_cons`: a character that is never respelled comes between
- `foldl_append_quote`: both sides of a quote are respelled on their own
-/

namespace MeshLens.Query

/-- `afterWord?` finds a form of the word at the front. -/
theorem afterWord?_eq_some_iff {word s rest : Text} :
    afterWord? word s = some rest ↔ ∃ form, isForm word form = true ∧ s = form ++ rest := by
  induction word generalizing s with
  | nil => simp [afterWord?, isForm_nil_iff]
  | cons w word ih =>
    -- both step one code point at a time, so the text is split with the word
    cases s with
    | nil =>
      refine iff_of_false (by simp [afterWord?]) ?_
      rintro ⟨form, hform, hs⟩
      obtain ⟨rfl, -⟩ := List.append_eq_nil_iff.1 hs.symm
      cases hform
    | cons c s =>
      rw [afterWord?]
      constructor
      · intro h
        split at h
        · rename_i hc
          obtain ⟨form, hform, rfl⟩ := ih.1 h
          exact ⟨c :: form, by rw [isForm_cons, hc, hform]; rfl, rfl⟩
        · cases h
      · rintro ⟨form, hform, hs⟩
        cases form with
        | nil => cases hform
        | cons d form =>
          rw [isForm_cons, Bool.and_eq_true] at hform
          obtain ⟨rfl, rfl⟩ := List.cons.inj hs
          exact (if_pos hform.1).trans (ih.2 ⟨form, hform.2, rfl⟩)

namespace Respelling

/-! ## Parts that are respelled -/

/-- Whether a respelling looks for a word of small letters. -/
structure Proper (r : Respelling) : Prop where
  isLower : isLower r.word = true
  ne_nil : r.word ≠ []

/-- Whether a text is one that a respelling replaces: its word in any case between spaces, behind a mark and
perhaps white space where the respelling has a mark. -/
def Spans (r : Respelling) (m : Text) : Prop :=
  ∃ front form, m = .char ' ' :: (front ++ (form ++ [.char ' '])) ∧ isForm r.word form = true ∧
    if r.marked then ∃ gap, front = .char '!' :: gap ∧ ∀ c ∈ gap, Text.isBlank c = true
    else front = []

/-- `Spans` texts are not empty. -/
theorem Spans.ne_nil {r : Respelling} {m : Text} (h : r.Spans m) : m ≠ [] := by
  obtain ⟨front, form, rfl, -⟩ := h
  exact List.cons_ne_nil _ _

variable {r : Respelling}

/-- `Text.trimStart` leaves a text that begins with a form of a word when there are only blanks in
front of the form. -/
theorem trimStart_eq_iff (hr : r.Proper) {s form rest : Text} (hform : isForm r.word form = true) :
    Text.trimStart s = form ++ rest ↔
      ∃ gap, (∀ c ∈ gap, Text.isBlank c = true) ∧ s = gap ++ (form ++ rest) := by
  constructor
  · intro h
    obtain ⟨gap, hs, hgap⟩ := Text.exists_append_trimStart s
    exact ⟨gap, hgap, h ▸ hs⟩
  · rintro ⟨gap, hgap, rfl⟩
    obtain ⟨c, form, rfl⟩ := List.exists_cons_of_ne_nil (ne_nil_of_isForm hr.ne_nil hform)
    have hc := (plain_of_isForm hr.isLower hform c List.mem_cons_self).1
    rw [Text.trimStart_blank_append hgap]
    exact Text.trimStart_cons_of_not_blank hc _

/-- `rest?` finds what a respelling spans at the front of a text. -/
theorem rest?_eq_some_iff (hr : r.Proper) {s rest : Text} :
    r.rest? s = some rest ↔ ∃ m, r.Spans m ∧ s = m ++ rest := by
  have hspace : ∀ {t : Text}, Text.after? [.char ' '] t = some rest ↔ t = .char ' ' :: rest := by
    intro t
    constructor
    · exact Text.eq_append_of_after?
    · rintro rfl
      exact Text.after?_append [.char ' '] rest
  constructor
  · -- the space, perhaps a mark, the word and another space, as they are looked for one after the
    -- other
    intro h
    unfold rest? at h
    split at h
    · rename_i s
      obtain ⟨t, ht, u, hu, hrest⟩ : ∃ t, _ = some t ∧ ∃ u, afterWord? r.word t = some u ∧
          Text.after? [.char ' '] u = some rest := by
        simpa only [Option.bind_eq_some_iff] using h
      obtain ⟨form, hform, rfl⟩ := afterWord?_eq_some_iff.1 hu
      obtain rfl := hspace.1 hrest
      cases hmarked : r.marked with
      | false =>
        rw [hmarked] at ht
        obtain rfl : s = _ := Option.some.inj ht
        exact ⟨_, ⟨[], form, rfl, hform, by rw [hmarked]; rfl⟩, by simp⟩
      | true =>
        rw [hmarked, if_pos rfl, Option.map_eq_some_iff] at ht
        obtain ⟨v, hv, htrim⟩ := ht
        obtain rfl : s = .char '!' :: v := Text.eq_append_of_after? hv
        obtain ⟨gap, hgap, rfl⟩ := (trimStart_eq_iff hr hform).1 htrim
        exact ⟨_, ⟨.char '!' :: gap, form, rfl, hform, by rw [hmarked]; exact ⟨gap, rfl, hgap⟩⟩,
          by simp⟩
    · cases h
  · rintro ⟨m, ⟨front, form, rfl, hform, hfront⟩, rfl⟩
    have hword : (afterWord? r.word (form ++ .char ' ' :: rest)).bind
        (fun u => Text.after? [.char ' '] u) = some rest := by
      rw [afterWord?_eq_some_iff.2 ⟨form, hform, rfl⟩, Option.bind_some]
      exact hspace.2 rfl
    cases hmarked : r.marked with
    | false =>
      rw [hmarked] at hfront
      obtain rfl : front = [] := hfront
      simpa [rest?, hmarked] using hword
    | true =>
      rw [hmarked, if_pos rfl] at hfront
      obtain ⟨gap, rfl, hgap⟩ := hfront
      have htrim : Text.trimStart (gap ++ (form ++ .char ' ' :: rest)) = form ++ .char ' ' :: rest :=
        (trimStart_eq_iff hr hform).2 ⟨gap, hgap, rfl⟩
      simpa [rest?, hmarked, Text.after?, htrim] using hword

/-- `rest?` finds the same whatever stands behind it. -/
theorem rest?_append (hr : r.Proper) {s rest : Text} (h : r.rest? s = some rest) (t : Text) :
    r.rest? (s ++ t) = some (rest ++ t) := by
  obtain ⟨m, hm, rfl⟩ := (rest?_eq_some_iff hr).1 h
  exact (rest?_eq_some_iff hr).2 ⟨m, hm, List.append_assoc m rest t⟩

/-- `rest?` finds nothing in the front of a text in which it finds nothing. -/
theorem rest?_eq_none_of_append (hr : r.Proper) {s t : Text} (h : r.rest? (s ++ t) = none) :
    r.rest? s = none := by
  cases hs : r.rest? s with
  | none => rfl
  | some rest =>
    rw [rest?_append hr hs] at h
    cases h

/-! ## The first part that is respelled -/

/-- `apply` leaves a text in which nothing is respelled; otherwise there is a first part that is
replaced, and what follows it is respelled on its own. -/
theorem apply_cases (hr : r.Proper) (s : Text) :
    ((∀ m, r.Spans m → ¬m <:+: s) ∧ r.apply s = s) ∨
      ∃ a m b, r.Spans m ∧ s = a ++ (m ++ b) ∧ r.apply s = a ++ (r.replacement ++ r.apply b) := by
  induction s with
  | nil => exact .inl ⟨fun m hm hinside => hm.ne_nil (List.infix_nil.1 hinside), by rw [apply]⟩
  | cons c s ih =>
    cases hfound : r.rest? (c :: s) with
    | some rest =>
      obtain ⟨m, hm, hs⟩ := (rest?_eq_some_iff hr).1 hfound
      exact .inr ⟨[], m, rest, hm, hs, apply_of_some hfound⟩
    | none =>
      have hstep := apply_of_none hfound
      rcases ih with ⟨hnone, hsame⟩ | ⟨a, m, b, hm, rfl, happly⟩
      · refine .inl ⟨fun m hm hinside => ?_, by rw [hstep, hsame]⟩
        rcases List.infix_cons_iff.1 hinside with ⟨rest, hs⟩ | hinside
        · rw [(rest?_eq_some_iff hr).2 ⟨m, hm, hs.symm⟩] at hfound
          cases hfound
        · exact hnone m hm hinside
      · exact .inr ⟨c :: a, m, b, hm, rfl, by rw [hstep, happly]; rfl⟩

/-- `apply` leaves a text in which nothing is respelled. -/
theorem apply_eq_self (hr : r.Proper) {s : Text} (h : ∀ m, r.Spans m → ¬m <:+: s) :
    r.apply s = s := by
  rcases apply_cases hr s with ⟨-, hsame⟩ | ⟨a, m, b, hm, rfl, -⟩
  · exact hsame
  · exact absurd ⟨a, b, List.append_assoc a m b⟩ (h m hm)

/-- `rest?` finds a part that ends before a character that is in no such part. -/
theorem exists_append_of_rest? (hr : r.Proper) {c : CodePoint} (hc : ∀ m, r.Spans m → c ∉ m)
    {a b rest : Text} (h : r.rest? (a ++ c :: b) = some rest) :
    ∃ left, r.rest? a = some left ∧ rest = left ++ c :: b := by
  obtain ⟨m, hm, hs⟩ := (rest?_eq_some_iff hr).1 h
  rcases List.append_eq_append_iff.1 hs with ⟨more, rfl, hmore⟩ | ⟨left, rfl, hrest⟩
  · cases more with
    | nil => exact ⟨[], (rest?_eq_some_iff hr).2 ⟨_, hm, by simp⟩, hmore.symm⟩
    | cons d more =>
      obtain ⟨rfl, -⟩ := List.cons.inj hmore
      exact absurd (List.mem_append_right a List.mem_cons_self) (hc _ hm)
  · exact ⟨left, (rest?_eq_some_iff hr).2 ⟨m, hm, rfl⟩, hrest⟩

/-- `apply` goes through both sides of a character that is never respelled one by one. -/
theorem apply_append_cons (hr : r.Proper) {c : CodePoint} (hc : ∀ m, r.Spans m → c ∉ m)
    (a b : Text) : r.apply (a ++ c :: b) = r.apply a ++ c :: r.apply b := by
  -- a part that is replaced leaves a shorter text in front of the character
  induction hn : a.length using Nat.strongRecOn generalizing a with
  | ind n ih =>
    cases a with
    | nil =>
      have hnone : r.rest? (c :: b) = none := by
        refine Option.eq_none_iff_forall_ne_some.2 fun rest hfound => ?_
        obtain ⟨left, hleft, -⟩ := exists_append_of_rest? hr hc (a := []) hfound
        cases hleft
      rw [List.nil_append, apply_of_none hnone, apply, List.nil_append]
    | cons d a =>
      rw [List.cons_append]
      cases hfound : r.rest? (d :: (a ++ c :: b)) with
      | some rest =>
        obtain ⟨left, hleft, rfl⟩ := exists_append_of_rest? hr hc (a := d :: a) hfound
        rw [apply_of_some hfound, apply_of_some hleft, ih _ (hn ▸ length_rest? hleft) left rfl,
          List.append_assoc]
      | none =>
        have hnone : r.rest? (d :: a) = none :=
          rest?_eq_none_of_append hr (t := c :: b) hfound
        rw [apply_of_none hfound, apply_of_none hnone, ih _ (hn ▸ Nat.lt_succ_self _) a rfl,
          List.cons_append]

/-! ## Lengths -/

/-- `apply` makes no text longer when less is put in than taken out. -/
theorem length_apply_le (hr : r.Proper) (hlength : ∀ m, r.Spans m → r.replacement.length ≤ m.length)
    (s : Text) : (r.apply s).length ≤ s.length := by
  -- induction on the length: behind the first part that is replaced there is a shorter text
  induction hn : s.length using Nat.strongRecOn generalizing s with
  | ind n ih =>
    rcases apply_cases hr s with ⟨-, hsame⟩ | ⟨a, m, b, hm, rfl, happly⟩
    · exact Nat.le_of_eq (by rw [hsame, hn])
    · have hpos := List.length_pos_iff.2 hm.ne_nil
      have hm := hlength m hm
      simp only [List.length_append] at hn
      have hb := ih b.length (by omega) b rfl
      simp only [happly, List.length_append]
      omega

/-- `apply` that leaves a text as long as before found nothing, where less is put in than taken out.
-/
theorem apply_eq_self_of_length_le (hr : r.Proper)
    (hlength : ∀ m, r.Spans m → r.replacement.length < m.length) {s : Text}
    (h : s.length ≤ (r.apply s).length) : (∀ m, r.Spans m → ¬m <:+: s) ∧ r.apply s = s := by
  rcases apply_cases hr s with hnone | ⟨a, m, b, hm, rfl, happly⟩
  · exact hnone
  · have hm := hlength m hm
    have hb := length_apply_le hr (fun m hm => Nat.le_of_lt (hlength m hm)) b
    rw [happly] at h
    simp only [List.length_append] at h
    omega

/-- `isForm` texts are as long as the word. -/
theorem length_of_isForm {word s : Text} (h : isForm word s = true) : s.length = word.length := by
  induction word generalizing s with
  | nil => rw [isForm_nil_iff.1 h]
  | cons w word ih =>
    cases s with
    | nil => cases h
    | cons c s =>
      rw [isForm_cons, Bool.and_eq_true] at h
      rw [List.length_cons, List.length_cons, ih h.2]

/-- `Spans` texts hold the word, the spaces and the mark. -/
theorem Spans.length_le {m : Text} (h : r.Spans m) :
    r.word.length + (if r.marked then 3 else 2) ≤ m.length := by
  obtain ⟨front, form, rfl, hform, hfront⟩ := h
  have hlength := length_of_isForm hform
  cases hmarked : r.marked with
  | false => simp [hlength]
  | true =>
    rw [hmarked, if_pos rfl] at hfront
    obtain ⟨gap, rfl, -⟩ := hfront
    simp [hlength]

/-! ## Quotes -/

/-- `Spans` texts hold no quote. -/
theorem Spans.quote_notMem {m : Text} (h : r.Spans m) (hr : r.Proper) : .char '"' ∉ m := by
  obtain ⟨front, form, rfl, hform, hfront⟩ := h
  have hword : CodePoint.char '"' ∉ form := by
    intro hmem
    -- the letters of the word are told from its form
    have hfolded : folded (.char '"') ∈ r.word := by
      rw [← map_folded_of_isForm hr.isLower hform]
      exact List.mem_map_of_mem hmem
    have hlower := List.all_eq_true.1 hr.isLower _ hfolded
    exact absurd hlower (by decide)
  have hmark : CodePoint.char '"' ∉ front := by
    cases hmarked : r.marked with
    | false =>
      rw [hmarked] at hfront
      obtain rfl : front = [] := hfront
      exact List.not_mem_nil
    | true =>
      rw [hmarked, if_pos rfl] at hfront
      obtain ⟨gap, rfl, hgap⟩ := hfront
      intro hmem
      rcases List.mem_cons.1 hmem with heq | hmem
      · exact absurd heq (by decide)
      · exact absurd (hgap _ hmem) (by decide)
  simp [hword, hmark]

end Respelling

/-! ## Respellings in turn -/

open Respelling

/-- `respellings` look for words of small letters. -/
theorem proper_of_mem_respellings : ∀ r ∈ respellings, r.Proper := by
  have hwords : ∀ r ∈ respellings, isLower r.word = true ∧ r.word ≠ [] := by decide
  exact fun r hr => ⟨(hwords r hr).1, (hwords r hr).2⟩

section Fold

variable {rs : List Respelling} (hrs : ∀ r ∈ rs, r.Proper)

include hrs

/-- `apply` of all respellings goes through both sides of a quote one by one. -/
theorem foldl_append_quote (a b : Text) :
    rs.foldl (fun s r => r.apply s) (a ++ .char '"' :: b) =
      rs.foldl (fun s r => r.apply s) a ++ .char '"' :: rs.foldl (fun s r => r.apply s) b := by
  induction rs generalizing a b with
  | nil => rfl
  | cons r rs ih =>
    rw [List.forall_mem_cons] at hrs
    simp only [List.foldl_cons]
    rw [apply_append_cons hrs.1 (fun m hm => hm.quote_notMem hrs.1), ih hrs.2]

/-- `apply` of all respellings leaves a text in which nothing is respelled. -/
theorem foldl_eq_self {s : Text} (h : ∀ r ∈ rs, ∀ m, r.Spans m → ¬m <:+: s) :
    rs.foldl (fun s r => r.apply s) s = s := by
  induction rs with
  | nil => rfl
  | cons r rs ih =>
    rw [List.forall_mem_cons] at hrs h
    rw [List.foldl_cons, apply_eq_self hrs.1 h.1, ih hrs.2 h.2]

/-- `apply` of all respellings makes no text longer when each puts in less than it takes out. -/
theorem length_foldl_le (hlength : ∀ r ∈ rs, ∀ m, r.Spans m → r.replacement.length ≤ m.length)
    (s : Text) : (rs.foldl (fun s r => r.apply s) s).length ≤ s.length := by
  induction rs generalizing s with
  | nil => exact Nat.le_refl _
  | cons r rs ih =>
    rw [List.forall_mem_cons] at hrs hlength
    rw [List.foldl_cons]
    exact Nat.le_trans (ih hrs.2 hlength.2 _) (length_apply_le hrs.1 hlength.1 s)

/-- `apply` of all respellings that leaves a text as long as before found nothing, where each puts
in less than it takes out. -/
theorem foldl_eq_self_of_length_le
    (hlength : ∀ r ∈ rs, ∀ m, r.Spans m → r.replacement.length < m.length) {s : Text}
    (h : s.length ≤ (rs.foldl (fun s r => r.apply s) s).length) :
    (∀ r ∈ rs, ∀ m, r.Spans m → ¬m <:+: s) ∧ rs.foldl (fun s r => r.apply s) s = s := by
  induction rs with
  | nil => exact ⟨List.forall_mem_nil _, rfl⟩
  | cons r rs ih =>
    rw [List.forall_mem_cons] at hrs hlength
    rw [List.foldl_cons] at h ⊢
    have hrest := length_foldl_le hrs.2 (fun r hr m hm => Nat.le_of_lt (hlength.2 r hr m hm))
      (r.apply s)
    obtain ⟨hnone, hsame⟩ := apply_eq_self_of_length_le hrs.1 hlength.1 (Nat.le_trans h hrest)
    rw [hsame] at h ⊢
    obtain ⟨hnones, hsames⟩ := ih hrs.2 hlength.2 h
    exact ⟨List.forall_mem_cons.2 ⟨hnone, hnones⟩, hsames⟩

end Fold

end MeshLens.Query
