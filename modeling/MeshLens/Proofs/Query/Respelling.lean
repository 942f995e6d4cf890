import MeshLens.Proofs.Text.Split
import MeshLens.Proofs.Text.Trim
import MeshLens.Query.Canonical

/-!
# Respelling words between spaces

What a respelling does at one word of a text with single spaces: it passes over the word, or it puts
its replacement in the place of the word and of the spaces around, and goes on behind the next word.

## Key results

- `Respelling.apply_skip`, `Respelling.apply_hit`: the two things that happen at a word
- `Respelling.rest?_unmarked`, `Respelling.rest?_glued`, `Respelling.rest?_apart`: which of the two it is
- `canonical_blank`: a blank text has nothing to compile
-/

namespace MeshLens.Query

/-! ## Forms of words -/

/-- Whether a text is a word in any case. -/
def isForm (word s : Text) : Bool :=
  afterWord? word s == some []

/-- The small letter that a character is a form of. -/
def folded (c : CodePoint) : CodePoint :=
  if c = 'ſ' then 's' else if c = 'İ' ∨ c = 'ı' then 'i' else Text.smallLetter c

/-- Whether a text is made of small ASCII letters. -/
def isLower (word : Text) : Bool :=
  word.all fun c => 'a' ≤ c && c ≤ 'z'

/-- `isForm` of the empty word holds of the empty text. -/
theorem isForm_nil_iff {s : Text} : isForm [] s = true ↔ s = [] := by
  simp [isForm, afterWord?]

/-- `isForm` compares a word letter by letter. -/
theorem isForm_cons {w c : CodePoint} {word s : Text} :
    isForm (w :: word) (c :: s) = (isFormOf w c && isForm word s) := by
  simp only [isForm, afterWord?]
  by_cases h : isFormOf w c = true <;> simp [h]

/-- `isForm` does not hold of the empty text with any other word. -/
theorem isForm_cons_nil {w : CodePoint} {word : Text} : isForm (w :: word) [] = false := rfl

/-- `folded` tells a small letter from its forms. -/
theorem folded_of_isFormOf {letter c : CodePoint}
    (hletter : ('a' : CodePoint) ≤ letter ∧ letter ≤ ('z' : CodePoint))
    (h : isFormOf letter c = true) : folded c = letter := by
  have hlo : 97 ≤ letter.toNat := hletter.1
  have hhi : letter.toNat ≤ 122 := hletter.2
  -- only the three letters that are treated apart are folded to another one than the small letter
  have hfold {d : CodePoint} (hd : d.toNat ≤ 122) : folded d = Text.smallLetter d := by
    have hs : ¬d = CodePoint.char 'ſ' := by rintro rfl; exact absurd hd (by decide)
    have hi : ¬(d = CodePoint.char 'İ' ∨ d = CodePoint.char 'ı') := by
      rintro (rfl | rfl) <;> exact absurd hd (by decide)
    rw [folded, if_neg hs, if_neg hi]
  simp only [isFormOf, Bool.or_eq_true, Bool.and_eq_true, beq_iff_eq, decide_eq_true_eq] at h
  -- the letter itself, its capital, the long s, the two forms of i with or without a dot
  rcases h with ((rfl | ⟨⟨hA, hZ⟩, hcapital⟩) | ⟨rfl, rfl⟩) | ⟨rfl, rfl | rfl⟩
  · have hnot : ¬(('A' : CodePoint) ≤ c ∧ c ≤ ('Z' : CodePoint)) := by
      intro hboth
      have : c.toNat ≤ 90 := hboth.2
      omega
    rw [hfold hhi, Text.smallLetter, if_neg hnot]
  · have hZ' : c.toNat ≤ 90 := hZ
    rw [hfold (by omega), Text.smallLetter, if_pos ⟨hA, hZ⟩, hcapital, CodePoint.ofNat_toNat]
  · rfl
  · rfl
  · rfl

/-- `isFormOf` a letter holds of no white space and of no exclamation mark. -/
theorem plain_of_isFormOf {letter c : CodePoint}
    (hletter : ('a' : CodePoint) ≤ letter ∧ letter ≤ ('z' : CodePoint))
    (h : isFormOf letter c = true) : Text.isBlank c = false ∧ c ≠ CodePoint.char '!' := by
  have hlo : 97 ≤ letter.toNat := hletter.1
  have hhi : letter.toNat ≤ 122 := hletter.2
  simp only [isFormOf, Bool.or_eq_true, Bool.and_eq_true, beq_iff_eq, decide_eq_true_eq] at h
  -- white space and the exclamation mark lie outside the ranges of letters
  rcases h with ((rfl | ⟨⟨hA, hZ⟩, -⟩) | ⟨rfl, rfl⟩) | ⟨rfl, rfl | rfl⟩
  · refine ⟨?_, fun hmark => absurd hlo (by rw [hmark]; decide)⟩
    simp [Text.isBlank]
    omega
  · have hA' : 65 ≤ c.toNat := hA
    have hZ' : c.toNat ≤ 90 := hZ
    refine ⟨?_, fun hmark => absurd hA' (by rw [hmark]; decide)⟩
    simp [Text.isBlank]
    omega
  · decide
  · decide
  · decide

section Forms

variable {word s : Text}

/-- `folded` tells a word of small letters from its forms. -/
theorem map_folded_of_isForm (hword : isLower word = true) (h : isForm word s = true) :
    s.map folded = word := by
  induction word generalizing s with
  | nil => rw [isForm_nil_iff.1 h]; rfl
  | cons w word ih =>
    cases s with
    | nil => cases h
    | cons c s =>
      simp only [isLower, List.all_cons, Bool.and_eq_true, decide_eq_true_eq] at hword
      rw [isForm_cons, Bool.and_eq_true] at h
      rw [List.map_cons, folded_of_isFormOf hword.1 h.1, ih hword.2 h.2]

/-- `isForm` texts hold no white space and no exclamation mark. -/
theorem plain_of_isForm (hword : isLower word = true) (h : isForm word s = true) :
    ∀ c ∈ s, Text.isBlank c = false ∧ c ≠ CodePoint.char '!' := by
  induction word generalizing s with
  | nil => rw [isForm_nil_iff.1 h]; simp
  | cons w word ih =>
    cases s with
    | nil => cases h
    | cons c s =>
      simp only [isLower, List.all_cons, Bool.and_eq_true, decide_eq_true_eq] at hword
      rw [isForm_cons, Bool.and_eq_true] at h
      exact List.forall_mem_cons.2 ⟨plain_of_isFormOf hword.1 h.1, ih hword.2 h.2⟩

/-- `isForm` holds of a word in any case of its ASCII letters. -/
theorem isForm_of_map_smallLetter (h : s.map Text.smallLetter = word) : isForm word s = true := by
  induction s generalizing word with
  | nil => rw [← h]; rfl
  | cons c s ih =>
    rw [← h, List.map_cons, isForm_cons, ih rfl, Bool.and_true]
    simp only [isFormOf, Text.smallLetter, Bool.or_eq_true, Bool.and_eq_true, beq_iff_eq,
      decide_eq_true_eq]
    by_cases hcapital : ('A' : CodePoint) ≤ c ∧ c ≤ ('Z' : CodePoint)
    · have hZ : c.toNat ≤ 90 := hcapital.2
      rw [if_pos hcapital, CodePoint.toNat_ofNat (by omega)]
      exact .inl (.inl (.inr ⟨hcapital, rfl⟩))
    · rw [if_neg hcapital]
      exact .inl (.inl (.inl rfl))

/-- `isForm` texts are not empty. -/
theorem ne_nil_of_isForm (hword : word ≠ []) (h : isForm word s = true) : s ≠ [] := by
  rintro rfl
  cases word with
  | nil => exact hword rfl
  | cons w word => cases h

/-- `afterWord?` and a space begin a text just when its first word is a form of the word. -/
theorem afterWord?_append (hword : isLower word = true) {u : Text} (hs : .char ' ' ∉ s)
    (hu : ∀ c, u.head? = some c → c = CodePoint.char ' ') :
    ((afterWord? word (s ++ u)).bind fun rest => Text.after? [.char ' '] rest) =
      if isForm word s = true then Text.after? [.char ' '] u else none := by
  -- the word is compared letter by letter with what stands before the space
  induction word generalizing s with
  | nil =>
    cases s with
    | nil => rfl
    | cons c s =>
      have hc : ¬CodePoint.char ' ' = c := fun h => hs (h ▸ List.mem_cons_self)
      have hform : ¬isForm [] (c :: s) = true := by rw [isForm_nil_iff]; exact List.cons_ne_nil _ _
      rw [if_neg hform]
      simp [afterWord?, Text.after?, hc]
  | cons w word ih =>
    simp only [isLower, List.all_cons, Bool.and_eq_true, decide_eq_true_eq] at hword
    cases s with
    | nil =>
      rw [isForm_cons_nil, if_neg Bool.false_ne_true, List.nil_append]
      cases u with
      | nil => rfl
      | cons c u =>
        have hspace := hu c rfl
        -- the space where the next letter is looked for is a form of no letter
        have hno : ¬isFormOf w c = true := by
          intro h
          exact absurd (plain_of_isFormOf hword.1 h).1 (by rw [hspace]; decide)
        rw [afterWord?, if_neg hno]
        rfl
    | cons c s =>
      rw [List.cons_append, afterWord?, isForm_cons]
      by_cases hc : isFormOf w c = true
      · rw [if_pos hc, ih hword.2 fun h => hs (List.mem_cons_of_mem _ h), hc, Bool.true_and]
      · rw [if_neg hc]
        simp [hc]

end Forms

namespace Respelling

/-! ## Where a respelling applies -/

section Rest

variable {r : Respelling} {t u : Text}

/-- `rest?` without a mark looks at the word behind a space. -/
theorem rest?_unmarked (hr : r.marked = false) (hword : isLower r.word = true)
    (ht : .char ' ' ∉ t) (hu : ∀ c, u.head? = some c → c = CodePoint.char ' ') :
    r.rest? (.char ' ' :: (t ++ u)) =
      if isForm r.word t = true then Text.after? [.char ' '] u else none := by
  simp only [rest?, hr, Bool.false_eq_true, if_false, Option.bind_some]
  exact afterWord?_append hword ht hu

/-- `rest?` with a mark finds nothing at a word that does not begin with one. -/
theorem rest?_no_mark (hr : r.marked = true) (hne : t ≠ []) (ht : t.head? ≠ some (.char '!')) :
    r.rest? (.char ' ' :: (t ++ u)) = none := by
  obtain ⟨c, t, rfl⟩ := List.exists_cons_of_ne_nil hne
  have hc : ¬CodePoint.char '!' = c := fun h => ht (congrArg some h.symm)
  simp [rest?, hr, Text.after?, hc]

/-- `rest?` with a mark looks at what stands behind the mark of a word. -/
theorem rest?_glued (hr : r.marked = true) (hword : isLower r.word = true) (hne : t ≠ [])
    (ht : ∀ c ∈ t, Text.isBlank c = false) (hu : ∀ c, u.head? = some c → c = CodePoint.char ' ') :
    r.rest? (.char ' ' :: (.char '!' :: t ++ u)) =
      if isForm r.word t = true then Text.after? [.char ' '] u else none := by
  have hspace : CodePoint.char ' ' ∉ t := fun h => absurd (ht _ h) (by decide)
  have htrim : Text.trimStart (t ++ u) = t ++ u := by
    obtain ⟨c, t, rfl⟩ := List.exists_cons_of_ne_nil hne
    exact Text.trimStart_cons_of_not_blank (ht c List.mem_cons_self) _
  simp only [rest?, hr, if_true, List.cons_append, Text.after?, Option.map_some, htrim,
    Option.bind_some]
  exact afterWord?_append hword hspace hu

/-- `rest?` with a mark looks at the word behind a mark that stands alone. -/
theorem rest?_apart (hr : r.marked = true) (hword : isLower r.word = true) (hne : t ≠ [])
    (ht : ∀ c ∈ t, Text.isBlank c = false) (hu : ∀ c, u.head? = some c → c = CodePoint.char ' ') :
    r.rest? (.char ' ' :: .char '!' :: .char ' ' :: (t ++ u)) =
      if isForm r.word t = true then Text.after? [.char ' '] u else none := by
  have hspace : CodePoint.char ' ' ∉ t := fun h => absurd (ht _ h) (by decide)
  have htrim : Text.trimStart (.char ' ' :: (t ++ u)) = t ++ u := by
    obtain ⟨c, t, rfl⟩ := List.exists_cons_of_ne_nil hne
    rw [Text.trimStart_cons_of_blank (by decide)]
    exact Text.trimStart_cons_of_not_blank (ht c List.mem_cons_self) _
  simp only [rest?, hr, if_true, Text.after?, Option.map_some, htrim, Option.bind_some]
  exact afterWord?_append hword hspace hu

end Rest

/-! ## What a respelling does -/

section Apply

variable {r : Respelling}

/-- `apply` leaves a character at which nothing is found. -/
theorem apply_of_none {c : CodePoint} {s : Text} (h : r.rest? (c :: s) = none) :
    r.apply (c :: s) = c :: r.apply s := by
  rw [apply]
  split
  · rename_i hsome
    rw [h] at hsome
    cases hsome
  · rfl

/-- `apply` puts the replacement where something is found, and goes on behind it. -/
theorem apply_of_some {c : CodePoint} {s rest : Text} (h : r.rest? (c :: s) = some rest) :
    r.apply (c :: s) = r.replacement ++ r.apply rest := by
  rw [apply]
  split
  · rename_i hsome
    rw [h] at hsome
    cases hsome
    rfl
  · rename_i hnone
    rw [h] at hnone
    cases hnone

/-- `apply` changes nothing within a word. -/
theorem apply_append {t : Text} (ht : .char ' ' ∉ t) (u : Text) :
    r.apply (t ++ u) = t ++ r.apply u := by
  induction t with
  | nil => rfl
  | cons c t ih =>
    have hc : c ≠ CodePoint.char ' ' := fun h => ht (h ▸ List.mem_cons_self)
    -- a respelling begins at a space
    have hnone : r.rest? (c :: (t ++ u)) = none := by
      unfold rest?
      split
      · rename_i heq
        exact absurd (List.cons.inj heq).1 hc
      · rfl
    rw [List.cons_append, apply_of_none hnone, ih fun h => ht (List.mem_cons_of_mem _ h)]
    rfl

/-- `apply` goes on behind a word at which nothing is found. -/
theorem apply_skip {t u : Text} (ht : .char ' ' ∉ t)
    (h : r.rest? (.char ' ' :: (t ++ u)) = none) :
    r.apply (.char ' ' :: (t ++ u)) = .char ' ' :: (t ++ r.apply u) := by
  rw [apply_of_none h, apply_append ht]

/-- `apply` goes on behind the next word when something is found. -/
theorem apply_hit {s v u : Text} (hv : .char ' ' ∉ v)
    (h : r.rest? (.char ' ' :: s) = some (v ++ u)) :
    r.apply (.char ' ' :: s) = r.replacement ++ (v ++ r.apply u) := by
  rw [apply_of_some h, apply_append hv]

end Apply

/-! ## Blank texts -/

/-- `apply` leaves a blank text, in which there is no word. -/
theorem apply_blank {r : Respelling} (hword : isLower r.word = true) (hne : r.word ≠ [])
    {s : Text} (hs : ∀ c ∈ s, Text.isBlank c = true) : r.apply s = s := by
  obtain ⟨w, word, hcons⟩ := List.exists_cons_of_ne_nil hne
  have hw : 'a' ≤ w ∧ w ≤ 'z' := by
    simp only [hcons, isLower, List.all_cons, Bool.and_eq_true, decide_eq_true_eq] at hword
    exact hword.1
  induction s with
  | nil => rw [apply]
  | cons c s ih =>
    rw [List.forall_mem_cons] at hs
    -- neither a letter nor an exclamation mark comes after a space
    have hnone : r.rest? (c :: s) = none := by
      unfold rest?
      split
      · rename_i s' hspace
        obtain ⟨-, rfl⟩ := List.cons.inj hspace
        have hnoWord : afterWord? r.word s = none := by
          rw [hcons]
          cases s with
          | nil => rfl
          | cons d s =>
            refine if_neg fun hform => ?_
            have hplain := (plain_of_isFormOf hw hform).1
            rw [hs.2 d List.mem_cons_self] at hplain
            cases hplain
        have hnoMark : Text.after? ['!'] s = none := by
          cases s with
          | nil => rfl
          | cons d s =>
            refine if_neg fun hmark => ?_
            have hblank := hs.2 d List.mem_cons_self
            rw [← hmark] at hblank
            exact absurd hblank (by decide)
        cases r.marked with
        | false => simp [hnoWord]
        | true => simp [hnoMark]
      · rfl
    rw [apply_of_none hnone, ih hs.2]

end Respelling

/-- `canonical` of a blank text is empty. -/
theorem canonical_blank {s : Text} (hs : ∀ c ∈ s, Text.isBlank c = true) : canonical s = [] := by
  have hcollapse : ∀ c ∈ collapse s, c ∈ s := by
    induction s with
    | nil => exact fun c hc => hc
    | cons d s ih =>
      rw [List.forall_mem_cons] at hs
      intro c hc
      rw [collapse] at hc
      split at hc
      · exact List.mem_cons_of_mem _ (ih hs.2 c hc)
      · rcases List.mem_cons.1 hc with rfl | hc
        · exact List.mem_cons_self
        · exact List.mem_cons_of_mem _ (ih hs.2 c hc)
  have hwords : ∀ r ∈ respellings, isLower r.word = true ∧ r.word ≠ [] := by decide
  -- no respelling changes the text, so that trimming finds it blank
  have hfold (rs : List Respelling) (hrs : ∀ r ∈ rs, isLower r.word = true ∧ r.word ≠ [])
      {t : Text} (ht : ∀ c ∈ t, Text.isBlank c = true) :
      rs.foldl (fun t r => r.apply t) t = t := by
    induction rs with
    | nil => rfl
    | cons r rs ih =>
      rw [List.forall_mem_cons] at hrs
      rw [List.foldl_cons, Respelling.apply_blank hrs.1.1 hrs.1.2 ht, ih hrs.2]
  have hblank : ∀ c ∈ CodePoint.char ' ' :: collapse s, Text.isBlank c = true :=
    List.forall_mem_cons.2 ⟨by decide, fun c hc => hs c (hcollapse c hc)⟩
  rw [canonical, hfold respellings hwords hblank]
  exact Text.trim_append_blank [] hblank

end MeshLens.Query
