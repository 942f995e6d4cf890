import MeshLens.Text.Basic

/-!
# Trimming

What `trim` leaves of a text whose blank ends are known, and what it keeps of any text. Readers of
queries and of selectors trim every piece they cut out, so these facts are used by both.

## Key results

- `trim_blank_append`: blanks in front of a text are trimmed
- `trim_append_append`: a text between blanks is what trimming leaves
- `exists_trim_append`: a text is what trimming leaves, between blanks
-/

namespace MeshLens.Text

/-- `isBlankText` holds of the texts of blanks. -/
theorem isBlankText_iff {s : Text} : isBlankText s = true ↔ ∀ c ∈ s, isBlank c = true := by
  rw [isBlankText, List.all_eq_true]

/-! ## The front -/

/-- `trimStart` drops a blank. -/
theorem trimStart_cons_of_blank {c : CodePoint} (h : isBlank c = true) (s : Text) :
    trimStart (c :: s) = trimStart s :=
  List.dropWhile_cons_of_pos h

/-- `trimStart` stops at a character that is no blank. -/
theorem trimStart_cons_of_not_blank {c : CodePoint} (h : isBlank c = false) (s : Text) :
    trimStart (c :: s) = c :: s :=
  List.dropWhile_cons_of_neg (by simp [h])

/-- `trimStart` drops all blanks that stand in front. -/
theorem trimStart_blank_append {p : Text} (hp : ∀ c ∈ p, isBlank c = true) (s : Text) :
    trimStart (p ++ s) = trimStart s := by
  induction p with
  | nil => rfl
  | cons c p ih =>
    rw [List.cons_append, trimStart_cons_of_blank (hp c (by simp))]
    exact ih fun d hd => hp d (List.mem_cons_of_mem _ hd)

/-- `trimStart` leaves what stands behind the blanks. -/
theorem exists_append_trimStart (s : Text) :
    ∃ p : Text, s = p ++ trimStart s ∧ ∀ c ∈ p, isBlank c = true :=
  ⟨s.takeWhile isBlank, List.takeWhile_append_dropWhile.symm,
    fun c hc => List.all_eq_true.1 List.all_takeWhile c hc⟩

/-! ## The end -/

/-- `trimEnd` leaves nothing of a blank text. -/
theorem trimEnd_eq_nil {q : Text} (hq : ∀ c ∈ q, isBlank c = true) : trimEnd q = [] := by
  induction q with
  | nil => rfl
  | cons c q ih =>
    have hrest : trimEnd q = [] := ih fun d hd => hq d (List.mem_cons_of_mem _ hd)
    simp only [trimEnd, hrest, hq c (List.mem_cons_self), if_true]

/-- `trimEnd` drops all blanks that stand behind. -/
theorem trimEnd_append_blank (s : Text) {q : Text} (hq : ∀ c ∈ q, isBlank c = true) :
    trimEnd (s ++ q) = trimEnd s := by
  induction s with
  | nil => rw [List.nil_append, trimEnd_eq_nil hq, trimEnd]
  | cons c s ih => simp only [List.cons_append, trimEnd, ih]

/-- `trimEnd` stops at a character that is no blank. -/
theorem trimEnd_append_cons {c : CodePoint} (h : isBlank c = false) (s t : Text) :
    trimEnd (s ++ c :: t) = s ++ c :: trimEnd t := by
  induction s with
  | nil =>
    rw [List.nil_append, List.nil_append, trimEnd]
    cases trimEnd t with
    | nil => simp [h]
    | cons d kept => rfl
  | cons d s ih =>
    rw [List.cons_append, trimEnd, ih]
    cases s <;> rfl

/-- `trimEnd` leaves a text that ends with no blank. -/
theorem trimEnd_concat {c : CodePoint} (h : isBlank c = false) (s : Text) :
    trimEnd (s ++ [c]) = s ++ [c] :=
  trimEnd_append_cons h s []

/-- `trimEnd` leaves a text without blanks. -/
theorem trimEnd_eq_self {s : Text} (h : ∀ c ∈ s, isBlank c = false) : trimEnd s = s := by
  rcases List.eq_nil_or_concat s with rfl | ⟨t, c, rfl⟩
  · rfl
  · rw [List.concat_eq_append] at h ⊢
    exact trimEnd_concat (h c (by simp)) t

/-- `trimEnd` leaves what stands in front of the blanks. -/
theorem exists_trimEnd_append (s : Text) :
    ∃ q : Text, s = trimEnd s ++ q ∧ ∀ c ∈ q, isBlank c = true := by
  induction s with
  | nil => exact ⟨[], rfl, by simp⟩
  | cons c s ih =>
    obtain ⟨q, hs, hq⟩ := ih
    rw [trimEnd]
    -- a character goes with the blanks behind it only when nothing before it is kept
    cases hend : trimEnd s with
    | nil =>
      rw [hend, List.nil_append] at hs
      by_cases hc : isBlank c = true
      · exact ⟨c :: q, by simp [hc, ← hs], List.forall_mem_cons.2 ⟨hc, hq⟩⟩
      · exact ⟨q, by simp [hc, ← hs], hq⟩
    | cons d kept =>
      rw [hend] at hs
      exact ⟨q, congrArg (c :: ·) hs, hq⟩

/-! ## Both ends -/

/-- `trim` drops the blanks in front of a text. -/
theorem trim_blank_append {p : Text} (hp : ∀ c ∈ p, isBlank c = true) (s : Text) :
    trim (p ++ s) = trim s := by
  rw [trim, trimStart_blank_append hp, trim]

/-- `trim` drops a blank in front of a text. -/
theorem trim_cons_of_blank {c : CodePoint} (h : isBlank c = true) (s : Text) :
    trim (c :: s) = trim s := by
  rw [trim, trimStart_cons_of_blank h, trim]

/-- `trim` drops the blanks behind a text. -/
theorem trim_append_blank (s : Text) {q : Text} (hq : ∀ c ∈ q, isBlank c = true) :
    trim (s ++ q) = trim s := by
  -- induction on the text: only when all of it is blank does `trimStart` reach what stands behind
  -- it
  induction s with
  | nil =>
    have hnil : trimStart q = [] := by
      have hall := trimStart_blank_append hq []
      rwa [List.append_nil] at hall
    rw [List.nil_append, trim, hnil]
    rfl
  | cons c s ih =>
    cases hc : isBlank c with
    | true => rw [List.cons_append, trim_cons_of_blank hc, trim_cons_of_blank hc, ih]
    | false =>
      rw [trim, List.cons_append, trimStart_cons_of_not_blank hc, ← List.cons_append,
        trimEnd_append_blank _ hq, trim, trimStart_cons_of_not_blank hc]

/-- `trim` leaves a text without blanks of what stands around it. -/
theorem trim_append_append {p s q : Text} (hp : ∀ c ∈ p, isBlank c = true)
    (hs : ∀ c ∈ s, isBlank c = false) (hq : ∀ c ∈ q, isBlank c = true) :
    trim (p ++ (s ++ q)) = s := by
  rw [trim_blank_append hp, trim_append_blank s hq, trim]
  -- trimming stops where the text begins, unless there is none
  cases s with
  | nil => rfl
  | cons c s => rw [trimStart_cons_of_not_blank (hs c List.mem_cons_self), trimEnd_eq_self hs]

/-- `trim` leaves a text without blanks. -/
theorem trim_eq_self {s : Text} (hs : ∀ c ∈ s, isBlank c = false) : trim s = s := by
  have := trim_append_append (p := []) (q := []) (by simp) hs (by simp)
  rwa [List.append_nil, List.nil_append] at this

/-- `trim` leaves a text whose two ends are no blanks. -/
theorem trim_cons_append_singleton {c d : CodePoint} (hc : isBlank c = false)
    (hd : isBlank d = false) (s : Text) : trim (c :: (s ++ [d])) = c :: (s ++ [d]) := by
  rw [trim, trimStart_cons_of_not_blank hc, ← List.cons_append, trimEnd_concat hd]

/-- `trim` leaves a last word as it is, and looks for blanks in front only. -/
theorem trim_append_word (s : Text) {w : Text} (hne : w ≠ []) (hw : ∀ c ∈ w, isBlank c = false) :
    trim (s ++ w) = trimStart s ++ w := by
  have hfront : trimStart (s ++ w) = trimStart s ++ w := by
    induction s with
    | nil =>
      obtain ⟨c, w, rfl⟩ := List.exists_cons_of_ne_nil hne
      exact trimStart_cons_of_not_blank (hw c List.mem_cons_self) w
    | cons c s ih =>
      rw [List.cons_append]
      cases hc : isBlank c with
      | true => rw [trimStart_cons_of_blank hc, trimStart_cons_of_blank hc, ih]
      | false =>
        rw [trimStart_cons_of_not_blank hc, trimStart_cons_of_not_blank hc, List.cons_append]
  rcases List.eq_nil_or_concat w with rfl | ⟨w, c, rfl⟩
  · exact absurd rfl hne
  · rw [List.concat_eq_append] at hw hfront ⊢
    rw [trim, hfront, ← List.append_assoc, trimEnd_concat (hw c (by simp))]

/-- `trim` leaves no more than `trimStart` does. -/
theorem length_trim_le (s : Text) : (trim s).length ≤ (trimStart s).length := by
  obtain ⟨q, hs, -⟩ := exists_trimEnd_append (trimStart s)
  exact Nat.le.intro (by rw [trim, ← List.length_append, ← hs])

/-- `trim` leaves what stands between the blanks. -/
theorem exists_trim_append (s : Text) :
    ∃ p q : Text, s = p ++ (trim s ++ q) ∧ (∀ c ∈ p, isBlank c = true) ∧
      ∀ c ∈ q, isBlank c = true := by
  obtain ⟨p, hfront, hp⟩ := exists_append_trimStart s
  obtain ⟨q, hend, hq⟩ := exists_trimEnd_append (trimStart s)
  exact ⟨p, q, by rw [trim, ← hend, ← hfront], hp, hq⟩

end MeshLens.Text
