import MeshLens.Number.Literal
import MeshLens.Proofs.Text.Trim

/-!
# The characters of number literals

A number literal is made of digits, signs, a point and the letter of the exponent, so it holds
neither white space nor anything that a selector gives a meaning to. This is why a literal can
stand in a selector as it was spelled.

## Key results

- `isLiteralChar_of_numberOfText?`: what reads as a number is made of such characters
- `numberOfText?_trim_of_readNumber`: a number that can be read is the one its trimmed text spells
- `readNumber_eq_error_iff`: when a text that looks like a number cannot be read
-/

namespace MeshLens

namespace Text

/-! ## Digits are no white space -/

/-- `digitZeros` lie on one side of each range of white space, with the nine digits behind them. -/
private theorem digitZeros_bounds : ∀ z ∈ digitZeros,
    (z = 48 ∨ 160 < z) ∧ (z + 10 ≤ 5760 ∨ 5760 < z) ∧ (z + 10 ≤ 8192 ∨ 12288 < z) := by
  decide

/-- `isBlank` holds of no digit. -/
theorem isBlank_of_digitValue? {c : CodePoint} (h : (digitValue? c).isSome) :
    isBlank c = false := by
  simp only [digitValue?] at h
  simp only [isBlank]
  split at h
  · split at h
    · rename_i hd
      -- a digit of ASCII
      have hbounds : 48 ≤ c.toNat ∧ c.toNat ≤ 57 := by
        simp only [isAsciiDigit, Bool.and_eq_true, decide_eq_true_eq] at hd
        exact ⟨hd.1, hd.2⟩
      simp
      omega
    · simp at h
  · rename_i hlarge
    simp only [Option.isSome_map, List.find?_isSome] at h
    obtain ⟨z, hz, hc⟩ := h
    -- a digit of another script: its ten places have no white space among them
    have hbounds := digitZeros_bounds z hz
    simp only [Bool.and_eq_true, decide_eq_true_eq] at hc
    simp
    omega

end Text

namespace NumberLiteral

/-! ## Characters -/

/-- The characters that a number literal is made of. -/
def isLiteralChar (c : CodePoint) : Bool :=
  (Text.digitValue? c).isSome || c == '+' || c == '-' || c == '.' || c == 'e' || c == 'E'

/-- `isBlank` holds of no character of a literal. -/
theorem isBlank_of_isLiteralChar {c : CodePoint} (h : isLiteralChar c = true) :
    Text.isBlank c = false := by
  simp only [isLiteralChar, Bool.or_eq_true, beq_iff_eq] at h
  rcases h with ((((h | rfl) | rfl) | rfl) | rfl) | rfl
  · exact Text.isBlank_of_digitValue? h
  all_goals rfl

/-- `readDigits` leaves in the rest what it does not read as a digit. -/
theorem mem_readDigits {c : CodePoint} {s : Text} (value count : Nat) (h : c ∈ s) :
    isLiteralChar c = true ∨ c ∈ (readDigits value count s).2.2 := by
  induction s generalizing value count with
  | nil => simp at h
  | cons d s ih =>
    simp only [readDigits]
    split
    · rename_i n hd
      rcases List.mem_cons.1 h with rfl | h
      · exact .inl (by simp [isLiteralChar, hd])
      · exact ih _ _ h
    · exact .inr h

/-- `readSign` leaves in the rest what it does not read as a sign. -/
theorem mem_readSign {c : CodePoint} {s : Text} (h : c ∈ s) :
    isLiteralChar c = true ∨ c ∈ (readSign s).2 := by
  unfold readSign
  split
  · rcases List.mem_cons.1 h with rfl | h
    · exact .inl rfl
    · exact .inr h
  · rcases List.mem_cons.1 h with rfl | h
    · exact .inl rfl
    · exact .inr h
  · exact .inr h

/-- `readExponent` accepts characters of literals only. -/
theorem isLiteralChar_of_readExponent {c : CodePoint} {s : Text} {e : Int}
    (hs : readExponent s = some e) (h : c ∈ s) : isLiteralChar c = true := by
  unfold readExponent at hs
  split at hs
  · simp at h
  · rename_i d rest
    split at hs
    · rename_i hletter
      rcases List.mem_cons.1 h with rfl | h
      · rcases hletter with rfl | rfl <;> rfl
      · -- behind the letter: a sign, digits, and nothing else
        rcases mem_readSign h with hc | h
        · exact hc
        split at hs
        rename_i hsign
        rw [hsign] at h
        rcases mem_readDigits 0 0 h with hc | h
        · exact hc
        split at hs
        · rename_i hrest
          simp [hrest] at h
        · simp at hs
    · simp at hs

/-- `parse?` accepts characters of literals only. -/
theorem isLiteralChar_of_parse? {c : CodePoint} {s : Text} {l : NumberLiteral}
    (hs : parse? s = some l) (h : c ∈ s) : isLiteralChar c = true := by
  simp only [parse?] at hs
  -- each part of a literal takes what it reads from the front of the rest
  rcases mem_readSign h with hc | h
  · exact hc
  rcases mem_readDigits 0 0 h with hc | h
  · exact hc
  split at hs
  · rename_i rest hrest
    rw [hrest] at h
    rcases List.mem_cons.1 h with rfl | h
    · rfl
    -- behind the point
    rcases mem_readDigits (readDigits 0 0 (readSign s).2).1 0 h with hc | h
    · exact hc
    split at hs
    · simp at hs
    · obtain ⟨e, he, -⟩ := Option.map_eq_some_iff.1 hs
      exact isLiteralChar_of_readExponent he h
  · split at hs
    · simp at hs
    · obtain ⟨e, he, -⟩ := Option.map_eq_some_iff.1 hs
      exact isLiteralChar_of_readExponent he h

end NumberLiteral

/-! ## Numbers in texts -/

/-- `numberOfText?` accepts characters of literals only. -/
theorem isLiteralChar_of_numberOfText? {c : CodePoint} {s : Text} {x : Binary64}
    (hs : numberOfText? s = some x) (h : c ∈ s) : NumberLiteral.isLiteralChar c = true := by
  obtain ⟨l, hl, -⟩ := Option.map_eq_some_iff.1 hs
  exact NumberLiteral.isLiteralChar_of_parse? hl h

/-- `numberOfText?` accepts no white space. -/
theorem isBlank_of_numberOfText? {c : CodePoint} {s : Text} {x : Binary64}
    (hs : numberOfText? s = some x) (h : c ∈ s) : Text.isBlank c = false :=
  NumberLiteral.isBlank_of_isLiteralChar (isLiteralChar_of_numberOfText? hs h)

/-- `isPadding` holds of white space only. -/
theorem isBlank_of_isPadding {c : CodePoint} (h : isPadding c = true) : Text.isBlank c = true := by
  simp only [isPadding, Bool.and_eq_true] at h
  exact h.1

/-- `trimPadding` leaves what stands between padding. -/
theorem exists_padding_append (s : Text) :
    ∃ p q : Text, s = p ++ (trimPadding s ++ q) ∧ (∀ c ∈ p, isPadding c = true) ∧
      ∀ c ∈ q, isPadding c = true := by
  let t := s.dropWhile isPadding
  refine ⟨s.takeWhile isPadding, (t.reverse.takeWhile isPadding).reverse, ?_, ?_, ?_⟩
  · have hback : t = trimPadding s ++ (t.reverse.takeWhile isPadding).reverse := by
      rw [trimPadding, ← List.reverse_append, List.takeWhile_append_dropWhile, List.reverse_reverse]
    rw [← hback, List.takeWhile_append_dropWhile]
  · exact fun c hc => List.all_eq_true.1 List.all_takeWhile c hc
  · intro c hc
    exact List.all_eq_true.1 List.all_takeWhile c (List.mem_reverse.1 hc)

/-- `readNumber` gives the number that the trimmed text spells. -/
theorem numberOfText?_trim_of_readNumber {s : Text} {x : Binary64} (h : readNumber s = .ok x) :
    numberOfText? (Text.trim s) = some x := by
  have hx : numberOfText? (trimPadding s) = some x := by
    unfold readNumber at h
    split at h
    · rename_i y hy
      cases h
      exact hy
    · simp at h
  obtain ⟨p, q, hs, hp, hq⟩ := exists_padding_append s
  have htrim : Text.trim s = trimPadding s := by
    rw [hs]
    -- the padding around the number is blank, and the number itself holds no blank
    rw [Text.trim_append_append (fun c hc => isBlank_of_isPadding (hp c hc))
      (fun c hc => isBlank_of_numberOfText? hx hc) (fun c hc => isBlank_of_isPadding (hq c hc)),
      ← hs]
  rw [htrim, hx]

/-! ## Information separators -/

/-- The information separators: white space that may stand around what looks like a number, but not
around what is read as one. -/
def isSeparator (c : CodePoint) : Bool :=
  28 ≤ c.toNat && c.toNat ≤ 31

/-- `isPadding` characters are all that is dropped from the front. -/
private theorem dropWhile_isPadding_eq_self {s : Text} (h : ∀ c ∈ s, isPadding c = false) :
    s.dropWhile isPadding = s := by
  cases s with
  | nil => rfl
  | cons c s => exact List.dropWhile_cons_of_neg (by simp [h c List.mem_cons_self])

/-- `trimPadding` leaves a text without padding of what stands around it. -/
theorem trimPadding_append_append {p s q : Text} (hp : ∀ c ∈ p, isPadding c = true)
    (hs : ∀ c ∈ s, isPadding c = false) (hq : ∀ c ∈ q, isPadding c = true) :
    trimPadding (p ++ (s ++ q)) = s := by
  rw [trimPadding, List.dropWhile_append_of_pos hp]
  -- dropping from the front stops where the middle begins, if there is a middle
  cases s with
  | nil =>
    have hnil : q.dropWhile isPadding = [] := by
      have hall : (q ++ []).dropWhile isPadding = List.dropWhile isPadding [] :=
        List.dropWhile_append_of_pos hq
      rwa [List.append_nil] at hall
    rw [List.nil_append, hnil]
    rfl
  | cons c s =>
    have hc : ¬isPadding c = true := by simp [hs c List.mem_cons_self]
    have hq' : ∀ d ∈ q.reverse, isPadding d = true := fun d hd => hq d (List.mem_reverse.1 hd)
    have hs' : ∀ d ∈ (c :: s).reverse, isPadding d = false :=
      fun d hd => hs d (List.mem_reverse.1 hd)
    rw [List.cons_append, List.dropWhile_cons_of_neg hc, ← List.cons_append, List.reverse_append,
      List.dropWhile_append_of_pos hq', dropWhile_isPadding_eq_self hs', List.reverse_reverse]

/-- `readNumber` fails on what looks like a number exactly when it holds an information separator.
-/
theorem readNumber_eq_error_iff {s : Text} (hs : isNumber s = true) :
    (∃ fault, readNumber s = .error fault) ↔ ∃ c ∈ s, isSeparator c = true := by
  constructor
  · rintro ⟨fault, hfault⟩
    apply Decidable.byContradiction
    intro hnone
    obtain ⟨x, hx⟩ := Option.isSome_iff_exists.1 hs
    obtain ⟨p, q, hsplit, hp, hq⟩ := Text.exists_trim_append s
    -- without separators the blanks around the number are padding
    have hpadding (c : CodePoint) (hc : c ∈ s) (hblank : Text.isBlank c = true) :
        isPadding c = true := by
      have hsep : ¬isSeparator c = true := fun h => hnone ⟨c, hc, h⟩
      simp only [isSeparator] at hsep
      simp [isPadding, hblank, hsep]
    have htrim : trimPadding s = Text.trim s := by
      have := trimPadding_append_append (p := p) (s := Text.trim s) (q := q)
        (fun c hc => hpadding c (by rw [hsplit]; simp [hc]) (hp c hc))
        (fun c hc => by simp [isPadding, isBlank_of_numberOfText? hx hc])
        (fun c hc => hpadding c (by rw [hsplit]; simp [hc]) (hq c hc))
      rwa [← hsplit] at this
    rw [readNumber, htrim, hx] at hfault
    cases hfault
  · rintro ⟨c, hc, hsep⟩
    have hpadding : isPadding c = false := by
      simp only [isSeparator] at hsep
      simp [isPadding, hsep]
    -- a separator is white space, so no number holds it, but it is no padding
    have hblank : Text.isBlank c = true := by
      simp only [isSeparator, Bool.and_eq_true, decide_eq_true_eq] at hsep
      simp [Text.isBlank]
      omega
    cases hread : readNumber s with
    | error fault => exact ⟨fault, rfl⟩
    | ok x =>
      -- the separator is not trimmed, and no number holds it
      unfold readNumber at hread
      split at hread
      · rename_i y hy
        obtain ⟨p, q, hsplit, hp, hq⟩ := exists_padding_append s
        rw [hsplit, List.mem_append, List.mem_append] at hc
        rcases hc with hc | hc | hc
        · exact absurd (hp c hc) (by simp [hpadding])
        · exact absurd hblank (by simp [isBlank_of_numberOfText? hy hc])
        · exact absurd (hq c hc) (by simp [hpadding])
      · cases hread

end MeshLens
