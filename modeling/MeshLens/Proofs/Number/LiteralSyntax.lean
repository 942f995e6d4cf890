import MeshLens.Proofs.Number.LiteralChars

/-!
# The syntax of number literals

How a number literal is written: a sign or none, digits of any script with at most one point among
or around them, and an exponent or none. A text reads as a literal just when it is written so, and
the literal that it reads as is the one that is spelled.

## Key results

- `NumberLiteral.Spelling`: the ways of writing a literal
- `NumberLiteral.parse?_eq_some_iff`: reading accepts just these, and gives the literal spelled
-/

namespace MeshLens

namespace NumberLiteral

/-! ## Parts of a literal -/

/-- Whether a text holds nothing but digits, of any script. -/
def AreDigits (s : Text) : Prop :=
  ∀ c ∈ s, (Text.digitValue? c).isSome = true

/-- The number that digits stand for, read from left to right behind those of a number. -/
def digitsValue (value : Nat) (s : Text) : Nat :=
  s.foldl (fun n c => n * 10 + (Text.digitValue? c).getD 0) value

/-- The ways of writing a sign; true for minus. -/
inductive SignSpelling : Bool → Text → Prop
  | none : SignSpelling false []
  | plus : SignSpelling false ['+']
  | minus : SignSpelling true ['-']

/-- The ways of writing an exponent. -/
inductive ExponentSpelling : Int → Text → Prop
  | none : ExponentSpelling 0 []
  | digits {letter : CodePoint} {negative : Bool} {sign digits : Text}
    (hletter : letter = 'e' ∨ letter = 'E') (hsign : SignSpelling negative sign)
    (hdigits : AreDigits digits) (hne : digits ≠ []) :
    ExponentSpelling (if negative then -(digitsValue 0 digits : Nat) else digitsValue 0 digits)
      (letter :: (sign ++ digits))

/-- The ways of writing a literal. -/
inductive Spelling : NumberLiteral → Text → Prop
  /-- Digits without a point, as in `12` or `-3e8`. -/
  | whole {negative : Bool} {sign digits tail : Text} {exponent : Int}
    (hsign : SignSpelling negative sign) (hdigits : AreDigits digits) (hne : digits ≠ [])
    (htail : ExponentSpelling exponent tail) :
    Spelling ⟨negative, digitsValue 0 digits, 0, exponent⟩ (sign ++ (digits ++ tail))
  /-- Digits around a point, as in `1.5`, `2.` or `+.5e-3`. -/
  | pointed {negative : Bool} {sign digits places tail : Text} {exponent : Int}
    (hsign : SignSpelling negative sign) (hdigits : AreDigits digits) (hplaces : AreDigits places)
    (hne : digits ≠ [] ∨ places ≠ []) (htail : ExponentSpelling exponent tail) :
    Spelling ⟨negative, digitsValue 0 (digits ++ places), places.length, exponent⟩
      (sign ++ (digits ++ .char '.' :: (places ++ tail)))

/-! ## Reading digits -/

/-- `readDigits` reads digits up to what is no digit. -/
theorem readDigits_append {s : Text} (hs : AreDigits s) {rest : Text}
    (hrest : ∀ c, rest.head? = some c → Text.digitValue? c = none) (value count : Nat) :
    readDigits value count (s ++ rest) = (digitsValue value s, count + s.length, rest) := by
  induction s generalizing value count with
  | nil =>
    cases rest with
    | nil => rfl
    | cons c rest => simp [readDigits, hrest c rfl, digitsValue]
  | cons c s ih =>
    obtain ⟨d, hd⟩ := Option.isSome_iff_exists.1 (hs c List.mem_cons_self)
    have hs' : AreDigits s := fun e he => hs e (List.mem_cons_of_mem _ he)
    simp only [List.cons_append, readDigits, hd, ih hs', digitsValue, List.foldl_cons,
      Option.getD_some, List.length_cons]
    rw [Nat.add_assoc, Nat.add_comm 1]

/-- `readDigits` cuts every text into digits and a rest. -/
theorem readDigits_eq (s : Text) (value count : Nat) :
    ∃ digits rest, s = digits ++ rest ∧ AreDigits digits ∧
      readDigits value count s = (digitsValue value digits, count + digits.length, rest) := by
  have hsplit := List.takeWhile_append_dropWhile (p := fun c => (Text.digitValue? c).isSome) (l := s)
  have hdigits : AreDigits (s.takeWhile fun c => (Text.digitValue? c).isSome) :=
    fun c hc => List.all_eq_true.1 List.all_takeWhile c hc
  have hrest : ∀ c, (s.dropWhile fun c => (Text.digitValue? c).isSome).head? = some c →
      Text.digitValue? c = none := by
    intro c hc
    have hstop := List.head?_dropWhile_not (fun c => (Text.digitValue? c).isSome) s
    rw [hc] at hstop
    simpa using hstop
  have hread := readDigits_append hdigits hrest value count
  rw [hsplit] at hread
  exact ⟨_, _, hsplit.symm, hdigits, hread⟩

/-- `digitsValue` can be taken of two rows of digits one after the other. -/
theorem digitsValue_append (value : Nat) (s t : Text) :
    digitsValue value (s ++ t) = digitsValue (digitsValue value s) t :=
  List.foldl_append

/-- `AreDigits` texts begin with no other character of a literal. -/
theorem AreDigits.head_ne {s rest : Text} (hs : AreDigits s) (hne : s ≠ []) {c : CodePoint}
    (hc : (s ++ rest).head? = some c) : c ≠ '+' ∧ c ≠ '-' ∧ c ≠ '.' := by
  obtain ⟨d, t, rfl⟩ := List.exists_cons_of_ne_nil hne
  obtain rfl : d = c := Option.some.inj hc
  have hd := hs d List.mem_cons_self
  refine ⟨?_, ?_, ?_⟩ <;> (rintro rfl; exact absurd hd (by decide))

/-! ## Reading signs and exponents -/

/-- `readSign` reads a sign in front of what is no sign. -/
theorem readSign_append {negative : Bool} {sign rest : Text} (hsign : SignSpelling negative sign)
    (hrest : ∀ c, rest.head? = some c → c ≠ '+' ∧ c ≠ '-') :
    readSign (sign ++ rest) = (negative, rest) := by
  cases hsign with
  | plus => rfl
  | minus => rfl
  | none =>
    rw [List.nil_append]
    unfold readSign
    split
    · exact absurd rfl (hrest _ rfl).2
    · exact absurd rfl (hrest _ rfl).1
    · rfl

/-- `readSign` cuts every text into a sign and a rest. -/
theorem readSign_eq (s : Text) :
    ∃ sign, SignSpelling (readSign s).1 sign ∧ s = sign ++ (readSign s).2 := by
  unfold readSign
  split
  · exact ⟨_, .minus, rfl⟩
  · exact ⟨_, .plus, rfl⟩
  · exact ⟨_, .none, rfl⟩

/-- `readExponent` accepts exactly the spellings of an exponent. -/
theorem readExponent_eq_some_iff {s : Text} {e : Int} :
    readExponent s = some e ↔ ExponentSpelling e s := by
  constructor
  · intro h
    unfold readExponent at h
    split at h
    · cases h
      exact .none
    · rename_i letter s
      split at h
      · rename_i hletter
        obtain ⟨sign, hsign, hs⟩ := readSign_eq s
        obtain ⟨digits, rest, hrest, hdigits, hread⟩ := readDigits_eq (readSign s).2 0 0
        simp only [hread, Nat.zero_add] at h
        -- nothing may stand behind the digits, and there is one at least
        cases rest with
        | cons c rest => cases h
        | nil =>
          simp only at h
          split at h
          · cases h
          · rename_i hcount
            have hne : digits ≠ [] := fun hnil => hcount (by rw [hnil]; rfl)
            cases h
            have hspelling := ExponentSpelling.digits hletter hsign hdigits hne
            rw [hrest, List.append_nil] at hs
            rwa [← hs] at hspelling
      · cases h
  · intro h
    cases h with
    | none => rfl
    | @digits letter negative sign digits hletter hsign hdigits hne =>
      have hstart : ∀ c, digits.head? = some c → c ≠ '+' ∧ c ≠ '-' := by
        intro c hc
        have hhead := hdigits.head_ne hne (List.append_nil digits ▸ hc)
        exact ⟨hhead.1, hhead.2.1⟩
      have hread : readDigits 0 0 digits = (digitsValue 0 digits, digits.length, []) := by
        have hend : ∀ c, ([] : Text).head? = some c → Text.digitValue? c = Option.none := by
          intro c hc
          cases hc
        have hall := readDigits_append hdigits hend 0 0
        rwa [List.append_nil, Nat.zero_add] at hall
      have hcount : ¬digits.length = 0 := fun h => hne (List.length_eq_zero_iff.1 h)
      simp only [readExponent, if_pos hletter, readSign_append hsign hstart, hread, if_neg hcount]

/-- `ExponentSpelling` texts begin with the letter of the exponent. -/
theorem ExponentSpelling.head {e : Int} {s : Text} (h : ExponentSpelling e s) {c : CodePoint}
    (hc : s.head? = some c) : Text.digitValue? c = Option.none ∧ c ≠ '.' := by
  cases h with
  | none => cases hc
  | digits hletter =>
    cases hc
    rcases hletter with rfl | rfl
    · decide
    · decide

/-! ## Reading a literal -/

/-- `parse?` accepts exactly the spellings of a literal. -/
theorem parse?_eq_some_iff {s : Text} {l : NumberLiteral} :
    parse? s = some l ↔ l.Spelling s := by
  constructor
  · intro h
    obtain ⟨sign, hsign, hs⟩ := readSign_eq s
    obtain ⟨digits, rest, hrest, hdigits, hread⟩ := readDigits_eq (readSign s).2 0 0
    simp only [parse?, hread, Nat.zero_add] at h
    rw [hs, hrest]
    split at h
    · -- behind the point there may be more digits
      rename_i tail
      obtain ⟨places, rest, htail, hplaces, hread⟩ := readDigits_eq tail (digitsValue 0 digits) 0
      simp only [hread, Nat.zero_add] at h
      split at h
      · cases h
      · rename_i hcount
        obtain ⟨e, he, rfl⟩ := Option.map_eq_some_iff.1 h
        have hne : digits ≠ [] ∨ places ≠ [] := by
          rw [← Classical.not_and_iff_not_or_not]
          rintro ⟨rfl, rfl⟩
          exact hcount ⟨rfl, rfl⟩
        rw [← digitsValue_append, htail]
        exact .pointed hsign hdigits hplaces hne (readExponent_eq_some_iff.1 he)
    · split at h
      · cases h
      · rename_i hcount
        obtain ⟨e, he, rfl⟩ := Option.map_eq_some_iff.1 h
        have hne : digits ≠ [] := fun hnil => hcount (by rw [hnil]; rfl)
        exact .whole hsign hdigits hne (readExponent_eq_some_iff.1 he)
  · intro h
    cases h with
    -- each part is read up to the first character of the next
    | @whole negative sign digits tail exponent hsign hdigits hne htail =>
      have hstart : ∀ c, (digits ++ tail).head? = some c → c ≠ '+' ∧ c ≠ '-' :=
        fun c hc => ⟨(hdigits.head_ne hne hc).1, (hdigits.head_ne hne hc).2.1⟩
      have hread := readDigits_append hdigits (fun c hc => (htail.head hc).1) 0 0
      have hcount : ¬digits.length = 0 := fun h => hne (List.length_eq_zero_iff.1 h)
      simp only [parse?, readSign_append hsign hstart, hread, Nat.zero_add]
      split
      · exact absurd rfl (htail.head rfl).2
      · rw [if_neg hcount, readExponent_eq_some_iff.2 htail]
        rfl
    | @pointed negative sign digits places tail exponent hsign hdigits hplaces hne htail =>
      have hstart : ∀ c, (digits ++ .char '.' :: (places ++ tail)).head? = some c →
          c ≠ '+' ∧ c ≠ '-' := by
        intro c hc
        -- the literal begins with a digit, or else with its point
        by_cases hnil : digits = []
        · rw [hnil] at hc
          cases hc
          decide
        · exact ⟨(hdigits.head_ne hnil hc).1, (hdigits.head_ne hnil hc).2.1⟩
      have hpoint : ∀ c, (CodePoint.char '.' :: (places ++ tail)).head? = some c →
          Text.digitValue? c = none := by
        intro c hc
        cases hc
        decide
      have hread := readDigits_append hdigits hpoint 0 0
      have hreadPlaces :=
        readDigits_append hplaces (fun c hc => (htail.head hc).1) (digitsValue 0 digits) 0
      have hcount : ¬(digits.length = 0 ∧ places.length = 0) := by
        rintro ⟨hdigits, hplaces⟩
        rcases hne with hne | hne
        · exact hne (List.length_eq_zero_iff.1 hdigits)
        · exact hne (List.length_eq_zero_iff.1 hplaces)
      simp only [parse?, readSign_append hsign hstart, hread, hreadPlaces, Nat.zero_add,
        if_neg hcount, readExponent_eq_some_iff.2 htail, digitsValue_append]
      rfl

end NumberLiteral

/-- `numberOfText?` accepts exactly the spellings of a literal, and gives its number. -/
theorem numberOfText?_eq_some_iff {s : Text} {x : Binary64} :
    numberOfText? s = some x ↔ ∃ l : NumberLiteral, l.Spelling s ∧ l.value = x := by
  simp only [numberOfText?, Option.map_eq_some_iff, NumberLiteral.parse?_eq_some_iff]

end MeshLens
