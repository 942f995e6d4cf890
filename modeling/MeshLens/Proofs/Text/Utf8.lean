import Mathlib.Algebra.Group.Nat.Defs
import MeshLens.Text.Surrogate
import MeshLens.Text.Utf8

/-!
# Reading UTF-8 back

A character is written as one to four bytes. The first one says how many follow and, where they could
spell a smaller number or half of a surrogate pair, narrows the range of the second one. The bytes of a
character stay within that range, so that the character is read back whatever comes after them.

## Key results

- `utf8Bytes_lt`: what is written are bytes
- `decodeUtf8With_char`: one character is read back
- `decodeUtf8_flatMap_utf8Bytes`: a text without halves of surrogate pairs is read back
- `hasHalf_decodeUtf8`: no halves are ever read
-/

namespace MeshLens

namespace CodePoint

/-- `toNat` of a character that is no half of a surrogate pair lies in one of two ranges. -/
theorem toNat_of_not_isHalf {c : CodePoint} (h : c.isHalf = false) :
    c.toNat < 0xD800 ∨ 0xE000 ≤ c.toNat ∧ c.toNat < 0x110000 := by
  cases c with
  | char c =>
    have hvalid : c.toNat.isValidChar := c.valid
    simp only [Nat.isValidChar] at hvalid
    simp only [toNat]
    omega
  | half n => cases h

/-- `toNat` of a character lies below the first number that is none. -/
theorem toNat_lt (c : CodePoint) : c.toNat < 0x110000 := by
  cases hhalf : c.isHalf with
  | false =>
    have hrange := toNat_of_not_isHalf hhalf
    omega
  | true =>
    cases c with
    | char c => cases hhalf
    | half n =>
      simp only [toNat]
      omega

end CodePoint

namespace Text

/-- `utf8Bytes` are bytes. -/
theorem utf8Bytes_lt (c : CodePoint) : ∀ b ∈ utf8Bytes c, b < 256 := by
  have hlt := c.toNat_lt
  unfold utf8Bytes
  dsimp only
  -- one case for each number of bytes
  split
  · simp only [List.mem_singleton, forall_eq]
    omega
  · split
    · simp only [List.mem_cons, List.not_mem_nil, or_false, forall_eq_or_imp, forall_eq]
      omega
    · split
      · simp only [List.mem_cons, List.not_mem_nil, or_false, forall_eq_or_imp, forall_eq]
        omega
      · simp only [List.mem_cons, List.not_mem_nil, or_false, forall_eq_or_imp, forall_eq]
        omega

/-! ## One character -/

/-- `utf8Lead?` of the bytes that ask for one more. -/
theorem utf8Lead?_two : ∀ k < 30, utf8Lead? (0xC2 + k) = some (k + 2, 0x80, 0xBF, 1) := by
  decide

/-- `utf8Lead?` of the bytes that ask for two more. The second byte is restricted behind the first
and the fourteenth of them. -/
theorem utf8Lead?_three : ∀ k < 16, utf8Lead? (0xE0 + k) =
    some (k, if k = 0 then 0xA0 else 0x80, if k = 13 then 0x9F else 0xBF, 2) := by
  decide

/-- `utf8Lead?` of the bytes that ask for three more. The second byte is restricted behind the first
and the last of them. -/
theorem utf8Lead?_four : ∀ k < 5, utf8Lead? (0xF0 + k) =
    some (k, if k = 0 then 0x90 else 0x80, if k = 4 then 0x8F else 0xBF, 3) := by
  decide

/-- `utf8Follow` takes six bits from a following byte within its range. -/
theorem utf8Follow_cons {lo hi k : Nat} (hk : lo ≤ 0x80 + k ∧ 0x80 + k ≤ hi) (value n : Nat)
    (bytes : List Nat) :
    utf8Follow value lo hi (n + 1) ((0x80 + k) :: bytes) =
      utf8Follow (value * 64 + k) 0x80 0xBF n bytes := by
  rw [utf8Follow, if_pos hk, Nat.add_sub_cancel_left]

variable {spoiled : List Nat → Text}

/-- `decodeUtf8With` reads a byte of ASCII as its character. -/
theorem decodeUtf8With_ascii {b : Nat} (hb : b < 0x80) (bytes : List Nat) :
    decodeUtf8With spoiled (b :: bytes) = CodePoint.ofNat b :: decodeUtf8With spoiled bytes := by
  rw [decodeUtf8With, if_pos hb]

/-- `decodeUtf8With` reads a leading byte and the bytes that it asks for as one character. -/
theorem decodeUtf8With_lead {b bits lo hi n value : Nat} {bytes rest : List Nat} (hb : 0x80 ≤ b)
    (hlead : utf8Lead? b = some (bits, lo, hi, n))
    (hfollow : utf8Follow bits lo hi n bytes = (some value, rest)) :
    decodeUtf8With spoiled (b :: bytes) =
      CodePoint.ofNat value :: decodeUtf8With spoiled rest := by
  rw [decodeUtf8With, if_neg (by omega), hlead]
  simp only [hfollow, List.singleton_append]

/-- `decodeUtf8With` reads the bytes of a character as this character. -/
theorem decodeUtf8With_char {c : CodePoint} (hc : c.isHalf = false) (rest : List Nat) :
    decodeUtf8With spoiled (utf8Bytes c ++ rest) = c :: decodeUtf8With spoiled rest := by
  have hrange := CodePoint.toNat_of_not_isHalf hc
  have hback := CodePoint.ofNat_toNat c
  unfold utf8Bytes
  generalize c.toNat = n at hrange hback ⊢
  dsimp only
  -- one case for each number of bytes
  split
  · rename_i hone
    rw [List.singleton_append, decodeUtf8With_ascii hone, hback]
  · split
    · -- fewer than seven bits are written as one byte, so that two leading bytes are never used
      obtain ⟨k, hk⟩ : ∃ k, n / 64 = k + 2 := ⟨n / 64 - 2, by omega⟩
      have hlead := utf8Lead?_two k (by omega)
      have hvalue : (k + 2) * 64 + n % 64 = n := by omega
      have hfirst : 0xC0 + n / 64 = 0xC2 + k := by omega
      rw [List.cons_append, List.singleton_append, hfirst, decodeUtf8With_lead (by omega) hlead, hback]
      rw [utf8Follow_cons (by omega), utf8Follow, hvalue]
    · split
      · have hlead := utf8Lead?_three (n / 4096) (by omega)
        have hvalue : (n / 4096 * 64 + n / 64 % 64) * 64 + n % 64 = n := by omega
        rw [List.cons_append, List.cons_append, List.singleton_append,
          decodeUtf8With_lead (by omega) hlead, hback]
        -- the second byte stays clear of the smaller numbers and of the halves
        rw [utf8Follow_cons (by split <;> split <;> omega), utf8Follow_cons (by omega), utf8Follow, hvalue]
      · have hlead := utf8Lead?_four (n / 262144) (by omega)
        have hvalue : ((n / 262144 * 64 + n / 4096 % 64) * 64 + n / 64 % 64) * 64 + n % 64 = n := by
          omega
        rw [List.cons_append, List.cons_append, List.cons_append, List.singleton_append,
          decodeUtf8With_lead (by omega) hlead, hback]
        rw [utf8Follow_cons (by split <;> split <;> omega), utf8Follow_cons (by omega),
          utf8Follow_cons (by omega), utf8Follow, hvalue]

/-! ## Texts -/

/-- `decodeUtf8` reads a text without halves of surrogate pairs from its bytes. -/
theorem decodeUtf8_flatMap_utf8Bytes {s : Text} (hs : hasHalf s = false) :
    decodeUtf8 (s.flatMap utf8Bytes) = s := by
  induction s with
  | nil => rw [List.flatMap_nil, decodeUtf8, decodeUtf8With]
  | cons c s ih =>
    simp only [hasHalf, List.any_cons, Bool.or_eq_false_iff] at hs
    rw [List.flatMap_cons, decodeUtf8, decodeUtf8With_char hs.1]
    exact congrArg (c :: ·) (ih hs.2)

/-! ## No halves are read -/

/-- `hasHalf` of a text is seen in every text that holds its characters. -/
theorem hasHalf_of_subset {s t : Text} (h : s ⊆ t) (ht : hasHalf t = false) : hasHalf s = false := by
  simp only [hasHalf, List.any_eq_false] at ht ⊢
  exact fun c hc => ht c (h hc)

/-- `utf8Follow` makes up a number that is bounded by the range of the second byte. -/
theorem utf8Follow_bounds {x lo hi n v : Nat} {bytes : List Nat}
    (h : (utf8Follow x lo hi (n + 1) bytes).1 = some v) :
    (x * 64 + (lo - 0x80)) * 64 ^ n ≤ v ∧ v < (x * 64 + (hi - 0x80) + 1) * 64 ^ n := by
  -- induction on the number of bytes behind the second one
  induction n generalizing x lo hi bytes with
  | zero =>
    cases bytes with
    | nil => cases h
    | cons b bytes =>
      rw [utf8Follow] at h
      split at h
      · have hv : x * 64 + (b - 0x80) = v := Option.some.inj h
        omega
      · cases h
  | succ n ih =>
    cases bytes with
    | nil => cases h
    | cons b bytes =>
      rw [utf8Follow] at h
      split at h
      · -- the bytes after the second one are not restricted
        obtain ⟨hlow, hhigh⟩ := ih h
        have hpow (k : Nat) : k * 64 ^ (n + 1) = k * 64 * 64 ^ n := by
          rw [Nat.pow_succ', Nat.mul_assoc]
        rw [hpow, hpow]
        refine ⟨Nat.le_trans (Nat.mul_le_mul_right _ ?_) hlow,
          Nat.lt_of_lt_of_le hhigh (Nat.mul_le_mul_right _ ?_)⟩
        · omega
        · omega
      · cases h

/-- `utf8Lead?` by the number of bytes that follow. The second byte is restricted where the number
would be too small for so many bytes, or that of a half. -/
theorem utf8Lead?_cases {b bits lo hi n : Nat} (h : utf8Lead? b = some (bits, lo, hi, n)) :
    n = 1 ∧ bits < 32 ∧ hi = 0xBF ∨ n = 2 ∧ bits < 16 ∧ hi ≤ 0xBF ∧ (bits = 13 → hi = 0x9F) ∨
      n = 3 ∧ (bits = 0 → lo = 0x90) := by
  unfold utf8Lead? at h
  repeat'
    split at h
  all_goals
    simp only [Option.some.injEq, Prod.mk.injEq, reduceCtorEq] at h
  all_goals omega

/-- `utf8Follow` behind a leading byte makes up no number of a half. -/
theorem not_half_of_utf8Lead? {b bits lo hi n v : Nat} {bytes : List Nat}
    (hlead : utf8Lead? b = some (bits, lo, hi, n))
    (hfollow : (utf8Follow bits lo hi n bytes).1 = some v) : ¬(0xD800 ≤ v ∧ v < 0xE000) := by
  rcases utf8Lead?_cases hlead with ⟨rfl, hbits, rfl⟩ | ⟨rfl, hbits, hle, hhi⟩ | ⟨rfl, hlo⟩
  · have hbounds := utf8Follow_bounds hfollow
    omega
  · have hbounds := utf8Follow_bounds hfollow
    omega
  · have hbounds := utf8Follow_bounds hfollow
    omega

/-- `CodePoint.ofNat` of a number outside their range is no half. -/
theorem isHalf_ofNat {n : Nat} (h : ¬(0xD800 ≤ n ∧ n < 0xE000)) :
    (CodePoint.ofNat n).isHalf = false := by
  rw [CodePoint.ofNat, dif_neg h]
  rfl

/-- `decodeUtf8` reads no halves of surrogate pairs, whatever the bytes are. -/
theorem hasHalf_decodeUtf8 (bytes : List Nat) : hasHalf (decodeUtf8 bytes) = false := by
  unfold decodeUtf8
  fun_induction decodeUtf8With (fun _ => ['\ufffd']) bytes with
  | case1 => rfl
  | case2 b bytes hb ih =>
    rw [hasHalf, List.any_cons, isHalf_ofNat (by omega)]
    exact ih
  | case3 b bytes hb hlead ih => exact ih
  -- the bytes make up a character, which is no half, or are replaced
  | case4 b bytes hb bits lo hi n hlead hlength rest front ih =>
    have hfront : hasHalf front = false := by
      simp only [front]
      split
      · rename_i value hfollow
        rw [hasHalf, List.any_cons, isHalf_ofNat (not_half_of_utf8Lead? hlead hfollow)]
        rfl
      · rfl
    rw [hasHalf] at hfront ih ⊢
    rw [List.any_append, hfront, ih]
    rfl

end Text

end MeshLens
