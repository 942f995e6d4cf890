/-!
# Texts

A text is a list of code points. A code point is a character or half of a surrogate pair: the code
points U+D800 to U+DFFF are no characters, but an escape can spell one that stands alone. Main
statements: a code point and its number determine each other.
-/

namespace MeshLens

/-- A code point. -/
inductive CodePoint
  | char (c : Char)
  /-- Half of a surrogate pair, counted from U+D800. -/
  | half (n : Fin 0x800)
  deriving DecidableEq, Repr

namespace CodePoint

instance : Coe Char CodePoint := ⟨char⟩

/-- The number of a code point. -/
def toNat : CodePoint → Nat
  | char c => c.toNat
  | half n => 0xD800 + n

/-- The code point of a number; of one that is too large, the null character. -/
def ofNat (n : Nat) : CodePoint :=
  if h : 0xD800 ≤ n ∧ n < 0xE000 then half ⟨n - 0xD800, by omega⟩ else char (Char.ofNat n)

/-- Whether a code point is half of a surrogate pair. -/
def isHalf : CodePoint → Bool
  | char _ => false
  | half _ => true

instance : LT CodePoint := ⟨fun a b => a.toNat < b.toNat⟩

instance : LE CodePoint := ⟨fun a b => a.toNat ≤ b.toNat⟩

instance : DecidableLT CodePoint := fun a b => inferInstanceAs (Decidable (a.toNat < b.toNat))

instance : DecidableLE CodePoint := fun a b => inferInstanceAs (Decidable (a.toNat ≤ b.toNat))

theorem toNat_ofNat {n : Nat} (h : n < 0x110000) : (ofNat n).toNat = n := by
  unfold ofNat
  split
  · simp only [toNat]; omega
  · have valid : n.isValidChar := by simp only [Nat.isValidChar]; omega
    rw [toNat, Char.ofNat, dif_pos valid]
    rfl

theorem ofNat_toNat (c : CodePoint) : ofNat c.toNat = c := by
  cases c with
  | char c =>
    have valid : c.toNat.isValidChar := c.valid
    have : ¬(0xD800 ≤ c.toNat ∧ c.toNat < 0xE000) := by simp only [Nat.isValidChar] at valid; omega
    simp [ofNat, toNat, this]
  | half n =>
    have : 0xD800 ≤ 0xD800 + n.val ∧ 0xD800 + n.val < 0xE000 := by omega
    simp [ofNat, toNat, this]

end CodePoint

/-- A text. -/
abbrev Text := List CodePoint

namespace Text

instance : LawfulBEq Text := List.instLawfulBEq

/-- The text of characters. -/
def ofList (s : List Char) : Text :=
  s.map .char

/-- The text of a string. -/
def ofString (s : String) : Text :=
  ofList s.toList

/-- The digits of a number in a base up to sixteen. -/
def digits (base n : Nat) : Text :=
  ofList (Nat.toDigits base n)

/-- The characters of a text, without the halves of surrogate pairs. -/
def string (s : Text) : String :=
  String.ofList (s.filterMap fun
    | .char c => some c
    | .half _ => none)

end Text

instance : Coe String Text := ⟨Text.ofString⟩

end MeshLens
