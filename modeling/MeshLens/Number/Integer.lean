import MeshLens.Number.Literal

/-!
# Whole numbers in text

A whole number is spelled by an optional sign and digits of any script, between two of which one
underscore may stand, with padding around it. There is a limit to the number of digits, zeros in
front included, and the same limit when a whole number is written: an `Integer` is one that keeps
to it, so that its text is always there.
-/

namespace MeshLens

/-- Reads groups of digits with one underscore between any two of them, continuing a number. No
group is empty. -/
def integerOfGroups? (value : Nat) : List Text → Option Nat
  | [] => some value
  | group :: groups =>
    match NumberLiteral.readDigits value 0 group with
    | (value, count, []) => if count = 0 then none else integerOfGroups? value groups
    | _ => none

/-- The most digits that a whole number may be spelled with. -/
def integerDigitLimit : Nat := 4300

/-- The whole number that a text spells. -/
def integerOfText? (s : Text) : Option Int :=
  let (negative, digits) := NumberLiteral.readSign (trimPadding s)
  let groups := Text.splitWhere (· == .char '_') digits
  if integerDigitLimit < groups.flatten.length then none
  else (integerOfGroups? 0 groups).map fun n => if negative then -n else n

/-! ## Writing -/

/-- Writes a whole number in digits. One with more digits than the limit cannot be written. -/
def writeInteger? (n : Int) : Option Text :=
  if (Nat.toDigits 10 n.natAbs).length ≤ integerDigitLimit then some (toString n) else none

/-- A whole number that can be written. -/
structure Integer where
  value : Int
  writable : (writeInteger? value).isSome

namespace Integer

/-- The text of a whole number. -/
def text (n : Integer) : Text :=
  (writeInteger? n.value).get n.writable

instance : Coe Integer Int := ⟨value⟩

instance : ToString Integer := ⟨fun n => toString n.value⟩

/-- The whole number of data for a number; one stands in for what cannot be written. -/
def ofInt (n : Int) : Integer :=
  if h : (writeInteger? n).isSome then ⟨n, h⟩ else ⟨1, rfl⟩

instance : NatCast Integer := ⟨fun n => ofInt n⟩

instance (n : Nat) : OfNat Integer n := ⟨ofInt n⟩

end Integer

end MeshLens
