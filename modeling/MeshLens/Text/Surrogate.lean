import MeshLens.Text.CodePoint

/-!
# Halves of surrogate pairs

Two halves that are read one after the other make up a character. A text in which a half stands
alone cannot be written out. Main statement: a text is without halves exactly when no run of them is
found in it.
-/

namespace MeshLens.Text

/-- The character that two halves make up. -/
def joined? : CodePoint → CodePoint → Option CodePoint
  | .half high, .half low =>
    if high.val < 0x400 ∧ 0x400 ≤ low.val then
      some (CodePoint.ofNat (0x10000 + high.val * 0x400 + (low.val - 0x400)))
    else none
  | _, _ => none

/-- Joins the pairs of halves in a text. A half that stands alone is kept as such. -/
def joinPairs : Text → Text
  | [] => []
  | [c] => [c]
  | c :: d :: s =>
    match joined? c d with
    | some pair => pair :: joinPairs s
    | none => c :: joinPairs (d :: s)

/-- Whether a text holds a half, so that it cannot be written out. -/
def hasHalf (s : Text) : Bool :=
  s.any (·.isHalf)

/-- The first halves in a text. -/
structure HalfRun where
  /-- How many characters are in front of them. -/
  start : Nat
  /-- The first half. -/
  half : CodePoint
  /-- How many halves follow it at once. -/
  more : Nat
  deriving DecidableEq, Repr

/-- The first halves in a text from one on that is refused, given how many characters are in front
of it. -/
def halfRunFrom? (refused : CodePoint → Bool) (start : Nat) : Text → Option HalfRun
  | [] => none
  | c :: s =>
    if refused c then some { start, half := c, more := (s.takeWhile (·.isHalf)).length }
    else halfRunFrom? refused (start + 1) s

/-- The first halves in a text. -/
def halfRun? (s : Text) : Option HalfRun :=
  halfRunFrom? (·.isHalf) 0 s

theorem halfRunFrom?_isSome (refused : CodePoint → Bool) (start : Nat) (s : Text) :
    (halfRunFrom? refused start s).isSome = s.any refused := by
  induction s generalizing start with
  | nil => rfl
  | cons c s ih => by_cases h : refused c <;> simp [halfRunFrom?, h, ih (start + 1)]

/-- Halves are found exactly where there are some. -/
theorem halfRun?_isSome (s : Text) : (halfRun? s).isSome = hasHalf s :=
  halfRunFrom?_isSome _ 0 s

end MeshLens.Text
