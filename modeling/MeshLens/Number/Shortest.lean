import MeshLens.Number.Binary64
import MeshLens.Text.CodePoint

/-!
# The shortest decimal text of a number

A number is written with the fewest decimal digits that read back as it and, among those, with the
digits nearest to it. For 1, 2, … 17 digits the two neighbours of the number on that decimal grid
are tested against the interval of reals that round to it.
-/

namespace MeshLens.Binary64

/-- The decimal exponent of the first digit of a positive count of units. The count is scaled by
10^400, which makes even the smallest one a whole number of many digits. -/
def decimalExponent (units : Nat) : Int :=
  ((Nat.toDigits 10 (units * Nat.pow 10 400 / one)).length : Int) - 401

/-- The interval of quarter units that round to a positive count of units, and whether its ends do:
half a step up, and half a step down or a quarter where the step below is half as wide. -/
def roundingInterval (units : Nat) : Nat × Nat × Bool :=
  let excess := excessBits units
  let step := Nat.pow 2 excess
  let down := if excess ≠ 0 ∧ units = Nat.pow 2 units.log2 then step else 2 * step
  (4 * units - down, 4 * units + 2 * step, units / step % 2 == 0)

/-- Tests the two neighbours of a positive count of units among the multiples of `10 ^ scale`, and
gives the nearer one that reads back, with `scale`. -/
def neighbourAt? (units : Nat) (scale : Int) : Option (Nat × Int) :=
  let up := Nat.pow 10 scale.toNat
  let down := Nat.pow 10 (-scale).toNat
  let (lo, hi, closed) := roundingInterval units
  let place (n : Nat) : Nat := 4 * n * one * up
  let inside (n : Nat) : Bool :=
    if closed then lo * down ≤ place n && place n ≤ hi * down
    else lo * down < place n && place n < hi * down
  let target := 4 * units * down
  let below := units * down / (one * up)
  let above := below + 1
  match inside below, inside above with
  | true, true =>
    let gapBelow := target - place below
    let gapAbove := place above - target
    if gapBelow < gapAbove || (gapBelow == gapAbove && below % 2 == 0) then some (below, scale)
    else some (above, scale)
  | true, false => some (below, scale)
  | false, true => some (above, scale)
  | false, false => none

/-- The shortest digits of a positive count of units, as a number and a power of ten. -/
def shortestDigits (units : Nat) : Nat × Int :=
  let first := decimalExponent units
  let candidates := (List.range 17).filterMap fun (k : Nat) => neighbourAt? units (first - k)
  candidates.headD (0, 0)

/-- Digits without trailing zeros, and the decimal exponent of the first digit. -/
def significantDigits (digits : Nat) (scale : Int) : Text × Int :=
  let all := Text.digits 10 digits
  let kept := (all.reverse.dropWhile (· == .char '0')).reverse
  (kept, scale + all.length - 1)

/-- An exponent: its sign and at least two digits. -/
def exponentText (e : Int) : Text :=
  let digits := Text.digits 10 e.natAbs
  (if e < 0 then '-' else '+') :: if digits.length < 2 then '0' :: digits else digits

/-- So many zeros. -/
def zeros (count : Nat) : Text :=
  List.replicate count '0'

/-- Digits written positionally when the first one stands at 10^-4 to 10^15, with at least one
digit on each side of the point, and otherwise as a power of ten. -/
def layOut (digits : Text) (first : Int) : Text :=
  if first < -4 ∨ 16 ≤ first then
    match digits with
    | [] => []
    | [d] => d :: 'e' :: exponentText first
    | d :: ds => [d] ++ "." ++ ds ++ "e" ++ exponentText first
  else if first < 0 then
    "0." ++ zeros (-first - 1).toNat ++ digits
  else
    let wholeCount := first.toNat + 1
    let whole := digits.take wholeCount ++ zeros (wholeCount - digits.length)
    let rest := digits.drop wholeCount
    whole ++ "." ++ if rest = [] then zeros 1 else rest

/-- The text of a number. -/
def text : Binary64 → Text
  | infinite false => "inf"
  | infinite true => "-inf"
  | notANumber => "nan"
  | finite negative units =>
    let body :=
      if units = 0 then Text.ofString "0.0"
      else
        let (digits, scale) := shortestDigits units
        let (kept, first) := significantDigits digits scale
        layOut kept first
    if negative then '-' :: body else body

end MeshLens.Binary64
