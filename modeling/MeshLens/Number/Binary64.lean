/-!
# Double precision numbers

Every finite double precision number is a whole number of units of 2^-1074, so a number is kept as
its sign and its count of units, and comparing two numbers is comparing two integers. Numbers are
built by rounding an exact fraction to the nearest representable count, a half going to the even
significand. What is not a number stands in no order, and is not even the same as itself.
-/

namespace MeshLens

/-- A double precision number: a signed count of units of 2^-1074, an infinity, or the value that
is not a number. -/
inductive Binary64
  | finite (negative : Bool) (units : Nat)
  | infinite (negative : Bool)
  | notANumber
  deriving DecidableEq, Repr

namespace Binary64

/-- How many units make one. -/
@[irreducible] def one : Nat := Nat.pow 2 1074

/-- The count of units from which on a magnitude is infinite. -/
@[irreducible] def limit : Nat := Nat.pow 2 2098

/-- The whole number nearest to a fraction, a half going to the even one. -/
def roundHalfEven (num den : Nat) : Nat :=
  let q := num / den
  let r := num % den
  if 2 * r < den then q
  else if den < 2 * r then q + 1
  else q + q % 2

/-- How many low bits of a count of units are beyond the 53 of a significand. -/
def excessBits (units : Nat) : Nat :=
  units.log2 + 1 - 53

/-- The representable count of units nearest to a fraction. -/
def roundUnits (num den : Nat) : Nat :=
  let step := Nat.pow 2 (excessBits (num / den))
  roundHalfEven num (den * step) * step

/-- The number of the given sign nearest to a count of units given as a fraction. -/
def ofUnits (negative : Bool) (num den : Nat) : Binary64 :=
  let units := roundUnits num den
  if units < limit then finite negative units else infinite negative

/-- The number of the given sign nearest to `digits * 10 ^ exponent`. Magnitudes of more than 310
digits are infinite, and those below 10^-330 are zero, without raising ten to the exponent. -/
def ofDecimal (negative : Bool) (digits : Nat) (exponent : Int) : Binary64 :=
  if digits = 0 then finite negative 0
  else
    let size := (Nat.toDigits 10 digits).length + exponent
    if 310 < size then infinite negative
    else if size < -330 then finite negative 0
    else if 0 ≤ exponent then ofUnits negative (one * (digits * Nat.pow 10 exponent.toNat)) 1
    else ofUnits negative (one * digits) (Nat.pow 10 (-exponent).toNat)

/-- The number nearest to an integer, unless the integer is beyond the finite range. -/
def ofInt? (n : Int) : Option Binary64 :=
  match ofUnits (n < 0) (one * n.natAbs) 1 with
  | infinite _ => none
  | x => some x

/-- The place of a number in the order: its signed count of units, the infinities at the ends. -/
def rank? : Binary64 → Option Int
  | finite false units => some units
  | finite true units => some (-units)
  | infinite false => some limit
  | infinite true => some (-limit)
  | notANumber => none

/-- Whether two numbers are the same number; both zeros are. -/
def same (x y : Binary64) : Bool :=
  match x.rank?, y.rank? with
  | some m, some n => m == n
  | _, _ => false

/-- Whether a number is below another. -/
def below (x y : Binary64) : Bool :=
  match x.rank?, y.rank? with
  | some m, some n => m < n
  | _, _ => false

/-- Whether a number is zero. -/
def isZero (x : Binary64) : Bool :=
  x.rank? == some 0

end Binary64

end MeshLens
