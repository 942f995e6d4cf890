import MeshLens.Number.Binary64
import MeshLens.Text.Basic
import MeshLens.Text.Quoted

/-!
# Number literals

A number literal is an optional sign, digits with at most one point among or around them, and an
optional exponent. Digits of every script count. White space may stand around a literal, but when
the number is read the information separators U+001C to U+001F are no white space: a text can look
like a number and still be unreadable.
-/

namespace MeshLens

/-- A number literal, taken apart. -/
structure NumberLiteral where
  negative : Bool
  /-- All digits before the exponent, read as one number. -/
  digits : Nat
  /-- How many of the digits stand after the point. -/
  places : Nat
  exponent : Int
  deriving DecidableEq, Repr

namespace NumberLiteral

/-- Reads digits, continuing a number and counting them; the rest begins with no digit. -/
def readDigits (value count : Nat) : Text → Nat × Nat × Text
  | [] => (value, count, [])
  | c :: rest =>
    match Text.digitValue? c with
    | some d => readDigits (value * 10 + d) (count + 1) rest
    | none => (value, count, c :: rest)

/-- Reads an optional sign; true for minus. -/
def readSign : Text → Bool × Text
  | '-' :: rest => (true, rest)
  | '+' :: rest => (false, rest)
  | rest => (false, rest)

/-- Reads the end of a literal: nothing, or an exponent. -/
def readExponent : Text → Option Int
  | [] => some 0
  | c :: rest =>
    if c = 'e' ∨ c = 'E' then
      let (negative, rest) := readSign rest
      match readDigits 0 0 rest with
      | (value, count, []) =>
        if count = 0 then none else some (if negative then -value else value)
      | _ => none
    else none

/-- Reads a whole text as a literal. -/
def parse? (s : Text) : Option NumberLiteral :=
  let (negative, s) := readSign s
  let (whole, wholeCount, s) := readDigits 0 0 s
  match s with
  | '.' :: s =>
    let (digits, places, s) := readDigits whole 0 s
    if wholeCount = 0 ∧ places = 0 then none
    else (readExponent s).map fun exponent => { negative, digits, places, exponent }
  | s =>
    if wholeCount = 0 then none
    else (readExponent s).map fun exponent => { negative, digits := whole, places := 0, exponent }

/-- The number nearest to a literal. -/
def value (l : NumberLiteral) : Binary64 :=
  Binary64.ofDecimal l.negative l.digits (l.exponent - l.places)

end NumberLiteral

/-- The number that a whole text spells, with no space around it. -/
def numberOfText? (s : Text) : Option Binary64 :=
  (NumberLiteral.parse? s).map NumberLiteral.value

/-- Whether a text is a number literal, apart from white space around it. -/
def isNumber (s : Text) : Bool :=
  (numberOfText? (Text.trim s)).isSome

/-! ## Reading numbers -/

/-- What may stand around a number that is read: white space other than information separators. -/
def isPadding (c : CodePoint) : Bool :=
  Text.isBlank c && !(28 ≤ c.toNat && c.toNat ≤ 31)

/-- Drops padding from both ends. -/
def trimPadding (s : Text) : Text :=
  ((s.dropWhile isPadding).reverse.dropWhile isPadding).reverse

/-- A text that is read as a number and spells none. -/
structure UnreadableNumber where
  text : Text
  deriving DecidableEq, Repr

/-- The message of a fault. -/
def UnreadableNumber.message (fault : UnreadableNumber) : Text :=
  "could not convert string to float: " ++ Text.quoted fault.text

/-- Reads a text as a number. -/
def readNumber (s : Text) : Except UnreadableNumber Binary64 :=
  match numberOfText? (trimPadding s) with
  | some x => .ok x
  | none => .error ⟨s⟩

end MeshLens
