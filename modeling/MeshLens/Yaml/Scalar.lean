import MeshLens.Number.Integer
import MeshLens.Value.Json
import MeshLens.Yaml.Error
import MeshLens.Yaml.Moment
import MeshLens.Yaml.Tag

/-!
# Scalars

The value of a scalar, given its tag and its text. Of what configurations have no use for nothing
but a number is kept: of a moment the year, and of bytes the count. Of a number only whether it is
zero matters, so one that is too long to be written may be kept as another.
-/

namespace MeshLens.Yaml

/-- A text without the end of a line behind it. -/
def dropLineEnd (s : Text) : Text :=
  if 2 ≤ s.length ∧ s.getLast? = some '\n' then s.dropLast else s

/-- The tag of a text that is written without quotes and without a tag. -/
def tagOfPlain (s : Text) : Tag :=
  let s := dropLineEnd s
  let word := s
  if nullWords.contains word then .null
  else if truthWords.contains word then .bool
  else if isPointNumber s then .float
  else if isWholeNumber s then .int
  else if Moment.isSpelled s then .moment
  else if word = "<<" then .merge
  else if word = "=" then .default
  else .text

/-! ## Truth values -/

/-- The truth value of a word in any case. -/
def truthOf (s : Text) : Except YamlError Bool :=
  let word := (s.map Text.smallLetter)
  if (["yes", "true", "on"] : List Text).contains word then .ok true
  else if (["no", "false", "off"] : List Text).contains word then .ok false
  else .error .truthWord

/-! ## Whole numbers -/

/-- The letter that marks the digits of a base. -/
def baseMark? : Nat → Option CodePoint
  | 2 => some 'b'
  | 8 => some 'o'
  | 16 => some 'x'
  | _ => none

/-- The value of a digit of any script, or of a letter as a digit. -/
def digitOf? (c : CodePoint) : Option Nat :=
  (Text.digitValue? c).or (Json.hexValue? c)

/-- Reads a whole number in a base, with a sign and with the mark of the base where it has one. In
a base that is no power of two the number of digits is limited. -/
def readInBase (base : Nat) (s : Text) : Except YamlError Int :=
  let s := trimPadding s
  let digits := match dropSign s, baseMark? base with
    | '0' :: c :: rest, some mark => if Text.smallLetter c = mark then rest else '0' :: c :: rest
    | digits, _ => digits
  let value := digits.foldl (fun n c =>
    n.bind fun n => ((digitOf? c).filter (· < base)).map (n * base + ·)) (some 0)
  match value with
  | none => .error .number
  | some n =>
    if digits = [] ∨ (base = 10 ∧ integerDigitLimit < digits.length) then .error .number
    else .ok (if s.head? = some '-' then -(n : Int) else n)

/-- Reads numbers in base ten as the digits of one in base sixty. -/
def readSixty (parts : List Text) : Except YamlError Int :=
  parts.foldlM (fun value part => (readInBase 10 part).map fun n => 60 * value + n) 0

/-- The whole number that a text spells. -/
def wholeNumberOf (s : Text) : Except YamlError Int :=
  let s := s.filter (· ≠ .char '_')
  let sign : Int := if s.head? = some '-' then -1 else 1
  let magnitude : Except YamlError Int := match dropSign s with
    | [] => .error .emptyNumber
    | ['0'] => .ok 0
    | '0' :: 'b' :: s => readInBase 2 s
    | '0' :: 'x' :: s => readInBase 16 s
    | '0' :: s => readInBase 8 ('0' :: s)
    | s =>
      if s.contains (.char ':') then readSixty (Text.splitWhere (· == .char ':') s)
      else readInBase 10 s
  magnitude.map (sign * ·)

/-! ## Numbers with a point -/

/-- Whether a text spells a number with a point in base ten. -/
def isPointText (s : Text) : Bool :=
  (readNumber s).toOption.isSome ||
    (["nan", "inf", "infinity"] : List Text).contains (dropSign (trimPadding s))

/-- Whether a text spells zero. -/
def isZeroText (s : Text) : Bool :=
  match readNumber s with
  | .ok x => x.isZero
  | .error _ => false

/-- The number with a point that a text spells. Only whether it is zero matters; any other is kept
as one. -/
def pointNumberOf (s : Text) : Except YamlError Value :=
  let s := (s.filter (· ≠ .char '_')).map Text.smallLetter
  match s with
  | [] => .error .emptyNumber
  | _ =>
    let s := dropSign s
    let parts := Text.splitWhere (· == .char ':') s
    if s = ".inf" ∨ s = ".nan" then .ok (.int 1)
    else if parts.all isPointText then .ok (.int (if parts.all isZeroText then 0 else 1))
    else .error .number

/-! ## Bytes -/

/-- Whether a character writes six bits. -/
def isSixBits (c : CodePoint) : Bool :=
  Text.isLetter c || Text.isAsciiDigit c || c == '+' || c == '/'

/-- How many characters of six bits a text holds up to its end or to where it is filled up, given
how many came before; nothing when it ends amid bytes. -/
def countSixBits (count pads : Nat) : Text → Option Nat
  | [] => if count % 4 = 0 then some count else none
  | c :: s =>
    if c = '=' then
      if 2 ≤ count % 4 ∧ 4 ≤ count % 4 + pads + 1 then some count
      else countSixBits count (if 2 ≤ count % 4 then pads + 1 else pads) s
    else if isSixBits c then countSixBits (count + 1) 0 s
    else countSixBits count pads s

/-- How many bytes a text writes. -/
def byteCountOf (s : Text) : Except YamlError Int :=
  if s.any (128 ≤ ·.toNat) then .error .value
  else
    match countSixBits 0 0 s with
    | some count => .ok (count * 6 / 8)
    | none => .error .value

/-! ## Values -/

/-- The moment that a text spells, as its year. -/
def momentOf (s : Text) : Except YamlError Int :=
  match Moment.read? (dropLineEnd s) with
  | none => .error .momentText
  | some m => if m.exists? then .ok m.year else .error .number

/-- The value of a scalar. The other tags are for lists and objects. -/
def scalarValue (tag : Tag) (s : Text) : Except YamlError Value :=
  match tag with
  | .null => .ok .null
  | .bool => (truthOf s).map .bool
  | .int => (wholeNumberOf s).map fun n => .int (.ofInt n)
  | .float => pointNumberOf s
  | .binary => (byteCountOf s).map fun n => .int (.ofInt n)
  | .moment => (momentOf s).map fun n => .int (.ofInt n)
  | .text => .ok (.text s)
  | _ => .error .value

end MeshLens.Yaml
