import MeshLens.Text.Basic

/-!
# Tags

The tag of a node says what kind of value it is. A plain scalar without a tag is given one by the
way that it is spelled.
-/

namespace MeshLens.Yaml

/-- What a node is. -/
inductive Tag
  | null | bool | int | float | binary | moment | pairs | orderedPairs | set | text | list | object
  /-- The key whose value is merged into the object around it. -/
  | merge
  /-- The key of a default value. -/
  | default
  | unknown
  deriving DecidableEq, Repr

namespace Tag

/-- What the full names of the known tags begin with. -/
def family : Text := "tag:yaml.org,2002:"

/-- The names of the known tags within their family. -/
def names : List (Text × Tag) := [
  ("null", null), ("bool", bool), ("int", int), ("float", float), ("binary", binary),
  ("timestamp", moment), ("pairs", pairs), ("omap", orderedPairs), ("set", set), ("str", text),
  ("seq", list), ("map", object), ("merge", merge), ("value", default)]

/-- The tag of a full name. -/
def ofName (name : Text) : Tag :=
  (names.findSome? fun (s, tag) =>
    if family ++ s = name then some tag else none).getD unknown

end Tag

/-! ## Words -/

/-- The spellings of null. -/
def nullWords : List Text :=
  ["", "~", "null", "Null", "NULL"]

/-- The spellings of truth values. -/
def truthWords : List Text :=
  ["yes", "Yes", "YES", "no", "No", "NO", "true", "True", "TRUE", "false", "False", "FALSE", "on",
    "On", "ON", "off", "Off", "OFF"]

/-! ## Numbers -/

/-- A text without its sign. -/
def dropSign : Text → Text
  | '-' :: s => s
  | '+' :: s => s
  | s => s

/-- Whether a character is a digit or an underscore. -/
def isDigitOrLine (c : CodePoint) : Bool :=
  Text.isAsciiDigit c || c == '_'

/-- Whether a text is a digit from one on, and then digits and underscores. -/
def isCounting (s : Text) : Bool :=
  s.head?.any (fun c : CodePoint => '1' ≤ c && c ≤ '9') && s.all isDigitOrLine

/-- Whether a text is a digit, and then digits and underscores. -/
def isDigits (s : Text) : Bool :=
  s.head?.any Text.isAsciiDigit && s.all isDigitOrLine

/-- Whether a text is a number below sixty of one or two digits. -/
def isSixtieth : Text → Bool
  | [a] => Text.isAsciiDigit a
  | [a, b] => '0' ≤ a && a ≤ '5' && Text.isAsciiDigit b
  | _ => false

/-- Whether a text is spelled like a whole number: in base two, eight, ten, sixteen or sixty. -/
def isWholeNumber (s : Text) : Bool :=
  match dropSign s with
  | '0' :: 'b' :: s => !s.isEmpty && s.all fun c : CodePoint => c == '0' || c == '1' || c == '_'
  | '0' :: 'x' :: s =>
    !s.isEmpty && s.all fun c : CodePoint =>
      isDigitOrLine c || ('a' ≤ c && c ≤ 'f') || ('A' ≤ c && c ≤ 'F')
  | '0' :: s => s.all fun c : CodePoint => ('0' ≤ c && c ≤ '7') || c == '_'
  | s =>
    match Text.splitWhere (· == .char ':') s with
    | first :: rest => isCounting first && rest.all isSixtieth
    | [] => false

/-- Whether a text is an exponent, which needs a sign, or nothing. -/
def isExponent : Text → Bool
  | [] => true
  | [_] => false
  | e :: sign :: s =>
    (e == 'e' || e == 'E') && (sign == '-' || sign == '+') && !s.isEmpty &&
      s.all Text.isAsciiDigit

/-- Whether a text is spelled like the part of a number behind its point. -/
def isFraction (s : Text) : Bool :=
  isExponent (s.dropWhile isDigitOrLine)

/-- Whether a text without a sign is spelled like a number with a point, in base ten or sixty. -/
def hasPoint (s : Text) : Bool :=
  let whole := s.takeWhile (· ≠ .char '.')
  match s.dropWhile (· ≠ .char '.'), Text.splitWhere (· == .char ':') whole with
  | '.' :: fraction, first :: sixtieths =>
    isDigits first && sixtieths.all isSixtieth &&
      (if sixtieths.isEmpty then isFraction fraction else fraction.all isDigitOrLine)
  | _, _ => false

/-- The spellings of infinity. -/
def infinityWords : List Text := [".inf", ".Inf", ".INF"]

/-- The spellings of what is not a number. -/
def notANumberWords : List Text := [".nan", ".NaN", ".NAN"]

/-- Whether a text is spelled like a number with a point. -/
def isPointNumber (s : Text) : Bool :=
  hasPoint (dropSign s) || infinityWords.contains (dropSign s) ||
    notANumberWords.contains s ||
    match s with
    | '.' :: c :: s => Text.isAsciiDigit c && isFraction s
    | _ => false

end MeshLens.Yaml
