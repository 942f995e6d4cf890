import MeshLens.Text.Surrogate
import MeshLens.Value.Basic

/-!
# Reading JSON

Data values are read from JSON text. A number with a point or an exponent becomes a double
precision number and any other a whole number, which must not have more digits than can be written;
the words `NaN`, `Infinity` and `-Infinity` are numbers as well. Of a name that comes twice in an
object the last value counts. A text that cannot be read is refused at the first place where no text
could go on.
-/

namespace MeshLens.Json

/-! ## Errors -/

/-- What is wrong with a text. -/
inductive Fault
  | noValue
  | noName
  | noColon
  | noComma
  /-- A string has no end. -/
  | endlessString
  | controlCharacter
  | escape
  /-- An escape has no four hexadecimal digits. -/
  | codeEscape
  /-- The text goes on after the value. -/
  | more
  /-- A whole number has more digits than can be written. -/
  | tooLong (digits : Nat)
  deriving DecidableEq, Repr

/-- What a fault is called. -/
def Fault.description : Fault → Text
  | noValue => "Expecting value"
  | noName => "Expecting property name enclosed in double quotes"
  | noColon => "Expecting ':' delimiter"
  | noComma => "Expecting ',' delimiter"
  | endlessString => "Unterminated string starting at"
  | controlCharacter => "Invalid control character at"
  | escape => "Invalid \\escape"
  | codeEscape => "Invalid \\uXXXX escape"
  | more => "Extra data"
  | tooLong digits =>
    "Exceeds the limit (" ++ toString integerDigitLimit ++
      " digits) for integer string conversion: value has " ++ toString digits ++
      " digits; use sys.set_int_max_str_digits() to increase the limit"

/-- What is wrong with a text, and what is left of it from there on. -/
structure Error where
  fault : Fault
  rest : Text
  deriving DecidableEq, Repr

/-- The message of an error in a text, with its line, its column and its place, unless it is about
the length of a number. -/
def Error.message (e : Error) (text : Text) : Text :=
  let before := text.take (text.length - e.rest.length)
  let line := before.count (.char '\n') + 1
  let column := (before.reverse.takeWhile (· ≠ .char '\n')).length + 1
  match e.fault with
  | .tooLong _ => e.fault.description
  | _ =>
    e.fault.description ++ ": line " ++ toString line ++ " column " ++ toString column ++
      " (char " ++ toString before.length ++ ")"

/-- What is read, and the rest of the text. -/
abbrev Reading (α : Type) := Except Error (α × Text)

/-! ## Strings -/

/-- Drops JSON white space. -/
def skipSpace (s : Text) : Text :=
  s.dropWhile fun c : CodePoint => c = ' ' || c = '\n' || c = '\t' || c = '\r'

/-- The value of a hexadecimal digit. -/
def hexValue? (c : CodePoint) : Option Nat :=
  if '0' ≤ c ∧ c ≤ '9' then some (c.toNat - 48)
  else if 'a' ≤ c ∧ c ≤ 'f' then some (c.toNat - 87)
  else if 'A' ≤ c ∧ c ≤ 'F' then some (c.toNat - 55)
  else none

/-- The number that four hexadecimal digits spell. -/
def hexUnit? (a b c d : CodePoint) : Option Nat :=
  match hexValue? a, hexValue? b, hexValue? c, hexValue? d with
  | some a, some b, some c, some d => some (((a * 16 + b) * 16 + c) * 16 + d)
  | _, _, _, _ => none

/-- The character that an escape of one letter stands for. -/
def shortEscape? : CodePoint → Option CodePoint
  | '"' => some '"'
  | '\\' => some '\\'
  | '/' => some '/'
  | 'b' => some '\x08'
  | 'f' => some '\x0c'
  | 'n' => some '\n'
  | 'r' => some '\r'
  | 't' => some '\t'
  | _ => none

/-- Reads the rest of a string after its opening quote; surrogate pairs still stand apart. The first
argument is the text from the opening quote on. -/
def readUnits (start : Text) : Text → Reading Text
  | [] | ['\\'] => .error ⟨.endlessString, start⟩
  | '"' :: s => .ok ([], s)
  | '\\' :: 'u' :: a :: b :: c :: d :: s =>
    match hexUnit? a b c d with
    | none => .error ⟨.codeEscape, 'u' :: a :: b :: c :: d :: s⟩
    | some unit =>
      if s = [] then .error ⟨.codeEscape, ['u', a, b, c, d]⟩
      else (readUnits start s).map fun (units, rest) => (CodePoint.ofNat unit :: units, rest)
  | '\\' :: c :: s =>
    match shortEscape? c with
    | some e => (readUnits start s).map fun (units, rest) => (e :: units, rest)
    | none => .error (if c = 'u' then ⟨.codeEscape, c :: s⟩ else ⟨.escape, '\\' :: c :: s⟩)
  | c :: s =>
    if c.toNat < 32 then .error ⟨.controlCharacter, c :: s⟩
    else (readUnits start s).map fun (units, rest) => (c :: units, rest)

/-- Reads the rest of a string after its opening quote. -/
def readString (s : Text) : Reading Text :=
  (readUnits ('"' :: s) s).map fun (units, rest) => (Text.joinPairs units, rest)

/-! ## Words and numbers -/

/-- The words for single values. -/
def words : List (Text × Value) := [
  ("true", .bool true), ("false", .bool false), ("null", .null), ("NaN", .float .notANumber),
  ("Infinity", .float (.infinite false)), ("-Infinity", .float (.infinite true))]

/-- Reads a word for a value. -/
def readWord? (s : Text) : Option (Value × Text) :=
  words.findSome? fun (word, value) => (Text.after? word s).map fun rest => (value, rest)

/-- Cuts a text behind the digits that it begins with. -/
def cutDigits (s : Text) : Text × Text :=
  (s.takeWhile Text.isAsciiDigit, s.dropWhile Text.isAsciiDigit)

/-- Cuts a text behind the whole number that it begins with: no zero stands in front of others. -/
def cutWhole (s : Text) : Text × Text :=
  match s with
  | '0' :: rest => (['0'], rest)
  | '-' :: '0' :: rest => (['-', '0'], rest)
  | '-' :: rest =>
    match cutDigits rest with
    | ([], _) => ([], s)
    | (digits, rest) => ('-' :: digits, rest)
  | s => cutDigits s

/-- Cuts a text behind a mark, perhaps a sign, and digits, if there are any. -/
def cutPart (isMark : CodePoint → Bool) (signed : Bool) (s : Text) : Text × Text :=
  match s with
  | mark :: rest =>
    if isMark mark then
      let (sign, rest) := match rest with
        | c :: after => if signed && (c == '-' || c == '+') then ([c], after) else ([], rest)
        | [] => ([], [])
      match cutDigits rest with
      | ([], _) => ([], s)
      | (digits, rest) => (mark :: sign ++ digits, rest)
    else ([], s)
  | [] => ([], [])

/-- The whole number of a sign and digits. -/
def wholeNumber (s : Text) : Int :=
  let (negative, digits) := NumberLiteral.readSign s
  let (n, _) := NumberLiteral.readDigits 0 0 digits
  if negative then -n else n

/-- Reads a number. -/
def readNumber (s : Text) : Reading Value :=
  let (whole, rest) := cutWhole s
  let (fraction, rest) := cutPart (· == .char '.') false rest
  let (exponent, rest) := cutPart (fun c : CodePoint => c == 'e' || c == 'E') true rest
  if whole = [] then .error ⟨.noValue, s⟩
  else if fraction ++ exponent = [] then
    let n := wholeNumber whole
    if h : (writeInteger? n).isSome then .ok (.int ⟨n, h⟩, rest)
    else .error ⟨.tooLong (NumberLiteral.readSign whole).2.length, s⟩
  else
    match numberOfText? (whole ++ fraction ++ exponent) with
    | some x => .ok (.float x, rest)
    | none => .error ⟨.noValue, s⟩

/-- Reads a word or a number. -/
def readPlain (s : Text) : Reading Value :=
  match readWord? s with
  | some reading => .ok reading
  | none => readNumber s

/-! ## Values -/

mutual

/-- Reads a value, to a depth and length bounded by the first argument. -/
def readValue : Nat → Text → Reading Value
  | 0, s => .error ⟨.noValue, s⟩
  | fuel + 1, s =>
    match skipSpace s with
    | '"' :: s => (readString s).map fun (t, rest) => (.text t, rest)
    | '[' :: s =>
      match skipSpace s with
      | ']' :: rest => .ok (.list [], rest)
      | s => (readItems fuel s).map fun (items, rest) => (.list items, rest)
    | '\x7b' :: s =>
      match skipSpace s with
      | '\x7d' :: rest => .ok (.object [], rest)
      | s => (readFields fuel s).map fun (fields, rest) => (.object (Entries.ofPairs fields), rest)
    | s => readPlain s

/-- Reads the items of a list up to its end. -/
def readItems : Nat → Text → Reading (List Value)
  | 0, s => .error ⟨.noValue, s⟩
  | fuel + 1, s =>
    match readValue fuel s with
    | .error e => .error e
    | .ok (item, rest) =>
      match skipSpace rest with
      | ',' :: rest => (readItems fuel rest).map fun (items, rest) => (item :: items, rest)
      | ']' :: rest => .ok ([item], rest)
      | rest => .error ⟨.noComma, rest⟩

/-- Reads the fields of an object up to its end. -/
def readFields : Nat → Text → Reading (List (Text × Value))
  | 0, s => .error ⟨.noName, s⟩
  | fuel + 1, s =>
    match skipSpace s with
    | '"' :: s =>
      match readString s with
      | .error e => .error e
      | .ok (name, rest) =>
        match skipSpace rest with
        | ':' :: rest =>
          match readValue fuel rest with
          | .error e => .error e
          | .ok (value, rest) =>
            match skipSpace rest with
            | ',' :: rest =>
              (readFields fuel rest).map fun (fields, rest) => ((name, value) :: fields, rest)
            | '\x7d' :: rest => .ok ([(name, value)], rest)
            | rest => .error ⟨.noComma, rest⟩
        | rest => .error ⟨.noColon, rest⟩
    | s => .error ⟨.noName, s⟩

end

/-- Reads a whole text as one value. -/
def parse (text : Text) : Except Error Value :=
  match readValue (2 * text.length + 2) text with
  | .error e => .error e
  | .ok (value, rest) =>
    match skipSpace rest with
    | [] => .ok value
    | rest => .error ⟨.more, rest⟩

end MeshLens.Json
