import MeshLens.Text.Basic
import MeshLens.Text.Utf8

/-!
# Form-encoded pairs

The query of a URL holds pairs of a name and a value: pairs are joined by ampersands, a name and
its value by an equals sign. In both a space is written as a plus sign, letters, digits and
`_.-~` stand for themselves, and everything else is written as percent signs and the bytes of its
UTF-8 form.
-/

namespace MeshLens.Url

/-- A hexadecimal digit in upper case. -/
def hexDigit (n : Nat) : CodePoint :=
  if n < 10 then CodePoint.ofNat (48 + n) else CodePoint.ofNat (55 + n)

/-- The value of a hexadecimal digit. -/
def hexDigitValue? (c : CodePoint) : Option Nat :=
  if '0' ≤ c ∧ c ≤ '9' then some (c.toNat - 48)
  else if 'A' ≤ c ∧ c ≤ 'F' then some (c.toNat - 55)
  else if 'a' ≤ c ∧ c ≤ 'f' then some (c.toNat - 87)
  else none

/-- The characters that stand for themselves. -/
def isUnreserved (c : CodePoint) : Bool :=
  Text.isLetter c || Text.isAsciiDigit c || c == '_' || c == '.' || c == '-' || c == '~'

/-- A byte written as a percent sign and two digits. -/
def encodeByte (b : Nat) : Text :=
  ['%', hexDigit (b / 16), hexDigit (b % 16)]

/-- One character of an encoded text. -/
def encodeChar (c : CodePoint) : Text :=
  if isUnreserved c then [c]
  else if c = ' ' then ['+']
  else (Text.utf8Bytes c).flatMap encodeByte

/-- Encodes a name or a value. -/
def encode (s : Text) : Text :=
  s.flatMap encodeChar

/-- The bytes of an encoded text. A percent sign without two digits after it stands for itself. -/
def decodeBytes : Text → List Nat
  | [] => []
  | '+' :: s => 32 :: decodeBytes s
  | '%' :: a :: b :: s =>
    match hexDigitValue? a, hexDigitValue? b with
    | some x, some y => (x * 16 + y) :: decodeBytes s
    | _, _ => 37 :: decodeBytes (a :: b :: s)
  | c :: s => Text.utf8Bytes c ++ decodeBytes s

/-- Decodes a name or a value. Half of a surrogate pair has no bytes and stays as it is. -/
def decode (s : Text) : Text :=
  let front := Text.decodeUtf8 (decodeBytes (s.takeWhile (!·.isHalf)))
  match found : s.dropWhile (!·.isHalf) with
  | [] => front
  | half :: rest =>
    have : rest.length < s.length := by
      have := (List.dropWhile_sublist (!·.isHalf) (l := s)).length_le
      simp only [found, List.length_cons] at this
      omega
    front ++ half :: decode rest
termination_by s.length

/-- A text without halves is decoded as the UTF-8 form that its bytes are. -/
theorem decode_eq_decodeUtf8 {s : Text} (h : ∀ c ∈ s, !c.isHalf) :
    decode s = Text.decodeUtf8 (decodeBytes s) := by
  have ⟨front, rest⟩ : s.takeWhile (!·.isHalf) = s ∧ s.dropWhile (!·.isHalf) = [] := by
    induction s with
    | nil => simp
    | cons c s ih => simp_all
  unfold decode
  split
  · rw [front]
  · simp_all

/-- Reads one pair; without an equals sign the value is empty. -/
def decodePair (s : Text) : Text × Text :=
  let (name, value) := (Text.breakOn ['='] s).getD (s, [])
  (decode name, decode value)

/-- Reads the pairs of a query; empty pieces are left out. -/
def decodePairs (query : Text) : List (Text × Text) :=
  ((Text.splitOn ['&'] query).filter (· ≠ [])).map decodePair

/-- Writes one pair. -/
def encodePair (pair : Text × Text) : Text :=
  encode pair.1 ++ "=" ++ encode pair.2

/-- Writes pairs as a query. -/
def encodePairs (pairs : List (Text × Text)) : Text :=
  Text.join ['&'] (pairs.map encodePair)

end MeshLens.Url
