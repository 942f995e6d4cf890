import MeshLens.Text.CodePoint

/-!
# UTF-8

Characters as bytes and back. A stretch of bytes that begins no valid character, or only the front
of one, becomes one replacement character unless something else is said, as long as it goes.
-/

namespace MeshLens.Text

/-- The bytes of a character. Half of a surrogate pair has bytes of the same form, which are read
back as none. -/
def utf8Bytes (c : CodePoint) : List Nat :=
  let n := c.toNat
  if n < 0x80 then [n]
  else if n < 0x800 then [0xC0 + n / 64, 0x80 + n % 64]
  else if n < 0x10000 then [0xE0 + n / 4096, 0x80 + n / 64 % 64, 0x80 + n % 64]
  else [0xF0 + n / 262144, 0x80 + n / 4096 % 64, 0x80 + n / 64 % 64, 0x80 + n % 64]

/-- What a leading byte beyond ASCII says: its bits, the range of the byte after it, and how many
bytes follow. -/
def utf8Lead? (b : Nat) : Option (Nat × Nat × Nat × Nat) :=
  if 0xC2 ≤ b ∧ b ≤ 0xDF then some (b - 0xC0, 0x80, 0xBF, 1)
  else if b = 0xE0 then some (0, 0xA0, 0xBF, 2)
  else if b = 0xED then some (0x0D, 0x80, 0x9F, 2)
  else if 0xE1 ≤ b ∧ b ≤ 0xEF then some (b - 0xE0, 0x80, 0xBF, 2)
  else if b = 0xF0 then some (0, 0x90, 0xBF, 3)
  else if 0xF1 ≤ b ∧ b ≤ 0xF3 then some (b - 0xF0, 0x80, 0xBF, 3)
  else if b = 0xF4 then some (4, 0x80, 0x8F, 3)
  else none

/-- Reads following bytes, the next one in a given range, as far as they are valid; gives the
number they make up, if they are complete, and the rest. -/
def utf8Follow (value lo hi : Nat) : Nat → List Nat → Option Nat × List Nat
  | 0, bytes => (some value, bytes)
  | _ + 1, [] => (none, [])
  | n + 1, b :: bytes =>
    if lo ≤ b ∧ b ≤ hi then utf8Follow (value * 64 + (b - 0x80)) 0x80 0xBF n bytes
    else (none, b :: bytes)

theorem length_utf8Follow (value lo hi n : Nat) (bytes : List Nat) :
    (utf8Follow value lo hi n bytes).2.length ≤ bytes.length := by
  induction n generalizing value lo hi bytes with
  | zero => simp [utf8Follow]
  | succ n ih =>
    cases bytes with
    | nil => simp [utf8Follow]
    | cons b bytes =>
      simp only [utf8Follow]
      split
      · have := ih (value * 64 + (b - 0x80)) 0x80 0xBF bytes
        simp only [List.length_cons]; omega
      · simp

/-- The text of bytes, given what a stretch of bytes that is not valid becomes. -/
def decodeUtf8With (spoiled : List Nat → Text) (bytes : List Nat) : Text :=
  match bytes with
  | [] => []
  | b :: bytes =>
    if b < 0x80 then CodePoint.ofNat b :: decodeUtf8With spoiled bytes
    else
      match utf8Lead? b with
      | none => spoiled [b] ++ decodeUtf8With spoiled bytes
      | some (bits, lo, hi, n) =>
        have := length_utf8Follow bits lo hi n bytes
        let rest := (utf8Follow bits lo hi n bytes).2
        let front := match (utf8Follow bits lo hi n bytes).1 with
          | some value => [CodePoint.ofNat value]
          | none => spoiled (b :: bytes.take (bytes.length - rest.length))
        front ++ decodeUtf8With spoiled rest
termination_by bytes.length

/-- The text of bytes, with replacement characters. -/
def decodeUtf8 (bytes : List Nat) : Text :=
  decodeUtf8With (fun _ => ['\ufffd']) bytes

end MeshLens.Text
