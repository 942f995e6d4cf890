import MeshLens.Text.CodePoint

/-!
# Reading positions

Where reading has come to in a document: what is left of it, and at which line and column that
begins. Lines end at line feeds and at three characters of like meaning. A byte order mark takes
up no column.
-/

namespace MeshLens.Yaml

/-- Whether a character ends a line. -/
def isBreak (c : CodePoint) : Bool :=
  c == '\n' || c == '\u0085' || c == '\u2028' || c == '\u2029'

/-- Whether a character is a space, a tab, or the end of a line. -/
def isGap (c : CodePoint) : Bool :=
  c == ' ' || c == '\t' || isBreak c

/-- Whether a character is a space or a tab. -/
def isSpace (c : CodePoint) : Bool :=
  c == ' ' || c == '\t'

/-- The byte order mark. -/
def byteOrderMark : CodePoint := '\ufeff'

/-- A reading position. -/
structure Cursor where
  rest : Text
  /-- How many characters were passed. -/
  index : Nat := 0
  line : Nat := 0
  column : Nat := 0

namespace Cursor

/-- The next character, if there is one. -/
def peek? (k : Cursor) : Option CodePoint :=
  k.rest.head?

/-- The character so far ahead, if there is one. -/
def ahead? (k : Cursor) (n : Nat) : Option CodePoint :=
  k.rest[n]?

/-- Passes a character. -/
def advance (k : Cursor) : Cursor :=
  match k.rest with
  | [] => k
  | c :: rest =>
    if isBreak c then { rest, index := k.index + 1, line := k.line + 1, column := 0 }
    else
      { rest, index := k.index + 1, line := k.line
        column := if c = byteOrderMark then k.column else k.column + 1 }

/-- Passes several characters. -/
def skip (k : Cursor) : Nat → Cursor
  | 0 => k
  | n + 1 => k.advance.skip n

/-- Passes characters of a class and gives them. -/
def takeWhile (k : Cursor) (p : CodePoint → Bool) : Text × Cursor :=
  let run := k.rest.takeWhile p
  (run, k.skip run.length)

/-- Passes characters of a class. -/
def skipWhile (k : Cursor) (p : CodePoint → Bool) : Cursor :=
  (k.takeWhile p).2

/-- Passes the end of a line and gives what it stands for: itself for the separators of lines and
of paragraphs, and a line feed otherwise. -/
def takeBreak? (k : Cursor) : Option (CodePoint × Cursor) :=
  match k.rest with
  | c :: _ =>
    if c = '\u2028' ∨ c = '\u2029' then some (c, k.advance)
    else if isBreak c then some ('\n', k.advance)
    else none
  | [] => none

/-! ## Lengths

Reading ends because it passes characters: these bounds say how much is left. -/

/-- Passing a character leaves one fewer. -/
theorem length_advance (k : Cursor) : k.advance.rest.length = k.rest.length - 1 := by
  unfold advance
  split
  · next h => simp [h]
  · next h => split <;> simp [h]

/-- Passing characters leaves so many fewer. -/
theorem length_skip (n : Nat) (k : Cursor) : (k.skip n).rest.length = k.rest.length - n := by
  induction n generalizing k with
  | zero => rfl
  | succ n ih => rw [skip, ih, length_advance]; omega

/-- Where a character comes next, passing it shortens the rest. -/
theorem length_advance_lt {k : Cursor} {c : CodePoint} (h : k.peek? = some c) :
    k.advance.rest.length < k.rest.length := by
  have hk : k.rest ≠ [] := by intro hk; simp [peek?, hk] at h
  have := List.length_pos_iff.2 hk
  rw [length_advance]
  omega

/-- Passing a class of characters does not lengthen the rest. -/
theorem length_takeWhile_le (k : Cursor) (p : CodePoint → Bool) :
    (k.takeWhile p).2.rest.length ≤ k.rest.length := by
  simp only [takeWhile, length_skip]
  omega

/-- Passing a class of characters does not lengthen the rest. -/
theorem length_skipWhile_le (k : Cursor) (p : CodePoint → Bool) :
    (k.skipWhile p).rest.length ≤ k.rest.length :=
  k.length_takeWhile_le p

/-- Passing the end of a line shortens the rest. -/
theorem length_takeBreak?_lt {k next : Cursor} {c : CodePoint} (h : k.takeBreak? = some (c, next)) :
    next.rest.length < k.rest.length := by
  unfold takeBreak? at h
  split at h
  · next d rest hk =>
    have hd : k.peek? = some d := by simp [peek?, hk]
    split at h
    · cases h; exact length_advance_lt hd
    · split at h
      · cases h; exact length_advance_lt hd
      · cases h
  · cases h

/-! ## Looking ahead -/

/-- Whether a gap or the end of the document is so far ahead. -/
def gapAt (k : Cursor) (n : Nat) : Bool :=
  (k.ahead? n).all isGap

/-- Whether the line, or the document, ends here. -/
def atLineEnd (k : Cursor) : Bool :=
  k.peek?.all isBreak

/-- Whether a space, or the end of the line or of the document, is here. -/
def atSpaceOrEnd (k : Cursor) : Bool :=
  k.peek?.all fun c : CodePoint => c == ' ' || isBreak c

/-- Whether three of a character stand here by themselves. -/
def atTriple (k : Cursor) (c : CodePoint) : Bool :=
  k.rest.take 3 == [c, c, c] && k.gapAt 3

/-- Whether the mark of the beginning or of the end of a document stands here. -/
def atDocumentMark (k : Cursor) : Bool :=
  k.atTriple '-' || k.atTriple '.'

/-- Passes spaces and a comment up to the end of the line. -/
def skipComment (k : Cursor) : Cursor :=
  let k := k.skipWhile (· == .char ' ')
  if k.peek? = some '#' then k.skipWhile fun c => !isBreak c else k

/-- Passing a comment does not lengthen the rest. -/
theorem length_skipComment_le (k : Cursor) : k.skipComment.rest.length ≤ k.rest.length := by
  have h := k.length_skipWhile_le (· == .char ' ')
  simp only [skipComment]
  split
  · exact Nat.le_trans (length_skipWhile_le _ _) h
  · exact h

end Cursor

end MeshLens.Yaml
