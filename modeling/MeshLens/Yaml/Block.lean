import MeshLens.Yaml.Error
import MeshLens.Yaml.Cursor

/-!
# Block scalars

A block scalar is a header and the lines below it that are indented enough, without their
indentation. Its lines are kept as they are, or folded: then the end of a line becomes a space
between two lines that are not indented any further. The header says what becomes of the ends of
lines at its end: one is kept, or none, or all.
-/

namespace MeshLens.Yaml

/-- What becomes of the ends of lines at the end of a block scalar. -/
inductive Chomping
  | strip | clip | keep
  deriving DecidableEq, Repr

/-- The header of a block scalar: what becomes of its end, and its indentation if that is given. -/
structure BlockHeader where
  chomping : Chomping := .clip
  increment : Option Nat := none

/-- Reads a mark of chomping. -/
def readChomping? (k : Cursor) : Option (Chomping × Cursor) :=
  match k.peek? with
  | some '+' => some (.keep, k.advance)
  | some '-' => some (.strip, k.advance)
  | _ => none

/-- Reads an indentation, which is a digit. -/
def readIncrement? (k : Cursor) : Option (Nat × Cursor) :=
  match k.peek? with
  | some c => if '0' ≤ c ∧ c ≤ '9' then some (c.toNat - 48, k.advance) else none
  | none => none

/-- Reads the marks of a header, in any order. -/
def readMarks (k : Cursor) : BlockHeader × Cursor :=
  match readChomping? k with
  | some (chomping, k) =>
    match readIncrement? k with
    | some (n, k) => ({ chomping, increment := some n }, k)
    | none => ({ chomping }, k)
  | none =>
    match readIncrement? k with
    | none => ({}, k)
    | some (n, k) =>
      match readChomping? k with
      | some (chomping, k) => ({ chomping, increment := some n }, k)
      | none => ({ increment := some n }, k)

/-- Reads a header up to the end of its line. -/
def readHeader (k : Cursor) : Except YamlError (BlockHeader × Cursor) :=
  let (header, k) := readMarks k
  if header.increment = some 0 ∨ !k.atSpaceOrEnd then .error .token
  else
    let k := k.skipComment
    if !k.atLineEnd then .error .token else .ok (header, k.advance)

/-- Passes blank lines after the ends of some, the last one first, and gives their ends and the
widest indentation. -/
def takeIndentation (k : Cursor) (breaks : Text) (widest : Nat) : Text × Nat × Cursor :=
  if k.peek? = some ' ' then takeIndentation k.advance breaks (max widest k.advance.column)
  else
    match _h : k.takeBreak? with
    | some (c, next) => takeIndentation next (c :: breaks) widest
    | none => (breaks.reverse, widest, k)
termination_by k.rest.length
decreasing_by
  · exact Cursor.length_advance_lt ‹_›
  · exact Cursor.length_takeBreak?_lt ‹_›

/-- Passes spaces up to a column. -/
def skipIndent (indent : Nat) (k : Cursor) : Cursor :=
  k.skip ((k.rest.take (indent - k.column)).takeWhile (· == .char ' ')).length

/-- Passing spaces does not lengthen the rest. -/
theorem length_skipIndent_le (indent : Nat) (k : Cursor) :
    (skipIndent indent k).rest.length ≤ k.rest.length := by
  rw [skipIndent, Cursor.length_skip]
  omega

/-- Passes blank lines that are indented by so much at most, after the ends of some, the last one
first, and gives their ends. -/
def takeBlockBreaks (indent : Nat) (k : Cursor) (breaks : Text) : Text × Cursor :=
  match _h : (skipIndent indent k).takeBreak? with
  | some (c, next) => takeBlockBreaks indent next (c :: breaks)
  | none => (breaks.reverse, skipIndent indent k)
termination_by k.rest.length
decreasing_by
  exact Nat.lt_of_lt_of_le (Cursor.length_takeBreak?_lt ‹_›) (length_skipIndent_le indent k)

/-- Passing blank lines does not lengthen the rest. -/
theorem length_takeBlockBreaks_le (indent : Nat) (k : Cursor) (breaks : Text) :
    (takeBlockBreaks indent k breaks).2.rest.length ≤ k.rest.length := by
  fun_induction takeBlockBreaks indent k breaks with
  | case1 k breaks c next h ih =>
    exact Nat.le_trans ih (Nat.le_of_lt
      (Nat.lt_of_lt_of_le (Cursor.length_takeBreak?_lt h) (length_skipIndent_le indent k)))
  | case2 k breaks => exact length_skipIndent_le indent k

/-- The end of a block scalar: of its last line, and of the blank lines after it. -/
def Chomping.ending (chomping : Chomping) (last breaks : Text) : Text :=
  match chomping with
  | strip => []
  | clip => last
  | keep => last ++ breaks

/-- Reads the lines of a block scalar after some text, the last character first, and the ends of
blank lines. -/
def readLines (folded : Bool) (chomping : Chomping) (indent : Nat) (k : Cursor)
    (text breaks : Text) : Text × Cursor :=
  let line := k.takeWhile fun c => !isBreak c
  let text := line.1.reverse ++ (breaks.reverse ++ text)
  match _h : line.2.takeBreak? with
  | none => (text.reverse, line.2)
  | some (last, below) =>
    let blank := takeBlockBreaks indent below []
    let next := blank.2
    if next.column = indent ∧ next.rest ≠ [] then
      let joins := folded && last == '\n' && !k.peek?.any isSpace && !next.peek?.any isSpace
      let between := if !joins then [last] else if blank.1 = [] then [' '] else []
      readLines folded chomping indent next (between ++ text) blank.1
    else (text.reverse ++ chomping.ending [last] blank.1, next)
termination_by k.rest.length
decreasing_by
  have hb := length_takeBlockBreaks_le indent below []
  have hl : line.2.rest.length ≤ k.rest.length := k.length_takeWhile_le _
  have : below.rest.length < line.2.rest.length := Cursor.length_takeBreak?_lt ‹_›
  omega

/-- Reads a block scalar after its first mark, inside a block of the given indentation. -/
def readBlock (folded : Bool) (outer : Int) (k : Cursor) :
    Except YamlError (Text × Cursor) :=
  match readHeader k with
  | .error e => .error e
  | .ok (header, k) =>
    let least := (max 1 (outer + 1)).toNat
    let (breaks, indent, k) := match header.increment with
      | some n =>
        let indent := least + n - 1
        let (breaks, k) := takeBlockBreaks indent k []
        (breaks, indent, k)
      | none =>
        let (breaks, widest, k) := takeIndentation k [] 0
        (breaks, max least widest, k)
    .ok (if k.column = indent ∧ k.rest ≠ [] then readLines folded header.chomping indent k [] breaks
      else (header.chomping.ending [] breaks, k))

end MeshLens.Yaml
