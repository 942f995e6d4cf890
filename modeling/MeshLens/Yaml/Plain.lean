import MeshLens.Yaml.Cursor

/-!
# Plain scalars

A scalar without quotes ends before a comment, before a colon that a gap follows, at a line that
is not indented enough, or at a mark of brackets when it stands in these. The end of a line within
it is folded: a single one becomes a space, and of several the first is dropped.
-/

namespace MeshLens.Yaml

/-- How many characters of a plain scalar a text begins with. -/
def plainLength (inBrackets : Bool) : Text → Nat
  | [] => 0
  | c :: s =>
    if isGap c then 0
    else if c = ':' &&
        (s.head?.all isGap || (inBrackets && s.head?.any ((",[]\x7b\x7d" : Text).contains ·))) then
      0
    else if inBrackets && (",?[]\x7b\x7d" : Text).contains c then 0
    else plainLength inBrackets s + 1

/-- The text that the ends of lines are folded into, given the first and the others. -/
def foldBreaks (first : CodePoint) (others : Text) : Text :=
  if first ≠ '\n' then first :: others else if others = [] then [' '] else others

/-- Passes blank lines and indentation after the ends of some lines, the last one first; nothing
comes of it at the mark of a document. -/
def takeBlankLines? (k : Cursor) (breaks : Text) : Option (Text × Cursor) :=
  if k.peek? = some ' ' then takeBlankLines? k.advance breaks
  else
    match _h : k.takeBreak? with
    | none => some (breaks.reverse, k)
    | some (c, next) =>
      if next.atDocumentMark then none else takeBlankLines? next (c :: breaks)
termination_by k.rest.length
decreasing_by
  · exact Cursor.length_advance_lt ‹_›
  · exact Cursor.length_takeBreak?_lt ‹_›

/-- Passing blank lines does not lengthen the rest. -/
theorem length_takeBlankLines?_le {k next : Cursor} {breaks others : Text}
    (h : takeBlankLines? k breaks = some (others, next)) : next.rest.length ≤ k.rest.length := by
  fun_induction takeBlankLines? k breaks with
  | case1 k breaks hk ih => exact Nat.le_trans (ih h) (Nat.le_of_lt (Cursor.length_advance_lt hk))
  | case2 => cases h; exact Nat.le_refl _
  | case3 => cases h
  | case4 k breaks _ c rest hk _ ih =>
    exact Nat.le_trans (ih h) (Nat.le_of_lt (Cursor.length_takeBreak?_lt hk))

/-- What stands between two parts of a plain scalar: spaces, or the folded ends of lines; nothing
where the scalar is over. Tells also whether a line ended. -/
def takePlainGap (k : Cursor) : Text × Bool × Cursor :=
  let (spaces, k) := k.takeWhile (· == .char ' ')
  match k.takeBreak? with
  | none => (spaces, false, k)
  | some (first, k) =>
    if k.atDocumentMark then ([], true, k)
    else
      match takeBlankLines? k [] with
      | none => ([], true, k)
      | some (others, k) => (foldBreaks first others, true, k)

/-- Passing a gap does not lengthen the rest. -/
theorem length_takePlainGap_le (k : Cursor) : (takePlainGap k).2.2.rest.length ≤ k.rest.length := by
  have hk := k.length_takeWhile_le (· == .char ' ')
  unfold takePlainGap
  simp only
  split
  · exact hk
  · next hb =>
    have hb := Nat.le_trans (Nat.le_of_lt (Cursor.length_takeBreak?_lt hb)) hk
    split
    · exact hb
    · split
      · exact hb
      · next hl => exact Nat.le_trans (length_takeBlankLines?_le hl) hb

/-- A plain scalar: its text, and whether its last gap held the end of a line. -/
structure PlainText where
  text : Text
  lineEnded : Bool
  cursor : Cursor

/-- Reads a plain scalar on from some text, the last character first, and the gap after it. -/
def readPlainFrom (inBrackets : Bool) (indent : Int) (k : Cursor) (lineEnded : Bool)
    (text gap : Text) : PlainText :=
  let length := plainLength inBrackets k.rest
  if k.peek? = some '#' ∨ length = 0 then { text := text.reverse, lineEnded, cursor := k }
  else
    let text := (k.rest.take length).reverse ++ (gap.reverse ++ text)
    let gap := takePlainGap (k.skip length)
    let next := gap.2.2
    if gap.1 = [] ∨ next.peek? = some '#' ∨ (!inBrackets ∧ (next.column : Int) < indent) then
      { text := text.reverse, lineEnded := gap.2.1, cursor := next }
    else readPlainFrom inBrackets indent next gap.2.1 text gap.1
termination_by k.rest.length
decreasing_by
  have hk : k.rest ≠ [] := by
    intro hk
    have : length ≠ 0 := by grind
    simp [length, hk, plainLength] at this
  have := List.length_pos_iff.2 hk
  have := length_takePlainGap_le (k.skip (plainLength inBrackets k.rest))
  rw [Cursor.length_skip] at this
  omega

/-- Reads a plain scalar; its further lines are indented by so much at least. -/
def readPlain (inBrackets : Bool) (indent : Int) (k : Cursor) : PlainText :=
  readPlainFrom inBrackets indent k false [] []

end MeshLens.Yaml
