import MeshLens.Text.CharClass

/-!
# Trimming, searching and splitting

Texts are taken apart as the lists that they are, so that every function here follows the list and
its laws are proved by induction on it.
-/

namespace MeshLens.Text

/-! ## Trimming -/

/-- Drops white space from the front. -/
def trimStart (s : Text) : Text :=
  s.dropWhile isBlank

/-- Drops white space from the end. -/
def trimEnd : Text → Text
  | [] => []
  | c :: rest =>
    match trimEnd rest with
    | [] => if isBlank c then [] else [c]
    | kept => c :: kept

/-- Drops white space from both ends. -/
def trim (s : Text) : Text :=
  trimEnd (trimStart s)

/-- Whether a text holds nothing but white space. -/
def isBlankText (s : Text) : Bool :=
  s.all isBlank

/-! ## Searching -/

/-- What follows `pre` in a text that begins with it. -/
def after? : (pre : Text) → Text → Option Text
  | [], s => some s
  | _ :: _, [] => none
  | p :: pre, c :: s => if p = c then after? pre s else none

/-- Whether a text ends with `post`. -/
def endsWith (post s : Text) : Bool :=
  (after? post.reverse s.reverse).isSome

/-- The parts of a text before and after the first occurrence of `sep`. -/
def breakOn (sep : Text) : Text → Option (Text × Text)
  | [] => if sep = [] then some ([], []) else none
  | c :: s =>
    match after? sep (c :: s) with
    | some rest => some ([], rest)
    | none => (breakOn sep s).map fun (before, rest) => (c :: before, rest)

/-- Whether `part` occurs in a text. -/
def occursIn (part s : Text) : Bool :=
  (breakOn part s).isSome

theorem length_after? {pre s rest : Text} (h : after? pre s = some rest) :
    s.length = pre.length + rest.length := by
  induction pre generalizing s with
  | nil => simp_all [after?]
  | cons p pre ih =>
    cases s with
    | nil => simp [after?] at h
    | cons c s =>
      simp only [after?] at h
      split at h
      · simp [ih h]; omega
      · simp at h

theorem length_breakOn {sep s before rest : Text} (h : breakOn sep s = some (before, rest)) :
    s.length = before.length + sep.length + rest.length := by
  induction s generalizing before with
  | nil => simp only [breakOn] at h; split at h <;> simp_all
  | cons c s ih =>
    simp only [breakOn] at h
    split at h
    · rename_i found
      simp only [Option.some.injEq, Prod.mk.injEq] at h
      rw [length_after? found, ← h.1, ← h.2]; simp
    · simp only [Option.map_eq_some_iff, Prod.mk.injEq, Prod.exists] at h
      obtain ⟨before', rest', found, rfl, rfl⟩ := h
      simp [ih found]; omega

/-! ## Splitting -/

/-- Puts a character in front of the first of several pieces. -/
def consFirst (c : CodePoint) : List Text → List Text
  | [] => [[c]]
  | piece :: pieces => (c :: piece) :: pieces

/-- Splits a text at every character of a class. -/
def splitWhere (sep : CodePoint → Bool) : Text → List Text
  | [] => [[]]
  | c :: s => if sep c then [] :: splitWhere sep s else consFirst c (splitWhere sep s)

/-- The words of a text: its longest runs without white space. -/
def words (s : Text) : List Text :=
  (splitWhere isBlank s).filter (· ≠ [])

/-- Splits a text at the occurrences of `sep`, found from left to right, into a first piece and the
others. A text is not split at the empty text. -/
def cutOn (sep s : Text) : Text × List Text :=
  if empty : sep = [] then (s, [])
  else
    match found : breakOn sep s with
    | none => (s, [])
    | some (before, rest) =>
      have : rest.length < s.length := by
        have := length_breakOn found
        have : 0 < sep.length := List.length_pos_iff.2 empty
        omega
      let (first, others) := cutOn sep rest
      (before, first :: others)
termination_by s.length

/-- The pieces of a text between the occurrences of `sep`; there is always one. -/
def splitOn (sep s : Text) : List Text :=
  (cutOn sep s).1 :: (cutOn sep s).2

/-- Joins pieces with `sep` between them. -/
def join (sep : Text) : List Text → Text
  | [] => []
  | [piece] => piece
  | piece :: pieces => piece ++ sep ++ join sep pieces

end MeshLens.Text
