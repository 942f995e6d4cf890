import MeshLens.Text.CodePoint

/-!
# Control sequences

Text for a terminal may hold control sequences, which change how it is shown and are not shown
themselves. A sequence is an escape character, an opening bracket, any parameters, any
intermediates, and one final character.
-/

namespace MeshLens.Text

/-- Whether a character lies between two others, these included. -/
def isBetween (low high c : CodePoint) : Bool :=
  low ≤ c && c ≤ high

/-- What follows the control sequence that a text begins with. -/
def afterSequence? : Text → Option Text
  | '\x1b' :: '[' :: s =>
    match (s.dropWhile (isBetween '0' '?')).dropWhile (isBetween ' ' '/') with
    | c :: rest => if isBetween '@' '~' c then some rest else none
    | [] => none
  | _ => none

theorem length_dropWhile_le (p : CodePoint → Bool) (s : Text) :
    (s.dropWhile p).length ≤ s.length :=
  (List.dropWhile_sublist p).length_le

theorem length_afterSequence? {s rest : Text} (h : afterSequence? s = some rest) :
    rest.length < s.length := by
  unfold afterSequence? at h
  split at h
  · rename_i s
    split at h
    · rename_i c r found
      split at h
      · have first := length_dropWhile_le (isBetween '0' '?') s
        have second := length_dropWhile_le (isBetween ' ' '/') (s.dropWhile (isBetween '0' '?'))
        simp only [found, List.length_cons, Option.some.injEq] at second h
        subst h
        simp only [List.length_cons]
        omega
      · simp at h
    · simp at h
  · simp at h

/-- A text without its control sequences. -/
def withoutSequences : Text → Text
  | [] => []
  | c :: s =>
    match _found : afterSequence? (c :: s) with
    | some rest => withoutSequences rest
    | none => c :: withoutSequences s
termination_by s => s.length
decreasing_by
  · exact length_afterSequence? ‹_›
  · exact Nat.lt_succ_self _

end MeshLens.Text
