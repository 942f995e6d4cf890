import MeshLens.Text.Basic
import MeshLens.Text.LowerCase

/-!
# Completing words

A completion offers the words of a fixed vocabulary that begin with the last token of an input, one
after the other and then from the front again. The token is what follows the last stop in the
input; what comes before it stays as it is.
-/

namespace MeshLens

/-- The state of a completion. -/
structure Completion where
  /-- The words, trimmed, in lower case, each once. -/
  vocabulary : List Text
  /-- The input up to its last token. -/
  head : Text := []
  /-- The words that begin with the last token. -/
  candidates : List Text := []
  /-- The candidate offered next. -/
  cursor : Nat := 0

namespace Completion

/-- The stops used when none are given. -/
def defaultStops : List Text :=
  [[' '], ['\t'], ['\n'], ['!']]

/-- The vocabulary of a list of words: blank ones are dropped. -/
def vocabularyOf (words : List Text) : List Text :=
  ((words.filter fun w => !Text.isBlankText w).map fun w => Text.lower (Text.trim w)).eraseDups

/-- A completion over a list of words, with nothing to complete yet. -/
def ofWords (words : List Text) : Completion :=
  { vocabulary := vocabularyOf words }

/-- What follows the first listed stop that a text begins with. -/
def afterStop? (stops : List Text) (s : Text) : Option Text :=
  stops.findSome? fun stop => if stop = [] then none else Text.after? stop s

theorem length_afterStop? {stops : List Text} {s rest : Text}
    (h : afterStop? stops s = some rest) : rest.length < s.length := by
  obtain ⟨stop, _, found⟩ := List.exists_of_findSome?_eq_some h
  split at found
  · simp at found
  · have := Text.length_after? found
    have : 0 < stop.length := List.length_pos_iff.2 ‹_›
    omega

/-- What follows the last stop of a text, stops being found from left to right. -/
def afterLastStop? (stops : List Text) (s : Text) : Option Text :=
  match s with
  | [] => none
  | c :: s =>
    match found : afterStop? stops (c :: s) with
    | some rest =>
      have : rest.length < s.length + 1 := length_afterStop? found
      some ((afterLastStop? stops rest).getD rest)
    | none => afterLastStop? stops s
termination_by s.length

/-- The last token of an input. An empty stop stands between all characters, so that nothing is
left for the token. -/
def lastToken (stops : List Text) (s : Text) : Text :=
  if [] ∈ stops then [] else (afterLastStop? stops s).getD s

/-- The words of a vocabulary that begin with a token in any case; none for the empty token. -/
def matching (vocabulary : List Text) (token : Text) : List Text :=
  let needle := Text.lower token
  if needle = [] then [] else vocabulary.filter fun w => (Text.after? needle w).isSome

/-- Sets the input to complete. -/
def setInput (c : Completion) (input : Text) (stops : List Text := []) : Completion :=
  let token := lastToken (if stops = [] then defaultStops else stops) input
  { c with
    head := input.take (input.length - token.length)
    candidates := matching c.vocabulary token
    cursor := 0 }

/-- The input with its token completed by the next candidate, if there is one. -/
def next (c : Completion) : Option Text × Completion :=
  match c.candidates[c.cursor % c.candidates.length]? with
  | none => (none, c)
  | some word =>
    (some (c.head ++ word),
      { c with cursor := (c.cursor + 1) % c.candidates.length })

end Completion

end MeshLens
