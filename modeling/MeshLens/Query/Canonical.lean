import MeshLens.Text.Basic

/-!
# The canonical text of a query

Users may spell operators as words and leave out or repeat spaces. The canonical text has single
spaces, operators as symbols, and the conjunctions ` AND ` and ` OR ` in capitals. It is made by
respelling the text in a fixed order; a respelling looks for a word between spaces, in any case.
-/

namespace MeshLens.Query

/-- Leaves one space of every run of spaces. -/
def collapse : Text → Text
  | [] => []
  | c :: s => if c = ' ' ∧ s.head? = some ' ' then collapse s else c :: collapse s

/-- Whether a character is a given small letter or another form of it. -/
def isFormOf (letter c : CodePoint) : Bool :=
  c == letter || ('A' ≤ c && c ≤ 'Z' && c.toNat + 32 == letter.toNat) ||
    (letter == 's' && c == 'ſ') || (letter == 'i' && (c == 'İ' || c == 'ı'))

/-- What follows a word in a text that begins with it in any case. -/
def afterWord? : (word : Text) → Text → Option Text
  | [], s => some s
  | _ :: _, [] => none
  | w :: word, c :: s => if isFormOf w c then afterWord? word s else none

/-- A respelling of a word between spaces. -/
structure Respelling where
  /-- Whether an exclamation mark comes before the word, perhaps with white space between. -/
  marked : Bool := false
  word : Text
  replacement : Text

namespace Respelling

/-- What follows the respelled part of a text that begins with it. -/
def rest? (r : Respelling) : Text → Option Text
  | ' ' :: s =>
    let s? := if r.marked then (Text.after? ['!'] s).map Text.trimStart else some s
    s?.bind fun s => (afterWord? r.word s).bind fun s => Text.after? [' '] s
  | _ => none

theorem length_afterWord? {word s rest : Text} (h : afterWord? word s = some rest) :
    rest.length ≤ s.length := by
  induction word generalizing s with
  | nil => simp_all [afterWord?]
  | cons w word ih =>
    cases s with
    | nil => simp [afterWord?] at h
    | cons c s =>
      simp only [afterWord?] at h
      split at h
      · have := ih h; simp only [List.length_cons]; omega
      · simp at h

theorem length_rest? {r : Respelling} {s rest : Text} (h : r.rest? s = some rest) :
    rest.length < s.length := by
  unfold rest? at h
  split at h
  · rename_i s
    simp only [Option.bind_eq_some_iff] at h
    obtain ⟨t, ht, u, hu, hrest⟩ := h
    have hlen : t.length ≤ s.length := by
      split at ht
      · simp only [Option.map_eq_some_iff] at ht
        obtain ⟨v, hv, rfl⟩ := ht
        have h1 := Text.length_after? hv
        have h2 := (List.dropWhile_sublist Text.isBlank (l := v)).length_le
        simp only [Text.trimStart]
        omega
      · simp_all
    have h1 := length_afterWord? hu
    have h2 := Text.length_after? hrest
    simp only [List.length_cons] at h2 ⊢
    omega
  · simp at h

/-- Respells a text from left to right; what was put in is not looked at again. -/
def apply (r : Respelling) (s : Text) : Text :=
  match s with
  | [] => []
  | c :: s =>
    match found : r.rest? (c :: s) with
    | some rest =>
      have : rest.length < s.length + 1 := length_rest? found
      r.replacement ++ apply r rest
    | none => c :: apply r s
termination_by s.length

end Respelling

/-- The respellings in order: qualifiers are dropped first, then words become operators, and the
conjunctions come last. -/
def respellings : List Respelling := [
  { word := "is", replacement := " " },
  { word := "has", replacement := " " },
  { marked := true, word := "is", replacement := " ! " },
  { marked := true, word := "has", replacement := " ! " },
  { word := "not", replacement := " !" },
  { marked := true, word := "contains", replacement := " !*= " },
  { marked := true, word := "startswith", replacement := " !^= " },
  { marked := true, word := "endswith", replacement := " !$= " },
  { word := "contains", replacement := " *= " },
  { word := "startswith", replacement := " ^= " },
  { word := "endswith", replacement := " $= " },
  { word := "and", replacement := " AND " },
  { word := "or", replacement := " OR " }]

/-- The canonical text of a query. A space is put in front of it first, so that a word at the
front can be respelled too. -/
def canonical (s : Text) : Text :=
  Text.trim (respellings.foldl (fun s r => r.apply s) (' ' :: collapse s))

end MeshLens.Query
