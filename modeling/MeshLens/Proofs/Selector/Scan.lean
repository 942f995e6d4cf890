import MeshLens.Proofs.Text.Split
import MeshLens.Query.Basic
import MeshLens.Selector.Reader

/-!
# Quotes and brackets in selectors

A selector text is scanned twice: once to cut it at commas, and once to find the bracket that
closes a predicate. Both scans pass over quoted text. What they may pass over as a whole is the
same: a text whose quotes are closed at its end and that has no bracket outside of them.

## Key results

- `sealed_of_plain`: a text without quotes and brackets is such a text
- `readBracketed_sealed`: reading up to the closing bracket gives such a text back
- `splitGroups_join`: cutting at commas undoes joining with commas
- `unescape_escape`: reading an escaped value gives the value back
-/

namespace MeshLens

namespace Criterion

/-! ## Escaping -/

/-- `escape` of the empty text. -/
@[simp] theorem escape_nil : escape [] = [] := rfl

/-- `escape` puts a backslash in front of a backslash and of a quote. -/
theorem escape_cons_of_special {c : CodePoint} (h : c = '\\' ∨ c = '"') (s : Text) :
    escape (c :: s) = .char '\\' :: c :: escape s := by
  simp only [escape, List.flatMap_cons, if_pos h]
  rfl

/-- `escape` leaves every other character. -/
theorem escape_cons_of_plain {c : CodePoint} (h : ¬(c = '\\' ∨ c = '"')) (s : Text) :
    escape (c :: s) = c :: escape s := by
  simp only [escape, List.flatMap_cons, if_neg h]
  rfl

end Criterion

namespace Selector

/-- `unescape` leaves every character but a backslash. -/
theorem unescape_cons_of_plain {c : CodePoint} (h : c ≠ '\\') (s : Text) :
    unescape (c :: s) = c :: unescape s := by
  cases s <;> simp [unescape, h]

/-- `unescape` undoes `escape`. -/
theorem unescape_escape (s : Text) : unescape (Criterion.escape s) = s := by
  induction s with
  | nil => rfl
  | cons c s ih =>
    by_cases hc : c = '\\' ∨ c = '"'
    · rw [Criterion.escape_cons_of_special hc, unescape, ih]
    · rw [Criterion.escape_cons_of_plain hc,
        unescape_cons_of_plain (fun h => hc (.inl h)), ih]

end Selector

namespace Quoting

/-! ## Sealed texts -/

/-- Whether a text that is entered in a given state closes its quotes and has no bracket outside of
them. -/
def Sealed : Quoting → Text → Prop
  | q, [] => q = .outside
  | q, c :: s => (q = .outside → c ≠ '[' ∧ c ≠ ']') ∧ Sealed (q.step c) s

/-- `Sealed` texts may be followed by one another. -/
theorem Sealed.append {q : Quoting} {s t : Text} (hs : Sealed q s) (ht : Sealed .outside t) :
    Sealed q (s ++ t) := by
  induction s generalizing q with
  | nil =>
    rw [Sealed] at hs
    rw [hs, List.nil_append]
    exact ht
  | cons c s ih => exact ⟨hs.1, ih hs.2⟩

/-- `Sealed` does not depend on a text in front without quotes and brackets. -/
theorem sealed_plain_append {gap : Text} (h : ∀ c ∈ gap, c ≠ '"' ∧ c ≠ '[' ∧ c ≠ ']') (rest : Text) :
    Sealed .outside (gap ++ rest) ↔ Sealed .outside rest := by
  induction gap with
  | nil => rfl
  | cons c gap ih =>
    obtain ⟨hquote, hbrackets⟩ := h c List.mem_cons_self
    rw [List.cons_append, Sealed, step, if_neg hquote, ih fun d hd => h d (List.mem_cons_of_mem _ hd)]
    exact and_iff_right fun _ => hbrackets

/-- `Sealed` holds of a text without quotes and brackets. -/
theorem sealed_of_plain {s : Text} (h : ∀ c ∈ s, c ≠ '"' ∧ c ≠ '[' ∧ c ≠ ']') :
    Sealed .outside s := by
  have hsealed := (sealed_plain_append h []).2 rfl
  rwa [List.append_nil] at hsealed

end Quoting

namespace Selector

open Quoting

/-- `readBracketed` passes over a sealed text up to the closing bracket. -/
theorem readBracketed_sealed {q : Quoting} {s : Text} (hs : Sealed q s) (rest : Text) :
    readBracketed q (s ++ .char ']' :: rest) = some (s, rest) := by
  induction s generalizing q with
  | nil =>
    rw [Sealed] at hs
    simp [readBracketed, hs]
  | cons c s ih =>
    -- a bracket that closes is inside quotes
    have hc : ¬(q = .outside ∧ c = ']') := fun h => (hs.1 h.1).2 h.2
    simp [readBracketed, hc, ih hs.2]

/-! ## Cutting at commas -/

/-- `cutGroups` passes over a sealed text inside brackets. -/
private theorem cutGroups_sealed {q : Quoting} {s t : Text} {piece : Text} {pieces : List Text}
    (hs : Sealed q s) (ht : cutGroups .outside 1 t = some (piece :: pieces)) :
    cutGroups q 1 (s ++ t) = some ((s ++ piece) :: pieces) := by
  induction s generalizing q with
  | nil =>
    rw [Sealed] at hs
    rw [hs]
    exact ht
  | cons c s ih =>
    -- brackets count outside of quotes only, and there are none
    have hdepth : (if q = .outside then depthAfter 1 c else 1) = 1 := by
      split
      · rename_i hq
        rw [depthAfter, if_neg (hs.1 hq).1, if_neg (hs.1 hq).2]
      · rfl
    rw [List.cons_append, cutGroups, if_neg (by simp), hdepth, ih hs.2]
    rfl

/-- A text that is not cut when it stands in front of another one. -/
def Uncut (s : Text) : Prop :=
  ∀ (t piece : Text) (pieces : List Text), splitGroups t = some (piece :: pieces) →
    splitGroups (s ++ t) = some ((s ++ piece) :: pieces)

/-- `Uncut` texts may follow one another. -/
theorem Uncut.append {s t : Text} (hs : Uncut s) (ht : Uncut t) : Uncut (s ++ t) := by
  intro u piece pieces hu
  rw [List.append_assoc, List.append_assoc]
  exact hs _ _ _ (ht _ _ _ hu)

/-- `Uncut` holds of a text without commas, quotes and brackets. -/
theorem uncut_of_plain {s : Text} (h : ∀ c ∈ s, c ≠ ',' ∧ c ≠ '"' ∧ c ≠ '[' ∧ c ≠ ']') :
    Uncut s := by
  intro t piece pieces ht
  induction s with
  | nil => exact ht
  | cons c s ih =>
    obtain ⟨hcomma, hquote, hopen, hclose⟩ := h c List.mem_cons_self
    have hrest : cutGroups .outside 0 (s ++ t) = some ((s ++ piece) :: pieces) :=
      ih fun d hd => h d (List.mem_cons_of_mem _ hd)
    rw [List.cons_append, splitGroups, cutGroups, if_neg fun hc => hcomma hc.2.1, if_pos rfl,
      depthAfter, if_neg hopen, if_neg hclose, step, if_neg hquote, hrest]
    rfl

/-- `Uncut` holds of a sealed text between brackets. -/
theorem uncut_bracketed {s : Text} (hs : Sealed .outside s) : Uncut (.char '[' :: (s ++ [.char ']'])) := by
  intro t piece pieces ht
  have hclose : cutGroups .outside 1 (.char ']' :: t) = some ((.char ']' :: piece) :: pieces) := by
    have ht' : cutGroups .outside 0 t = some (piece :: pieces) := ht
    rw [cutGroups, if_neg (by simp)]
    show (cutGroups .outside 0 t).map (Text.consFirst ']') = _
    rw [ht']
    rfl
  -- the opening bracket goes one level down, the closing one comes back
  have hbody := cutGroups_sealed hs hclose
  rw [List.cons_append, List.append_assoc, splitGroups, cutGroups, if_neg (by simp)]
  show (cutGroups .outside 1 (s ++ .char ']' :: t)).map (Text.consFirst '[') = _
  rw [hbody]
  simp [Text.consFirst]

/-- `splitGroups` cuts at a comma. -/
theorem splitGroups_comma {t : Text} {pieces : List Text} (ht : splitGroups t = some pieces) :
    splitGroups (.char ',' :: t) = some ([] :: pieces) := by
  rw [splitGroups, cutGroups, if_pos ⟨rfl, rfl, rfl⟩]
  have ht' : cutGroups .outside 0 t = some pieces := ht
  rw [ht']
  rfl

/-- `splitGroups` undoes `Text.join` with commas. -/
theorem splitGroups_join {parts : List Text} (hne : parts ≠ []) (h : ∀ s ∈ parts, Uncut s) :
    splitGroups (Text.join "," parts) = some parts := by
  induction parts with
  | nil => exact absurd rfl hne
  | cons s parts ih =>
    have hs := h s List.mem_cons_self
    cases parts with
    | nil =>
      have := hs [] [] [] rfl
      rwa [List.append_nil] at this
    | cons s' parts =>
      have hrest := ih (List.cons_ne_nil _ _) fun t ht => h t (List.mem_cons_of_mem _ ht)
      -- behind the first piece comes a comma, and behind that what is split by induction
      have := hs _ _ _ (splitGroups_comma hrest)
      rw [List.append_nil] at this
      rw [Text.join_cons _ _ (List.cons_ne_nil _ _)]
      exact this

end Selector

end MeshLens
