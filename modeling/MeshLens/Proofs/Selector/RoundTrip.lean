import MeshLens.Proofs.Selector.ReadBack

/-!
# Selectors with any values

How a selector is written for given groups: the text of a value is escaped and put between quotes, so
that it may hold anything. Then the selector reads back as it was meant, and two selectors with a comma
between them read as the groups of both.

## Key results

- `Predicate.Spelling`, `SelectorGroup.Spelling`: the syntax with escaped texts between quotes
- `Selector.parse_join`: the texts of groups, joined with commas, read back as the groups
- `Selector.parse_append`: the groups of two selectors with a comma between
-/

namespace MeshLens

/-! ## Groups -/

/-- Whether a text is the escaped form of some text. -/
def Selector.IsEscaped (content : Text) : Prop :=
  ∃ value, Criterion.escape value = content

/-- `IsEscaped` texts may stand between quotes. -/
theorem Selector.IsEscaped.enclosed {content : Text} (h : IsEscaped content) : Enclosed content := by
  obtain ⟨value, rfl⟩ := h
  exact enclosed_escape value

/-- The ways of writing a predicate between its brackets: a text that it compares with is escaped and put
between quotes. -/
def Predicate.Spelling (p : Predicate) (s : Text) : Prop :=
  p.Written Selector.IsEscaped s

/-- The ways of writing a group in which every text is escaped and put between quotes. -/
def SelectorGroup.Spelling (g : SelectorGroup) (s : Text) : Prop :=
  g.Written Selector.IsEscaped s

/-- `Criterion.escape` of any text is a way of writing it, as `unescape` undoes it. -/
theorem Predicate.valueWritten_escape (value : Text) :
    ValueWritten Selector.IsEscaped (.text value)
      (.char '"' :: (Criterion.escape value ++ [.char '"'])) := by
  have hwritten : ValueWritten Selector.IsEscaped _ _ := .text ⟨value, rfl⟩
  rwa [Selector.unescape_escape] at hwritten

namespace Selector

/-! ## Selectors -/

/-- `parse` reads the texts of groups, joined with commas, back as the groups. -/
theorem parse_join {groups : List SelectorGroup} {parts : List Text} (hne : groups ≠ [])
    (h : List.Forall₂ SelectorGroup.Spelling groups parts) :
    parse (Text.join "," parts) = .ok ⟨Text.join "," parts, groups⟩ :=
  Written.parse_eq ⟨hne, parts, rfl, h.imp fun _ _ hg => hg.mono fun _ hcontent => .single hcontent.enclosed⟩

/-! ### A comma between two selectors -/

/-- `cutGroups` always finds a first piece. -/
theorem cutGroups_ne_nil {q : Quoting} {depth : Int} {s : Text} {pieces : List Text}
    (h : cutGroups q depth s = some pieces) : pieces ≠ [] := by
  cases s with
  | nil =>
    rw [cutGroups] at h
    split at h <;> cases h
    exact List.cons_ne_nil _ _
  | cons c s =>
    rw [cutGroups] at h
    split at h
    all_goals
      obtain ⟨rest, -, rfl⟩ := Option.map_eq_some_iff.1 h
      cases rest <;> exact List.cons_ne_nil _ _

/-- `Text.consFirst` goes to the first piece, whatever pieces follow. -/
theorem consFirst_append (c : CodePoint) {pieces : List Text} (h : pieces ≠ [])
    (others : List Text) :
    Text.consFirst c (pieces ++ others) = Text.consFirst c pieces ++ others := by
  obtain ⟨piece, pieces, rfl⟩ := List.exists_cons_of_ne_nil h
  rfl

/-- `cutGroups` of a text that can be cut leads out of quotes and brackets, so what follows a comma
behind it is cut by itself. -/
theorem cutGroups_append_comma {t : Text} {others : List Text} (ht : splitGroups t = some others)
    {q : Quoting} {depth : Int} {s : Text} {pieces : List Text}
    (hs : cutGroups q depth s = some pieces) :
    cutGroups q depth (s ++ .char ',' :: t) = some (pieces ++ others) := by
  -- induction on the first text, which is cut in the same places with the second one behind it
  induction s generalizing q depth pieces with
  | nil =>
    rw [cutGroups] at hs
    split at hs
    · rename_i hend
      obtain ⟨rfl, rfl⟩ := hend
      cases hs
      exact splitGroups_comma ht
    · cases hs
  | cons c s ih =>
    rw [cutGroups] at hs
    rw [List.cons_append, cutGroups]
    split at hs
    all_goals
      rename_i hcomma
      obtain ⟨rest, hrest, rfl⟩ := Option.map_eq_some_iff.1 hs
    · rw [if_pos hcomma, ih hrest]
      rfl
    · rw [if_neg hcomma, ih hrest, Option.map_some,
        consFirst_append c (cutGroups_ne_nil hrest)]

/-- `readGroups` of two lists of pieces one after the other. -/
theorem readGroups_append {as bs : List Text} {gs hs : List SelectorGroup}
    (ha : readGroups as = .ok gs) (hb : readGroups bs = .ok hs) :
    readGroups (as ++ bs) = .ok (gs ++ hs) := by
  induction as generalizing gs with
  | nil =>
    cases ha
    exact hb
  | cons a as ih =>
    rw [readGroups] at ha
    rw [List.cons_append, readGroups]
    split at ha
    · cases ha
    · rename_i g hg
      -- the first part that fails would fail the whole reading
      cases hrest : readGroups as with
      | error fault =>
        rw [hrest] at ha
        cases ha
      | ok rest =>
        rw [hrest] at ha
        cases ha
        rw [ih hrest]
        rfl

/-- `parse` of two selectors with a comma between gives the groups of the one and those of the
other. -/
theorem parse_append {a b : Text} {s t : Selector} (hs : parse a = .ok s) (ht : parse b = .ok t) :
    parse (a ++ "," ++ b) = .ok ⟨a ++ "," ++ b, s.groups ++ t.groups⟩ := by
  obtain ⟨-, hblank, as, hsplit, hread⟩ := parse_eq_ok_iff.1 hs
  obtain ⟨-, -, bs, hsplit', hread'⟩ := parse_eq_ok_iff.1 ht
  refine parse_eq_ok_iff.2 ⟨rfl, ?_, as ++ bs, ?_, readGroups_append hread hread'⟩
  · rw [List.append_assoc]
    exact isBlankText_append_left hblank _
  · rw [List.append_assoc]
    exact cutGroups_append_comma hsplit' hsplit

end Selector

end MeshLens
