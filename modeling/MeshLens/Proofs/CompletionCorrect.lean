import Mathlib.Data.List.Rotate
import MeshLens.Completion
import MeshLens.Proofs.ForStd
import MeshLens.Proofs.Text.Split
import MeshLens.Proofs.Text.Trim

/-!
# What a completion offers

Setting an input cuts it behind its last stop, and looks for the words that begin with what follows. These
are then offered one after the other behind the part of the input before them, from the front whenever all
of them were offered, whatever was asked of the completion before.

## Key results

- `Completion.isSplit_lastToken`: where an input is cut
- `Completion.matching_vocabularyOf`: which words begin with a token
- `Completion.answers_eq`, `Completion.answers_perm`: in which order they are offered
- `Completion.completes`: all of this, for an input that is set in any state
-/

namespace MeshLens

/-- `Text.lower` of a text is empty only when the text is. -/
theorem Text.lower_eq_nil_iff {s : Text} : lower s = [] ↔ s = [] := by
  constructor
  · intro h
    cases s with
    | nil => rfl
    | cons c s =>
      have hchar : lowerChar c ≠ [] := by
        unfold lowerChar
        split
        · exact List.cons_ne_nil _ _
        · split
          · exact List.cons_ne_nil _ _
          · split <;> exact List.cons_ne_nil _ _
      rw [lower, lowerAfter, List.append_eq_nil_iff] at h
      split at h
      · cases h.1
      · exact absurd h.1 hchar
  · rintro rfl
    rfl

namespace Completion

/-! ## The last token -/

/-- Whether a text is a head and a token: the head ends with a stop, if it is not empty, and no stop is in
the token. -/
structure IsSplit (stops : List Text) (s head token : Text) : Prop where
  append : s = head ++ token
  head : head = [] ∨ ∃ stop ∈ stops, stop <:+ head
  token : ∀ stop ∈ stops, ¬stop <:+: token

section Token

variable {stops : List Text} {s rest : Text}

/-- `afterStop?` gives what stands behind a stop. -/
theorem eq_append_of_afterStop? (h : afterStop? stops s = some rest) :
    ∃ stop ∈ stops, s = stop ++ rest := by
  obtain ⟨stop, hstop, hfound⟩ := List.exists_of_findSome?_eq_some h
  split at hfound
  · cases hfound
  · exact ⟨stop, hstop, Text.eq_append_of_after? hfound⟩

/-- `afterStop?` fails on a text that begins with no stop. -/
theorem not_prefix_of_afterStop? (hstops : [] ∉ stops) (h : afterStop? stops s = none) :
    ∀ stop ∈ stops, ¬stop <+: s := by
  intro stop hstop hstart
  have hnone := List.findSome?_eq_none_iff.1 h stop hstop
  have hne : ¬stop = [] := fun hempty => hstops (hempty ▸ hstop)
  rw [if_neg hne, ← Option.not_isSome_iff_eq_none] at hnone
  exact hnone (Text.isSome_after?_iff.2 hstart)

/-- `afterLastStop?` gives a token, and fails on a text that is one: no stop is in it. -/
theorem afterLastStop?_spec (hstops : [] ∉ stops) (s : Text) :
    match afterLastStop? stops s with
    | some token => ∃ head, s = head ++ token ∧ (∃ stop ∈ stops, stop <:+ head) ∧
        ∀ stop ∈ stops, ¬stop <:+: token
    | none => ∀ stop ∈ stops, ¬stop <:+: s := by
  -- along the recursion, which looks for another stop behind each that is found
  fun_induction afterLastStop? stops s with
  | case1 =>
    intro stop hstop hinside
    exact hstops (List.infix_nil.1 hinside ▸ hstop)
  | case2 c s rest hfound _ ih =>
    obtain ⟨stop, hstop, hs⟩ := eq_append_of_afterStop? hfound
    cases hrest : afterLastStop? stops rest with
    | none =>
      rw [hrest] at ih
      exact ⟨stop, hs, ⟨stop, hstop, List.suffix_rfl⟩, ih⟩
    | some token =>
      -- a later stop counts
      rw [hrest] at ih
      obtain ⟨head, rfl, ⟨last, hlast, hsuffix⟩, htoken⟩ := ih
      exact ⟨stop ++ head, by rw [hs, List.append_assoc, Option.getD_some],
        ⟨last, hlast, List.suffix_append_of_suffix hsuffix⟩, htoken⟩
  | case3 c s hnone ih =>
    have hstart := not_prefix_of_afterStop? hstops hnone
    cases hrest : afterLastStop? stops s with
    | none =>
      rw [hrest] at ih
      intro stop hstop hinside
      exact (List.infix_cons_iff.1 hinside).elim (hstart stop hstop) (ih stop hstop)
    | some token =>
      rw [hrest] at ih
      obtain ⟨head, rfl, ⟨stop, hstop, hsuffix⟩, htoken⟩ := ih
      exact ⟨c :: head, rfl, ⟨stop, hstop, List.suffix_cons_iff.2 (.inr hsuffix)⟩, htoken⟩

/-- `lastToken` is the token of a split of the text. -/
theorem isSplit_lastToken (hstops : [] ∉ stops) (s : Text) :
    ∃ head, IsSplit stops s head (lastToken stops s) := by
  have hspec := afterLastStop?_spec hstops s
  rw [lastToken, if_neg hstops]
  cases hlast : afterLastStop? stops s with
  | none =>
    rw [hlast] at hspec
    exact ⟨[], rfl, .inl rfl, hspec⟩
  | some token =>
    rw [hlast] at hspec
    obtain ⟨head, hs, hhead, htoken⟩ := hspec
    exact ⟨head, hs, .inr hhead, htoken⟩

end Token

/-! ## Candidates -/

/-- `matching` gives the words, trimmed and in small letters, that begin with the token; a blank
word is none of them. -/
theorem matching_vocabularyOf (words : List Text) (token : Text) :
    matching (vocabularyOf words) token =
      if token = [] then []
      else ((words.map fun w => Text.lower (Text.trim w)).eraseDups).filter
        fun w => Text.lower token <+: w := by
  simp only [matching, Text.lower_eq_nil_iff]
  split
  · rfl
  · rename_i hne
    have hstart : (fun w => (Text.after? (Text.lower token) w).isSome) =
        fun w => decide (Text.lower token <+: w) :=
      funext fun w => by rw [Bool.eq_iff_iff, Text.isSome_after?_iff, decide_eq_true_iff]
    rw [hstart, vocabularyOf, List.filter_eraseDups, List.filter_eraseDups, List.filter_map,
      List.filter_map, List.filter_filter]
    -- what begins with the token is not empty, so the word was not blank
    refine congrArg (fun ws => (List.map _ ws).eraseDups) (List.filter_congr fun w _ => ?_)
    simp only [Function.comp_apply, Bool.and_eq_left_iff_imp, decide_eq_true_iff]
    intro hw
    cases hblank : Text.isBlankText w with
    | false => rfl
    | true =>
      have htrim : Text.trim w = [] := by
        have := Text.trim_append_blank [] (Text.isBlankText_iff.1 hblank)
        rwa [List.nil_append] at this
      rw [htrim] at hw
      exact absurd (Text.lower_eq_nil_iff.1 (List.prefix_nil.1 hw)) hne

/-! ## Calls -/

/-- What can be asked of a completion. -/
inductive Call
  | setInput (input : Text) (stops : List Text)
  | next

/-- The state after a call. -/
def perform (c : Completion) : Call → Completion
  | .setInput input stops => c.setInput input stops
  | .next => c.next.2

/-- The state after several calls. -/
def performAll (c : Completion) (calls : List Call) : Completion :=
  calls.foldl perform c

/-- What the next calls for a completed input answer. -/
def answers (c : Completion) : Nat → List (Option Text)
  | 0 => []
  | n + 1 => c.next.1 :: answers c.next.2 n

section Calls

variable (c : Completion)

/-- `perform` keeps the vocabulary. -/
theorem vocabulary_perform (call : Call) : (c.perform call).vocabulary = c.vocabulary := by
  cases call with
  | setInput input stops => rfl
  | next =>
    simp only [perform, next]
    split <;> rfl

/-- `performAll` keeps the vocabulary. -/
theorem vocabulary_performAll (calls : List Call) :
    (c.performAll calls).vocabulary = c.vocabulary := by
  induction calls generalizing c with
  | nil => rfl
  | cons call calls ih => exact (ih (c.perform call)).trans (c.vocabulary_perform call)

/-- `answers` are the candidates in turn, from the cursor on. -/
theorem answers_eq (n : Nat) :
    c.answers n = (List.range n).map fun k =>
      c.candidates[(c.cursor + k) % c.candidates.length]?.map (c.head ++ ·) := by
  induction n generalizing c with
  | zero => rfl
  | succ n ih =>
    rw [answers, ih, List.range_succ_eq_map, List.map_cons, List.map_map, Nat.add_zero]
    simp only [next]
    split
    · -- without candidates the state stays as it is
      rename_i hnone
      have hempty : c.candidates = [] := by
        have hlength := List.getElem?_eq_none_iff.1 hnone
        rw [← List.length_eq_zero_iff]
        by_contra hpos
        have := Nat.mod_lt c.cursor (Nat.pos_of_ne_zero hpos)
        omega
      simp [hempty, Function.comp_def, List.map_const']
    · rename_i word hword
      rw [hword]
      simp [Function.comp_def, Nat.add_assoc, Nat.add_comm 1]

/-- `answers` to as many calls as there are candidates offer each of them once, whichever were made
before. -/
theorem answers_perm (k : Nat) :
    ((c.answers (k + c.candidates.length)).drop k).Perm
      (c.candidates.map fun w => some (c.head ++ w)) := by
  -- the answers go round once, from wherever they are
  have hrotate : (c.answers (k + c.candidates.length)).drop k =
      (c.candidates.rotate (c.cursor + k)).map fun w => some (c.head ++ w) := by
    refine List.ext_getElem (by simp [answers_eq]) fun i hi hi' => ?_
    have hplace : c.cursor + (k + i) = i + (c.cursor + k) := by omega
    have hlt : (i + (c.cursor + k)) % c.candidates.length < c.candidates.length := by
      rw [List.length_map, List.length_rotate] at hi'
      exact Nat.mod_lt _ (by omega)
    simp only [answers_eq, List.getElem_drop, List.getElem_map, List.getElem_range,
      List.getElem_rotate, hplace, List.getElem?_eq_getElem hlt, Option.map_some]
  rw [hrotate]
  exact (List.rotate_perm _ _).map _

end Calls

/-! ## Completing an input -/

/-- The stops that an input is cut at when some are given, or none. -/
def stopsFor (stops : List Text) : List Text :=
  if stops = [] then defaultStops else stops

/-- `stopsFor` holds no empty stop when none is given. -/
theorem nil_notMem_stopsFor {stops : List Text} (hstops : [] ∉ stops) : [] ∉ stopsFor stops := by
  unfold stopsFor
  split
  · decide
  · exact hstops

/-- `setInput` cuts an input as its stops say, whatever calls came before. -/
theorem isSplit_setInput (c : Completion) (input : Text) {stops : List Text} (hstops : [] ∉ stops) :
    IsSplit (stopsFor stops) input (c.setInput input stops).head
      (lastToken (stopsFor stops) input) := by
  obtain ⟨head, hsplit⟩ := isSplit_lastToken (nil_notMem_stopsFor hstops) input
  have hhead : (c.setInput input stops).head = head := by
    show input.take (input.length - (lastToken (stopsFor stops) input).length) = head
    generalize lastToken (stopsFor stops) input = token at hsplit ⊢
    rw [hsplit.append, List.length_append, Nat.add_sub_cancel, List.take_left]
  rwa [hhead]

/-- After any calls, setting an input cuts it behind its last stop, and the next calls complete it by the
words that begin with its last token in any case, in turn and over again. -/
theorem completes (words : List Text) (before : List Call) (input : Text) {stops : List Text}
    (hstops : [] ∉ stops) :
    let c := ((ofWords words).performAll before).setInput input stops
    ∃ token, IsSplit (stopsFor stops) input c.head token ∧
      c.candidates = (if token = [] then []
        else ((words.map fun w => Text.lower (Text.trim w)).eraseDups).filter
          fun w => Text.lower token <+: w) ∧
      c.candidates.Nodup ∧
      (∀ n, c.answers n = (List.range n).map fun k =>
        c.candidates[k % c.candidates.length]?.map (c.head ++ ·)) ∧
      ∀ k, ((c.answers (k + c.candidates.length)).drop k).Perm
        (c.candidates.map fun w => some (c.head ++ w)) := by
  intro c
  have hcandidates : c.candidates = _ :=
    (congrArg (matching · (lastToken (stopsFor stops) input))
      (vocabulary_performAll (ofWords words) before)).trans (matching_vocabularyOf words _)
  refine ⟨lastToken (stopsFor stops) input, isSplit_setInput _ input hstops, hcandidates, ?_,
    fun n => ?_, c.answers_perm⟩
  · rw [hcandidates]
    split
    · exact List.nodup_nil
    · exact (List.nodup_eraseDups _).filter _
  · -- the cursor stands at the front
    have hcursor : c.cursor = 0 := rfl
    rw [c.answers_eq n, hcursor]
    simp only [Nat.zero_add]

/-- Two stops overlap in the input, and two of the words come to the same. -/
theorem completes_overlapping :
    let words : List Text := ["Apply", " app ", "", "apple", "APP", "ape"]
    let before : List Call := [.setInput "ap" [], .next, .next]
    let c := ((ofWords words).performAll before).setInput "fo!oApp" ["!o", "o"]
    let offered : List Text := ["fo!oapply", "fo!oapp", "fo!oapple", "fo!oapply"]
    c.answers 4 = offered.map some := by
  intro words before c offered
  have hstops : [] ∉ (["!o", "o"] : List Text) := by decide
  obtain ⟨-, -, -, -, hanswers, -⟩ := completes words before "fo!oApp" hstops
  have hcandidates : c.candidates = ["apply", "app", "apple"] := by decide +kernel
  have hhead : c.head = "fo!o" := by decide +kernel
  refine (hanswers 4).trans ?_
  rw [hcandidates, hhead]
  decide

end Completion

end MeshLens
