import MeshLens.Proofs.Text.Trim

/-!
# Splitting and joining

A text that was joined from pieces is split into them again, when the separator is found in no piece
and not across its end. Texts of words with single spaces are of this kind, when the separator is a
word between spaces that is none of the words.

## Key results

- `cutOn_join`, `cutOn_words`: pieces come apart as they were joined
- `join_splitOn`: pieces of a text, joined again, are the text
- `breakOn_spaced`: where a word between spaces is found among words
- `occursIn_append_append`: what can only occur in the middle of a text
-/

namespace MeshLens.Text

/-! ## Prefixes -/

/-- `after?` of a text that was put in front gives what stands behind it. -/
theorem after?_append (pre s : Text) : after? pre (pre ++ s) = some s := by
  induction pre with
  | nil => rfl
  | cons p pre ih => rw [List.cons_append, after?, if_pos rfl, ih]

/-- `after?` gives what stands behind the text that was looked for. -/
theorem eq_append_of_after? {pre s rest : Text} (h : after? pre s = some rest) : s = pre ++ rest := by
  -- induction on the text looked for, read along with `s`
  induction pre generalizing s with
  | nil => exact Option.some.inj h
  | cons p pre ih =>
    cases s with
    | nil => cases h
    | cons c s =>
      rw [after?] at h
      split at h
      · rename_i hpc
        rw [ih h, hpc, List.cons_append]
      · cases h

/-- `after?` succeeds exactly on the texts that begin with the one looked for. -/
theorem isSome_after?_iff {pre s : Text} : (after? pre s).isSome = true ↔ pre <+: s := by
  constructor
  · intro h
    obtain ⟨rest, hrest⟩ := Option.isSome_iff_exists.1 h
    exact ⟨rest, (eq_append_of_after? hrest).symm⟩
  · rintro ⟨rest, rfl⟩
    rw [after?_append]
    rfl

/-- `after?` fails on a longer text too, unless what follows begins with a character looked for. -/
theorem after?_append_eq_none {pre s t : Text} (h : after? pre s = none)
    (ht : ∀ c, t.head? = some c → c ∉ pre) : after? pre (s ++ t) = none := by
  induction pre generalizing s with
  | nil => cases h
  | cons p pre ih =>
    cases s with
    | nil =>
      cases t with
      -- the text ends before what is looked for does, and what follows cannot go on with it
      | nil => rfl
      | cons c t =>
        have hpc : ¬p = c := fun hpc => ht c rfl (hpc ▸ List.mem_cons_self)
        rw [List.nil_append, after?, if_neg hpc]
    | cons c s =>
      rw [after?] at h
      rw [List.cons_append, after?]
      split
      · rename_i hpc
        rw [if_pos hpc] at h
        exact ih h fun d hd hmem => ht d hd (List.mem_cons_of_mem _ hmem)
      · rfl

/-! ## The first occurrence -/

/-- `breakOn` passes over a text that does not hold the first character of the separator. -/
theorem breakOn_append {c : CodePoint} {a : Text} (ha : c ∉ a) (sep s : Text) :
    breakOn (c :: sep) (a ++ s) =
      (breakOn (c :: sep) s).map fun (before, rest) => (a ++ before, rest) := by
  induction a with
  | nil =>
    rw [List.nil_append]
    cases breakOn (c :: sep) s <;> rfl
  | cons d a ih =>
    -- the separator cannot begin at `d`
    have hcd : ¬c = d := fun h => ha (h ▸ List.mem_cons_self)
    rw [List.cons_append, breakOn, after?, if_neg hcd]
    simp only
    rw [ih fun h => ha (List.mem_cons_of_mem _ h), Option.map_map]
    rfl

/-- `breakOn` finds no separator in a text that does not hold its first character. -/
theorem breakOn_eq_none {c : CodePoint} {a : Text} (ha : c ∉ a) (sep : Text) :
    breakOn (c :: sep) a = none := by
  have := breakOn_append ha sep []
  rw [List.append_nil] at this
  rw [this, breakOn, if_neg (List.cons_ne_nil _ _)]
  rfl

/-- `breakOn` finds a separator at the front. -/
theorem breakOn_self (c : CodePoint) (sep s : Text) :
    breakOn (c :: sep) (c :: sep ++ s) = some ([], s) := by
  have := after?_append (c :: sep) s
  rw [List.cons_append] at this ⊢
  rw [breakOn, this]

/-- `breakOn` finds a character behind a text that does not hold it. -/
theorem breakOn_singleton {c : CodePoint} {a : Text} (ha : c ∉ a) (s : Text) :
    breakOn [c] (a ++ c :: s) = some (a, s) := by
  have hself : breakOn [c] (c :: s) = some ([], s) := breakOn_self c [] s
  rw [breakOn_append ha, hself]
  simp

/-- `breakOn` fails exactly where the separator does not occur. -/
theorem breakOn_eq_none_iff {sep s : Text} : breakOn sep s = none ↔ ¬sep <:+: s := by
  induction s with
  | nil => by_cases hsep : sep = [] <;> simp [breakOn, hsep]
  | cons c s ih =>
    rw [List.infix_cons_iff, not_or, ← ih, ← isSome_after?_iff, breakOn]
    cases after? sep (c :: s) <;> simp

/-- `occursIn` answers whether one text stands inside another. -/
theorem occursIn_iff {sep s : Text} : occursIn sep s = true ↔ sep <:+: s := by
  rw [occursIn, Option.isSome_iff_ne_none, Ne, breakOn_eq_none_iff, Decidable.not_not]

/-! ## Joining -/

/-- `join` puts the separator behind a piece when more pieces follow. -/
theorem join_cons (sep p : Text) {ps : List Text} (h : ps ≠ []) :
    join sep (p :: ps) = p ++ (sep ++ join sep ps) := by
  rw [join, List.append_assoc]
  exact h

/-- Each piece stands inside what `join` makes of the pieces. -/
theorem infix_join (sep : Text) {p : Text} {ps : List Text} (h : p ∈ ps) : p <:+: join sep ps := by
  induction ps with
  | nil => cases h
  | cons q ps ih =>
    cases ps with
    | nil => rw [List.mem_singleton.1 h]; exact List.infix_refl _
    | cons r ps =>
      rw [join_cons sep q (List.cons_ne_nil r ps)]
      rcases List.mem_cons.1 h with rfl | h
      · exact (List.prefix_append _ _).isInfix
      · rw [← List.append_assoc]
        exact (ih h).trans (List.suffix_append _ _).isInfix

/-- `join` loses no character of a piece. -/
theorem subset_join (sep : Text) {p : Text} {ps : List Text} (h : p ∈ ps) : p ⊆ join sep ps :=
  (infix_join sep h).subset

/-- `join` of two lists of pieces is both joined, with the separator between them. -/
theorem join_append (sep : Text) {ps qs : List Text} (hps : ps ≠ []) (hqs : qs ≠ []) :
    join sep (ps ++ qs) = join sep ps ++ (sep ++ join sep qs) := by
  induction ps with
  | nil => exact absurd rfl hps
  | cons p ps ih =>
    cases ps with
    | nil => rw [List.singleton_append, join_cons sep p hqs, join]
    | cons p' ps =>
      rw [List.cons_append, join_cons sep p (List.cons_ne_nil _ _),
        join_cons sep p (by simp), ih (List.cons_ne_nil _ _)]
      simp only [List.append_assoc]

/-- `join` of what was joined is `join` of all pieces, when no list of pieces is empty. -/
theorem join_join (sep : Text) {pieces : List (List Text)} (h : ∀ ps ∈ pieces, ps ≠ []) :
    join sep (pieces.map (join sep)) = join sep pieces.flatten := by
  induction pieces with
  | nil => rfl
  | cons ps pieces ih =>
    have hps := h ps List.mem_cons_self
    have hrest := ih fun qs hqs => h qs (List.mem_cons_of_mem _ hqs)
    -- the last list of pieces has no separator behind it
    cases pieces with
    | nil => simp [join]
    | cons qs pieces =>
      have hflat : (qs :: pieces).flatten ≠ [] := by
        have := h qs (by simp)
        simp [this]
      rw [List.flatten_cons, join_append sep hps hflat, ← hrest, List.map_cons,
        join_cons sep _ (by simp)]

/-! ## Splitting -/

/-- `cutOn` leaves a text whole in which the separator is not found. -/
theorem cutOn_of_none {sep s : Text} (h : breakOn sep s = none) : cutOn sep s = (s, []) := by
  rw [cutOn]
  split
  · rfl
  · split
    · rfl
    · rename_i hsome
      rw [h] at hsome
      cases hsome

/-- `cutOn` cuts a text where `breakOn` does, and goes on behind the separator. -/
theorem cutOn_of_some {sep s before rest : Text} (hsep : sep ≠ [])
    (h : breakOn sep s = some (before, rest)) :
    cutOn sep s = (before, (cutOn sep rest).1 :: (cutOn sep rest).2) := by
  -- `rw` alone would open the calls on the right as well
  conv => lhs; rw [cutOn]
  split
  · rename_i hnil
    exact absurd hnil hsep
  · split
    · rename_i hnone
      rw [h] at hnone
      cases hnone
    · rename_i hsome
      rw [h] at hsome
      cases hsome
      rfl

/-- `cutOn` cuts a text in which the separator stands. -/
theorem exists_cutOn_of_infix {sep s : Text} (h : sep <:+: s) (hsep : sep ≠ []) :
    ∃ first second rest, cutOn sep s = (first, second :: rest) := by
  cases hbreak : breakOn sep s with
  | none => exact absurd h (breakOn_eq_none_iff.1 hbreak)
  | some found => exact ⟨_, _, _, cutOn_of_some hsep hbreak⟩

/-- `cutOn` takes apart what `join` put together, when the separator ends no piece too early. -/
theorem cutOn_join {sep : Text} (hsep : sep ≠ []) {p : Text} {ps : List Text}
    (hend : ∀ q ∈ p :: ps, breakOn sep q = none)
    (hnext : ∀ q ∈ p :: ps, ∀ rest, breakOn sep (q ++ (sep ++ rest)) = some (q, rest)) :
    cutOn sep (join sep (p :: ps)) = (p, ps) := by
  induction ps generalizing p with
  | nil => exact cutOn_of_none (hend p List.mem_cons_self)
  | cons q ps ih =>
    have hrest := ih (fun r hr => hend r (List.mem_cons_of_mem _ hr))
      fun r hr => hnext r (List.mem_cons_of_mem _ hr)
    rw [join_cons sep p (List.cons_ne_nil _ _), cutOn_of_some hsep (hnext p List.mem_cons_self _),
      hrest]

/-- `breakOn` gives what stands before the separator and what stands behind it. -/
theorem eq_append_of_breakOn {sep s before rest : Text} (h : breakOn sep s = some (before, rest)) :
    s = before ++ (sep ++ rest) := by
  induction s generalizing before with
  | nil =>
    rw [breakOn] at h
    -- the separator starts here, or nothing is left to find it in
    split at h
    · rename_i hsep
      cases h
      rw [hsep]
      rfl
    · cases h
  | cons c s ih =>
    rw [breakOn] at h
    split at h
    · rename_i hafter
      cases h
      rw [List.nil_append]
      -- the separator starts here, or it is found in the rest
      exact eq_append_of_after? hafter
    · obtain ⟨found, hfound, hsame⟩ := Option.map_eq_some_iff.1 h
      cases hsame
      rw [ih hfound, List.cons_append]

/-- `breakOn` of a single character fails exactly where the character does not occur. -/
theorem breakOn_singleton_eq_none_iff {c : CodePoint} {s : Text} : breakOn [c] s = none ↔ c ∉ s := by
  refine ⟨fun h hc => ?_, fun h => breakOn_eq_none h []⟩
  obtain ⟨before, rest, hs, hbefore⟩ := List.eq_append_cons_of_mem hc
  have hfound : breakOn [c] (c :: rest) = some ([], rest) := breakOn_self c [] rest
  rw [hs, breakOn_append hbefore, hfound] at h
  cases h

/-- `breakOn` of a single character stops at the first one. -/
theorem notMem_of_breakOn_singleton {c : CodePoint} {s before rest : Text}
    (h : breakOn [c] s = some (before, rest)) : c ∉ before := by
  induction s generalizing before with
  | nil => cases h
  | cons d s ih =>
    rw [breakOn] at h
    split at h
    · cases h
      exact List.not_mem_nil
    · rename_i hafter
      obtain ⟨found, hfound, hsame⟩ := Option.map_eq_some_iff.1 h
      cases hsame
      have hne : ¬c = d := fun hcd => by
        rw [hcd, after?, if_pos rfl] at hafter
        cases hafter
      exact List.not_mem_cons_of_ne_of_not_mem hne (ih hfound)

/-- `join` puts together again what `splitOn` took apart. -/
theorem join_splitOn {sep : Text} (hsep : sep ≠ []) (s : Text) : join sep (splitOn sep s) = s := by
  cases hbreak : breakOn sep s with
  | none => rw [splitOn, cutOn_of_none hbreak, join]
  | some found =>
    obtain ⟨before, rest⟩ := found
    have hlength := length_breakOn hbreak
    have hpos : 0 < sep.length := List.length_pos_iff.2 hsep
    have hrest := join_splitOn hsep rest
    rw [splitOn, cutOn_of_some hsep hbreak]
    show join sep (before :: splitOn sep rest) = s
    have hne : splitOn sep rest ≠ [] := List.cons_ne_nil _ _
    rw [join_cons sep before hne, hrest, ← eq_append_of_breakOn hbreak]
termination_by s.length
decreasing_by omega

/-- `splitOn` a character gives pieces that do not hold it. -/
theorem notMem_of_mem_splitOn {c : CodePoint} {s piece : Text} (h : piece ∈ splitOn [c] s) :
    c ∉ piece := by
  cases hbreak : breakOn [c] s with
  | none =>
    rw [splitOn, cutOn_of_none hbreak, List.mem_singleton] at h
    rw [h]
    exact breakOn_singleton_eq_none_iff.1 hbreak
  | some found =>
    obtain ⟨before, rest⟩ := found
    have hlength : s.length = before.length + 1 + rest.length := length_breakOn hbreak
    rw [splitOn, cutOn_of_some (List.cons_ne_nil _ _) hbreak] at h
    rcases List.mem_cons.1 h with rfl | h
    · exact notMem_of_breakOn_singleton hbreak
    · exact notMem_of_mem_splitOn h
termination_by s.length
decreasing_by omega

/-- `splitOn` gives pieces that hold characters of the text only. -/
theorem subset_of_mem_splitOn {sep s piece : Text} (hsep : sep ≠ []) (h : piece ∈ splitOn sep s) :
    piece ⊆ s := by
  have hjoin := subset_join sep h
  rwa [join_splitOn hsep] at hjoin

/-! ## Words with single spaces -/

/-- Words with a space in front of each. -/
def spaced (words : List Text) : Text :=
  words.flatMap fun w => .char ' ' :: w

/-- `spaced` of no words is empty. -/
@[simp] theorem spaced_nil : spaced [] = [] := rfl

/-- `spaced` puts a space in front of the first word. -/
@[simp] theorem spaced_cons (w : Text) (words : List Text) :
    spaced (w :: words) = .char ' ' :: (w ++ spaced words) :=
  rfl

/-- `spaced` can be taken of two lists of words apart. -/
theorem spaced_append (xs ys : List Text) : spaced (xs ++ ys) = spaced xs ++ spaced ys :=
  List.flatMap_append

/-- `join` with a space puts it in front of every word but the first. -/
theorem join_space (w : Text) (words : List Text) :
    join " " (w :: words) = w ++ spaced words := by
  induction words generalizing w with
  | nil => rw [spaced_nil, List.append_nil, join]
  | cons v words ih =>
    rw [join_cons _ _ (List.cons_ne_nil _ _), ih]
    rfl

/-- `spaced` holds spaces and the characters of the words. -/
theorem mem_spaced {words : List Text} {c : CodePoint} :
    c ∈ spaced words ↔ ∃ w ∈ words, c = .char ' ' ∨ c ∈ w := by
  simp only [spaced, List.mem_flatMap, List.mem_cons]

/-- `spaced` of the pieces between the spaces of a text is the text with a space in front. -/
theorem spaced_splitOn (s : Text) : spaced (splitOn " " s) = .char ' ' :: s := by
  have hjoin : join " " (splitOn " " s) = s := join_splitOn (List.cons_ne_nil _ _) s
  obtain ⟨p, ps, hsplit⟩ : ∃ p ps, splitOn " " s = p :: ps := ⟨_, _, rfl⟩
  rw [hsplit, join_space] at hjoin
  rw [hsplit, spaced_cons, hjoin]

/-- `after?` finds a word and a space in front of a text exactly when its first word is that word.
-/
theorem after?_word {w t u : Text} (hw : .char ' ' ∉ w) (ht : .char ' ' ∉ t)
    (hu : ∀ c, u.head? = some c → c = ' ') :
    after? (w ++ [.char ' ']) (t ++ u) = if w = t then after? [.char ' '] u else none := by
  -- induction on the word looked for, the text being read along with it
  induction w generalizing t with
  | nil =>
    cases t with
    | nil => rfl
    | cons c t =>
      have hc : ¬CodePoint.char ' ' = c := fun h => ht (h ▸ List.mem_cons_self)
      rw [if_neg (List.cons_ne_nil _ _).symm, List.nil_append, List.cons_append, after?,
        if_neg hc]
  | cons d w ih =>
    have hd : ¬d = CodePoint.char ' ' := fun h => hw (h ▸ List.mem_cons_self)
    cases t with
    | nil =>
      rw [if_neg (List.cons_ne_nil _ _), List.nil_append, List.cons_append]
      -- the word that is there ends early, and a space comes where `d` is looked for
      cases u with
      | nil => rfl
      | cons c u =>
        have hc : ¬d = c := fun h => hd (h.trans (hu c rfl))
        rw [after?, if_neg hc]
    | cons c t =>
      rw [List.cons_append, List.cons_append, after?]
      by_cases hdc : d = c
      · have htail := ih (fun h => hw (List.mem_cons_of_mem _ h))
          fun h => ht (List.mem_cons_of_mem _ h)
        rw [if_pos hdc, htail, hdc]
        by_cases hwt : w = t
        · rw [if_pos hwt, if_pos (by rw [hwt])]
        · rw [if_neg hwt, if_neg (by simpa using hwt)]
      · have hne : ¬d :: w = c :: t := fun h => hdc (List.cons.inj h).1
        rw [if_neg hdc, if_neg hne]

/-- `spaced` words, with a space or nothing behind them, begin with a space or are nothing. -/
theorem head?_spaced (words : List Text) {s : Text}
    (hs : ∀ c, s.head? = some c → c = CodePoint.char ' ') :
    ∀ c, (spaced words ++ s).head? = some c → c = CodePoint.char ' ' := by
  cases words with
  | nil => exact hs
  | cons w words =>
    intro c hc
    exact (Option.some.inj hc).symm

/-- `breakOn` a word between spaces passes over other words. -/
theorem breakOn_spaced {w : Text} (hw : .char ' ' ∉ w) {words : List Text}
    (hwords : ∀ v ∈ words, .char ' ' ∉ v ∧ v ≠ w) {s : Text}
    (hs : ∀ c, s.head? = some c → c = CodePoint.char ' ') :
    breakOn (.char ' ' :: (w ++ [.char ' '])) (spaced words ++ s) =
      (breakOn (.char ' ' :: (w ++ [.char ' '])) s).map fun (before, rest) =>
        (spaced words ++ before, rest) := by
  induction words with
  | nil =>
    rw [spaced_nil, List.nil_append]
    cases breakOn _ s <;> rfl
  | cons v words ih =>
    obtain ⟨hv, hne⟩ := hwords v List.mem_cons_self
    have htail := ih fun x hx => hwords x (List.mem_cons_of_mem _ hx)
    -- at the space before `v` the words differ, and inside `v` there is no space
    have hafter := after?_word hw hv (head?_spaced words hs)
    rw [spaced_cons, List.cons_append, List.append_assoc, breakOn, after?, if_pos rfl, hafter,
      if_neg (Ne.symm hne)]
    simp only
    rw [breakOn_append hv, htail, Option.map_map, Option.map_map]
    refine congrArg (Option.map · _) (funext fun found => ?_)
    obtain ⟨before, rest⟩ := found
    simp

/-- `cutOn` a word between spaces takes apart the rows of words that were joined with it. -/
theorem cutOn_words {w : Text} (hw : .char ' ' ∉ w) {row : List Text} {rows : List (List Text)}
    (hne : ∀ r ∈ row :: rows, r ≠ [])
    (hwords : ∀ r ∈ row :: rows, ∀ v ∈ r, .char ' ' ∉ v ∧ v ≠ w) :
    cutOn (.char ' ' :: (w ++ [.char ' ']))
        (join (.char ' ' :: (w ++ [.char ' '])) ((row :: rows).map (join " "))) =
      (join " " row, rows.map (join " ")) := by
  rw [List.map_cons]
  refine cutOn_join (List.cons_ne_nil _ _) ?_ ?_
  · -- the other word is in no row
    intro q hq
    rw [← List.map_cons] at hq
    obtain ⟨r, hr, rfl⟩ := List.mem_map.1 hq
    obtain ⟨v, vs, rfl⟩ := List.exists_cons_of_ne_nil (hne r hr)
    have hrow := hwords _ hr
    have hrest := breakOn_spaced hw (fun x hx => hrow x (List.mem_cons_of_mem _ hx)) (s := [])
      (by simp)
    rw [List.append_nil] at hrest
    rw [join_space, breakOn_append (hrow v List.mem_cons_self).1, hrest]
    rfl
  · -- it is found behind a row at once, its space being the first there
    intro q hq rest
    rw [← List.map_cons] at hq
    obtain ⟨r, hr, rfl⟩ := List.mem_map.1 hq
    obtain ⟨v, vs, rfl⟩ := List.exists_cons_of_ne_nil (hne r hr)
    have hrow := hwords _ hr
    have hhead : ∀ c, (CodePoint.char ' ' :: (w ++ [CodePoint.char ' ']) ++ rest).head? = some c →
        c = CodePoint.char ' ' := by
      intro c hc
      rw [List.cons_append, List.head?_cons, Option.some.injEq] at hc
      exact hc.symm
    have hrest := breakOn_spaced hw (fun x hx => hrow x (List.mem_cons_of_mem _ hx)) hhead
    rw [join_space, List.append_assoc, breakOn_append (hrow v List.mem_cons_self).1, hrest,
      breakOn_self]
    simp

/-- `join` of a row with a word in the middle is what stands before and behind it, joined by that
word. -/
theorem join_space_append {xs ys : List Text} (hxs : xs ≠ []) (hys : ys ≠ []) (w : Text) :
    join " " (xs ++ w :: ys) =
      join " " xs ++ (.char ' ' :: (w ++ [.char ' ']) ++ join " " ys) := by
  obtain ⟨x, xs, rfl⟩ := List.exists_cons_of_ne_nil hxs
  obtain ⟨y, ys, rfl⟩ := List.exists_cons_of_ne_nil hys
  rw [List.cons_append, join_space, join_space, join_space, spaced_append]
  simp

/-- `join` of the rows with a word between them is the rows joined by that word. -/
theorem join_space_intercalate (w : Text) {rows : List (List Text)} (hne : ∀ r ∈ rows, r ≠ []) :
    join " " ([w].intercalate rows) =
      join (.char ' ' :: (w ++ [.char ' '])) (rows.map (join " ")) := by
  induction rows with
  | nil => rfl
  | cons row rows ih =>
    rw [List.forall_mem_cons] at hne
    have hrest := ih hne.2
    cases rows with
    | nil => simp [join]
    | cons next rows =>
      -- the word stands between two rows that are not empty
      have hrow : [w].intercalate (next :: rows) ≠ [] := by
        obtain ⟨x, next, rfl⟩ := List.exists_cons_of_ne_nil (hne.2 next List.mem_cons_self)
        rw [List.intercalate_cons_cons_left]
        exact List.cons_ne_nil _ _
      have hmap : (next :: rows).map (join " ") ≠ [] := by simp
      rw [List.intercalate_cons_cons, List.append_assoc, List.singleton_append,
        join_space_append hne.1 hrow, hrest]
      show _ = join _ (join " " row :: (next :: rows).map (join " "))
      rw [join_cons _ (join " " row) hmap]

/-- `trim` leaves the words, with a space between them, when blanks stand around them. -/
theorem trim_spaced {v u : Text} (hv : ∀ c ∈ v, isBlank c = true) (hu : ∀ c ∈ u, isBlank c = true)
    {words : List Text} (hne : words ≠ [])
    (hwords : ∀ w ∈ words, w ≠ [] ∧ ∀ c ∈ w, isBlank c = false) :
    trim (v ++ (spaced words ++ u)) = join " " words := by
  obtain ⟨w, words, rfl⟩ := List.exists_cons_of_ne_nil hne
  have hfront : trimStart (w ++ spaced words ++ u) = w ++ spaced words ++ u := by
    obtain ⟨hw, hblank⟩ := hwords w List.mem_cons_self
    obtain ⟨c, w, rfl⟩ := List.exists_cons_of_ne_nil hw
    exact trimStart_cons_of_not_blank (hblank c List.mem_cons_self) _
  have hend : trimEnd (w ++ spaced words) = w ++ spaced words := by
    -- the last character is that of the last word, and no blank
    rcases List.eq_nil_or_concat words with rfl | ⟨init, last, rfl⟩
    · rw [spaced_nil, List.append_nil]
      exact trimEnd_eq_self (hwords w List.mem_cons_self).2
    · rw [List.concat_eq_append] at hwords ⊢
      obtain ⟨hlast, hblank⟩ := hwords last (by simp)
      rcases List.eq_nil_or_concat last with rfl | ⟨t, c, rfl⟩
      · exact absurd rfl hlast
      · rw [List.concat_eq_append] at hblank ⊢
        have hend := trimEnd_concat (hblank c (by simp)) (w ++ (spaced init ++ .char ' ' :: t))
        simpa [spaced_append] using hend
  rw [trim_blank_append hv, spaced_cons, List.cons_append, trim_cons_of_blank (by decide), trim,
    hfront, trimEnd_append_blank _ hu, hend, join_space]

/-! ## What occurs in the middle -/

/-- `after?` does not look into an end that cannot hold the last character looked for. -/
theorem isSome_after?_append {part b : Text} (hb : ∀ d, part.getLast? = some d → d ∉ b) (s : Text) :
    (after? part (s ++ b)).isSome = (after? part s).isSome := by
  induction part generalizing s with
  | nil => rfl
  | cons p part ih =>
    have htail : ∀ d, part.getLast? = some d → d ∉ b := fun d hd => hb d (by
      rw [List.getLast?_cons, hd]
      rfl)
    cases s with
    | nil =>
      rw [List.nil_append]
      -- the end would have to begin with all of `part`, and so hold the last character of it
      refine Bool.eq_false_iff.2 fun hsome => ?_
      obtain ⟨rest, hrest⟩ := Option.isSome_iff_exists.1 hsome
      have hlast : (p :: part).getLast? = some ((p :: part).getLast (List.cons_ne_nil _ _)) :=
        List.getLast?_eq_some_getLast _
      refine hb _ hlast ?_
      rw [eq_append_of_after? hrest]
      exact List.mem_append_left _ (List.getLast_mem _)
    | cons c s =>
      rw [List.cons_append, after?, after?]
      split
      · exact ih htail s
      · rfl

/-- `occursIn` does not look into what can hold neither the first nor the last character looked for.
-/
theorem occursIn_append_append {c : CodePoint} {part a b : Text} (ha : c ∉ a)
    (hb : ∀ d, (c :: part).getLast? = some d → d ∉ b) (s : Text) :
    occursIn (c :: part) (a ++ (s ++ b)) = occursIn (c :: part) s := by
  have hfront : occursIn (c :: part) (a ++ (s ++ b)) = occursIn (c :: part) (s ++ b) := by
    rw [occursIn, occursIn, breakOn_append ha, Option.isSome_map]
  rw [hfront]
  clear hfront ha
  -- now only the end is there to be dropped, by induction on the middle
  induction s with
  | nil =>
    rw [List.nil_append]
    refine Bool.eq_false_iff.2 fun hsome => ?_
    obtain ⟨⟨before, rest⟩, hfound⟩ := Option.isSome_iff_exists.1 hsome
    have hlast : (c :: part).getLast? = some ((c :: part).getLast (List.cons_ne_nil _ _)) :=
      List.getLast?_eq_some_getLast _
    refine hb _ hlast ?_
    rw [eq_append_of_breakOn hfound]
    exact List.mem_append_right _ (List.mem_append_left _ (List.getLast_mem _))
  | cons d s ih =>
    have hafter := isSome_after?_append hb (d :: s)
    rw [List.cons_append] at hafter ⊢
    rw [occursIn, occursIn, breakOn, breakOn]
    -- `part` is at the front of both texts or of neither
    cases hs : after? (c :: part) (d :: s) with
    | some rest =>
      rw [hs] at hafter
      obtain ⟨rest', hrest'⟩ := Option.isSome_iff_exists.1 hafter
      rw [hrest']
      rfl
    | none =>
      rw [hs, Option.isSome_none, Option.isSome_eq_false_iff, Option.isNone_iff_eq_none] at hafter
      rw [hafter]
      simp only [Option.isSome_map]
      exact ih

/-- `breakOn` that fails on a text fails on what stands at its front. -/
theorem breakOn_eq_none_of_append {c : CodePoint} {sep s q : Text}
    (h : breakOn (c :: sep) (s ++ q) = none) : breakOn (c :: sep) s = none := by
  induction s with
  | nil => rfl
  | cons d s ih =>
    rw [List.cons_append, breakOn] at h
    rw [breakOn]
    cases hafter : after? (c :: sep) (d :: s) with
    | some rest =>
      -- what is at the front of a text is at the front of a longer one
      have hfront : d :: (s ++ q) = (c :: sep) ++ (rest ++ q) := by
        rw [← List.append_assoc, ← eq_append_of_after? hafter, List.cons_append]
      rw [hfront, after?_append] at h
      cases h
    | none =>
      cases hlonger : after? (c :: sep) (d :: (s ++ q)) with
      | some rest =>
        rw [hlonger] at h
        cases h
      | none =>
        rw [hlonger] at h
        simp only [Option.map_eq_none_iff] at h ⊢
        exact ih h

end MeshLens.Text
