import MeshLens.Proofs.Query.Respelling

/-!
# Respelling lexemes

The respellings only look at words between single spaces. Seen as lexemes, which tell the words that
are respelled from all others, a respelling is a simple pass, and what it does to a row of known
words can be computed without knowing how they are spelled.

## Key results

- `Rewrite.apply_spaced`: a respelling of a text is a pass over its lexemes
- `foldl_respellings`: all respellings of a text are passes over its lexemes
-/

namespace MeshLens.Query

/-- The words that are respelled. -/
inductive Keyword
  | is | has | not | contains | startsWith | endsWith | and | or
  deriving DecidableEq, Repr

namespace Keyword

/-- All of them. -/
def all : List Keyword :=
  [is, has, not, contains, startsWith, endsWith, and, or]

/-- A word in small letters. -/
def text : Keyword → Text
  | is => "is"
  | has => "has"
  | not => "not"
  | contains => "contains"
  | startsWith => "startswith"
  | endsWith => "endswith"
  | and => "and"
  | or => "or"

/-- `all` holds every word that is respelled. -/
theorem mem_all (w : Keyword) : w ∈ all := by
  cases w <;> decide

/-- `text` of a word is in small letters. -/
theorem isLower_text (w : Keyword) : isLower w.text = true := by
  cases w <;> decide

/-- `text` of a word is not empty. -/
theorem text_ne_nil (w : Keyword) : w.text ≠ [] := by
  cases w <;> decide

/-- `text` tells the words apart. -/
theorem text_injective {v w : Keyword} (h : v.text = w.text) : v = w := by
  cases v <;> cases w <;> first | rfl | exact absurd h (by decide)

/-- `isForm` holds of a text with one word at most. -/
theorem eq_of_isForm {v w : Keyword} {s : Text} (hv : isForm v.text s = true)
    (hw : isForm w.text s = true) : v = w := by
  refine text_injective ?_
  rw [← map_folded_of_isForm v.isLower_text hv, ← map_folded_of_isForm w.isLower_text hw]

end Keyword

/-- Whether a text is none of the words that are respelled. -/
def isOrdinary (s : Text) : Bool :=
  Keyword.all.all fun w => !isForm w.text s

/-- `isOrdinary` holds of what begins with a mark. -/
theorem isOrdinary_of_mark (s : Text) : isOrdinary (.char '!' :: s) = true := by
  simp only [isOrdinary, List.all_eq_true, Bool.not_eq_true', Bool.eq_false_iff]
  intro w _ h
  exact (plain_of_isForm w.isLower_text h _ List.mem_cons_self).2 rfl

/-- `isOrdinary` texts are no form of any word. -/
theorem not_isForm_of_isOrdinary {s : Text} (h : isOrdinary s = true) (w : Keyword) :
    isForm w.text s = false := by
  simp only [isOrdinary, List.all_eq_true, Bool.not_eq_true'] at h
  exact h w w.mem_all

/-- A word of a query, as far as respelling can tell. -/
inductive Lexeme
  /-- A word that is respelled, in some case. -/
  | word (w : Keyword) (s : Text)
  /-- Such a word behind an exclamation mark. -/
  | marked (w : Keyword) (s : Text)
  /-- An exclamation mark. -/
  | mark
  /-- Any other word. -/
  | plain (s : Text)

namespace Lexeme

/-- The text of a lexeme. -/
def text : Lexeme → Text
  | word _ s => s
  | marked _ s => .char '!' :: s
  | mark => [.char '!']
  | plain s => s

/-- Whether a lexeme is what its text looks like. -/
def Faithful : Lexeme → Prop
  | word w s | marked w s => isForm w.text s = true
  | mark => True
  | plain s => s ≠ [] ∧ s ≠ [.char '!'] ∧ (∀ c ∈ s, Text.isBlank c = false) ∧
      isOrdinary s = true ∧ (s.head? = some (.char '!') → isOrdinary s.tail = true)

/-- `Faithful` is decided by looking at the text. -/
instance : (x : Lexeme) → Decidable x.Faithful
  | word w s | marked w s => inferInstanceAs (Decidable (isForm w.text s = true))
  | mark => inferInstanceAs (Decidable True)
  | plain s => inferInstanceAs (Decidable (s ≠ [] ∧ s ≠ [.char '!'] ∧
      (∀ c ∈ s, Text.isBlank c = false) ∧ isOrdinary s = true ∧
      (s.head? = some (.char '!') → isOrdinary s.tail = true)))

/-- A lexeme with a mark put in front. -/
def glue : Lexeme → Lexeme
  | word w s => marked w s
  | x => plain (.char '!' :: x.text)

/-- `glue` puts an exclamation mark in front of the text. -/
theorem text_glue (x : Lexeme) : x.glue.text = .char '!' :: x.text := by
  cases x <;> rfl

/-- `text` of a faithful lexeme is not empty. -/
theorem text_ne_nil {x : Lexeme} (h : x.Faithful) : x.text ≠ [] := by
  cases x with
  | word w s => exact ne_nil_of_isForm w.text_ne_nil h
  | marked w s => exact List.cons_ne_nil _ _
  | mark => exact List.cons_ne_nil _ _
  | plain s => exact h.1

/-- `text` of a faithful lexeme holds no white space. -/
theorem isBlank_text {x : Lexeme} (h : x.Faithful) : ∀ c ∈ x.text, Text.isBlank c = false := by
  cases x with
  | word w s => exact fun c hc => (plain_of_isForm w.isLower_text h c hc).1
  | marked w s =>
    exact List.forall_mem_cons.2
      ⟨by decide, fun c hc => (plain_of_isForm w.isLower_text h c hc).1⟩
  | mark => decide
  | plain s => exact h.2.2.1

/-- `text` of a faithful lexeme holds no space. -/
theorem space_notMem_text {x : Lexeme} (h : x.Faithful) : CodePoint.char ' ' ∉ x.text :=
  fun hmem => absurd (isBlank_text h _ hmem) (by decide)

/-- `isOrdinary` holds of the text of a faithful lexeme that is no word by itself. -/
theorem isOrdinary_text {x : Lexeme} (h : x.Faithful) (hx : ∀ w s, x ≠ word w s) :
    isOrdinary x.text = true := by
  cases x with
  | word w s => exact absurd rfl (hx w s)
  | marked w s => exact isOrdinary_of_mark s
  | mark => exact isOrdinary_of_mark []
  | plain s => exact h.2.2.2.1

/-- `isForm` holds of the text of a faithful lexeme with the word that it is only. -/
theorem not_isForm_text {x : Lexeme} (h : x.Faithful) {v : Keyword} (hx : ∀ s, x ≠ word v s) :
    isForm v.text x.text = false := by
  cases x with
  | word w s =>
    refine Bool.eq_false_iff.2 fun hform => ?_
    have hsame : w = v := Keyword.eq_of_isForm h hform
    exact hx s (by rw [hsame])
  | _ => exact not_isForm_of_isOrdinary (isOrdinary_text h (by simp)) v

/-- `glue` leaves a lexeme faithful. -/
theorem faithful_glue {x : Lexeme} (h : x.Faithful) : x.glue.Faithful := by
  -- whatever a mark is put in front of is ordinary, unless it is a word
  have hglued : ∀ s, isOrdinary s = true → s ≠ [] → (∀ c ∈ s, Text.isBlank c = false) →
      (plain (.char '!' :: s)).Faithful := by
    intro s hs hne hblank
    refine ⟨List.cons_ne_nil _ _, fun h => hne (List.cons.inj h).2, ?_, isOrdinary_of_mark s, ?_⟩
    · exact List.forall_mem_cons.2 ⟨by decide, hblank⟩
    · exact fun _ => hs
  have hblank := isBlank_text h
  cases x with
  | word w s => exact h
  | marked w s => exact hglued _ (isOrdinary_of_mark s) (List.cons_ne_nil _ _) hblank
  | mark => exact hglued _ (isOrdinary_of_mark []) (List.cons_ne_nil _ _) hblank
  | plain s => exact hglued s h.2.2.2.1 h.1 hblank

end Lexeme

/-! ## Passes -/

/-- A respelling as a pass over lexemes: what it puts in front of the next lexeme, and whether it
puts a mark on it. -/
structure Rewrite where
  marked : Bool := false
  word : Keyword
  insert : List Lexeme := []
  glues : Bool := false

namespace Rewrite

/-- What becomes of the lexeme behind the word. -/
def put (r : Rewrite) (x : Lexeme) : List Lexeme :=
  r.insert ++ [if r.glues then x.glue else x]

/-- A pass from left to right. -/
def run (r : Rewrite) : List Lexeme → List Lexeme
  | .word w s :: x :: rest =>
    if r.marked = false ∧ w = r.word then r.put x ++ run r rest
    else .word w s :: run r (x :: rest)
  | .marked w s :: x :: rest =>
    if r.marked = true ∧ w = r.word then r.put x ++ run r rest
    else .marked w s :: run r (x :: rest)
  | .mark :: .word w s :: x :: rest =>
    if r.marked = true ∧ w = r.word then r.put x ++ run r rest
    else .mark :: run r (.word w s :: x :: rest)
  | x :: rest => x :: run r rest
  | [] => []

/-- The respelling of a pass. -/
def respelling (r : Rewrite) : Respelling where
  marked := r.marked
  word := r.word.text
  replacement :=
    Text.spaced (r.insert.map Lexeme.text) ++
      if r.glues then [.char ' ', .char '!'] else [.char ' ']

end Rewrite

/-- The passes in order. -/
def rewrites : List Rewrite := [
  { word := .is },
  { word := .has },
  { marked := true, word := .is, insert := [.mark] },
  { marked := true, word := .has, insert := [.mark] },
  { word := .not, glues := true },
  { marked := true, word := .contains, insert := [.plain "!*="] },
  { marked := true, word := .startsWith, insert := [.plain "!^="] },
  { marked := true, word := .endsWith, insert := [.plain "!$="] },
  { word := .contains, insert := [.plain "*="] },
  { word := .startsWith, insert := [.plain "^="] },
  { word := .endsWith, insert := [.plain "$="] },
  { word := .and, insert := [.word .and "AND"] },
  { word := .or, insert := [.word .or "OR"] }]

/-- `rewrites` are the respellings, in their order. -/
theorem map_respelling_rewrites : rewrites.map Rewrite.respelling = respellings := by
  rfl

namespace Rewrite

/-- Whether a row of lexemes ends, if it does not end at once, with one that is not respelled. -/
def EndsPlain (ls : List Lexeme) : Prop :=
  ∀ x, ls.getLast? = some x → ∃ s, x = .plain s

/-- `EndsPlain` holds of a row without its first lexeme. -/
theorem EndsPlain.tail {x : Lexeme} {ls : List Lexeme} (h : EndsPlain (x :: ls)) :
    EndsPlain ls := by
  intro y hy
  refine h y ?_
  rw [List.getLast?_cons, hy]
  rfl

/-- `EndsPlain` does not hold of a single lexeme that is respelled or a mark. -/
theorem not_endsPlain_singleton {x : Lexeme} (hx : ∀ s, x ≠ .plain s) : ¬EndsPlain [x] := by
  intro h
  obtain ⟨s, hs⟩ := h x rfl
  exact hx s hs

/-! ## A respelling is a pass -/

variable {r : Rewrite}

/-- `put` is the replacement with the next word behind it. -/
theorem spaced_put (r : Rewrite) (x : Lexeme) (rest : List Lexeme) :
    Text.spaced ((r.put x ++ rest).map Lexeme.text) =
      r.respelling.replacement ++ (x.text ++ Text.spaced (rest.map Lexeme.text)) := by
  simp only [put, respelling, List.map_append, Text.spaced_append, List.append_assoc]
  cases r.glues with
  | true => simp [Lexeme.text_glue]
  | false => simp

/-- `apply` puts the replacement where the word is found, and goes on behind the next word. -/
theorem hit {s : Text} {x : Lexeme} {rest : List Lexeme} {u : Text} (hx : x.Faithful)
    (hrest : r.respelling.apply (Text.spaced (rest.map Lexeme.text) ++ u) =
      Text.spaced ((r.run rest).map Lexeme.text) ++ u)
    (h : r.respelling.rest? (.char ' ' :: s) =
      some (x.text ++ (Text.spaced (rest.map Lexeme.text) ++ u))) :
    r.respelling.apply (.char ' ' :: s) =
      Text.spaced ((r.put x ++ r.run rest).map Lexeme.text) ++ u := by
  rw [Respelling.apply_hit (Lexeme.space_notMem_text hx) h, hrest, spaced_put]
  simp only [List.append_assoc]

/-- `apply` passes over a lexeme where the word is not found. -/
theorem skip {x : Lexeme} {s u : Text} {rest : List Lexeme} (hx : x.Faithful)
    (hrest : r.respelling.apply s = Text.spaced (rest.map Lexeme.text) ++ u)
    (h : r.respelling.rest? (.char ' ' :: (x.text ++ s)) = none) :
    r.respelling.apply (.char ' ' :: (x.text ++ s)) =
      Text.spaced ((x :: rest).map Lexeme.text) ++ u := by
  rw [Respelling.apply_skip (Lexeme.space_notMem_text hx) h, hrest]
  simp

/-- `rest?` without a mark finds nothing at a lexeme that is not its word. -/
theorem rest?_unmarked_none {x : Lexeme} {s : Text} (hr : r.marked = false) (hx : x.Faithful)
    (hword : ∀ t, x ≠ .word r.word t) (hs : ∀ c, s.head? = some c → c = CodePoint.char ' ') :
    r.respelling.rest? (.char ' ' :: (x.text ++ s)) = none := by
  have hform := Lexeme.not_isForm_text hx hword
  rw [Respelling.rest?_unmarked hr r.word.isLower_text (Lexeme.space_notMem_text hx) hs]
  simp [respelling, hform]

/-- `rest?` with a mark finds nothing at a lexeme that is no mark and not its word behind one. -/
theorem rest?_marked_none {x : Lexeme} {s : Text} (hr : r.marked = true) (hx : x.Faithful)
    (hmark : x ≠ .mark) (hword : ∀ t, x ≠ .marked r.word t)
    (hs : ∀ c, s.head? = some c → c = CodePoint.char ' ') :
    r.respelling.rest? (.char ' ' :: (x.text ++ s)) = none := by
  have hglued {t : Text} (hne : t ≠ []) (hblank : ∀ c ∈ t, Text.isBlank c = false)
      (hform : isForm r.word.text t = false) :
      r.respelling.rest? (.char ' ' :: (.char '!' :: t ++ s)) = none := by
    rw [Respelling.rest?_glued hr r.word.isLower_text hne hblank hs]
    simp [respelling, hform]
  cases x with
  | word w t =>
    have ht := plain_of_isForm w.isLower_text hx
    exact Respelling.rest?_no_mark hr (ne_nil_of_isForm w.text_ne_nil hx) fun h =>
      (ht _ (List.mem_of_head? h)).2 rfl
  | marked w t =>
    have ht := plain_of_isForm w.isLower_text hx
    refine hglued (ne_nil_of_isForm w.text_ne_nil hx) (fun c hc => (ht c hc).1) ?_
    refine Lexeme.not_isForm_text (x := .word w t) hx fun t' heq => ?_
    cases heq
    exact hword t rfl
  | mark => exact absurd rfl hmark
  | plain t =>
    obtain ⟨hne, halone, hblank, -, hrest⟩ := hx
    obtain ⟨c, t, rfl⟩ := List.exists_cons_of_ne_nil hne
    -- a mark in front of another word, or no mark at all
    by_cases hc : c = CodePoint.char '!'
    · subst hc
      refine hglued (fun h => halone (by rw [h]))
        (fun d hd => hblank d (List.mem_cons_of_mem _ hd)) ?_
      exact not_isForm_of_isOrdinary (hrest rfl) r.word
    · exact Respelling.rest?_no_mark hr hne fun h => hc (Option.some.inj h)

/-- `rest?` finds nothing at a lexeme that is no mark and not its word. -/
theorem rest?_none {x : Lexeme} {s : Text} (hx : x.Faithful) (hmark : x ≠ .mark)
    (hword : r.marked = false → ∀ t, x ≠ .word r.word t)
    (hmarked : r.marked = true → ∀ t, x ≠ .marked r.word t)
    (hs : ∀ c, s.head? = some c → c = CodePoint.char ' ') :
    r.respelling.rest? (.char ' ' :: (x.text ++ s)) = none := by
  cases hr : r.marked with
  | false => exact rest?_unmarked_none hr hx (hword hr) hs
  | true => exact rest?_marked_none hr hx hmark (hmarked hr) hs

/-- `rest?` finds nothing at a mark that stands alone, when the word behind it is another one. -/
theorem rest?_mark_none {x : Lexeme} {s : Text} (hx : x.Faithful)
    (hword : r.marked = true → ∀ t, x ≠ .word r.word t)
    (hs : ∀ c, s.head? = some c → c = CodePoint.char ' ') :
    r.respelling.rest? (.char ' ' :: (.char '!' :: (.char ' ' :: (x.text ++ s)))) = none := by
  cases hr : r.marked with
  | false =>
    -- without a mark of its own the respelling looks at the mark as at a word
    refine rest?_unmarked_none (x := .mark) hr trivial (by simp) ?_
    intro c hc
    exact (Option.some.inj hc).symm
  | true =>
    rw [Respelling.rest?_apart hr r.word.isLower_text (Lexeme.text_ne_nil hx)
      (Lexeme.isBlank_text hx) hs]
    have hform := Lexeme.not_isForm_text hx (hword hr)
    simp [respelling, hform]

/-- `rest?` finds nothing in a single space. -/
theorem rest?_space : r.respelling.rest? [.char ' '] = none := by
  have hnil : afterWord? r.respelling.word [] = none := by
    show afterWord? r.word.text [] = none
    cases r.word <;> rfl
  simp only [Respelling.rest?]
  split
  · rfl
  · rw [Option.bind_some, hnil]
    rfl

/-- `apply` to a text of lexemes is a pass over the lexemes. -/
theorem apply_spaced {ls : List Lexeme} (hls : ∀ x ∈ ls, x.Faithful) (hend : EndsPlain ls)
    {u : Text} (hu : u = [] ∨ u = [.char ' ']) :
    r.respelling.apply (Text.spaced (ls.map Lexeme.text) ++ u) =
      Text.spaced ((r.run ls).map Lexeme.text) ++ u := by
  have hhead (words : List Text) : ∀ c, (Text.spaced words ++ u).head? = some c →
      c = CodePoint.char ' ' := by
    refine Text.head?_spaced words fun c hc => ?_
    rcases hu with rfl | rfl
    · cases hc
    · exact (Option.some.inj hc).symm
  -- the cases are those of a pass: for each form of the word, it is hit or another word is there
  fun_induction run r ls with
  | case1 w s x rest hw ih =>
    obtain ⟨hr, rfl⟩ := hw
    simp only [List.forall_mem_cons] at hls
    obtain ⟨hword, hx, hrest⟩ := hls
    simp only [List.map_cons, Text.spaced_cons, List.cons_append, List.append_assoc]
    refine hit hx (ih hrest hend.tail.tail) ?_
    have hs : CodePoint.char ' ' ∉ s := Lexeme.space_notMem_text (x := .word r.word s) hword
    rw [Lexeme.text, Respelling.rest?_unmarked hr r.word.isLower_text hs (by simp)]
    have hform : isForm r.respelling.word s = true := hword
    rw [if_pos hform]
    rfl
  | case2 w s x rest hw ih =>
    rw [List.forall_mem_cons] at hls
    rw [List.map_cons, Text.spaced_cons, List.cons_append, List.append_assoc]
    refine skip hls.1 (ih hls.2 hend.tail) (rest?_none hls.1 (by simp) ?_ (by simp) (hhead _))
    intro hr t heq
    cases heq
    exact hw ⟨hr, rfl⟩
  | case3 w s x rest hw ih =>
    obtain ⟨hr, rfl⟩ := hw
    simp only [List.forall_mem_cons] at hls
    obtain ⟨hword, hx, hrest⟩ := hls
    simp only [List.map_cons, Text.spaced_cons, List.cons_append, List.append_assoc]
    refine hit hx (ih hrest hend.tail.tail) ?_
    have hform : isForm r.respelling.word s = true := hword
    have hs := plain_of_isForm r.word.isLower_text hform
    rw [Lexeme.text, Respelling.rest?_glued hr r.word.isLower_text
      (ne_nil_of_isForm r.word.text_ne_nil hform) (fun c hc => (hs c hc).1) (by simp),
      if_pos hform]
    rfl
  | case4 w s x rest hw ih =>
    rw [List.forall_mem_cons] at hls
    rw [List.map_cons, Text.spaced_cons, List.cons_append, List.append_assoc]
    refine skip hls.1 (ih hls.2 hend.tail) (rest?_none hls.1 (by simp) (by simp) ?_ (hhead _))
    intro hr t heq
    cases heq
    exact hw ⟨hr, rfl⟩
  | case5 w s x rest hw ih =>
    obtain ⟨hr, rfl⟩ := hw
    simp only [List.forall_mem_cons] at hls
    obtain ⟨-, hword, hx, hrest⟩ := hls
    simp only [List.map_cons, Text.spaced_cons, List.cons_append, List.append_assoc]
    refine hit hx (ih hrest hend.tail.tail.tail) ?_
    have hform : isForm r.respelling.word s = true := hword
    have hs := plain_of_isForm r.word.isLower_text hform
    have hne := ne_nil_of_isForm r.word.text_ne_nil hform
    show r.respelling.rest? (.char ' ' :: .char '!' :: .char ' ' :: (s ++ _)) = _
    rw [Respelling.rest?_apart hr r.word.isLower_text hne (fun c hc => (hs c hc).1) (by simp),
      if_pos hform]
    rfl
  | case6 w s x rest hw ih =>
    simp only [List.forall_mem_cons] at hls
    obtain ⟨hmark, hword, hrest⟩ := hls
    rw [List.map_cons, Text.spaced_cons, List.cons_append, List.append_assoc]
    refine skip hmark (ih (List.forall_mem_cons.2 ⟨hword, List.forall_mem_cons.2 hrest⟩) hend.tail)
      ?_
    have hnone := rest?_mark_none (r := r) (x := .word w s)
      (s := Text.spaced ((x :: rest).map Lexeme.text) ++ u) hword (by
        intro hr t heq
        cases heq
        exact hw ⟨hr, rfl⟩) (hhead _)
    simpa [Lexeme.text] using hnone
  | case7 x rest h1 h2 h3 ih =>
    rw [List.forall_mem_cons] at hls
    have htail := ih hls.2 hend.tail
    rw [List.map_cons, Text.spaced_cons, List.cons_append, List.append_assoc]
    refine skip hls.1 htail ?_
    cases rest with
    | nil =>
      obtain ⟨s, rfl⟩ := hend x rfl
      exact rest?_none hls.1 (by simp) (by simp) (by simp) (hhead _)
    | cons y rest =>
      by_cases hx : x = .mark
      · -- behind a mark alone comes a word only if the row ends there, which it does not
        subst hx
        have hy : ∀ w s, y ≠ .word w s := by
          intro w s hy
          subst hy
          cases rest with
          | nil => exact not_endsPlain_singleton (by simp) hend.tail
          | cons z rest => exact h3 w s z rest rfl rfl
        have hnone := rest?_mark_none (r := r) (x := y)
          (s := Text.spaced (rest.map Lexeme.text) ++ u) (hls.2 y List.mem_cons_self)
          (fun _ t => hy r.word t) (hhead _)
        simpa [Lexeme.text] using hnone
      · refine rest?_none hls.1 hx (fun _ t heq => ?_) (fun _ t heq => ?_) (hhead _)
        · exact h1 r.word t y rest heq rfl
        · exact h2 r.word t y rest heq rfl
  | case8 =>
    rcases hu with rfl | rfl
    · rw [List.map_nil, Text.spaced_nil, List.nil_append, Respelling.apply]
    · rw [List.map_nil, Text.spaced_nil, List.nil_append, Respelling.apply_of_none rest?_space,
        Respelling.apply]

/-! ## Passes over rows -/

/-- `EndsPlain` of two rows is a matter of the second one. -/
theorem endsPlain_append (xs : List Lexeme) {ys : List Lexeme} (hne : ys ≠ []) (h : EndsPlain ys) :
    EndsPlain (xs ++ ys) := by
  intro x hx
  obtain ⟨y, hy⟩ := Option.isSome_iff_exists.1 (List.getLast?_isSome.2 hne)
  rw [List.getLast?_append, hy] at hx
  exact h x (by rw [hy]; exact hx)

/-- `put` leaves one lexeme at least. -/
theorem put_ne_nil (r : Rewrite) (x : Lexeme) : r.put x ≠ [] := by
  simp [put]

/-- `run` over two rows is a pass over each, when the first one ends with no word. -/
theorem run_append {xs : List Lexeme} (hxs : EndsPlain xs) (ys : List Lexeme) :
    r.run (xs ++ ys) = r.run xs ++ r.run ys := by
  -- the cases are those of a pass; only a word at the end of the row could see what follows
  fun_induction run r xs with
  | case1 w s x rest hw ih =>
    rw [List.cons_append, List.cons_append, run, if_pos hw, ih hxs.tail.tail, List.append_assoc]
  | case2 w s x rest hw ih =>
    have htail := ih hxs.tail
    rw [List.cons_append] at htail ⊢
    rw [List.cons_append, run, if_neg hw, htail]
    rfl
  | case3 w s x rest hw ih =>
    rw [List.cons_append, List.cons_append, run, if_pos hw, ih hxs.tail.tail, List.append_assoc]
  | case4 w s x rest hw ih =>
    have htail := ih hxs.tail
    rw [List.cons_append] at htail ⊢
    rw [List.cons_append, run, if_neg hw, htail]
    rfl
  | case5 w s x rest hw ih =>
    rw [List.cons_append, List.cons_append, List.cons_append, run, if_pos hw,
      ih hxs.tail.tail.tail, List.append_assoc]
  | case6 w s x rest hw ih =>
    have htail := ih hxs.tail
    rw [List.cons_append, List.cons_append] at htail
    rw [List.cons_append, List.cons_append, List.cons_append]
    conv => lhs; rw [run, if_neg hw, htail]
    rfl
  | case7 x rest h1 h2 h3 ih =>
    have htail := ih hxs.tail
    -- a word that would take its next lexeme from `ys` ends `xs`, against `hxs`
    have hrun : r.run (x :: (rest ++ ys)) = x :: r.run (rest ++ ys) := by
      rw [run]
      · rintro w s y rest' rfl hrest
        cases rest with
        | nil => exact not_endsPlain_singleton (by simp) hxs
        | cons z rest => exact h1 w s z rest rfl rfl
      · rintro w s y rest' rfl hrest
        cases rest with
        | nil => exact not_endsPlain_singleton (by simp) hxs
        | cons z rest => exact h2 w s z rest rfl rfl
      · rintro w s y rest' rfl hrest
        cases rest with
        | nil => exact not_endsPlain_singleton (by simp) hxs
        | cons z rest =>
          cases (List.cons.inj hrest).1
          cases rest with
          | nil => exact not_endsPlain_singleton (by simp) hxs.tail
          | cons z' rest => exact h3 w s z' rest rfl rfl
    rw [List.cons_append, hrun, htail]
    rfl
  | case8 => rfl

/-- `run` leaves one lexeme at least. -/
theorem run_ne_nil {ls : List Lexeme} (h : ls ≠ []) : r.run ls ≠ [] := by
  fun_cases run r ls with
  | case1 w s x rest hw => simp [put_ne_nil]
  | case2 => simp
  | case3 => simp [put_ne_nil]
  | case4 => simp
  | case5 => simp [put_ne_nil]
  | case6 => simp
  | case7 => simp
  | case8 => exact absurd rfl h

/-- `EndsPlain` holds of a single plain lexeme. -/
theorem endsPlain_singleton (s : Text) : EndsPlain [.plain s] := by
  intro x hx
  exact ⟨s, (Option.some.inj hx).symm⟩

/-- `EndsPlain` holds where a word was hit, if it holds of the row behind the word. -/
private theorem endsPlain_put {x : Lexeme} {rest : List Lexeme} (hx : EndsPlain (x :: rest))
    (hrest : EndsPlain (r.run rest)) : EndsPlain (r.put x ++ r.run rest) := by
  -- the last lexeme is what is put in, or is in the rest
  cases rest with
  | nil =>
    obtain ⟨s, rfl⟩ := hx x rfl
    rw [run, List.append_nil, put]
    refine endsPlain_append _ (List.cons_ne_nil _ _) ?_
    split
    · exact endsPlain_singleton _
    · exact endsPlain_singleton _
  | cons y rest => exact endsPlain_append _ (run_ne_nil (List.cons_ne_nil _ _)) hrest

/-- `EndsPlain` holds where a lexeme was passed over, if it holds of the row. -/
private theorem endsPlain_cons {x : Lexeme} {rest : List Lexeme} (hx : EndsPlain (x :: rest))
    (hrest : EndsPlain (r.run rest)) : EndsPlain (x :: r.run rest) := by
  cases rest with
  | nil =>
    rw [run]
    exact hx
  | cons y rest =>
    exact endsPlain_append [x] (run_ne_nil (List.cons_ne_nil _ _)) hrest

/-- `run` leaves a row that ends with no word. -/
theorem endsPlain_run {ls : List Lexeme} (h : EndsPlain ls) : EndsPlain (r.run ls) := by
  fun_induction run r ls with
  | case1 w s x rest hw ih => exact endsPlain_put h.tail (ih h.tail.tail)
  | case2 w s x rest hw ih => exact endsPlain_cons h (ih h.tail)
  | case3 w s x rest hw ih => exact endsPlain_put h.tail (ih h.tail.tail)
  | case4 w s x rest hw ih => exact endsPlain_cons h (ih h.tail)
  | case5 w s x rest hw ih => exact endsPlain_put h.tail.tail (ih h.tail.tail.tail)
  | case6 w s x rest hw ih => exact endsPlain_cons h (ih h.tail)
  | case7 x rest h1 h2 h3 ih => exact endsPlain_cons h (ih h.tail)
  | case8 => exact h

/-- `run` leaves lexemes that are what they look like, when it puts in only such lexemes. -/
theorem faithful_run (hr : ∀ x ∈ r.insert, x.Faithful) {ls : List Lexeme}
    (h : ∀ x ∈ ls, x.Faithful) : ∀ x ∈ r.run ls, x.Faithful := by
  -- what is put in front is faithful, and a mark on a lexeme leaves it so
  have hput {y : Lexeme} (hy : y.Faithful) : ∀ x ∈ r.put y, x.Faithful := by
    intro x hx
    rcases List.mem_append.1 hx with hx | hx
    · exact hr x hx
    · rw [List.mem_singleton.1 hx]
      split
      · exact Lexeme.faithful_glue hy
      · exact hy
  fun_induction run r ls with
  | case1 w s x rest hw ih =>
    simp only [List.forall_mem_cons] at h
    exact List.forall_mem_append.2 ⟨hput h.2.1, ih h.2.2⟩
  | case2 w s x rest hw ih =>
    rw [List.forall_mem_cons] at h
    exact List.forall_mem_cons.2 ⟨h.1, ih h.2⟩
  | case3 w s x rest hw ih =>
    simp only [List.forall_mem_cons] at h
    exact List.forall_mem_append.2 ⟨hput h.2.1, ih h.2.2⟩
  | case4 w s x rest hw ih =>
    rw [List.forall_mem_cons] at h
    exact List.forall_mem_cons.2 ⟨h.1, ih h.2⟩
  | case5 w s x rest hw ih =>
    simp only [List.forall_mem_cons] at h
    exact List.forall_mem_append.2 ⟨hput h.2.2.1, ih h.2.2.2⟩
  | case6 w s x rest hw ih =>
    rw [List.forall_mem_cons] at h
    exact List.forall_mem_cons.2 ⟨h.1, ih h.2⟩
  | case7 x rest h1 h2 h3 ih =>
    rw [List.forall_mem_cons] at h
    exact List.forall_mem_cons.2 ⟨h.1, ih h.2⟩
  | case8 => exact h

end Rewrite

/-! ## All passes -/

/-- What all passes make of a row of lexemes. -/
def respelled (ls : List Lexeme) : List Lexeme :=
  rewrites.foldl (fun ls r => r.run ls) ls

/-- `rewrites` put in only lexemes that are what they look like. -/
theorem faithful_of_mem_rewrites : ∀ r ∈ rewrites, ∀ x ∈ r.insert, x.Faithful := by
  decide

/-- `respelled` of two rows is each of them respelled, when the first one ends with no word. -/
theorem respelled_append {xs : List Lexeme} (hxs : Rewrite.EndsPlain xs) (ys : List Lexeme) :
    respelled (xs ++ ys) = respelled xs ++ respelled ys := by
  unfold respelled
  -- for any passes, by induction on them
  generalize rewrites = rs
  induction rs generalizing xs ys with
  | nil => rfl
  | cons r rs ih =>
    rw [List.foldl_cons, List.foldl_cons, List.foldl_cons, Rewrite.run_append hxs]
    exact ih (Rewrite.endsPlain_run hxs) _

/-- `apply` leaves a space in front of words. -/
theorem Rewrite.apply_lead (r : Rewrite) {ls : List Lexeme} (hne : ls ≠ []) {v : Text}
    (hv : v = [] ∨ v = [.char ' ']) (u : Text) :
    r.respelling.apply (v ++ (Text.spaced (ls.map Lexeme.text) ++ u)) =
      v ++ r.respelling.apply (Text.spaced (ls.map Lexeme.text) ++ u) := by
  rcases hv with rfl | rfl
  · rfl
  · obtain ⟨x, ls, rfl⟩ := List.exists_cons_of_ne_nil hne
    -- behind the first space no word begins
    have hnone (s : Text) : r.respelling.rest? (.char ' ' :: .char ' ' :: s) = none := by
      have hspace : afterWord? r.respelling.word (.char ' ' :: s) = none := by
        show afterWord? r.word.text _ = none
        cases r.word <;> rfl
      simp only [Respelling.rest?]
      split
      · rfl
      · rw [Option.bind_some, hspace]
        rfl
    exact Respelling.apply_of_none (hnone _)

/-- `respellings` of a text, one after the other, are the passes over its lexemes. -/
theorem foldl_respellings {ls : List Lexeme} (hne : ls ≠ []) (hls : ∀ x ∈ ls, x.Faithful)
    (hend : Rewrite.EndsPlain ls) {v u : Text} (hv : v = [] ∨ v = [.char ' '])
    (hu : u = [] ∨ u = [.char ' ']) :
    respellings.foldl (fun s r => r.apply s) (v ++ (Text.spaced (ls.map Lexeme.text) ++ u)) =
      v ++ (Text.spaced ((respelled ls).map Lexeme.text) ++ u) := by
  rw [← map_respelling_rewrites, List.foldl_map, respelled]
  have hsound := faithful_of_mem_rewrites
  -- for any passes that put in what they seem to, by induction on them
  generalize rewrites = rs at hsound ⊢
  induction rs generalizing ls with
  | nil => rfl
  | cons r rs ih =>
    rw [List.forall_mem_cons] at hsound
    rw [List.foldl_cons, List.foldl_cons, Rewrite.apply_lead r hne hv,
      Rewrite.apply_spaced hls hend hu]
    exact ih (Rewrite.run_ne_nil hne) (Rewrite.faithful_run hsound.1 hls)
      (Rewrite.endsPlain_run hend) hsound.2

/-- `respelled` lexemes are what they look like. -/
theorem faithful_respelled {ls : List Lexeme} (hls : ∀ x ∈ ls, x.Faithful) :
    ∀ x ∈ respelled ls, x.Faithful := by
  have hsound := faithful_of_mem_rewrites
  unfold respelled
  generalize rewrites = rs at hsound ⊢
  induction rs generalizing ls with
  | nil => exact hls
  | cons r rs ih =>
    rw [List.forall_mem_cons] at hsound
    exact ih (Rewrite.faithful_run hsound.1 hls) hsound.2

/-- `respelled` of a row leaves one lexeme at least. -/
theorem respelled_ne_nil {ls : List Lexeme} (hne : ls ≠ []) : respelled ls ≠ [] := by
  unfold respelled
  generalize rewrites = rs
  induction rs generalizing ls with
  | nil => exact hne
  | cons r rs ih => exact ih (Rewrite.run_ne_nil hne)

end MeshLens.Query
