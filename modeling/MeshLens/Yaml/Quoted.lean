import MeshLens.Value.Json
import MeshLens.Yaml.Error
import MeshLens.Yaml.Plain

/-!
# Quoted scalars

Between single quotes a quote is written twice, and nothing else is special. Between double quotes
a backslash begins an escape. In both the end of a line is folded as in a plain scalar, unless it
is escaped.
-/

namespace MeshLens.Yaml

/-- The character that an escape of one letter stands for. -/
def shortEscape? : CodePoint → Option CodePoint
  | '0' => some '\x00'
  | 'a' => some '\x07'
  | 'b' => some '\x08'
  | 't' => some '\t'
  | '\t' => some '\t'
  | 'n' => some '\n'
  | 'v' => some '\x0b'
  | 'f' => some '\x0c'
  | 'r' => some '\r'
  | 'e' => some '\x1b'
  | ' ' => some ' '
  | '"' => some '"'
  | '\\' => some '\\'
  | '/' => some '/'
  | 'N' => some '\u0085'
  | '_' => some '\u00a0'
  | 'L' => some '\u2028'
  | 'P' => some '\u2029'
  | _ => none

/-- How many hexadecimal digits an escape takes. -/
def codeLength? : CodePoint → Option Nat
  | 'x' => some 2
  | 'u' => some 4
  | 'U' => some 8
  | _ => none

/-- The number that hexadecimal digits spell. -/
def hexNumber? (digits : Text) : Option Nat :=
  digits.foldl (fun n c => n.bind fun n => (Json.hexValue? c).map (16 * n + ·)) (some 0)

/-- The character of a code. -/
def charOfCode (code : Nat) : Except YamlError CodePoint :=
  if Nat.pow 2 31 ≤ code then .error .hugeCode
  else if 0x110000 ≤ code then .error .number
  else .ok (CodePoint.ofNat code)

/-- Passes the ends of lines, with spaces and tabs around them, after some of them, the last one
first, unless the mark of a document comes up. -/
def takeQuotedBreaks (k : Cursor) (breaks : Text) : Except YamlError (Text × Cursor) :=
  if k.atDocumentMark then .error .token
  else
    match _h : (k.skipWhile isSpace).takeBreak? with
    | some (c, next) => takeQuotedBreaks next (c :: breaks)
    | none => .ok (breaks.reverse, k.skipWhile isSpace)
termination_by k.rest.length
decreasing_by exact Nat.lt_of_lt_of_le (Cursor.length_takeBreak?_lt ‹_›) (k.length_skipWhile_le _)

/-- Passing the ends of lines does not lengthen the rest. -/
theorem length_takeQuotedBreaks_le {k next : Cursor} {breaks others : Text}
    (h : takeQuotedBreaks k breaks = .ok (others, next)) : next.rest.length ≤ k.rest.length := by
  fun_induction takeQuotedBreaks k breaks with
  | case1 => cases h
  | case2 k breaks _ c rest hk ih =>
    exact Nat.le_trans (ih h) (Nat.le_of_lt
      (Nat.lt_of_lt_of_le (Cursor.length_takeBreak?_lt hk) (k.length_skipWhile_le _)))
  | case3 k breaks => cases h; exact k.length_skipWhile_le _

/-- Reads an escape after its backslash. -/
def readEscape (k : Cursor) : Except YamlError (Text × Cursor) :=
  match k.takeBreak?, k.peek? with
  | some (_, next), _ => takeQuotedBreaks next []
  | none, none => .error .token
  | none, some c =>
    match shortEscape? c, codeLength? c with
    | some e, _ => .ok ([e], k.advance)
    | none, none => .error .token
    | none, some length =>
      let digits := k.advance.rest.take length
      match hexNumber? digits with
      | some code =>
        if digits.length < length then .error .token
        else (charOfCode code).map fun c => ([c], k.advance.skip length)
      | none => .error .token

/-- Reading an escape does not lengthen the rest. -/
theorem length_readEscape_le {k next : Cursor} {escaped : Text}
    (h : readEscape k = .ok (escaped, next)) : next.rest.length ≤ k.rest.length := by
  have hk := k.length_advance
  unfold readEscape at h
  split at h
  · next hb =>
    exact Nat.le_trans (length_takeQuotedBreaks_le h)
      (Nat.le_of_lt (Cursor.length_takeBreak?_lt hb))
  · cases h
  · split at h
    · cases h; omega
    · cases h
    · next length _ =>
      simp only at h
      split at h
      · split at h
        · cases h
        · next code _ _ =>
          cases hc : charOfCode code with
          | error e => rw [hc] at h; cases h
          | ok c =>
            rw [hc] at h
            cases h
            rw [Cursor.length_skip]
            omega
      · cases h

/-- Reads a gap in a quoted scalar. -/
def readQuotedGap (k : Cursor) : Except YamlError (Text × Cursor) :=
  let (spaces, next) := k.takeWhile isSpace
  match next.takeBreak? with
  | some (first, next) =>
    (takeQuotedBreaks next []).map fun (others, next) => (foldBreaks first others, next)
  | none => .ok (spaces, next)

/-- Reading a gap where there is one shortens the rest. -/
theorem length_readQuotedGap_lt {k next : Cursor} {c : CodePoint} {gap : Text}
    (hc : k.peek? = some c) (hgap : isGap c) (h : readQuotedGap k = .ok (gap, next)) :
    next.rest.length < k.rest.length := by
  have hk := k.length_takeWhile_le isSpace
  unfold readQuotedGap at h
  simp only at h
  split at h
  · next first rest hb =>
    have hb := Nat.lt_of_lt_of_le (Cursor.length_takeBreak?_lt hb) hk
    cases hq : takeQuotedBreaks rest [] with
    | error e => rw [hq] at h; cases h
    | ok r =>
      rw [hq] at h
      cases h
      exact Nat.lt_of_le_of_lt (length_takeQuotedBreaks_le hq) hb
  · next hb =>
    cases h
    obtain ⟨rest, hr⟩ : ∃ rest, k.rest = c :: rest := by
      unfold Cursor.peek? at hc
      exact ⟨k.rest.tail, by cases hr : k.rest <;> simp_all⟩
    by_cases hs : isSpace c
    · simp only [Cursor.takeWhile, Cursor.length_skip, hr, List.takeWhile_cons, hs, if_true,
        List.length_cons]
      omega
    · have hbreak : isBreak c := by
        simp only [isSpace, isGap] at hs hgap
        simpa [hs] using hgap
      simp [Cursor.takeWhile, hr, hs, Cursor.skip, Cursor.takeBreak?, hbreak] at hb
      grind

/-- Reads a quoted scalar up to its closing quote, after some text, the last character first. -/
def readQuotedFrom (double : Bool) (k : Cursor) (text : Text) :
    Except YamlError (Text × Cursor) :=
  match _hc : k.peek? with
  | none => .error .token
  | some c =>
    if double && c == '\\' then
      match _he : readEscape k.advance with
      | .error e => .error e
      | .ok (escaped, next) => readQuotedFrom double next (escaped.reverse ++ text)
    else if !double && c == '\'' && k.ahead? 1 == some '\'' then
      readQuotedFrom double k.advance.advance (c :: text)
    else if c = (if double then '"' else '\'') then .ok (text.reverse, k.advance)
    else if isGap c then
      match _hg : readQuotedGap k with
      | .error e => .error e
      | .ok (gap, next) => readQuotedFrom double next (gap.reverse ++ text)
    else readQuotedFrom double k.advance (c :: text)
termination_by k.rest.length
decreasing_by
  · exact Nat.lt_of_le_of_lt (length_readEscape_le ‹_›) (Cursor.length_advance_lt ‹_›)
  · have : k.advance.rest.length < k.rest.length := Cursor.length_advance_lt ‹_›
    rw [Cursor.length_advance]
    omega
  · exact length_readQuotedGap_lt ‹_› ‹_› ‹_›
  · exact Cursor.length_advance_lt ‹_›

/-- Reads a quoted scalar from its opening quote on. -/
def readQuoted (k : Cursor) : Except YamlError (Text × Cursor) :=
  readQuotedFrom (k.peek? = some '"') k.advance []

end MeshLens.Yaml
