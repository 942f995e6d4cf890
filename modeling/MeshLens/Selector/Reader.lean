import MeshLens.Number.Literal
import MeshLens.Selector.Basic
import MeshLens.Text.Basic

/-!
# Reading selectors

A selector text is first cut at the commas that stand outside quotes and brackets, and each part
is then read as a group: an optional kind, and after it bracketed predicates and class filters in
any order.
-/

namespace MeshLens

/-- Where a character stands relative to double-quoted text. -/
inductive Quoting
  | outside
  | inside
  /-- After a backslash inside quotes. -/
  | escaped
  deriving DecidableEq, Repr

namespace Quoting

/-- Where the next character stands. -/
def step : Quoting → CodePoint → Quoting
  | outside, c => if c = '"' then inside else outside
  | inside, c => if c = '\\' then escaped else if c = '"' then outside else inside
  | escaped, _ => inside

end Quoting

namespace Selector

/-! ## Cutting into groups -/

/-- The bracket depth after a character that stands outside quotes. -/
def depthAfter (depth : Int) (c : CodePoint) : Int :=
  if c = '[' then depth + 1 else if c = ']' then depth - 1 else depth

/-- Cuts a text at the commas outside quotes and brackets. There is no result when a quote stays
open at the end, or when not as many brackets are closed as opened. -/
def cutGroups (q : Quoting) (depth : Int) : Text → Option (List Text)
  | [] => if q = .outside ∧ depth = 0 then some [[]] else none
  | c :: s =>
    if q = .outside ∧ c = ',' ∧ depth = 0 then
      (cutGroups .outside 0 s).map ([] :: ·)
    else
      (cutGroups (q.step c) (if q = .outside then depthAfter depth c else depth) s).map
        (Text.consFirst c)

/-- The groups of a selector text. -/
def splitGroups (s : Text) : Option (List Text) :=
  cutGroups .outside 0 s

/-! ## Names -/

/-- The characters that a name may begin with. -/
def isNameStart (c : CodePoint) : Bool :=
  Text.isLetter c || c == '_'

/-- The further characters of a class name. -/
def isClassChar (c : CodePoint) : Bool :=
  Text.isWordChar c || c == '-'

/-- The further characters of an attribute. -/
def isAttributeChar (c : CodePoint) : Bool :=
  Text.isWordChar c || c == '.' || c == '-'

/-- Reads a name as long as it goes, given its further characters. -/
def readName (more : CodePoint → Bool) : Text → Option (Text × Text)
  | [] => none
  | c :: s =>
    if isNameStart c then some (c :: s.takeWhile more, s.dropWhile more) else none

/-! ## Predicates -/

/-- The content of a quoted value: a backslash stands for the character after it. -/
def unescape : Text → Text
  | [] => []
  | '\\' :: c :: s => c :: unescape s
  | c :: s => c :: unescape s

/-- Whether a text begins and ends with double quotes, two at least. -/
def isQuoted (raw : Text) : Bool :=
  2 ≤ raw.length && raw.head? == some '"' && raw.getLast? == some '"'

/-- Reads the value of a comparison. -/
def readComparand (raw : Text) : Except SelectorFault Comparand :=
  if isQuoted raw then .ok (.text (unescape (raw.drop 1).dropLast))
  else
    match numberOfText? raw with
    | some x => .ok (.number x)
    | none => .error (.invalidValue raw)

/-- The text of the value that follows an operator: what stands there without the white space
around it, and the last character where there is nothing else. -/
def valueText? (s : Text) : Option Text :=
  match Text.trim s with
  | [] => s.getLast?.map fun c => [c]
  | t => some t

/-- The operators in the order in which they are tried, longer ones before their endings. -/
def operators : List Comparison :=
  [.notContains, .notStartsWith, .notEndsWith, .ne, .ge, .le, .contains, .startsWith, .endsWith,
    .eq, .gt, .lt]

/-- Reads an operator and the text of its value. -/
def readOperator? (s : Text) : Option (Comparison × Text) :=
  operators.findSome? fun op =>
    (Text.after? op.symbol s).bind fun rest => (valueText? rest).map fun raw => (op, raw)

/-- Reads an attribute alone, with a mark in front of it or none. -/
def readFlag? (body : Text) : Option Predicate :=
  let (make, s) : (Text → Predicate) × Text :=
    match Text.trimStart body with
    | '?' :: s => (.truthy, Text.trimStart s)
    | '!' :: s => (.falsy, Text.trimStart s)
    | '^' :: s => (.undefined, Text.trimStart s)
    | s => (.defined, s)
  match readName isAttributeChar s with
  | some (name, rest) => if Text.isBlankText rest then some (make name) else none
  | none => none

/-- Reads a comparison as its attribute, its operator and the text of its value. -/
def readComparison? (body : Text) : Option (Text × Comparison × Text) :=
  (readName isAttributeChar (Text.trimStart body)).bind fun (name, rest) =>
    (readOperator? (Text.trimStart rest)).map fun (op, raw) => (name, op, raw)

/-- Reads what stands between the brackets of a predicate. -/
def readPredicate (body : Text) : Except SelectorFault Predicate :=
  match readFlag? body with
  | some p => .ok p
  | none =>
    match readComparison? body with
    | none => .error (.invalidPredicate body)
    | some (key, op, raw) =>
      match readComparand raw with
      | .ok value => .ok (.compare key op value)
      | .error fault => .error fault

/-! ## Groups -/

/-- Cuts a text at the first closing bracket outside quotes. -/
def readBracketed (q : Quoting) : Text → Option (Text × Text)
  | [] => none
  | c :: s =>
    if q = .outside ∧ c = ']' then some ([], s)
    else (readBracketed (q.step c) s).map fun (body, rest) => (c :: body, rest)

theorem length_readBracketed {q : Quoting} {s body rest : Text}
    (h : readBracketed q s = some (body, rest)) : rest.length < s.length := by
  induction s generalizing q body with
  | nil => simp [readBracketed] at h
  | cons c s ih =>
    simp only [readBracketed] at h
    split at h
    · simp only [Option.some.injEq, Prod.mk.injEq] at h
      simp [h.2]
    · simp only [Option.map_eq_some_iff, Prod.mk.injEq, Prod.exists] at h
      obtain ⟨body', rest', found, _, rfl⟩ := h
      have := ih found
      simp only [List.length_cons]
      omega

theorem length_readName {more : CodePoint → Bool} {s name rest : Text}
    (h : readName more s = some (name, rest)) : rest.length < s.length := by
  cases s with
  | nil => simp [readName] at h
  | cons c s =>
    simp only [readName] at h
    split at h
    · simp only [Option.some.injEq, Prod.mk.injEq] at h
      rw [← h.2]
      have := (List.dropWhile_sublist more (l := s)).length_le
      simp only [List.length_cons]
      omega
    · simp at h

/-- Reads the predicates and class filters of a group. -/
def readParts (s : Text) : Except SelectorFault (List Predicate × List Text) :=
  match s with
  | [] => .ok ([], [])
  | c :: s =>
    if Text.isBlank c then readParts s
    else if c = '[' then
      match found : readBracketed .outside s with
      | none => .error .unterminated
      | some (body, rest) =>
        have : rest.length < s.length := length_readBracketed found
        match readPredicate body with
        | .error fault => .error fault
        | .ok predicate =>
          (readParts rest).map fun (predicates, classes) => (predicate :: predicates, classes)
    else if c = '.' then
      match found : readName isClassChar s with
      | none => .error .invalidClass
      | some (name, rest) =>
        have : rest.length < s.length := length_readName found
        (readParts rest).map fun (predicates, classes) =>
          (predicates, name :: classes)
    else .error (.unexpected c)
termination_by s.length

/-- Reads the kind that a group may begin with. -/
def readKind (part : Text) : Option Kind × Text :=
  let s := Text.trimStart part
  match Text.after? "node" s, Text.after? "edge" s, Text.after? ['*'] s with
  | some rest, _, _ => (some .node, rest)
  | none, some rest, _ => (some .edge, rest)
  | none, none, some rest => (none, rest)
  | none, none, none => (none, part)

/-- Reads one group. -/
def readGroup (part : Text) : Except SelectorFault SelectorGroup :=
  if Text.isBlankText part then .error .emptyGroup
  else
    let (kind, rest) := readKind part
    (readParts rest).map fun (predicates, classes) => { kind, predicates, classes }

/-- Reads groups in order, up to the first that is at fault. -/
def readGroups : List Text → Except SelectorFault (List SelectorGroup)
  | [] => .ok []
  | part :: parts =>
    match readGroup part with
    | .error fault => .error fault
    | .ok group => (readGroups parts).map (group :: ·)

/-- Reads the groups of a selector text. -/
def read (s : Text) : Except SelectorFault (List SelectorGroup) :=
  if Text.isBlankText s then .error .empty
  else
    match splitGroups s with
    | none => .error .unbalanced
    | some parts => readGroups parts

/-- Reads a selector. -/
def parse (text : Text) : Except SelectorError Selector :=
  match read text with
  | .ok groups => .ok { text, groups }
  | .error fault => .error { fault, text }

end Selector

end MeshLens
