import MeshLens.Yaml.Block
import MeshLens.Yaml.Handle
import MeshLens.Yaml.Quoted

/-!
# Tokens

A document as a row of tokens, in which indentation has become tokens that begin and end blocks. A
scalar turns out to be a key only when a colon follows it on its line; until then it is a candidate,
and the tokens from there on wait, because a key token may still go in front of them. A document
that cannot be read on still yields the tokens before the first one that waits.
-/

namespace MeshLens.Yaml

/-- A token. -/
inductive Token
  | directive (d : Directive)
  | documentStart
  | documentEnd
  /-- A list of dashes begins. -/
  | itemsStart
  /-- An object of keys begins. -/
  | entriesStart
  | blockEnd
  | openList
  | closeList
  | openObject
  | closeObject
  | comma
  | dash
  | key
  | value
  | alias (name : Text)
  | anchor (name : Text)
  | tag (tag : WrittenTag)
  | scalar (text : Text) (plain : Bool)
  /-- The text is over. -/
  | finish
  deriving DecidableEq, Repr

/-- A token that may turn out to begin a key. -/
structure KeyCandidate where
  /-- How many tokens are before it. -/
  number : Nat
  /-- There has to be a key here, because of the indentation. -/
  required : Bool
  index : Nat
  line : Nat
  column : Nat

/-- How far a candidate may reach. -/
def KeyCandidate.maxLength : Nat := 1024

/-- The state of cutting a text into tokens. -/
structure Lexer where
  cursor : Cursor
  /-- The tokens that are settled, the last one first. -/
  settled : List Token := []
  /-- How many tokens are settled. -/
  settledCount : Nat := 0
  /-- The tokens that wait. -/
  waiting : List Token := []
  /-- How many brackets are open. -/
  brackets : Nat := 0
  /-- The indentation of the innermost block, -1 outside of all. -/
  indent : Int := -1
  /-- The indentations of the blocks around it. -/
  outer : List Int := []
  keysAllowed : Bool := true
  /-- The candidates for keys, by how many brackets are open. -/
  candidates : List (Nat × KeyCandidate) := []
  finished : Bool := false

namespace Lexer

/-! ## Candidates -/

/-- Adds a token at the end. -/
def push (l : Lexer) (t : Token) : Lexer :=
  { l with waiting := l.waiting ++ [t] }

/-- Puts a token in front of the one of a number. -/
def insert (l : Lexer) (number : Nat) (t : Token) : Lexer :=
  let place := number - l.settledCount
  { l with waiting := l.waiting.take place ++ t :: l.waiting.drop place }

/-- Whether a candidate is out of reach. -/
def isStale (l : Lexer) (c : KeyCandidate) : Bool :=
  c.line != l.cursor.line || KeyCandidate.maxLength < l.cursor.index - c.index

/-- Gives up candidates that are out of reach. -/
def dropStale (l : Lexer) : Except YamlError Lexer :=
  if l.candidates.any fun (_, c) => l.isStale c && c.required then .error .token
  else .ok { l with candidates := l.candidates.filter fun (_, c) => !l.isStale c }

/-- Gives up the candidate inside the open brackets. -/
def dropCandidate (l : Lexer) : Except YamlError Lexer :=
  match l.candidates.lookup l.brackets with
  | none => .ok l
  | some c =>
    if c.required then .error .token
    else .ok { l with candidates := l.candidates.filter (·.1 ≠ l.brackets) }

/-- Makes the next token a candidate, where keys are allowed. -/
def addCandidate (l : Lexer) : Except YamlError Lexer :=
  if !l.keysAllowed then .ok l
  else
    l.dropCandidate.map fun l =>
      let c : KeyCandidate := {
        number := l.settledCount + l.waiting.length
        required := l.brackets = 0 && l.indent = l.cursor.column
        index := l.cursor.index, line := l.cursor.line, column := l.cursor.column }
      { l with candidates := (l.brackets, c) :: l.candidates }

/-! ## Indentation -/

/-- Ends the blocks that are indented further than a column. -/
def closeBlocks (l : Lexer) (column : Int) : Lexer :=
  if l.brackets ≠ 0 then l else go l.outer l
where
  /-- Ends blocks, given those around. -/
  go : List Int → Lexer → Lexer
    | [], l => l
    | indent :: outer, l =>
      if column < l.indent then go outer ({ l with indent, outer }.push .blockEnd) else l

/-- Opens a block at a column, unless one is open there. -/
def openBlock? (l : Lexer) (column : Nat) : Option Lexer :=
  if l.indent < column then some { l with outer := l.indent :: l.outer, indent := column } else none

/-- Opens a block at the current column with a token in front, if none is open there. -/
def enterBlock (l : Lexer) (t : Token) : Lexer :=
  ((l.openBlock? l.cursor.column).map (·.push t)).getD l

/-! ## Tokens one by one -/

/-- Passes blanks and comments; a new line allows keys again. -/
def skipIdle (l : Lexer) : Lexer :=
  match _h : l.cursor.skipComment.takeBreak? with
  | some (_, k) => skipIdle { l with cursor := k, keysAllowed := l.keysAllowed || l.brackets = 0 }
  | none => { l with cursor := l.cursor.skipComment }
termination_by l.cursor.rest.length
decreasing_by
  exact Nat.lt_of_lt_of_le (Cursor.length_takeBreak?_lt ‹_›) (Cursor.length_skipComment_le _)

/-- Passes a byte order mark at the very beginning, and blanks and comments. -/
def toNextToken (l : Lexer) : Lexer :=
  let k := l.cursor
  let k := if k.index = 0 ∧ k.peek? = some byteOrderMark then k.advance else k
  skipIdle { l with cursor := k }

/-- Passes characters that make a token. -/
def take (l : Lexer) (length : Nat) (t : Token) : Lexer :=
  { l with cursor := l.cursor.skip length }.push t

/-- Ends the text. -/
def finish (l : Lexer) : Except YamlError Lexer :=
  (l.closeBlocks (-1)).dropCandidate.map fun l =>
    { l with keysAllowed := false, candidates := [], finished := true }.push .finish

/-- Reads what stands at the margin by itself: a directive, or the mark of a document. -/
def marginal (l : Lexer) (read : Lexer → Except YamlError Lexer) : Except YamlError Lexer :=
  (l.closeBlocks (-1)).dropCandidate.bind fun l => read { l with keysAllowed := false }

/-- Reads a directive. -/
def directive (l : Lexer) : Except YamlError Lexer :=
  l.marginal fun l =>
    (readDirective l.cursor).map fun (d, k) => { l with cursor := k }.push (.directive d)

/-- Reads an opening bracket. -/
def opening (l : Lexer) (t : Token) : Except YamlError Lexer :=
  l.addCandidate.map fun l =>
    take { l with brackets := l.brackets + 1, keysAllowed := true } 1 t

/-- Reads a closing bracket. -/
def closing (l : Lexer) (t : Token) : Except YamlError Lexer :=
  l.dropCandidate.map fun l =>
    take { l with brackets := l.brackets - 1, keysAllowed := false } 1 t

/-- Reads a comma between brackets. -/
def comma (l : Lexer) : Except YamlError Lexer :=
  (dropCandidate { l with keysAllowed := true }).map fun l => l.take 1 .comma

/-- Reads the dash of an item. -/
def dash (l : Lexer) : Except YamlError Lexer :=
  if l.brackets = 0 ∧ !l.keysAllowed then .error .token
  else
    let l := if l.brackets = 0 then l.enterBlock .itemsStart else l
    (dropCandidate { l with keysAllowed := true }).map fun l => l.take 1 .dash

/-- Reads the question mark of a key. -/
def key (l : Lexer) : Except YamlError Lexer :=
  if l.brackets = 0 ∧ !l.keysAllowed then .error .token
  else
    let l := if l.brackets = 0 then l.enterBlock .entriesStart else l
    (dropCandidate { l with keysAllowed := l.brackets = 0 }).map fun l => l.take 1 .key

/-- Reads the colon of a value, which makes a candidate a key. -/
def value (l : Lexer) : Except YamlError Lexer :=
  match l.candidates.lookup l.brackets with
  | some c =>
    let l := { l with candidates := l.candidates.filter (·.1 ≠ l.brackets) }.insert c.number .key
    let l := if l.brackets ≠ 0 then l
      else ((l.openBlock? c.column).map (·.insert c.number .entriesStart)).getD l
    .ok (take { l with keysAllowed := false } 1 .value)
  | none =>
    if l.brackets = 0 ∧ !l.keysAllowed then .error .token
    else
      let l := if l.brackets = 0 then l.enterBlock .entriesStart else l
      (dropCandidate { l with keysAllowed := l.brackets = 0 }).map fun l => l.take 1 .value

/-- Reads a token that may begin a key. -/
def candidate (l : Lexer) (read : Cursor → Except YamlError (Token × Cursor)) :
    Except YamlError Lexer :=
  l.addCandidate.bind fun l =>
    (read l.cursor).map fun (t, k) => { l with keysAllowed := false, cursor := k }.push t

/-- Reads a plain scalar. Keys are allowed after it when it ended with its line. -/
def plain (l : Lexer) : Except YamlError Lexer :=
  l.addCandidate.map fun l =>
    let read := readPlain (l.brackets ≠ 0) (l.indent + 1) l.cursor
    { l with keysAllowed := read.lineEnded, cursor := read.cursor }.push (.scalar read.text true)

/-- Reads a block scalar. -/
def block (l : Lexer) (folded : Bool) : Except YamlError Lexer :=
  (dropCandidate { l with keysAllowed := true }).bind fun l =>
    (readBlock folded l.indent l.cursor.advance).map fun (text, k) =>
      { l with cursor := k }.push (.scalar text false)

/-- Whether a plain scalar can begin with a character, in front of what follows. -/
def beginsPlain (l : Lexer) (c : CodePoint) : Bool :=
  !(isGap c || ("-?:,[]\x7b\x7d#&*!|>'\"%@\x60" : Text).contains c) ||
    (!l.cursor.gapAt 1 && (c == '-' || (l.brackets = 0 && (c == '?' || c == ':'))))

/-- Reads the token that begins with a character. -/
def readToken (l : Lexer) (c : CodePoint) : Except YamlError Lexer :=
  let k := l.cursor
  if c = '%' ∧ k.column = 0 then l.directive
  else if c = '-' ∧ k.column = 0 ∧ k.atTriple '-' then
    l.marginal fun l => .ok (l.take 3 .documentStart)
  else if c = '.' ∧ k.column = 0 ∧ k.atTriple '.' then
    l.marginal fun l => .ok (l.take 3 .documentEnd)
  else if c = '[' then l.opening .openList
  else if c = '\x7b' then l.opening .openObject
  else if c = ']' then l.closing .closeList
  else if c = '\x7d' then l.closing .closeObject
  else if c = ',' then l.comma
  else if c = '-' ∧ k.gapAt 1 then l.dash
  else if c = '?' ∧ (l.brackets ≠ 0 ∨ k.gapAt 1) then l.key
  else if c = ':' ∧ (l.brackets ≠ 0 ∨ k.gapAt 1) then l.value
  else if c = '*' then l.candidate fun k => (readAnchor k.advance).map fun (n, k) => (.alias n, k)
  else if c = '&' then l.candidate fun k => (readAnchor k.advance).map fun (n, k) => (.anchor n, k)
  else if c = '!' then l.candidate fun k => (readTag k).map fun (t, k) => (.tag t, k)
  else if c = '|' ∧ l.brackets = 0 then l.block false
  else if c = '>' ∧ l.brackets = 0 then l.block true
  else if c = '\'' ∨ c = '"' then
    l.candidate fun k => (readQuoted k).map fun (s, k) => (.scalar s false, k)
  else if l.beginsPlain c then l.plain
  else .error .token

/-- Reads the next token. -/
def next (l : Lexer) : Except YamlError Lexer :=
  l.toNextToken.dropStale.bind fun l =>
    let l := l.closeBlocks l.cursor.column
    match l.cursor.peek? with
    | none => l.finish
    | some c => l.readToken c

/-! ## All tokens -/

/-- Whether the first token that waits may still turn out to begin a key. -/
def isHeld (l : Lexer) : Bool :=
  l.candidates.any fun (_, c) => c.number = l.settledCount

/-- Settles the first token that waits. -/
def settle (l : Lexer) (t : Token) (waiting : List Token) : Lexer :=
  { l with settled := t :: l.settled, settledCount := l.settledCount + 1, waiting }

/-- Settles a token, or reads one where none can be settled. Nothing is left to do at the end. -/
def step (l : Lexer) : Except YamlError (Option Lexer) :=
  match l.waiting with
  | [] => if l.finished then .ok none else l.next.map some
  | t :: rest =>
    if l.finished then .ok (some (l.settle t rest))
    else
      l.dropStale.bind fun l =>
        if l.isHeld then l.next.map some
        else .ok (some (l.settle t rest))

/-- The tokens of a text, and what is wrong behind them, if anything is. The first argument bounds
the number of steps. -/
def run : Nat → Lexer → List Token × Option YamlError
  | 0, l => (l.settled.reverse, some .depth)
  | fuel + 1, l =>
    match l.step with
    | .error e => (l.settled.reverse, some e)
    | .ok none => (l.settled.reverse, none)
    | .ok (some l) => run fuel l

end Lexer

/-- The tokens of a text, and what is wrong behind them, if anything is. Each character makes up
for the steps of one token and of the beginnings and ends of blocks around it. -/
def tokensOf (text : Text) : List Token × Option YamlError :=
  Lexer.run (10 * text.length + 20) { cursor := { rest := text } }

end MeshLens.Yaml
