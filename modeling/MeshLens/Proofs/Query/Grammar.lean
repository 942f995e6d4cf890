import MeshLens.Proofs.Query.Meaning
import MeshLens.Proofs.Text.Split

/-!
# The grammar of queries

A query is a row of clauses joined by `or`, and a clause is a row of phrases joined by `and`. This
module says which phrases, clauses and queries there are, what they ask for, and in how many ways
each can be written.

## Key results

- `Query.IsQuery`, `Query.meaning`: the queries and what they are compiled to
- `Query.Phrase.Spelling`, `Query.Spelling`: the ways of writing a phrase and a query in words
- `Query.Layout`: the ways of putting spaces between words
-/

namespace MeshLens.Query

/-! ## Queries -/

/-- The characters of operators. -/
def operatorChars : Text :=
  ['!', '=', '<', '>', '*', '$', '^']

/-- Whether a text stands between two equal quotes. -/
def isQuoted (s : Text) : Bool :=
  2 ≤ s.length && s.head? == s.getLast? && (s.head? == some '"' || s.head? == some '\'')

/-- Whether a text is a word that is respelled, in any case. -/
def isKeyword (s : Text) : Bool :=
  [Text.ofString "is", "has", "not", "contains", "startswith", "endswith", "and", "or"].any
    fun word => afterWord? word s == some []

/-- Whether a text can be the value of a comparison as it stands. -/
structure IsValue (value : Text) : Prop where
  ne_nil : value ≠ []
  isBlank : ∀ c ∈ value, Text.isBlank c = false
  notMem_operatorChars : ∀ c ∈ value, c ∉ operatorChars
  isQuoted : isQuoted value = false
  isKeyword : isKeyword value = false

namespace Operand

/-- Whether an operand can be compared with a value by an operator. -/
def Takes (operand : Operand) (op : Comparison) (value : Text) : Prop :=
  match operand.kind with
  | .text | .name => True
  | .nodeType => (lookUp? nodeTypes value).isSome = true
  | .numeric => op = .eq ∨ op = .ne ∨ (isNumber value = true ∧ op.relation.isPartial = false)
  | .rank => isRank value = .ok true ∧ op.relation.isPartial = false

/-- What the comparison of an operand with a value asks for. -/
def alternatives (operand : Operand) (op : Comparison) (value : Text) : List (List Criterion) :=
  match operand.kind with
  | .text => [[.text operand.key op value]]
  | .name => nameAlternatives op value
  | .nodeType => [[.text operand.key op ((lookUp? nodeTypes value).getD value)]]
  | .numeric | .rank =>
    if isNumber value then [[.number operand.key op value]]
    else if op.negated then [[.truthy operand.key]]
    else [[.falsy operand.key]]

end Operand

namespace Phrase

/-- The kind of element that a phrase is about. -/
def target? : Phrase → Option Kind
  | flag _ word => (flags.get? word).map (·.target)
  | comparison word _ _ => (operands.get? word).map (·.target)

/-- Whether a phrase is about the names of a node. -/
def isName : Phrase → Bool
  | flag _ _ => false
  | comparison word _ _ => (operands.get? word).any (·.kind = .name)

/-- What a phrase asks for. -/
def alternatives : Phrase → List (List Criterion)
  | flag negated word =>
    ((flags.get? word).map fun flag => (flag.criteria negated).map fun c => [c]).getD []
  | comparison word op value =>
    ((operands.get? word).map fun operand => operand.alternatives op value).getD []

/-- Whether a phrase is one that a query can be made of. -/
def Admissible : Phrase → Prop
  | flag _ word => (flags.get? word).isSome = true
  | comparison word op value =>
    ∃ operand, operands.get? word = some operand ∧ IsValue value ∧ operand.Takes op value

end Phrase

/-- Whether phrases make a clause: they are about one kind of element, and names stand alone. -/
structure IsClause (phrases : List Phrase) : Prop where
  ne_nil : phrases ≠ []
  admissible : ∀ p ∈ phrases, p.Admissible
  target : ∃ kind, ∀ p ∈ phrases, p.target? = some kind
  name_alone : ∀ p ∈ phrases, p.isName = true → phrases = [p]

/-- What a clause asks for: a choice of what each of its phrases asks for. -/
def clauseMeaning (phrases : List Phrase) : Clause where
  target := (phrases.head?.bind Phrase.target?).getD .node
  alternatives := phrases.foldr (fun p rest => Clause.combine p.alternatives rest) [[]]

/-- Whether clauses make a query. -/
structure IsQuery (clauses : List (List Phrase)) : Prop where
  ne_nil : clauses ≠ []
  isClause : ∀ phrases ∈ clauses, IsClause phrases

/-- What a query asks for. -/
def meaning (clauses : List (List Phrase)) : CompiledQuery :=
  ⟨clauses.map clauseMeaning⟩

/-! ## Spellings -/

/-- Whether a text is a word in any case of its ASCII letters. -/
def Spells (s word : Text) : Prop :=
  s.map Text.smallLetter = word

/-- `Spells` is decided by putting the text in small letters. -/
instance (s word : Text) : Decidable (Spells s word) :=
  inferInstanceAs (Decidable (s.map Text.smallLetter = word))

/-- A word that may stand in front of a flag and means nothing. -/
def IsQualifier (s : Text) : Prop :=
  Spells s "is" ∨ Spells s "has"

/-- At most one such word. -/
def AreQualifiers (words : List Text) : Prop :=
  words = [] ∨ ∃ s, words = [s] ∧ IsQualifier s

/-- A word of negation. -/
def IsNegation (s : Text) : Prop :=
  s = [.char '!'] ∨ Spells s "not"

end MeshLens.Query

namespace MeshLens.Relation

/-- The word for a relation on parts of a text. -/
def word? : Relation → Option Text
  | .contains => some "contains"
  | .startsWith => some "startswith"
  | .endsWith => some "endswith"
  | _ => none

end MeshLens.Relation

namespace MeshLens.Query

/-- The ways of writing a phrase in words. -/
inductive Phrase.Spelling : Phrase → List Text → Prop
  /-- A flag, as in `is idle`. -/
  | flag {word s : Text} {front : List Text} (hfront : AreQualifiers front) (h : Spells s word) :
    Spelling (.flag false word) (front ++ [s])
  /-- A mark on the flag, as in `!idle`. -/
  | glued {word s : Text} {front : List Text} (hfront : AreQualifiers front) (h : Spells s word) :
    Spelling (.flag true word) (front ++ [.char '!' :: s])
  /-- A mark on a qualifier, as in `!is idle`. -/
  | gluedQualifier {word s q : Text} {front : List Text} (hfront : AreQualifiers front)
    (hq : IsQualifier q) (h : Spells s word) :
    Spelling (.flag true word) (front ++ [.char '!' :: q, s])
  /-- A word of negation, as in `not idle`, `! is idle` or `is not idle`. -/
  | negated {word s n : Text} {front back : List Text} (hfront : AreQualifiers front)
    (hn : IsNegation n) (hback : AreQualifiers back) (h : Spells s word) :
    Spelling (.flag true word) (front ++ n :: (back ++ [s]))
  /-- A symbol, as in `app *= x`. -/
  | symbol {word s value : Text} {op : Comparison} (h : Spells s word) :
    Spelling (.comparison word op value) [s, op.symbol, value]
  /-- A word, as in `app contains x`. -/
  | operator {word s w t value : Text} {op : Comparison} (h : Spells s word)
    (hop : op.negated = false) (hw : op.relation.word? = some w) (ht : Spells t w) :
    Spelling (.comparison word op value) [s, t, value]
  /-- A mark on a word, as in `app !contains x`. -/
  | gluedOperator {word s w t value : Text} {op : Comparison} (h : Spells s word)
    (hop : op.negated = true) (hw : op.relation.word? = some w) (ht : Spells t w) :
    Spelling (.comparison word op value) [s, .char '!' :: t, value]
  /-- A word behind a word of negation, as in `app ! contains x` or `app not contains x`. -/
  | negatedOperator {word s n w t value : Text} {op : Comparison} (h : Spells s word)
    (hn : IsNegation n) (hop : op.negated = true) (hw : op.relation.word? = some w)
    (ht : Spells t w) : Spelling (.comparison word op value) [s, n, t, value]
  /-- A symbol behind a word of negation, as in `app not *= x`. -/
  | notSymbol {word s n sym value : Text} {op : Comparison} (h : Spells s word)
    (hn : Spells n "not") (hop : op.symbol = .char '!' :: sym) :
    Spelling (.comparison word op value) [s, n, sym, value]

/-- The ways of writing a clause in words. -/
inductive ClauseSpelling : List Phrase → List Text → Prop
  | one {p : Phrase} {words : List Text} (h : p.Spelling words) : ClauseSpelling [p] words
  | more {p : Phrase} {ps : List Phrase} {words rest : List Text} {s : Text} (h : p.Spelling words)
    (hs : Spells s "and") (hrest : ClauseSpelling ps rest) :
    ClauseSpelling (p :: ps) (words ++ s :: rest)

/-- The ways of writing a query in words. -/
inductive Spelling : List (List Phrase) → List Text → Prop
  | one {phrases : List Phrase} {words : List Text} (h : ClauseSpelling phrases words) :
    Spelling [phrases] words
  | more {phrases : List Phrase} {clauses : List (List Phrase)} {words rest : List Text} {s : Text}
    (h : ClauseSpelling phrases words) (hs : Spells s "or") (hrest : Spelling clauses rest) :
    Spelling (phrases :: clauses) (words ++ s :: rest)

/-- The ways of putting spaces between words and behind them. -/
inductive Layout : List Text → Text → Prop
  | last (w : Text) (n : Nat) : Layout [w] (w ++ List.replicate n (.char ' '))
  | next (w : Text) (n : Nat) {words : List Text} {s : Text} (h : Layout words s) :
    Layout (w :: words) (w ++ (List.replicate (n + 1) (.char ' ') ++ s))

end MeshLens.Query
