import MeshLens.Number.Literal
import MeshLens.Query.Vocabulary

/-!
# Phrases

A phrase is one expression of a query: a flag, perhaps negated, or an operand compared with a
value. Reading a phrase finds its operator; resolving it looks its word up and says which criteria
it stands for.
-/

namespace MeshLens.Query

/-- An operator of an expression. -/
inductive Operator
  | compare (op : Comparison)
  /-- The exclamation mark in front of a flag. -/
  | negation
  deriving DecidableEq, Repr

namespace Operator

/-- The symbol of an operator. -/
def symbol : Operator → Text
  | compare op => op.symbol
  | negation => ['!']

/-- The operators in the order in which they are looked for. -/
def all : List Operator :=
  [.compare .ne, .compare .notContains, .compare .notEndsWith, .compare .notStartsWith,
    .compare .ge, .compare .le, .compare .contains, .compare .endsWith, .compare .startsWith,
    .compare .eq, .compare .gt, .compare .lt, .negation]

/-- The first operator, in the order of looking, that occurs anywhere in an expression. -/
def detect (s : Text) : Option Operator :=
  all.find? fun op => Text.occursIn op.symbol s

end Operator

/-- One expression of a query. -/
inductive Phrase
  | flag (negated : Bool) (word : Text)
  | comparison (word : Text) (op : Comparison) (value : Text)
  deriving DecidableEq, Repr

/-- Takes one pair of equal quotes off a value. -/
def unquote (value : Text) : Text :=
  if 2 ≤ value.length ∧ value.head? = value.getLast? ∧
      (value.head? = some '"' ∨ value.head? = some '\'') then
    (value.drop 1).dropLast
  else value

/-- What an expression stands for: any of several conjunctions of criteria on elements of one
kind. -/
structure Expression where
  target : Kind
  alternatives : List (List Criterion)
  deriving DecidableEq, Repr

namespace Phrase

/-- Reads an expression. -/
def read (s : Text) : Except QueryError Phrase :=
  match Operator.detect s with
  | none =>
    if 1 < (Text.words s).length then .error .noOperator
    else .ok (.flag false (Text.trim s))
  | some op =>
    let (before, after) := (Text.breakOn op.symbol s).getD (s, [])
    match op with
    | .negation => .ok (.flag true (Text.trim after))
    | .compare op => .ok (.comparison (Text.trim before) op (unquote (Text.trim after)))

/-- The display setting that a phrase only makes sense with. -/
def request? : Phrase → Option OptionRequest
  | flag _ word => (lookUp? flags word).bind (·.request)
  | comparison word _ _ => (lookUp? operands word).bind (·.request)

end Phrase

/-! ## Resolving -/

/-- The criterion that compares a numeric attribute. An attribute is missing where it does not
apply, so to equal what is no number is to be missing, and to differ from it is to be there. -/
def numericCriterion (key : Text) (op : Comparison) (value : Text) :
    Except QueryError Criterion :=
  if op.isOrdering then
    if isNumber value then .ok (.number key op value) else .error (.notNumeric value)
  else
    match op with
    | .eq => .ok (if isNumber value then .number key op value else .falsy key)
    | .ne => .ok (if isNumber value then .number key op value else .truthy key)
    | _ => .error (.notForNumbers op.symbol)

/-- The operator of a symbol. -/
def comparisonOf? (symbol : Text) : Option Comparison :=
  [.eq, .ne, .gt, .lt, .ge, .le, .contains, .notContains, .startsWith, .notStartsWith, .endsWith,
    .notEndsWith].find? fun (op : Comparison) => op.symbol = symbol

/-- The criterion that compares a numeric attribute by the operator of a symbol. -/
def numericCriterionOf (key : Text) (symbol value : Text) : Except QueryError Criterion :=
  match comparisonOf? symbol with
  | some op => numericCriterion key op value
  | none => .error (.notForNumbers symbol)

/-- Whether a value is a rank: a number from 1 to 100. -/
def isRank (value : Text) : Except UnreadableNumber Bool :=
  if isNumber value then
    (readNumber value).map fun x =>
      !x.below (Binary64.ofDecimal false 1 0) && !(Binary64.ofDecimal false 100 0).below x
  else .ok false

/-- The criterion that compares the rank. -/
def rankCriterion (key : Text) (op : Comparison) (value : Text) :
    Except QueryFault Criterion :=
  match isRank value with
  | .error fault => .error (.number fault)
  | .ok false => .error (.error (.rankOutOfRange value))
  | .ok true => (numericCriterion key op value).mapError .error

/-- What a comparison of the names of a node stands for: some name compares so or, where the
operator is a negation, every name does. -/
def nameAlternatives (op : Comparison) (value : Text) : List (List Criterion) :=
  let criteria := nameKeys.map fun key => Criterion.text key op value
  if op.negated then [criteria] else criteria.map fun criterion => [criterion]

/-- What the comparison of an operand with a value stands for. -/
def Operand.resolve (operand : Operand) (conjunctive : Bool) (op : Comparison)
    (value : Text) : Except QueryFault (List (List Criterion)) :=
  match operand.kind with
  | .numeric => ((numericCriterion operand.key op value).mapError .error).map fun c => [[c]]
  | .rank => (rankCriterion operand.key op value).map fun c => [[c]]
  | .name =>
    if conjunctive then .error (.error .nameInConjunction) else .ok (nameAlternatives op value)
  | .nodeType =>
    match lookUp? nodeTypes value with
    | none => .error (.error (.unknownNodeType value))
    | some nodeType => .ok [[.text operand.key op nodeType]]
  | .text => .ok [[.text operand.key op value]]

/-- What a phrase stands for, alone or in a conjunction. -/
def Phrase.resolve (conjunctive : Bool) : Phrase → Except QueryFault Expression
  | .flag negated word =>
    match lookUp? flags word with
    | none => .error (.error (.unknownFlag word))
    | some entry =>
      let criteria := if negated then entry.negative else entry.positive
      .ok { target := entry.target, alternatives := criteria.map fun c => [c] }
  | .comparison word op value =>
    match lookUp? operands word with
    | none => .error (.error (.unknownOperand word))
    | some operand =>
      (operand.resolve conjunctive op value).map fun alternatives =>
        { target := operand.target, alternatives }

/-! ## Expressions -/

/-- What reading a part of a query comes to: the requests of the expressions that were looked at,
in order, and what the part stands for. Looking stops at the first fault, whose expression has
made its request by then. -/
structure Reading (α : Type) where
  requests : List OptionRequest
  result : Except QueryFault α

/-- Reads and resolves one expression. -/
def Expression.read (conjunctive : Bool) (s : Text) : Reading Expression :=
  match Phrase.read s with
  | .error e => { requests := [], result := .error (.error e) }
  | .ok phrase => { requests := phrase.request?.toList, result := phrase.resolve conjunctive }

end MeshLens.Query
