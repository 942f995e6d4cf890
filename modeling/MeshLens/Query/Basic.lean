import MeshLens.Channel
import MeshLens.Comparison
import MeshLens.Display
import MeshLens.Graph.Kind
import MeshLens.Number.Literal
import MeshLens.Text.Basic

/-!
# Compiled queries

A query is a disjunction of clauses, and a clause asks for elements of one kind that satisfy one
of several conjunctions of criteria. A compiled query is handed on as the text of a selector.
-/

namespace MeshLens

/-- What a query asks of one attribute. -/
inductive Criterion
  | truthy (key : Text)
  | undefined (key : Text)
  | falsy (key : Text)
  /-- Compares the attribute with a text. -/
  | text (key : Text) (op : Comparison) (value : Text)
  /-- Compares the attribute with a number, kept as it was spelled. -/
  | number (key : Text) (op : Comparison) (literal : Text)
  deriving DecidableEq, Repr

namespace Criterion

/-- A text with its backslashes and double quotes escaped by a backslash. -/
def escape (s : Text) : Text :=
  s.flatMap fun c : CodePoint => if c = '\\' ∨ c = '"' then ['\\', c] else [c]

/-- The selector text that compares an attribute with a text by any operator symbol. -/
def renderText (key symbol value : Text) : Text :=
  "[" ++ key ++ " " ++ symbol ++ " \"" ++ escape value ++ "\"]"

/-- The selector text that compares an attribute with a number by any operator symbol. -/
def renderNumber (key symbol literal : Text) : Text :=
  "[" ++ key ++ " " ++ symbol ++ " " ++ literal ++ "]"

/-- The selector text of a criterion. -/
def render : Criterion → Text
  | truthy key => "[?" ++ key ++ "]"
  | undefined key => "[^" ++ key ++ "]"
  | falsy key => "[!" ++ key ++ "]"
  | text key op value => renderText key op.symbol value
  | number key op literal => renderNumber key op.symbol literal

/-- The selector text of a conjunction of criteria. -/
def renderAll (criteria : List Criterion) : Text :=
  criteria.flatMap render

end Criterion

/-- Elements of one kind that satisfy one of several conjunctions of criteria. -/
structure Clause where
  target : Kind
  alternatives : List (List Criterion)
  deriving DecidableEq, Repr

namespace Clause

/-- The selector text of a clause. -/
def render (c : Clause) : Text :=
  Text.join "," (c.alternatives.map fun criteria =>
    c.target.word ++ Criterion.renderAll criteria)

end Clause

/-- What is wrong with a query. -/
inductive QueryError
  | noOperator
  | unknownOperand (word : Text)
  | unknownFlag (word : Text)
  | rankOutOfRange (value : Text)
  | unknownNodeType (value : Text)
  | notNumeric (value : Text)
  | notForNumbers (symbol : Text)
  | nameInConjunction
  | mixedKinds
  deriving DecidableEq, Repr

namespace QueryError

/-- Whether an error is one of form rather than of meaning. -/
def isSyntactic : QueryError → Bool
  | noOperator => true
  | _ => false

/-- The message of an error. -/
def message : QueryError → Text
  | noOperator => "No valid operator found in expression"
  | unknownOperand word => "Invalid operand [" ++ word ++ "]"
  | unknownFlag word => "Invalid Node or Edge operand [" ++ word ++ "]"
  | rankOutOfRange value =>
    "Invalid rank range [" ++ value ++ "]. Expected a number between 1..100"
  | unknownNodeType value =>
    "Invalid node type [" ++ value ++
      "]. Expected app | operation | service | unknown | workload"
  | notNumeric value =>
    "Invalid value [" ++ value ++
      "]. Expected a numeric value (use '.' for decimals)"
  | notForNumbers symbol =>
    "Invalid operator [" ++ symbol ++ "] for numeric condition"
  | nameInConjunction => "Can not use 'AND' with 'name' operand"
  | mixedKinds => "Invalid expression. Can not AND node and edge criteria."

end QueryError

/-- Why a query stands for nothing: an error in it, or a number that cannot be read. -/
inductive QueryFault
  | error (error : QueryError)
  | number (fault : UnreadableNumber)
  deriving DecidableEq, Repr

/-- A compiled query: its clauses, any of which may hold. -/
structure CompiledQuery where
  clauses : List Clause
  deriving DecidableEq, Repr

namespace CompiledQuery

/-- The selector text of a query. -/
def render (q : CompiledQuery) : Text :=
  Text.join "," (q.clauses.map Clause.render)

/-- The kinds that the clauses ask for. -/
def targets (q : CompiledQuery) : List Kind :=
  q.clauses.map (·.target)

end CompiledQuery

end MeshLens
