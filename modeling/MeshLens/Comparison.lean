import MeshLens.Text.CodePoint

/-!
# Comparison operators

The twelve operators by which a query or a selector compares an attribute with a value: eight
relations, and the negations of four of them.
-/

namespace MeshLens

/-- A relation between an attribute and a value. -/
inductive Relation
  | equal | above | below | atLeast | atMost | contains | startsWith | endsWith
  deriving DecidableEq, Repr

/-- A comparison operator. -/
inductive Comparison
  | eq | ne | gt | lt | ge | le
  | contains | notContains | startsWith | notStartsWith | endsWith | notEndsWith
  deriving DecidableEq, Repr

namespace Comparison

/-- The symbol of an operator. -/
def symbol : Comparison → Text
  | eq => ['=']
  | ne => ['!', '=']
  | gt => ['>']
  | lt => ['<']
  | ge => ['>', '=']
  | le => ['<', '=']
  | contains => ['*', '=']
  | notContains => ['!', '*', '=']
  | startsWith => ['^', '=']
  | notStartsWith => ['!', '^', '=']
  | endsWith => ['$', '=']
  | notEndsWith => ['!', '$', '=']

/-- Whether an operator is the negation of a relation. -/
def negated : Comparison → Bool
  | ne | notContains | notStartsWith | notEndsWith => true
  | _ => false

/-- The relation that an operator states or denies. -/
def relation : Comparison → Relation
  | eq | ne => .equal
  | gt => .above
  | lt => .below
  | ge => .atLeast
  | le => .atMost
  | contains | notContains => .contains
  | startsWith | notStartsWith => .startsWith
  | endsWith | notEndsWith => .endsWith

/-- Whether an operator asks for an order. -/
def isOrdering : Comparison → Bool
  | gt | lt | ge | le => true
  | _ => false

end Comparison

end MeshLens
