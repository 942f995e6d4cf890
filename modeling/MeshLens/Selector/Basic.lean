import MeshLens.Comparison
import MeshLens.Graph.Kind
import MeshLens.Number.Binary64

/-!
# Selectors

A selector picks elements of a graph: it is a list of groups, any of which may match, and a group
asks for a kind of element, for style classes and for predicates on the data.
-/

namespace MeshLens

/-- What a comparison predicate compares an attribute with. -/
inductive Comparand
  | text (s : Text)
  | number (x : Binary64)
  deriving DecidableEq, Repr

/-- A condition on one attribute of an element's data. -/
inductive Predicate
  /-- The attribute is there and not null. -/
  | defined (key : Text)
  | undefined (key : Text)
  /-- The attribute is there and counts as true. -/
  | truthy (key : Text)
  | falsy (key : Text)
  | compare (key : Text) (op : Comparison) (value : Comparand)
  deriving DecidableEq, Repr

/-- One alternative of a selector. -/
structure SelectorGroup where
  /-- The kind of element asked for; none admits both. -/
  kind : Option Kind := none
  predicates : List Predicate := []
  classes : List Text := []
  deriving DecidableEq, Repr

/-- A selector with the text it was read from. -/
structure Selector where
  text : Text
  groups : List SelectorGroup
  deriving DecidableEq, Repr

/-- What is wrong with a selector. -/
inductive SelectorFault
  | empty
  | unbalanced
  | emptyGroup
  | invalidClass
  | unexpected (c : CodePoint)
  | unterminated
  | invalidPredicate (body : Text)
  | invalidValue (raw : Text)
  deriving DecidableEq, Repr

/-- A selector text that cannot be read. -/
structure SelectorError where
  fault : SelectorFault
  text : Text
  deriving DecidableEq, Repr

namespace SelectorError

/-- The message of an error. -/
def message (e : SelectorError) : Text :=
  match e.fault with
  | .empty => "Selector must not be empty"
  | .unbalanced => "Unbalanced selector: " ++ e.text
  | .emptyGroup => "Empty selector group in: " ++ e.text
  | .invalidClass => "Invalid class filter in: " ++ e.text
  | .unexpected c => "Unexpected '" ++ [c] ++ "' in selector: " ++ e.text
  | .unterminated => "Unterminated predicate in selector: " ++ e.text
  | .invalidPredicate body =>
    "Invalid predicate [" ++ body ++ "] in selector: " ++ e.text
  | .invalidValue raw => "Invalid value " ++ raw ++ " in selector: " ++ e.text

end SelectorError

end MeshLens
