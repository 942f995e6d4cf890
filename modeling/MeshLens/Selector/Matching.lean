import MeshLens.Graph.Element
import MeshLens.Selector.Reader
import MeshLens.Value.Form

/-!
# Matching selectors

Whether an element matches a selector. The only failures are an integer too large to be compared as
a number and a text that looks like a number and cannot be read; conditions are tested in order and
testing stops at the first that decides, so data that is not looked at does no harm.
-/

namespace MeshLens

/-- Why a selector cannot be evaluated on a graph. -/
inductive EvaluationError
  | malformed (error : SelectorError)
  /-- An integer beyond the range of numbers met a number. -/
  | integerTooLarge
  /-- A text that looks like a number met a number. -/
  | unreadable (fault : UnreadableNumber)
  /-- An edge names a list or an object as its end. -/
  | misuse (fault : Misuse)
  deriving DecidableEq, Repr

namespace EvaluationError

/-- The message of an error. -/
def message : EvaluationError → Text
  | malformed e => e.message
  | integerTooLarge => "int too large to convert to float"
  | unreadable fault => fault.message
  | misuse fault => fault.message

end EvaluationError

namespace Relation

/-- Whether a text stands in a relation to another. Texts are ordered by code points. -/
def onText (r : Relation) (left right : Text) : Bool :=
  match r with
  | equal => left == right
  | above => right < left
  | below => left < right
  | atLeast => !(left < right)
  | atMost => !(right < left)
  | contains => Text.occursIn right left
  | startsWith => (Text.after? right left).isSome
  | endsWith => Text.endsWith right left

/-- Whether a number stands in a relation to another. The relations on parts of a text do not hold
between numbers. -/
def onNumbers (r : Relation) (left right : Binary64) : Bool :=
  match r with
  | equal => left.same right
  | above => right.below left
  | below => left.below right
  | atLeast => right.below left || left.same right
  | atMost => left.below right || left.same right
  | _ => false

/-- Whether a relation looks at parts of a text. -/
def isPartial : Relation → Bool
  | contains | startsWith | endsWith => true
  | _ => false

end Relation

namespace Value

/-- The number that a value is compared as: itself, or the number that a text spells when it looks
like one. Truth values, lists and objects are not numbers. -/
def number? : Value → Except EvaluationError (Option Binary64)
  | int n =>
    match Binary64.ofInt? n.value with
    | some x => .ok (some x)
    | none => .error .integerTooLarge
  | float x => .ok (some x)
  | text s =>
    if isNumber s then
      match readNumber s with
      | .ok x => .ok (some x)
      | .error fault => .error (.unreadable fault)
    else .ok none
  | _ => .ok none

/-- The text that a value is compared as: truth values in lower case, other values as their plain
text. -/
def comparisonText : Value → Text
  | bool true => "true"
  | bool false => "false"
  | value => value.plain

/-- Whether a present value stands in a relation to what it is compared with. A relation on parts
of a text is between plain texts, and any other between numbers when a number is given. -/
def standsIn (value : Value) (r : Relation) (given : Comparand) :
    Except EvaluationError Bool :=
  match given with
  | .text s =>
    if r.isPartial then .ok (r.onText value.plain s)
    else .ok (r.onText value.comparisonText s)
  | .number x =>
    if r.isPartial then .ok (r.onText value.plain x.text)
    else
      match value.number? with
      | .error e => .error e
      | .ok none => .ok false
      | .ok (some y) => .ok (r.onNumbers y x)

end Value

namespace Predicate

/-- Whether data satisfies a predicate. A relation does not hold of an attribute that is missing or
null, so its negation does. -/
def holds (p : Predicate) (data : Entries Value) : Except EvaluationError Bool :=
  match p with
  | defined key => .ok (Value.present? data key).isSome
  | undefined key => .ok (Value.present? data key).isNone
  | truthy key => .ok (((Value.present? data key).map Value.truthy).getD false)
  | falsy key => .ok (!((Value.present? data key).map Value.truthy).getD false)
  | compare key op given =>
    match Value.present? data key with
    | none => .ok op.negated
    | some value => (value.standsIn op.relation given).map fun b => b != op.negated

/-- Whether data satisfies all of several predicates, tested in order. -/
def allHold (ps : List Predicate) (data : Entries Value) : Except EvaluationError Bool :=
  match ps with
  | [] => .ok true
  | p :: ps =>
    match p.holds data with
    | .ok true => allHold ps data
    | other => other

end Predicate

namespace SelectorGroup

/-- Whether an element matches one alternative of a selector. -/
def accepts (g : SelectorGroup) (e : Element) : Except EvaluationError Bool :=
  if g.kind.all (· = e.kind) && g.classes.all (· ∈ e.classes) then
    Predicate.allHold g.predicates e.data
  else .ok false

/-- Whether an element matches one of several alternatives, tested in order. -/
def anyAccepts (gs : List SelectorGroup) (e : Element) : Except EvaluationError Bool :=
  match gs with
  | [] => .ok false
  | g :: gs =>
    match g.accepts e with
    | .ok false => anyAccepts gs e
    | other => other

end SelectorGroup

namespace Selector

/-- Whether an element matches a selector. -/
def accepts (s : Selector) (e : Element) : Except EvaluationError Bool :=
  SelectorGroup.anyAccepts s.groups e

end Selector

end MeshLens
