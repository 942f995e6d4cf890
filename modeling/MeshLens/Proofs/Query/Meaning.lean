import MeshLens.Proofs.Selector.RenderReadBack
import MeshLens.Query.Compile
import MeshLens.Selector.Matching

/-!
# What a query says of an element

The meaning of a query, read off its canonical text without compiling it: some clause has to hold,
and of a clause every expression. An expression speaks about elements of one kind, and compares an
attribute as its operand and operator say.

One thing can go wrong when a query meets data: a text that looks like a number but cannot be read
as one, compared with a number. Expressions are looked at in order and only as far as needed, so
such a text matters only where it is come upon.

## Key results

- `Query.Selects`: what the text of a query says of an element
- `Query.Stumbles`: whether a text that cannot be read is come upon
-/

namespace MeshLens

/-! ## Going through a list -/

/-- Whether a bad member of a list is come upon when the list is gone through only as long as its
members let one pass. -/
def ComesUpon {α : Type} (pass bad : α → Prop) : List α → Prop
  | [] => False
  | x :: xs => bad x ∨ (pass x ∧ ComesUpon pass bad xs)

/-- `ComesUpon` in two lists reaches the second one when the first one lets pass. -/
theorem comesUpon_append {α : Type} {pass bad : α → Prop} {xs ys : List α} :
    ComesUpon pass bad (xs ++ ys) ↔
      ComesUpon pass bad xs ∨ ((∀ x ∈ xs, pass x) ∧ ComesUpon pass bad ys) := by
  induction xs with
  | nil => simp [ComesUpon]
  | cons x xs ih =>
    -- the second list is gone through only when all of the first lets one pass
    simp only [List.cons_append, ComesUpon, ih, List.forall_mem_cons]
    constructor
    · rintro (hx | ⟨hx, hxs | ⟨hxs, hys⟩⟩)
      · exact .inl (.inl hx)
      · exact .inl (.inr ⟨hx, hxs⟩)
      · exact .inr ⟨⟨hx, hxs⟩, hys⟩
    · rintro ((hx | ⟨hx, hxs⟩) | ⟨⟨hx, hxs⟩, hys⟩)
      · exact .inl hx
      · exact .inr ⟨hx, .inl hxs⟩
      · exact .inr ⟨hx, .inr ⟨hxs, hys⟩⟩

/-- `ComesUpon` needs a bad member. -/
theorem not_comesUpon {α : Type} {pass bad : α → Prop} {xs : List α} (h : ∀ x ∈ xs, ¬bad x) :
    ¬ComesUpon pass bad xs := by
  induction xs with
  | nil => exact id
  | cons x xs ih =>
    rintro (hx | ⟨-, hxs⟩)
    · exact h x List.mem_cons_self hx
    · exact ih (fun y hy => h y (List.mem_cons_of_mem _ hy)) hxs

/-! ## Attributes -/

namespace Value

/-- The number that a value stands for: a number, or what a text spells apart from white space
around it. -/
def meant? : Value → Option Binary64
  | int n => Binary64.ofInt? n.value
  | float x => some x
  | text s => numberOfText? (Text.trim s)
  | _ => none

/-- Whether a value is no integer beyond the range of numbers. -/
def fits : Value → Bool
  | int n => (Binary64.ofInt? n.value).isSome
  | _ => true

/-- A text that looks like a number and cannot be read as one, since an information separator stands
before or behind the number. -/
def IsUnreadable (v : Value) : Prop :=
  ∃ s, v = text s ∧ isNumber s = true ∧ ∃ c ∈ s, isSeparator c = true

end Value

namespace Comparison

/-- Whether an attribute compares with a text as an operator asks. An attribute that is missing or
null compares with nothing, so only a negation holds of it. -/
def holdsOfText (op : Comparison) (value : Text) : Option Value → Bool
  | none => op.negated
  | some v =>
    op.relation.onText (if op.relation.isPartial then v.plain else v.comparisonText) value
      != op.negated

/-- Whether an attribute compares with a number as an operator asks. What stands for no number
compares with none. -/
def holdsOfNumber (op : Comparison) (x : Binary64) : Option Value → Bool
  | none => op.negated
  | some v => (v.meant?.any fun y => op.relation.onNumbers y x) != op.negated

end Comparison

/-! ## Criteria -/

namespace Criterion

/-- Whether a criterion holds of the data of an element. -/
def holds (c : Criterion) (data : Entries Value) : Bool :=
  match c with
  | truthy key => (Value.present? data key).any Value.truthy
  | undefined key => (Value.present? data key).isNone
  | falsy key => !(Value.present? data key).any Value.truthy
  | text key op value => op.holdsOfText value (Value.present? data key)
  | number key op literal =>
    op.holdsOfNumber (Selector.literalValue literal) (Value.present? data key)

/-- Whether a criterion compares a number with a text that cannot be read as one. -/
def Stumbles (c : Criterion) (data : Entries Value) : Prop :=
  match c with
  | number key _ _ => ∃ v, Value.present? data key = some v ∧ v.IsUnreadable
  | _ => False

end Criterion

namespace Query

/-! ## Phrases -/

/-- The criteria of a flag or of its negation, any of which has to hold. -/
def Flag.criteria (flag : Flag) (negated : Bool) : List Criterion :=
  if negated then flag.negative else flag.positive

namespace Operand

/-- Whether the comparison of an operand with a value holds of the data of an element. A name
compares when any of the four does, and is negated when none does; to compare what no number is
equal to with a numeric attribute asks whether the attribute counts as true. -/
def holds (operand : Operand) (op : Comparison) (value : Text) (data : Entries Value) : Bool :=
  match operand.kind with
  | .text => op.holdsOfText value (Value.present? data operand.key)
  | .nodeType =>
    (lookUp? nodeTypes value).any fun nodeType =>
      op.holdsOfText nodeType (Value.present? data operand.key)
  | .name =>
    if op.negated then nameKeys.all fun key => op.holdsOfText value (Value.present? data key)
    else nameKeys.any fun key => op.holdsOfText value (Value.present? data key)
  | .numeric | .rank =>
    if isNumber value then
      op.holdsOfNumber (Selector.literalValue value) (Value.present? data operand.key)
    else (Value.present? data operand.key).any Value.truthy == op.negated

/-- Whether the comparison of an operand with a value is one of numbers that meets a text which
cannot be read as one. -/
def Stumbles (operand : Operand) (value : Text) (data : Entries Value) : Prop :=
  (operand.kind = .numeric ∨ operand.kind = .rank) ∧ isNumber value = true ∧
    ∃ v, Value.present? data operand.key = some v ∧ v.IsUnreadable

end Operand

namespace Phrase

/-- Whether a phrase holds of an element, which has to be of the kind that the phrase is about. -/
def holds (p : Phrase) (e : Element) : Bool :=
  match p with
  | flag negated word =>
    (lookUp? flags word).any fun flag =>
      e.kind = flag.target && (flag.criteria negated).any (·.holds e.data)
  | comparison word op value =>
    (lookUp? operands word).any fun operand =>
      e.kind = operand.target && operand.holds op value e.data

/-- Whether a phrase meets a text that cannot be read as a number in an element of its kind. -/
def Stumbles (p : Phrase) (e : Element) : Prop :=
  match p with
  | flag negated word =>
    ∃ flag, lookUp? flags word = some flag ∧ e.kind = flag.target ∧
      ∃ c ∈ flag.criteria negated, c.Stumbles e.data
  | comparison word _ value =>
    ∃ operand, lookUp? operands word = some operand ∧ e.kind = operand.target ∧
      operand.Stumbles value e.data

end Phrase

/-! ## Texts -/

/-- Whether the text of an expression holds of an element. -/
def Holds (e : Element) (s : Text) : Prop :=
  ∃ p, Phrase.read s = .ok p ∧ p.holds e = true

/-- Whether the text of an expression meets a text that cannot be read as a number. -/
def HoldsStumbles (e : Element) (s : Text) : Prop :=
  ∃ p, Phrase.read s = .ok p ∧ p.Stumbles e

/-- Whether every expression of a clause holds of an element. -/
def ClauseHolds (e : Element) (clause : Text) : Prop :=
  ∀ s ∈ Text.splitOn " AND " clause, Holds e s

/-- Whether a text that cannot be read as a number is come upon in a clause. -/
def ClauseStumbles (e : Element) (clause : Text) : Prop :=
  ComesUpon (Holds e) (HoldsStumbles e) (Text.splitOn " AND " clause)

/-- Whether the canonical text of a query selects an element: some clause holds of it. -/
def Selects (s : Text) (e : Element) : Prop :=
  ∃ clause ∈ Text.splitOn " OR " s, ClauseHolds e clause

/-- Whether a text that cannot be read as a number is come upon, clauses being tried until one
holds. -/
def Stumbles (s : Text) (e : Element) : Prop :=
  ComesUpon (fun clause => ¬ClauseHolds e clause) (ClauseStumbles e) (Text.splitOn " OR " s)

end Query

end MeshLens
