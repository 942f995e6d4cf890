import MeshLens.Entries
import MeshLens.Number.Integer
import MeshLens.Number.Shortest
import MeshLens.Text.Quoted

/-!
# Data values

The untyped data that graphs and configurations are read from, and the two texts of a value: its
written form, in which texts are quoted, and its plain text, in which a text stands for itself. The
whole numbers in data are those that can be written (no text of data has longer ones), so every
value has its two texts.
-/

namespace MeshLens

/-- An untyped value. A whole number is told apart from a number with a point or an exponent. -/
inductive Value
  | null
  | bool (b : Bool)
  | int (n : Integer)
  | float (x : Binary64)
  | text (s : Text)
  | list (items : List Value)
  | object (fields : List (Text × Value))

namespace Value

instance : Inhabited Value := ⟨null⟩

/-! ## Truth and presence -/

/-- Whether a value counts as true: not null, false, zero, or empty. -/
def truthy : Value → Bool
  | null => false
  | bool b => b
  | int n => n.value != 0
  | float x => !x.isZero
  | text s => !s.isEmpty
  | list items => !items.isEmpty
  | object fields => !fields.isEmpty

/-- The value of a field that is there and not null. -/
def present? (fields : Entries Value) (name : Text) : Option Value :=
  match fields.get? name with
  | some null => none
  | other => other

/-! ## Texts -/

mutual

/-- The written form of a value. -/
def written : Value → Text
  | null => "None"
  | bool true => "True"
  | bool false => "False"
  | int n => n.text
  | float x => x.text
  | text s => Text.quoted s
  | list items => "[" ++ writtenItems items ++ "]"
  | object fields => "\x7b" ++ writtenFields fields ++ "\x7d"

/-- The written forms of the items of a list, with commas between. -/
def writtenItems : List Value → Text
  | [] => []
  | [item] => item.written
  | item :: items => item.written ++ ", " ++ writtenItems items

/-- The written forms of the fields of an object, with commas between. -/
def writtenFields : List (Text × Value) → Text
  | [] => []
  | [(name, value)] => Text.quoted name ++ ": " ++ value.written
  | (name, value) :: fields =>
    Text.quoted name ++ ": " ++ value.written ++ ", " ++ writtenFields fields

end

/-- The plain text of a value. -/
def plain : Value → Text
  | text s => s
  | value => value.written

/-! ## Equality -/

/-- The exact size of a finite number in units of 2^-1074; truth values count as 1 and 0. -/
def size? : Value → Option Int
  | bool b => some (if b then Binary64.one else 0)
  | int n => some (n.value * Binary64.one)
  | float (.finite negative units) => (Binary64.finite negative units).rank?
  | _ => none

mutual

/-- Whether two values are equal, numbers of different types being equal when they are the same
number and objects whatever the order of their fields. Here a value is equal to itself even when
it is not a number. -/
def equal : Value → Value → Bool
  | null, null => true
  | text s, text t => s == t
  | float x, float y => x.same y || x == y
  | list xs, list ys => equalItems xs ys
  | object xs, object ys => xs.length == ys.length && fieldsWithin xs ys
  | x, y =>
    match x.size?, y.size? with
    | some m, some n => m == n
    | _, _ => false

/-- Whether two lists are equal item by item. -/
def equalItems : List Value → List Value → Bool
  | [], [] => true
  | x :: xs, y :: ys => equal x y && equalItems xs ys
  | _, _ => false

/-- Whether each of the fields is equal to a field of that name among others. -/
def fieldsWithin : List (Text × Value) → Entries Value → Bool
  | [], _ => true
  | (name, x) :: xs, ys =>
    (match List.lookup name ys with
      | some y => equal x y
      | none => false) && fieldsWithin xs ys

end

/-- Whether a value compares as equal to another: what is not a number does so to nothing. -/
def comparesEqual (x y : Value) : Bool :=
  match x with
  | float .notANumber => false
  | _ => x.equal y

end Value

end MeshLens
