import MeshLens.Value.Basic

/-!
# Forms of values

The form of a value says what it can be used as: only texts, lists and objects have members, only
objects have fields, and lists and objects cannot be looked up. Using a value as what it is not is
a fault whose message names the form.
-/

namespace MeshLens

namespace Value

/-- The form of a value. -/
inductive Form
  | null | bool | int | float | text | list | object
  deriving DecidableEq, Repr

/-- The word for a form in messages. -/
def Form.word : Form → Text
  | null => "NoneType"
  | bool => "bool"
  | int => "int"
  | float => "float"
  | text => "str"
  | list => "list"
  | object => "dict"

/-- The form of a value. -/
def form : Value → Form
  | null => .null
  | bool _ => .bool
  | int _ => .int
  | float _ => .float
  | text _ => .text
  | list _ => .list
  | object _ => .object

end Value

/-- The use of a value as something that it is not. -/
inductive Misuse
  | asItems (form : Value.Form)
  | asFields (form : Value.Form)
  /-- As something to look up, or to be a member of a set. -/
  | asKey (form : Value.Form)
  deriving DecidableEq, Repr

namespace Misuse

/-- The message of a fault. -/
def message : Misuse → Text
  | asItems form => "'" ++ form.word ++ "' object is not iterable"
  | asFields form => "'" ++ form.word ++ "' object is not a mapping"
  | asKey form => "unhashable type: '" ++ form.word ++ "'"

end Misuse

end MeshLens
