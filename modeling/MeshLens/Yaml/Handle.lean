import MeshLens.Text.Utf8
import MeshLens.Value.Json
import MeshLens.Yaml.Error
import MeshLens.Yaml.Cursor

/-!
# Anchors, tags and directives

The small notations around nodes: names of anchors, tags, whose first part is a handle that stands
for the beginning of the tag, and directives, which say what a handle stands for.
-/

namespace MeshLens.Yaml

/-- The characters of names. -/
def isNameChar (c : CodePoint) : Bool :=
  Text.isAsciiDigit c || Text.isLetter c || c == '-' || c == '_'

/-- A tag as it is written: a handle, unless the tag is given in full, and the rest. -/
structure WrittenTag where
  handle : Option Text
  suffix : Text
  deriving DecidableEq, Repr

/-- A directive. -/
inductive Directive
  | version (major : Nat)
  /-- A handle stands for the beginning of a tag. -/
  | handle (handle start : Text)
  | other
  deriving DecidableEq, Repr

/-! ## Names -/

/-- Reads a name, which must not be empty. -/
def readName (k : Cursor) : Except YamlError (Text × Cursor) :=
  let (name, k) := k.takeWhile isNameChar
  if name = [] then .error .token else .ok (name, k)

/-- Reads the name of an anchor after its mark. -/
def readAnchor (k : Cursor) : Except YamlError (Text × Cursor) :=
  match readName k with
  | .error e => .error e
  | .ok (name, k) =>
    if k.peek?.all fun c => isGap c || ("?:,]\x7d%@\x60" : Text).contains c then .ok (name, k)
    else .error .token

/-! ## Tags -/

/-- Reads a handle: an exclamation mark alone, or a name between two of them. -/
def readHandle (k : Cursor) : Except YamlError (Text × Cursor) :=
  if k.peek? ≠ some '!' then .error .token
  else if k.ahead? 1 = some ' ' then .ok (['!'], k.advance)
  else
    let (name, next) := k.advance.takeWhile isNameChar
    if next.peek? = some '!' then .ok ("!" ++ name ++ "!", next.advance) else .error .token

/-- The characters of tags, apart from the percent sign. -/
def isTagChar (c : CodePoint) : Bool :=
  isNameChar c || (";/?:@&=+$,.!~*'()[]" : Text).contains c

/-- Reads bytes that are written as percent signs and two digits, after some of them, the last one
first. -/
def takeBytes (k : Cursor) (bytes : List Nat) : Except YamlError (List Nat × Cursor) :=
  match _h : k.rest with
  | '%' :: a :: b :: _ =>
    match Json.hexValue? a, Json.hexValue? b with
    | some x, some y => takeBytes (k.skip 3) ((16 * x + y) :: bytes)
    | _, _ => .error .token
  | '%' :: _ => .error .token
  | _ => .ok (bytes.reverse, k)
termination_by k.rest.length
decreasing_by
  have := congrArg List.length ‹k.rest = _›
  rw [List.length_cons] at this
  rw [Cursor.length_skip]
  omega

/-- The text of bytes that are well-formed UTF-8. -/
def textOfBytes (bytes : List Nat) : Except YamlError Text :=
  let text := Text.decodeUtf8 bytes
  if text.flatMap Text.utf8Bytes = bytes then .ok text else .error .token

/-- Reads the text of a tag after some of it. The first argument bounds the number of its parts. -/
def readTagTextFrom : Nat → Cursor → Text → Except YamlError (Text × Cursor)
  | 0, k, text => .ok (text, k)
  | fuel + 1, k, text => do
    let (run, k) := k.takeWhile isTagChar
    if k.peek? = some '%' then
      let (bytes, k) ← takeBytes k []
      readTagTextFrom fuel k (text ++ run ++ (← textOfBytes bytes))
    else return (text ++ run, k)

/-- Reads the text of a tag, which must not be empty. -/
def readTagText (k : Cursor) : Except YamlError (Text × Cursor) := do
  let (text, next) ← readTagTextFrom (k.rest.length + 1) k []
  if next.index = k.index then throw .token
  return (text, next)

/-- Whether a tag has a second exclamation mark before it ends. -/
def hasHandle (k : Cursor) : Bool :=
  (k.advance.rest.takeWhile fun c : CodePoint => !(c == ' ' || isBreak c)).contains (.char '!')

/-- Reads a tag. -/
def readTag (k : Cursor) : Except YamlError (WrittenTag × Cursor) := do
  let (tag, k) ←
    if k.ahead? 1 = some '<' then do
      let (suffix, k) ← readTagText (k.skip 2)
      if k.peek? ≠ some '>' then throw .token
      pure ({ handle := none, suffix : WrittenTag }, k.advance)
    else if k.gapAt 1 then pure ({ handle := none, suffix := ['!'] : WrittenTag }, k.advance)
    else do
      let (handle, k) ← if hasHandle k then readHandle k else pure (['!'], k.advance)
      let (suffix, k) ← readTagText k
      pure ({ handle := some handle, suffix : WrittenTag }, k)
  if k.atSpaceOrEnd then return (tag, k) else throw .token

/-! ## Directives -/

/-- Reads a number. -/
def readDirectiveNumber (k : Cursor) : Except YamlError (Nat × Cursor) :=
  let (digits, k) := k.takeWhile Text.isAsciiDigit
  if digits = [] then .error .token
  else if 4300 < digits.length then .error .number
  else .ok (digits.foldl (fun n c => 10 * n + (c.toNat - 48)) 0, k)

/-- Reads a version after spaces. -/
def readVersion (k : Cursor) : Except YamlError (Directive × Cursor) := do
  let (major, k) ← readDirectiveNumber (k.skipWhile (· == .char ' '))
  if k.peek? ≠ some '.' then throw .token
  let (_, k) ← readDirectiveNumber k.advance
  if k.atSpaceOrEnd then return (.version major, k) else throw .token

/-- Reads what a handle stands for, after spaces. -/
def readHandleMeaning (k : Cursor) : Except YamlError (Directive × Cursor) := do
  let (handle, k) ← readHandle (k.skipWhile (· == .char ' '))
  if k.peek? ≠ some ' ' then throw .token
  let (start, k) ← readTagText (k.skipWhile (· == .char ' '))
  if k.atSpaceOrEnd then return (.handle handle start, k) else throw .token

/-- Reads a directive from its mark up to the end of its line. -/
def readDirective (k : Cursor) : Except YamlError (Directive × Cursor) := do
  let (name, k) ← readName k.advance
  if !k.atSpaceOrEnd then throw .token
  let (directive, k) ←
    if name = "YAML" then readVersion k
    else if name = "TAG" then readHandleMeaning k
    else pure (.other, k.skipWhile fun c => !isBreak c)
  let k := k.skipComment
  if k.atLineEnd then return (directive, k.advance) else throw .token

end MeshLens.Yaml
