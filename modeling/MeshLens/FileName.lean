import MeshLens.Text.Quoted
import MeshLens.Text.Utf8

/-!
# File names

A file is named by bytes, none of which is null. A text spells them in UTF-8, and a byte that is no
part of UTF-8 by half of a surrogate pair, from U+DC80 to U+DCFF. Main statement: a text without such
halves stands for its UTF-8 form.
-/

namespace MeshLens

namespace FileName

/-- Whether a code point spells a byte that is no part of UTF-8. -/
def isByte : CodePoint → Bool
  | .char _ => false
  | .half n => 0x480 ≤ n.val && n.val < 0x500

/-- The bytes that a code point spells. -/
def bytesOf (c : CodePoint) : List Nat :=
  if isByte c then [c.toNat - 0xDC00] else Text.utf8Bytes c

/-- The bytes that a text spells. -/
def bytes (s : Text) : List Nat :=
  s.flatMap bytesOf

/-- The spelling of bytes. -/
def ofBytes (bytes : List Nat) : Text :=
  Text.decodeUtf8With (fun stretch => stretch.map fun b => CodePoint.ofNat (0xDC00 + b)) bytes

/-- A text in the spelling that is read from its bytes. Two texts name the same file when they have
one spelling. -/
def respell (s : Text) : Text :=
  ofBytes (bytes s)

end FileName

/-- Why no file can have a name. -/
inductive NameFault
  /-- A null character, which ends a name, stands within it. -/
  | null
  /-- There are halves of surrogate pairs that spell no bytes. -/
  | halves (run : Text.HalfRun)
  deriving DecidableEq, Repr

namespace NameFault

/-- Why no file can have a name, if so. -/
def of? (name : Text) : Option NameFault :=
  match Text.halfRunFrom? (fun c => c.isHalf && !FileName.isByte c) 0 name with
  | some run => some (halves run)
  | none => if name.contains (.char '\x00') then some null else none

/-- The message of a fault. -/
def message : NameFault → Text
  | null => "embedded null byte"
  | halves run => run.message

end NameFault

end MeshLens
