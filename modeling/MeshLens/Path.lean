import MeshLens.Text.Basic

/-!
# Paths

Paths in their normal form, in which two spellings that differ only in repeated slashes, in dots or
in a slash at the end are the same path. A step up to the parent is kept as it is written.
-/

namespace MeshLens

/-- A path in normal form. -/
structure Path where
  /-- The slashes that an absolute path begins with. -/
  root : Text := []
  parts : List Text := []
  deriving DecidableEq, Repr

namespace Path

/-- The root of a path that begins with so many slashes: two of them mean something else than one,
and more mean the same as one. -/
def rootOf (slashes : Nat) : Text :=
  match slashes with
  | 0 => []
  | 2 => "//"
  | _ => "/"

/-- The path that a text spells. -/
def ofText (s : Text) : Path :=
  { root := rootOf (s.takeWhile (· == .char '/')).length
    parts := (Text.splitWhere (· == .char '/') s).filter fun part => part ≠ [] && part ≠ "." }

/-- The text of a path; a dot stands for the place where one is. -/
def text (p : Path) : Text :=
  if p.root = [] ∧ p.parts = [] then "." else p.root ++ Text.join "/" p.parts

/-- A path one step further down. -/
def child (p : Path) (name : Text) : Path :=
  { p with parts := p.parts ++ [name] }

/-- A path followed from a directory on, without steps up. -/
def resolve (p here : Path) : Path :=
  let start := if p.root = [] then here else { root := p.root }
  { start with
    parts := p.parts.foldl
      (fun names (part : Text) => if part = ".." then names.dropLast else names ++ [part])
      start.parts }

end Path

end MeshLens
