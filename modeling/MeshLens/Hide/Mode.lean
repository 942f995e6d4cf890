import MeshLens.Text.CodePoint

/-!
# The two ways of hiding
-/

namespace MeshLens

/-- Hidden elements are made invisible, or taken out of the graph. -/
inductive HideMode
  | hidden | removed
  deriving DecidableEq, Repr

namespace HideMode

/-- The word for what happened to the elements. -/
def word : HideMode → Text
  | hidden => "hidden"
  | removed => "removed"

end HideMode

end MeshLens
