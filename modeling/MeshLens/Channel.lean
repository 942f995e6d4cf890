import MeshLens.Text.CodePoint

/-!
# The two query inputs

A user finds elements with one input and hides elements with the other.
-/

namespace MeshLens

/-- The two query inputs. -/
inductive Channel
  | find | hide
  deriving DecidableEq, Repr

namespace Channel

/-- The label of an input in messages. -/
def label : Channel → Text
  | find => "Find"
  | hide => "Hide"

/-- The parameter that keeps the confirmed text of an input. -/
def parameter : Channel → Text
  | find => "graphFind"
  | hide => "graphHide"

/-- The configuration section of an input. -/
def sectionName : Channel → Text
  | find => "find"
  | hide => "hide"

end Channel

/-- One value for each input. -/
structure PerChannel (α : Type) where
  find : α
  hide : α
  deriving DecidableEq, Repr

namespace PerChannel

variable {α : Type}

/-- The value of an input. -/
def get (p : PerChannel α) : Channel → α
  | .find => p.find
  | .hide => p.hide

/-- Replaces the value of an input. -/
def set (p : PerChannel α) (channel : Channel) (value : α) : PerChannel α :=
  match channel with
  | .find => { p with find := value }
  | .hide => { p with hide := value }

/-- The same value for both inputs. -/
def both (value : α) : PerChannel α :=
  ⟨value, value⟩

@[simp] theorem get_both (value : α) (c : Channel) : (both value).get c = value := by
  cases c <;> rfl

theorem get_set (p : PerChannel α) (c d : Channel) (value : α) :
    (p.set c value).get d = if c = d then value else p.get d := by
  cases c <;> cases d <;> rfl

theorem set_get_self (p : PerChannel α) (c : Channel) : p.set c (p.get c) = p := by
  cases c <;> rfl

end PerChannel

end MeshLens
