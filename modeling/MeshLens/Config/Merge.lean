import MeshLens.Value.Basic

/-!
# Merging configurations

A configuration is merged over another one key by key. Where both have an object at a key the
objects are merged; anywhere else the value of the overriding one counts. Keys keep the order of
the base, and new ones come at the end.
-/

namespace MeshLens.Config

mutual

/-- The value at a key, given what the base has there. -/
def mergeValue (old : Option Value) : Value → Value
  | .object fields =>
    match old with
    | some (.object base) => .object (merge base fields)
    | _ => .object fields
  | value => value

/-- Merges fields over those of a base. -/
def merge (base : Entries Value) : List (Text × Value) → Entries Value
  | [] => base
  | (key, value) :: rest => merge (base.set key (mergeValue (base.get? key) value)) rest

end

end MeshLens.Config
