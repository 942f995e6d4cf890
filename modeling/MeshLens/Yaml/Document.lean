import MeshLens.Yaml.Node

/-!
# Documents

The value of a document. An object may merge others into itself, whose entries come before its own,
so that its own win; of a name that comes twice the last value counts. Names that are no texts are
left out, since nothing asks for them. Of several faults the one that lies least deep counts, and
among these the first.
-/

namespace MeshLens.Yaml

/-- The entries of an object. -/
abbrev NodeEntries := List (Node × Node)

namespace Node

/-! ## Merging -/

/-- The entries of an object without those that are merged into it. The key of a default value is
an ordinary name there. -/
def ownEntries (entries : NodeEntries) : NodeEntries :=
  (entries.filter fun (key, _) => key.tag ≠ .merge).map fun (key, value) =>
    match key with
    | scalar .default text => (scalar .text text, value)
    | _ => (key, value)

mutual

/-- The entries that a node contributes where it is merged. The first argument bounds the depth. -/
def mergedFrom : Nat → Node → Except YamlError NodeEntries
  | 0, _ => .error .depth
  | fuel + 1, node =>
    match node with
    | object _ entries => flatten fuel entries
    | list _ items => (mergedFromAll fuel items).map fun parts => parts.reverse.flatten
    | scalar .. => .error .value

/-- The entries that each of several objects contributes where it is merged. -/
def mergedFromAll : Nat → List Node → Except YamlError (List NodeEntries)
  | 0, _ => .error .depth
  | _ + 1, [] => .ok []
  | fuel + 1, object _ entries :: items => do
    let part ← flatten fuel entries
    return part :: (← mergedFromAll fuel items)
  | _ + 1, _ :: _ => .error .value

/-- The entries of an object together with those that are merged into it. -/
def flatten : Nat → NodeEntries → Except YamlError NodeEntries
  | 0, _ => .error .depth
  | fuel + 1, entries => do
    let merged ← mergeAll fuel (entries.filter fun (key, _) => key.tag = .merge)
    return merged ++ ownEntries entries

/-- The entries that are merged by several entries. -/
def mergeAll : Nat → NodeEntries → Except YamlError NodeEntries
  | 0, _ => .error .depth
  | _ + 1, [] => .ok []
  | fuel + 1, (_, value) :: entries => do
    let part ← mergedFrom fuel value
    return part ++ (← mergeAll fuel entries)

end

mutual

/-- The number of nodes in a node. -/
def size : Node → Nat
  | scalar .. => 1
  | list _ items => 1 + sizeAll items
  | object _ entries => 1 + sizeEntries entries

/-- The number of nodes in several nodes. -/
def sizeAll : List Node → Nat
  | [] => 1
  | item :: items => item.size + sizeAll items + 1

/-- The number of nodes in several entries. -/
def sizeEntries : List (Node × Node) → Nat
  | [] => 1
  | (key, value) :: entries => key.size + value.size + sizeEntries entries + 1

end

/-- The entries of an object once others are merged into it. -/
def entriesOf (entries : NodeEntries) : Except YamlError NodeEntries :=
  flatten (4 * sizeEntries entries + 4) entries

/-! ## Values -/

/-- The text of a node that has to be a scalar. An object may stand for the text of its default. -/
def textOf : Nat → Node → Except YamlError Text
  | 0, _ => .error .value
  | fuel + 1, node =>
    match node with
    | scalar _ text => .ok text
    | list .. => .error .value
    | object _ entries =>
      match entries.find? fun (key, _) => key.tag = .default with
      | some (_, value) => textOf fuel value
      | none => .error .value

/-- Whether a node becomes something that has parts. -/
def isCompound (node : Node) : Bool :=
  [.pairs, .orderedPairs, .set, .list, .object].contains node.tag

/-- A fault, and how deep it lies. -/
abbrev Fault := Nat × YamlError

/-- A value, and what is wrong with it. -/
abbrev Built := Value × List Fault

/-- Parts of a value, and what is wrong with them. -/
abbrev BuiltParts := List (Value × Value) × List Fault

/-- An object of those entries whose names are texts. -/
def objectOf (parts : List (Value × Value)) : Value :=
  .object <| Entries.ofPairs <| parts.filterMap fun (key, value) =>
    match key with
    | .text name => some (name, value)
    | _ => none

/-- A value of parts, given the tag. -/
def valueOfParts (tag : Tag) (parts : List (Value × Value)) : Value :=
  match tag with
  | .object => objectOf parts
  | .set => .int parts.length
  | .list => .list (parts.map (·.2))
  | _ => .list (parts.map fun (key, value) => .list [key, value])

/-- The parts that a compound value is made of: the items of a list, each with an empty key, the
entries of an object, or the only entries of the objects in a list. -/
def partsOf (node : Node) : Except YamlError NodeEntries :=
  match node.tag, node with
  | .list, list _ items => .ok (items.map fun item => (empty, item))
  | .object, object _ entries | .set, object _ entries => entriesOf entries
  | .pairs, list _ items | .orderedPairs, list _ items =>
    items.mapM fun
      | object _ [entry] => .ok entry
      | _ => .error .value
  | _, _ => .error .value

/-- Whether keys must not be compound in a value of a tag. -/
def hasNames (tag : Tag) : Bool :=
  tag = .object || tag = .set

mutual

/-- Builds the value of a node at a depth. The first argument bounds the number of steps. -/
def build (depth : Nat) : Nat → Node → Built
  | 0, _ => (.null, [(depth, .depth)])
  | fuel + 1, node =>
    if node.isCompound then
      match node.partsOf with
      | .error e => (valueOfParts node.tag [], [(depth + 1, e)])
      | .ok parts =>
        let (parts, faults) := buildParts (depth + 1) (hasNames node.tag) fuel parts
        (valueOfParts node.tag parts, faults)
    else
      match (textOf fuel node).bind (scalarValue node.tag) with
      | .ok value => (value, [])
      | .error e => (.null, [(depth, e)])

/-- Builds parts at a depth. -/
def buildParts (depth : Nat) (named : Bool) : Nat → NodeEntries → BuiltParts
  | 0, _ => ([], [(depth, .depth)])
  | _ + 1, [] => ([], [])
  | fuel + 1, (key, value) :: entries =>
    let (name, nameFaults) := build depth fuel key
    let unusable := if named && key.isCompound then [(depth, YamlError.value)] else []
    let (value, valueFaults) := build depth fuel value
    let (parts, faults) := buildParts depth named fuel entries
    ((name, value) :: parts, nameFaults ++ unusable ++ valueFaults ++ faults)

end

/-- The fault that counts: the first of those that lie least deep. -/
def leastDeep (faults : List Fault) : Option YamlError :=
  let depth := faults.foldl (fun least (depth, _) => min least depth) (faults.headD (0, .value)).1
  (faults.find? (·.1 = depth)).map (·.2)

/-- The value of the node at the root. -/
def value (node : Node) : Except YamlError Value :=
  let (value, faults) := node.build 0 (2 * node.size + 4)
  match leastDeep faults with
  | some e => .error e
  | none => .ok value

end Node

/-! ## Whole documents -/

/-- Whether a character may occur in a document. -/
def isAllowed (c : CodePoint) : Bool :=
  let n := c.toNat
  n == 9 || n == 10 || n == 13 || (0x20 ≤ n && n ≤ 0x7E) || n == 0x85 ||
    (0xA0 ≤ n && n ≤ 0xFFFD) || 0x10000 ≤ n

/-- A text in which every line ends with a line feed alone. -/
def unifyLineEnds : Text → Text
  | [] => []
  | '\r' :: '\n' :: s => '\n' :: unifyLineEnds s
  | '\r' :: s => '\n' :: unifyLineEnds s
  | c :: s => c :: unifyLineEnds s

/-- The value of a document; null when it is empty. -/
def read (text : Text) : Except YamlError Value :=
  let s := unifyLineEnds text
  if s.all isAllowed then
    match nodeOf s with
    | .error e => .error e
    | .ok none => .ok .null
    | .ok (some node) => node.value
  else .error .character

end MeshLens.Yaml
