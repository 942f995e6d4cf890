import MeshLens.Yaml.Scalar
import MeshLens.Yaml.Token

/-!
# Nodes

The nodes of a document: scalars, lists and objects with their tags, put together from tokens. A
node that is anchored can stand again wherever its anchor is referred to.
-/

namespace MeshLens.Yaml

/-- A node. -/
inductive Node
  | scalar (tag : Tag) (text : Text)
  | list (tag : Tag) (items : List Node)
  | object (tag : Tag) (entries : List (Node × Node))

namespace Node

/-- The node where nothing is written. -/
def empty : Node :=
  scalar .null []

/-- The tag of a node. -/
def tag : Node → Tag
  | scalar tag _ | list tag _ | object tag _ => tag

end Node

/-! ## Reading tokens -/

/-- How deep nodes may lie within each other. -/
def Node.maxDepth : Nat := 490

/-- The state of putting nodes together. -/
structure Composer where
  tokens : List Token
  /-- What is wrong behind the tokens. -/
  fault : YamlError
  anchors : List (Text × Node) := []
  /-- What the handles of tags stand for. -/
  handles : List (Text × Text) := []

/-- Putting nodes together. -/
abbrev Compose := StateT Composer (Except YamlError)

namespace Compose

/-- What the handles stand for when nothing else is said. -/
def ownHandles : List (Text × Text) :=
  [("!", "!"), ("!!", Tag.family)]

/-- The next token. -/
def peek : Compose Token := do
  match (← get).tokens with
  | t :: _ => return t
  | [] => throw (← get).fault

/-- Passes a token. -/
def pass : Compose Unit :=
  modify fun c => { c with tokens := c.tokens.drop 1 }

/-- Whether the next token is one of several. -/
def isNext (ts : List Token) : Compose Bool := do
  return ts.contains (← peek)

/-- Passes a token if it is the next one. -/
def passIf (t : Token) : Compose Bool := do
  if (← peek) = t then do
    pass
    return true
  else return false

/-- What stands in front of a node: an anchor and a tag, in any order. -/
def readProperties : Compose (Option Text × Option WrittenTag) := do
  match ← peek with
  | .anchor name =>
    pass
    match ← peek with
    | .tag tag => do
      pass
      return (some name, some tag)
    | _ => return (some name, none)
  | .tag tag =>
    pass
    match ← peek with
    | .anchor name => do
      pass
      return (some name, some tag)
    | _ => return (none, some tag)
  | _ => return (none, none)

/-- The full name of a tag. -/
def nameOfTag (tag : WrittenTag) : Compose (Text) := do
  match tag.handle with
  | none => return tag.suffix
  | some handle =>
    match (← get).handles.lookup handle with
    | some start => return start ++ tag.suffix
    | none => throw .arrangement

/-- Lets an anchor stand for a node, also in place of one that is being read. -/
def setAnchor (anchor : Option Text) (node : Node) : Compose Unit :=
  match anchor with
  | none => return
  | some name => modify fun c => { c with anchors := (name, node) :: c.anchors }

/-- Checks that an anchor is new. -/
def checkAnchor (anchor : Option Text) : Compose Unit := do
  match anchor with
  | none => return
  | some name => if ((← get).anchors.lookup name).isSome then throw .reference

/-- The tag of a scalar, given the name of its tag if it has one. -/
def tagOfScalar (name : Option Text) (text : Text) (plain : Bool) : Tag :=
  match name with
  | none => if plain then tagOfPlain text else .text
  | some name => if name = "!" then tagOfPlain text else Tag.ofName name

/-- The tag of a list or an object, given its own tag and the name of another if it has one. -/
def tagOfBlock (own : Tag) (name : Option Text) : Tag :=
  match name with
  | none => own
  | some name => if name = "!" then own else Tag.ofName name

/-- Finishes an anchored node. -/
def anchored (anchor : Option Text) (node : Node) : Compose Node := do
  checkAnchor anchor
  setAnchor anchor node
  return node

/-- Reads a node where nothing is written, which there may be after an anchor or a tag. -/
def readNothing (anchor name : Option Text) : Compose Node :=
  if anchor.isSome || name.isSome then
    anchored anchor (.scalar (tagOfScalar name [] true) [])
  else throw .arrangement

mutual

/-- Reads a node in a block or between brackets; in an object of keys a list of dashes need not be
indented. The first argument bounds the length, the second one the depth. -/
def readNode (fuel depth : Nat) (inBlock flush : Bool) : Compose Node :=
  match fuel, depth with
  | 0, _ | _, 0 => throw .depth
  | fuel + 1, depth + 1 => do
    match ← peek with
    | .alias name =>
      pass
      match (← get).anchors.lookup name with
      | some node => return node
      | none => throw .reference
    | _ =>
      let (anchor, written) ← readProperties
      let name ← written.mapM nameOfTag
      let items (read : Compose (List Node)) : Compose Node := do
        let tag := tagOfBlock .list name
        let _ ← anchored anchor (.list tag [])
        let node := .list tag (← read)
        setAnchor anchor node
        return node
      let entries (read : Compose (List (Node × Node))) : Compose Node := do
        let tag := tagOfBlock .object name
        let _ ← anchored anchor (.object tag [])
        let node := .object tag (← read)
        setAnchor anchor node
        return node
      match ← peek with
      | .scalar text plain =>
        pass
        anchored anchor (.scalar (tagOfScalar name text plain) text)
      | .openList => items (do pass; readList fuel depth true)
      | .openObject => entries (do pass; readObject fuel depth true)
      | .itemsStart =>
        if inBlock then items (do pass; readItems fuel depth false)
        else readNothing anchor name
      | .entriesStart =>
        if inBlock then entries (do pass; readEntries fuel depth)
        else readNothing anchor name
      | .dash => if flush then items (readItems fuel depth true) else readNothing anchor name
      | _ => readNothing anchor name
termination_by structural fuel

/-- Reads a node unless one of some tokens comes next. -/
def readUnless (ts : List Token) (fuel depth : Nat) (inBlock flush : Bool) : Compose Node :=
  match fuel with
  | 0 => throw .depth
  | fuel + 1 => do
    if ← isNext ts then return .empty else readNode fuel depth inBlock flush
termination_by structural fuel

/-- Reads the items of a list of dashes. -/
def readItems (fuel depth : Nat) (flush : Bool) : Compose (List Node) :=
  match fuel with
  | 0 => throw .depth
  | fuel + 1 => do
    if ← passIf .dash then
      let item ← readUnless (if flush then [.dash, .key, .value, .blockEnd] else [.dash, .blockEnd])
        fuel depth true false
      return item :: (← readItems fuel depth flush)
    else if flush then return []
    else if ← passIf .blockEnd then return []
    else throw .arrangement
termination_by structural fuel

/-- Reads the entries of an object of keys. -/
def readEntries (fuel depth : Nat) : Compose (List (Node × Node)) :=
  match fuel with
  | 0 => throw .depth
  | fuel + 1 => do
    if ← passIf .key then
      let key ← readUnless [.key, .value, .blockEnd] fuel depth true true
      let value ←
        if ← passIf .value then readUnless [.key, .value, .blockEnd] fuel depth true true
        else pure .empty
      return (key, value) :: (← readEntries fuel depth)
    else if ← passIf .blockEnd then return []
    else throw .arrangement
termination_by structural fuel

/-- Reads the items of a list in brackets. An entry there makes an object of its own. -/
def readList (fuel depth : Nat) (first : Bool) : Compose (List Node) :=
  match fuel with
  | 0 => throw .depth
  | fuel + 1 => do
    if ← passIf .closeList then return []
    if !first then
      if !(← passIf .comma) then throw .arrangement
    if ← passIf .closeList then return []
    let item ← if ← passIf .key then readPair fuel depth else readNode fuel depth false false
    return item :: (← readList fuel depth false)
termination_by structural fuel

/-- Reads the object of one entry within a list in brackets. -/
def readPair (fuel depth : Nat) : Compose Node :=
  match fuel, depth with
  | 0, _ | _, 0 => throw .depth
  | fuel + 1, depth + 1 => do
    let key ← readUnless [.value, .comma, .closeList] fuel depth false false
    let value ←
      if ← passIf .value then readUnless [.comma, .closeList] fuel depth false false
      else pure .empty
    return .object .object [(key, value)]
termination_by structural fuel

/-- Reads the entries of an object in braces. -/
def readObject (fuel depth : Nat) (first : Bool) : Compose (List (Node × Node)) :=
  match fuel with
  | 0 => throw .depth
  | fuel + 1 => do
    if ← passIf .closeObject then return []
    if !first then
      if !(← passIf .comma) then throw .arrangement
    if ← passIf .closeObject then return []
    let entry ←
      if ← passIf .key then
        let key ← readUnless [.value, .comma, .closeObject] fuel depth false false
        let value ←
          if ← passIf .value then readUnless [.comma, .closeObject] fuel depth false false
          else pure .empty
        pure (key, value)
      else do
        let key ← readNode fuel depth false false
        pure (key, .empty)
    return entry :: (← readObject fuel depth false)
termination_by structural fuel

end

/-! ## Documents -/

/-- Reads directives. The first argument bounds their number. -/
def readDirectives (versioned : Bool) : Nat → Compose Unit
  | 0 => throw .depth
  | fuel + 1 => do
    match ← peek with
    | .directive (.version major) =>
      pass
      if versioned || major ≠ 1 then throw .arrangement
      readDirectives true fuel
    | .directive (.handle handle start) =>
      pass
      if ((← get).handles.lookup handle).isSome then throw .arrangement
      modify fun c => { c with handles := (handle, start) :: c.handles }
      readDirectives versioned fuel
    | .directive .other =>
      pass
      readDirectives versioned fuel
    | _ => return

/-- Passes the marks of ends of documents. -/
def passEnds : Compose Unit :=
  modify fun c => { c with tokens := c.tokens.dropWhile (· == .documentEnd) }

/-- Passes what begins a document that is marked as one. -/
def openDocument (fuel : Nat) : Compose Unit := do
  modify fun c => { c with handles := [] }
  readDirectives false fuel
  if !(← passIf .documentStart) then throw .arrangement
  modify fun c => { c with handles := c.handles ++ ownHandles }

/-- Reads the node of a document. -/
def readRoot (fuel : Nat) : Compose (Option Node) := do
  match ← peek with
  | .finish => return none
  | .directive _ | .documentStart =>
    openDocument fuel
    match ← peek with
    | .directive _ | .documentStart | .documentEnd | .finish => return some .empty
    | _ => some <$> readNode fuel Node.maxDepth true false
  | _ =>
    modify fun c => { c with handles := ownHandles }
    some <$> readNode fuel Node.maxDepth true false

/-- Reads the only document; there may be none. -/
def readDocument (fuel : Nat) : Compose (Option Node) := do
  let node ← readRoot fuel
  let _ ← peek
  passEnds
  if ← isNext [.finish] then return node
  openDocument fuel
  throw .reference

end Compose

/-- The node of a document, if it has one. -/
def nodeOf (text : Text) : Except YamlError (Option Node) :=
  let (tokens, fault) := tokensOf text
  let start : Composer := { tokens, fault := fault.getD .arrangement }
  (Compose.readDocument (4 * tokens.length + 20)).run' start

end MeshLens.Yaml
