import MeshLens.Text.CodePoint

/-!
# Display options

The settings that say what a shown graph carries. Some query operands only make sense with a
setting turned on, and a query asks for those by requests, which only ever turn a setting on.
-/

namespace MeshLens

/-- The settings that a query consults. -/
structure DisplayFlags where
  showRank : Bool := false
  showSecurity : Bool := false
  showIdleNodes : Bool := false
  /-- The active edge label modes. -/
  edgeLabels : List Text := []
  deriving DecidableEq, Repr

/-- A request to turn a setting on. -/
structure OptionRequest where
  /-- The name of the setting. -/
  option : Text
  /-- How the setting is named to the user. -/
  label : Text
  /-- The edge label modes asked for, where the setting is the edge labels. -/
  edgeLabels : List Text := []
  deriving DecidableEq, Repr

/-- All display settings. -/
structure DisplayOptions where
  showRank : Bool := false
  showSecurity : Bool := false
  showIdleNodes : Bool := false
  edgeLabels : List Text := []
  /-- Take hidden elements out of the graph instead of making them invisible. -/
  compressOnHide : Bool := false
  /-- The layout run when hiding changes the shape of the graph. -/
  layout : Text := "dagre"
  /-- A layout was asked for while none was named. -/
  unnamedLayout : Bool := false
  deriving DecidableEq, Repr

/-- A setting that is on or off. The layout is on when it has a name, or was turned on without
one. -/
inductive Switch
  | showRank | showSecurity | showIdleNodes | compressOnHide | layout
  deriving DecidableEq, Repr

/-- What is wrong with a request. -/
inductive RequestError
  /-- Edge labels are requested and none is named. -/
  | noEdgeLabel
  | unknownOption (name : Text)
  /-- The name is taken, and what it stands for cannot be asked for. -/
  | unreadableOption (name : Text)
  deriving DecidableEq, Repr

namespace OptionRequest

/-- The name of the edge label setting. -/
def edgeLabelsOption : Text := "edge_labels"

end OptionRequest

namespace Switch

/-- The name of a switch. -/
def name : Switch → Text
  | showRank => "show_rank"
  | showSecurity => "show_security"
  | showIdleNodes => "show_idle_nodes"
  | compressOnHide => "compress_on_hide"
  | layout => "layout"

/-- The switch of a name. -/
def ofName? (name : Text) : Option Switch :=
  [showRank, showSecurity, showIdleNodes, compressOnHide, layout].find? (·.name = name)

end Switch

namespace DisplayFlags

/-- Whether what a request asks for is on already. Edge labels are on when the first of those
asked for is. -/
def covers (flags : DisplayFlags) (request : OptionRequest) : Bool :=
  if request.option = OptionRequest.edgeLabelsOption then
    request.edgeLabels.head?.any (· ∈ flags.edgeLabels)
  else
    match Switch.ofName? request.option with
    | some .showRank => flags.showRank
    | some .showSecurity => flags.showSecurity
    | some .showIdleNodes => flags.showIdleNodes
    | _ => false

/-- Adds a request to those collected, unless it is there or what it asks for is on. -/
def collect (flags : DisplayFlags) (collected : List OptionRequest) (request : OptionRequest) :
    List OptionRequest :=
  if request ∈ collected ∨ flags.covers request then collected else collected ++ [request]

end DisplayFlags

namespace DisplayOptions

/-- The settings that a query consults. -/
def flags (o : DisplayOptions) : DisplayFlags where
  showRank := o.showRank
  showSecurity := o.showSecurity
  showIdleNodes := o.showIdleNodes
  edgeLabels := o.edgeLabels

/-- The state of a switch. -/
def isOn (o : DisplayOptions) : Switch → Bool
  | .showRank => o.showRank
  | .showSecurity => o.showSecurity
  | .showIdleNodes => o.showIdleNodes
  | .compressOnHide => o.compressOnHide
  | .layout => o.unnamedLayout || o.layout ≠ []

/-- Turns a switch on. -/
def turnOn (o : DisplayOptions) : Switch → DisplayOptions
  | .showRank => { o with showRank := true }
  | .showSecurity => { o with showSecurity := true }
  | .showIdleNodes => { o with showIdleNodes := true }
  | .compressOnHide => { o with compressOnHide := true }
  | .layout => { o with unnamedLayout := true }

/-- Adds edge label modes at the end, each once. -/
def addEdgeLabels (o : DisplayOptions) (labels : List Text) : DisplayOptions :=
  { o with
    edgeLabels := labels.foldl
      (fun present label => if label ∈ present then present else present ++ [label])
      o.edgeLabels }

/-- Names between double underscores that are taken, and so count as being on. -/
def innerNames : List Text := [
  "annotations", "class", "dataclass_fields", "dataclass_params", "delattr", "dir", "doc", "eq",
  "format", "ge", "getattribute", "getstate", "gt", "init", "init_subclass", "le", "lt",
  "match_args", "module", "ne", "new", "reduce", "reduce_ex", "repr", "setattr", "sizeof", "slots",
  "str", "subclasshook"]

/-- Whether a name belongs to the display settings but is no setting. -/
def isTaken (name : Text) : Bool :=
  name == "flags" || name == "apply" || innerNames.any fun inner => name == "__" ++ inner ++ "__"

/-- The name that is taken and cannot be asked for. -/
def unreadableName : Text := "__weakref__"

/-- Grants one request; the flag tells whether a setting changed. A request for a name that is taken
counts as granted already. -/
def grant (o : DisplayOptions) (request : OptionRequest) :
    Except RequestError (DisplayOptions × Bool) :=
  if request.option = OptionRequest.edgeLabelsOption then
    match request.edgeLabels with
    | [] => .error .noEdgeLabel
    | first :: _ =>
      if first ∈ o.edgeLabels then .ok (o, false)
      else .ok (o.addEdgeLabels request.edgeLabels, true)
  else
    match Switch.ofName? request.option with
    | some switch => if o.isOn switch then .ok (o, false) else .ok (o.turnOn switch, true)
    | none =>
      if isTaken request.option then .ok (o, false)
      else if request.option = unreadableName then .error (.unreadableOption request.option)
      else .error (.unknownOption request.option)

/-- What granting several requests comes to: the settings, the requests that changed one, and the
fault that ended it, if any. What was granted before a fault stays. -/
structure Granting where
  options : DisplayOptions
  granted : List OptionRequest := []
  error : Option RequestError := none
  deriving DecidableEq, Repr

/-- Grants requests in order. -/
def grantAll (o : DisplayOptions) : List OptionRequest → Granting
  | [] => { options := o }
  | request :: requests =>
    match o.grant request with
    | .error e => { options := o, error := some e }
    | .ok (o, changed) =>
      let rest := grantAll o requests
      if changed then { rest with granted := request :: rest.granted } else rest

end DisplayOptions

end MeshLens
