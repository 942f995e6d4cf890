import MeshLens.Completion
import MeshLens.Find
import MeshLens.Hide
import MeshLens.Params
import MeshLens.Query.Compiler
import MeshLens.Workspace

/-!
# Sessions

A session keeps the two query inputs, the selectors in effect and the attached snapshot in step.
Typing only changes an input, unless it changes the length by more than one character, as a paste
does; confirming a text stores it as a parameter and applies it to the snapshot; a new snapshot
has every confirmed query applied to it. A text that does not compile leaves the last selector in
effect.
-/

namespace MeshLens

/-- A named expression offered as a shortcut. -/
structure Preset where
  description : Text
  expression : Text
  deriving DecidableEq, Repr

/-- Why an operation on a session fails. -/
inductive SessionError
  | evaluation (error : EvaluationError)
  /-- A confirmed text holds a number that cannot be read. -/
  | unreadable (fault : UnreadableNumber)
  /-- There is no preset of that index. -/
  | noPreset

/-- The message of an error. -/
def SessionError.message : SessionError → Text
  | evaluation e => e.message
  | unreadable fault => fault.message
  | noPreset => "tuple index out of range"

/-- The state of a session. -/
structure Session where
  options : DisplayOptions := {}
  params : Params := {}
  compiler : Compiler := {}
  hider : Hider := {}
  /-- The snapshots known to the session, by name. -/
  workspace : Workspace := {}
  /-- The name of the attached snapshot. -/
  attached : Option Text := none
  /-- What the last finding marked. -/
  lastFind : Option (List Text) := none
  lastHide : Option HideOutcome := none
  completions : PerChannel Completion := .both (.ofWords Query.completions)
  presets : PerChannel (List Preset) := .both []
  /-- The confirmed texts. -/
  values : PerChannel Text := .both []
  /-- The texts in the inputs. -/
  inputs : PerChannel Text := .both []
  /-- The selectors in effect. -/
  selectors : PerChannel (Option Text) := .both none
  /-- What was reported. -/
  notices : List Notice := []

namespace Session

/-- What an operation comes to: the new state, also after a failure, and a result. -/
abbrev Step (α : Type) := Session × Except SessionError α

/-! ## Opening -/

/-- The text that an input starts with: the stored one, or else the given one, which is stored. -/
def reconcile (params : Params) (channel : Channel) (given : Text) : Text × Params :=
  let stored := (params.get? channel.parameter).getD []
  if stored ≠ [] then (stored, params)
  else if given ≠ [] then (given, params.set channel.parameter given)
  else (given, params)

/-- A new session over some snapshots, none of which is attached yet. -/
def start (options : DisplayOptions) (params : Params) (given : PerChannel Text)
    (presets : PerChannel (List Preset)) (workspace : Workspace) : Session :=
  let (find, params) := reconcile params .find given.find
  let (hide, params) := reconcile params .hide given.hide
  { options, params, presets, workspace
    hider := { layout := options.layout }
    values := ⟨find, hide⟩
    inputs := ⟨find, hide⟩ }

/-! ## Evaluating -/

/-- Adds notices to what was reported. -/
def report (s : Session) (notices : List Notice) : Session :=
  { s with notices := s.notices ++ notices }

/-- Puts a snapshot back after work on it, with what it reported. -/
def putGraph (s : Session) (name : Text) (g : Graph) : Session :=
  { s.report g.notices with workspace := s.workspace.put name { g with notices := [] } }

/-- Takes over what compiling the confirmed text of an input came to: turns on the settings that it
asks for, and gives the selector in effect from now on. -/
def adopt (s : Session) (channel : Channel) (compilation : Compilation) (compiler : Compiler) :
    Session × Option Text :=
  let granting := s.options.grantAll compilation.requests
  let s := { s with compiler, options := granting.options }
  let s := s.report (compilation.notices channel (s.values.get channel) ++
    granting.granted.map fun request => .enabling request.label)
  match compilation.result with
  | .error _ =>
    (s.report ((compiler.message channel).toList.map .badInput), s.selectors.get channel)
  | .ok query =>
    let selector := query.map (·.render)
    ({ s with selectors := s.selectors.set channel selector }, selector)

/-- Compiles the confirmed text of an input. -/
def compile (s : Session) (channel : Channel) :
    Except UnreadableNumber (Session × Option Text) :=
  (s.compiler.compile channel (s.values.get channel) s.options.flags).map
    fun (compilation, compiler) => s.adopt channel compilation compiler

/-- Applies the find query to a snapshot. -/
def runFind (s : Session) (name : Text) : Step Unit :=
  match s.compile .find with
  | .error fault => (s, .error (.unreadable fault))
  | .ok (s, selector) =>
    let (g, result) := (s.workspace.graphAt name).applyFind Graph.findMarker selector
    let s := s.putGraph name g
    match result with
    | .error e => (s, .error (.evaluation e))
    | .ok ids => ({ s with lastFind := some ids }, .ok ())

/-- Applies the hide query to a snapshot. -/
def runHide (s : Session) (name : Text) (occasion : HideOccasion) : Step Unit :=
  match s.compile .hide with
  | .error fault => (s, .error (.unreadable fault))
  | .ok (s, selector) =>
    let (hider, g, result) := s.hider.apply name (s.workspace.graphAt name) selector
      { occasion with compress := s.options.compressOnHide, layout := s.options.layout }
    let s := { s.putGraph name g with hider }
    match result with
    | .error e => (s, .error (.evaluation e))
    | .ok outcome => ({ s with lastHide := some outcome }, .ok ())

/-- Confirms a text: stores it and applies it to the attached snapshot. Nothing happens when it is
the confirmed text already. -/
def confirm (s : Session) (channel : Channel) (value : Text) : Step Unit :=
  if s.values.get channel = value then (s, .ok ())
  else
    let params :=
      if value = [] then s.params.erase channel.parameter
      else s.params.set channel.parameter value
    let s := { s with values := s.values.set channel value, params }
    match s.attached with
    | none => (s, .ok ())
    | some name =>
      match channel with
      | .find => s.runFind name
      | .hide => s.runHide name { hideChanged := true }

/-! ## Inputs -/

/-- Puts a text into an input, which then shows no error. -/
def setInput (s : Session) (channel : Channel) (text : Text) : Session :=
  { s with inputs := s.inputs.set channel text, compiler := s.compiler.clear channel }

/-- Lets the completion of an input start from a text. -/
def prime (s : Session) (channel : Channel) (text : Text) (stops : List Text) : Session :=
  { s with
    completions :=
      s.completions.set channel ((s.completions.get channel).setInput text stops) }

/-- Puts a text into an input and confirms it. -/
def setValue (s : Session) (channel : Channel) (value : Text) : Step Unit :=
  ((s.prime channel value []).setInput channel value).confirm channel value

/-- The stops of completion while typing. -/
def typingStops : List Text :=
  [[' '], ['!']]

/-- By how many characters two texts differ in length. -/
def lengthGap (s t : Text) : Nat :=
  (s.length - t.length) + (t.length - s.length)

/-- Takes what is typed into an input. An emptied input is confirmed, and so is a text that is
longer or shorter by more than one character. -/
def updateInput (s : Session) (channel : Channel) (text : Text) : Step Unit :=
  if text = [] then s.setValue channel []
  else
    let gap := lengthGap text (s.inputs.get channel)
    let s := (s.prime channel text typingStops).setInput channel text
    if 1 < gap then s.confirm channel text else (s, .ok ())

/-- Puts the next candidate of completion into an input. -/
def complete (s : Session) (channel : Channel) : Session × Option Text :=
  let (word, completion) := (s.completions.get channel).next
  let s := { s with completions := s.completions.set channel completion }
  match word with
  | none => (s, none)
  | some text => (s.setInput channel text, some text)

/-- Confirms the text in an input. -/
def submit (s : Session) (channel : Channel) : Step Unit :=
  s.confirm channel (s.inputs.get channel)

/-- The preset of an index; negative indexes count from the end. -/
def preset? (presets : List Preset) (index : Int) : Option Preset :=
  if 0 ≤ index then presets[index.toNat]?
  else if -index ≤ presets.length then presets[(presets.length + index).toNat]?
  else none

/-- Applies a preset. -/
def selectPreset (s : Session) (channel : Channel) (index : Int) : Step Preset :=
  match preset? (s.presets.get channel) index with
  | none => (s, .error .noPreset)
  | some preset =>
    let (s, result) := s.setValue channel preset.expression
    (s, result.map fun _ => preset)

/-! ## Snapshots -/

/-- Attaches a snapshot and applies the confirmed queries to it. Whether its elements are others
than those of the snapshot before is found out where it is not given. -/
def attach (s : Session) (name : Text) (elementsChanged : Option Bool) : Step Unit :=
  let graphChanged : Bool := s.attached ≠ some name
  let changed := elementsChanged.getD <|
    Workspace.compositionChanged (s.attached.map s.workspace.graphAt) (s.workspace.graphAt name)
  let s := { s with attached := some name }
  let (s, found) := if s.values.find = [] then (s, .ok ()) else s.runFind name
  match found with
  | .error e => (s, .error e)
  | .ok () =>
    if s.values.hide = [] then (s, .ok ())
    else s.runHide name { graphChanged, elementsChanged := graphChanged && changed }

/-- Forgets the attached snapshot and what was hidden in it. -/
def detach (s : Session) : Session :=
  { s with attached := none, lastFind := none, lastHide := none, hider := s.hider.forget }

/-- Switches between making elements invisible and taking them out. -/
def setCompressOnHide (s : Session) (compress : Bool) : Step Unit :=
  if s.options.compressOnHide = compress then (s, .ok ())
  else
    let s := { s with options := { s.options with compressOnHide := compress } }
    match s.attached with
    | none => (s, .ok ())
    | some name =>
      if s.values.hide = [] then (s, .ok ()) else s.runHide name { compressChanged := true }

end Session

end MeshLens
