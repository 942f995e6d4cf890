import MeshLens.Proofs.Graph.SelectSpec
import MeshLens.Proofs.Query.Requests
import MeshLens.Proofs.Query.Respelling
import MeshLens.Proofs.Query.CompileCorrect
import MeshLens.Session

/-!
# Runs of a session

The operations that a user of a session has, one after another in any order. An operation that fails
leaves a state behind like any other, and the run goes on from there.

Each operation comes down to a change of the inputs, followed by at most an evaluation of the find
query and one of the hide query. These lemmas say what an evaluation does, so that a proof about runs
does not have to look into it.

## Key results

- `Session.run`: the state after some operations
- `Session.runFind_spec`, `Session.runHide_spec`: what an evaluation does
- `Session.confirm_eq`, `Session.attach_spec`: which evaluations there are
-/

namespace MeshLens

/-- `Workspace.graphAt` after `Workspace.put` gives the new snapshot under its own name, and the old
ones under all other names. -/
theorem Workspace.graphAt_put (w : Workspace) (name : Text) (g : Graph) (other : Text) :
    (w.put name g).graphAt other = if name = other then g else w.graphAt other := by
  rw [graphAt, graph?, put, Entries.get?_set]
  split
  · rfl
  · rfl

namespace Session

/-- What can be asked of a session: one operation for each of its commands. -/
inductive Operation
  | updateInput (channel : Channel) (text : Text)
  | complete (channel : Channel)
  | submit (channel : Channel)
  | setValue (channel : Channel) (value : Text)
  | selectPreset (channel : Channel) (index : Int)
  | attach (name : Text) (elementsChanged : Option Bool)
  | detach
  | setCompressOnHide (compress : Bool)

/-- The state after an `Operation`, also when it fails. -/
def perform (s : Session) : Operation → Session
  | .updateInput channel text => (s.updateInput channel text).1
  | .complete channel => (s.complete channel).1
  | .submit channel => (s.submit channel).1
  | .setValue channel value => (s.setValue channel value).1
  | .selectPreset channel index => (s.selectPreset channel index).1
  | .attach name elementsChanged => (s.attach name elementsChanged).1
  | .detach => s.detach
  | .setCompressOnHide compress => (s.setCompressOnHide compress).1

/-- The state after some operations: `perform` one after the other. -/
def run (s : Session) (ops : List Operation) : Session :=
  ops.foldl perform s

/-! ## Compiling -/

/-- Whether `compile` gives a compilation of a text, if only of an error: no number in it is
unreadable. -/
def isReadable (text : Text) : Bool :=
  match MeshLens.compile text with
  | .ok _ => true
  | .error _ => false

/-- `isReadable` does not depend on the display settings, although `compile` takes them. -/
theorem isReadable_iff (text : Text) (flags : DisplayFlags) :
    isReadable text = true ↔ ∃ c, MeshLens.compile text flags = .ok c := by
  -- only what is read of the canonical text decides, and display settings have no part in that
  have hread : ∀ flags : DisplayFlags, (∃ c, MeshLens.compile text flags = .ok c) ↔
      Query.canonical text = [] ∨ ∀ fault, (CompiledQuery.read (Query.canonical text)).result ≠
        .error (.number fault) := by
    intro flags
    unfold MeshLens.compile
    -- cases on what `compile` looks at: the canonical text, and then what was read of it
    split
    · rename_i hnil
      exact iff_of_true ⟨_, rfl⟩ (.inl hnil)
    · rename_i hne
      dsimp only
      split
      · rename_i hresult
        refine iff_of_true ⟨_, rfl⟩ (.inr fun fault => ?_)
        rw [hresult]
        exact fun h => nomatch h
      · rename_i hresult
        refine iff_of_true ⟨_, rfl⟩ (.inr fun fault => ?_)
        rw [hresult]
        exact fun h => nomatch h
      · rename_i fault hresult
        refine iff_of_false (fun ⟨_, h⟩ => nomatch h) ?_
        rintro (hnil | hnone)
        · exact hne hnil
        · exact hnone fault hresult
  rw [hread flags, ← hread {}, isReadable]
  cases MeshLens.compile text with
  | ok c => simp
  | error fault => simp

/-- `PlainText`: the selector of a compiled query asks for no style class. -/
theorem plainText_render {text : Text} {flags : DisplayFlags} {c : Compilation} {q : CompiledQuery}
    (hc : MeshLens.compile text flags = .ok c) (hq : c.query? = some q) :
    Selector.PlainText (some q.render) := by
  have hparse := CompiledQuery.parse_of_read (read_of_compile hc hq)
  intro text s hsome hs g hg
  cases hsome
  rw [hparse] at hs
  cases hs
  obtain ⟨⟨kind, criteria⟩, -, rfl⟩ := List.mem_map.1 hg
  rfl

/-- The selector that `compile` gives for a text without an error in it; a blank text stands for
none. -/
def selectorOf? (text : Text) : Option (Option Text) :=
  match MeshLens.compile text with
  | .ok c => c.result.toOption.map fun query => query.map (·.render)
  | .error _ => none

/-- `selectorOf?` gives nothing for a text that cannot be read. -/
theorem selectorOf?_eq_none {text : Text} (h : isReadable text ≠ true) : selectorOf? text = none := by
  unfold isReadable at h
  unfold selectorOf?
  split
  · rename_i c hc
    rw [hc] at h
    exact absurd rfl h
  · rfl

/-- `selectorOf?` gives no selector for a blank text. -/
theorem selectorOf?_blank {text : Text} (h : ∀ c ∈ text, Text.isBlank c = true) :
    selectorOf? text = some none := by
  rw [selectorOf?, MeshLens.compile, Query.canonical_blank h]
  rfl

/-- `selectorOf?` does not depend on the display settings that the text is compiled with. -/
theorem selectorOf?_eq {text : Text} {flags : DisplayFlags} {c : Compilation}
    (hc : MeshLens.compile text flags = .ok c) :
    selectorOf? text = c.result.toOption.map fun query => query.map (·.render) := by
  obtain ⟨requests, hsame⟩ := compile_eq_ok_congr hc {}
  rw [selectorOf?, hsame]

/-- The selector that an evaluation applies: `selectorOf?` of the confirmed text when it compiles
without an error, and else the one from before. -/
def applied (s : Session) (channel : Channel) : Option Text :=
  (selectorOf? (s.values.get channel)).getD (s.selectors.get channel)

/-- What `compile` of the confirmed text of an input does to a session: the selector of the input is
set, and the other fields that evaluations read stay. -/
structure Compiles (s s' : Session) (channel : Channel) (selector : Option Text) : Prop where
  applied : selector = s.applied channel
  selectors : s'.selectors = s.selectors.set channel selector
  plain : Selector.PlainText (s.selectors.get channel) → Selector.PlainText selector
  workspace : s'.workspace = s.workspace
  values : s'.values = s.values
  attached : s'.attached = s.attached
  hider : s'.hider = s.hider
  compressOnHide : s'.options.compressOnHide = s.options.compressOnHide

/-- `adopt` satisfies `Compiles`, when it takes over a compilation of the confirmed text. -/
theorem adopt_spec (s : Session) (channel : Channel) {flags : DisplayFlags} {c : Compilation}
    (hc : MeshLens.compile (s.values.get channel) flags = .ok c) (compiler : Compiler) :
    Compiles s (s.adopt channel c compiler).1 channel (s.adopt channel c compiler).2 := by
  have hselector := selectorOf?_eq hc
  -- what a query asks for is never another way of hiding
  have hspared := s.options.compressOnHide_grantAll (requests_of_compile hc)
  unfold adopt
  -- cases: an error leaves the selector from before, and a query gives its own
  cases hresult : c.result with
  | error e =>
    refine ⟨?_, ?_, id, rfl, rfl, rfl, rfl, hspared⟩
    · rw [Session.applied, hselector, hresult]
      rfl
    · exact (PerChannel.set_get_self s.selectors channel).symm
  | ok query =>
    refine ⟨?_, rfl, fun _ => ?_, rfl, rfl, rfl, rfl, hspared⟩
    · rw [Session.applied, hselector, hresult]
      rfl
    cases query with
    | none => exact fun text s hnone => nomatch hnone
    | some q => exact plainText_render hc (by simp [Compilation.query?, hresult])

/-- `compile` changes the selector of its input only, to the one that it gives; it fails just on a
text that cannot be read. -/
theorem compile_spec (s : Session) (channel : Channel) :
    if isReadable (s.values.get channel) then
      ∃ s' selector, s.compile channel = .ok (s', selector) ∧ Compiles s s' channel selector
    else ∃ fault, s.compile channel = .error fault := by
  have hreadable := isReadable_iff (s.values.get channel) s.options.flags
  unfold compile Compiler.compile
  -- an error of the query is an outcome too: the selector from before stays
  cases hc : MeshLens.compile (s.values.get channel) s.options.flags with
  | ok c =>
    rw [if_pos (hreadable.2 ⟨c, hc⟩)]
    exact ⟨_, _, rfl, adopt_spec s channel hc _⟩
  | error fault =>
    have hunreadable : ¬isReadable (s.values.get channel) = true := by
      intro h
      obtain ⟨c, hok⟩ := hreadable.1 h
      rw [hc] at hok
      cases hok
    rw [if_neg hunreadable]
    exact ⟨fault, rfl⟩

/-! ## Evaluating -/

/-- What evaluating a query on a snapshot does to a session, the snapshot becoming `g`: `Compiles`,
and the workspace has `g` under the name. -/
structure Evaluates (s s' : Session) (channel : Channel) (selector : Option Text) (name : Text)
    (g : Graph) : Prop where
  applied : selector = s.applied channel
  selectors : s'.selectors = s.selectors.set channel selector
  plain : Selector.PlainText (s.selectors.get channel) → Selector.PlainText selector
  workspace : s'.workspace = s.workspace.put name g
  values : s'.values = s.values
  attached : s'.attached = s.attached
  compressOnHide : s'.options.compressOnHide = s.options.compressOnHide

/-- `runFind` evaluates the find query on one snapshot, if the text can be read, and changes nothing
else. -/
theorem runFind_spec (s : Session) (name : Text) :
    if isReadable s.values.find then
      ∃ selector g, Evaluates s (s.runFind name).1 .find selector name g ∧
        g.elements = ((s.workspace.graphAt name).applyFind Graph.findMarker selector).1.elements ∧
        (s.runFind name).1.hider = s.hider
    else (s.runFind name).1 = s := by
  have hspec : if isReadable s.values.find then _ else _ := s.compile_spec .find
  unfold runFind
  by_cases hreadable : isReadable s.values.find = true
  · rw [if_pos hreadable] at hspec ⊢
    obtain ⟨s', selector, hcompile, h⟩ := hspec
    simp only [hcompile, h.workspace]
    cases happlied : (s.workspace.graphAt name).applyFind Graph.findMarker selector with
    | mk g result =>
      -- the snapshot is put back, whether marking failed or not
      have hput : Evaluates s (s'.putGraph name g) .find selector name
          { g with notices := [] } := by
        refine ⟨h.applied, h.selectors, h.plain, ?_, h.values, h.attached, h.compressOnHide⟩
        rw [← h.workspace]
        rfl
      have helements : g.elements =
          ((s.workspace.graphAt name).applyFind Graph.findMarker selector).1.elements := by
        rw [happlied]
      cases result with
      | error e => exact ⟨selector, _, hput, helements, h.hider⟩
      | ok ids =>
        exact ⟨selector, _, ⟨hput.1, hput.2, hput.3, hput.4, hput.5, hput.6, hput.7⟩, helements,
          h.hider⟩
  · rw [if_neg hreadable] at hspec ⊢
    obtain ⟨fault, hfault⟩ := hspec
    rw [hfault]

/-- `runHide` evaluates the hide query on one snapshot, if the text can be read; the way of hiding
is that of the settings. -/
theorem runHide_spec (s : Session) (name : Text) (occasion : HideOccasion) :
    if isReadable s.values.hide then
      ∃ selector occasion' g, Evaluates s (s.runHide name occasion).1 .hide selector name g ∧
        g.elements = (s.hider.apply name (s.workspace.graphAt name) selector
          occasion').2.1.elements ∧
        (s.runHide name occasion).1.hider =
          (s.hider.apply name (s.workspace.graphAt name) selector occasion').1 ∧
        occasion'.compress = s.options.compressOnHide ∧
        occasion'.graphChanged = occasion.graphChanged
    else (s.runHide name occasion).1 = s := by
  have hspec : if isReadable s.values.hide then _ else _ := s.compile_spec .hide
  unfold runHide
  by_cases hreadable : isReadable s.values.hide = true
  · rw [if_pos hreadable] at hspec ⊢
    obtain ⟨s', selector, hcompile, h⟩ := hspec
    simp only [hcompile, h.workspace, h.hider]
    cases happlied : s.hider.apply name (s.workspace.graphAt name) selector
      { occasion with compress := s'.options.compressOnHide, layout := s'.options.layout } with
    | mk hider rest =>
      obtain ⟨g, result⟩ := rest
      -- the snapshot is put back, whether hiding failed or not
      have hput : Evaluates s { s'.putGraph name g with hider } .hide selector name
          { g with notices := [] } := by
        refine ⟨h.applied, h.selectors, h.plain, ?_, h.values, h.attached, h.compressOnHide⟩
        rw [← h.workspace]
        rfl
      have helements : g.elements = (s.hider.apply name (s.workspace.graphAt name) selector
          { occasion with
            compress := s'.options.compressOnHide
            layout := s'.options.layout }).2.1.elements := by
        rw [happlied]
      have hhider : hider = (s.hider.apply name (s.workspace.graphAt name) selector
          { occasion with
            compress := s'.options.compressOnHide
            layout := s'.options.layout }).1 := by
        rw [happlied]
      cases result with
      | error e =>
        exact ⟨selector, _, _, hput, helements, hhider, h.compressOnHide, rfl⟩
      | ok outcome =>
        exact ⟨selector, _, _, ⟨hput.1, hput.2, hput.3, hput.4, hput.5, hput.6, hput.7⟩, helements,
          hhider, h.compressOnHide, rfl⟩
  · rw [if_neg hreadable] at hspec ⊢
    obtain ⟨fault, hfault⟩ := hspec
    rw [hfault]

/-! ## Which evaluations there are -/

/-- A session that has stored a text as the confirmed one of an input, with the parameter that
`confirm` writes for it. -/
def store (s : Session) (channel : Channel) (value : Text) : Session :=
  { s with
    values := s.values.set channel value
    params :=
      if value = [] then s.params.erase channel.parameter
      else s.params.set channel.parameter value }

/-- `confirm` of another text than before stores it and evaluates it on the attached snapshot. -/
theorem confirm_eq (s : Session) (channel : Channel) (value : Text) :
    s.confirm channel value =
      if s.values.get channel = value then (s, .ok ())
      else
        match s.attached with
        | none => (s.store channel value, .ok ())
        | some name =>
          match channel with
          | .find => (s.store channel value).runFind name
          | .hide => (s.store channel value).runHide name { hideChanged := true } :=
  rfl

/-- A session to which `attach` has attached a snapshot, before anything is evaluated on it. -/
def attachTo (s : Session) (name : Text) : Session :=
  { s with attached := some name }

/-- `attach` evaluates the find query on the snapshot, unless the text is empty, and then perhaps
the hide query. -/
theorem attach_spec (s : Session) (name : Text) (elementsChanged : Option Bool) :
    ∃ s₁, s₁ = (if s.values.find = [] then s.attachTo name
        else ((s.attachTo name).runFind name).1) ∧
      ((s.attach name elementsChanged).1 = s₁ ∨
        ∃ occasion, (s.attach name elementsChanged).1 = (s₁.runHide name occasion).1) := by
  refine ⟨_, rfl, ?_⟩
  unfold attach
  simp only
  -- finding comes first, and may fail; hiding is asked for only when there is a text
  by_cases hfind : s.values.find = []
  · simp only [hfind, if_true]
    split
    · exact .inl rfl
    · exact .inr ⟨_, rfl⟩
  · simp only [hfind, if_false]
    split
    · exact .inl rfl
    · split
      · exact .inl rfl
      · exact .inr ⟨_, rfl⟩

/-- A session that takes hidden elements out, or makes them invisible, from now on: what
`setCompressOnHide` stores. -/
def switchTo (s : Session) (compress : Bool) : Session :=
  { s with options := { s.options with compressOnHide := compress } }

/-- `setCompressOnHide` evaluates the hide query on the attached snapshot, when the way of hiding
changes and there is a text. -/
theorem setCompressOnHide_eq (s : Session) (compress : Bool) :
    s.setCompressOnHide compress =
      if s.options.compressOnHide = compress then (s, .ok ())
      else
        match s.attached with
        | none => (s.switchTo compress, .ok ())
        | some name =>
          if s.values.hide = [] then (s.switchTo compress, .ok ())
          else (s.switchTo compress).runHide name { compressChanged := true } :=
  rfl

end Session

end MeshLens
