import MeshLens.Proofs.Session.RunSteps

/-!
# What a step leaves alone

An operation first changes an input, and takes its message away, or stores a text as a parameter; an
evaluation writes the message of its input and turns settings on. Neither does more to the texts, the
parameters and the presets of a session, so a proof about these needs no other fact about a step.

## Key results

- `Session.typed_eq`: all that an operation does to the inputs
- `Session.runFind_eq`, `Session.runHide_eq`: all that an evaluation does
- `Session.evaluate_effect`: what it does besides applying a selector
-/

namespace MeshLens

namespace Session

/-! ## Messages -/

/-- The error that `compile` gives for a text that can be read, if there is one. -/
def errorOf? (text : Text) : Option QueryError :=
  match MeshLens.compile text with
  | .ok c => c.error?
  | .error _ => none

/-- `errorOf?` does not depend on the display settings that the text is compiled with. -/
theorem errorOf?_eq {text : Text} {flags : DisplayFlags} {c : Compilation}
    (hc : MeshLens.compile text flags = .ok c) : errorOf? text = c.error? := by
  obtain ⟨requests, hsame⟩ := compile_eq_ok_congr hc {}
  simp only [errorOf?, hsame, Compilation.error?]

/-- `isReadable` holds of a text with an error in it. -/
theorem isReadable_of_error {text : Text} {e : QueryError} (h : errorOf? text = some e) :
    isReadable text = true := by
  unfold errorOf? at h
  unfold isReadable
  cases hc : MeshLens.compile text with
  | error fault =>
    rw [hc] at h
    cases h
  | ok c => rfl

/-- `selectorOf?` gives nothing for a text with an error in it, not even that there is no selector.
-/
theorem selectorOf?_of_error {text : Text} {e : QueryError} (h : errorOf? text = some e) :
    selectorOf? text = none := by
  unfold errorOf? at h
  unfold selectorOf?
  cases hc : MeshLens.compile text with
  | error fault => rfl
  | ok c =>
    simp only [hc, Compilation.error?] at h ⊢
    cases hresult : c.result with
    | error e => rfl
    | ok query =>
      rw [hresult] at h
      cases h

/-- The messages shown once `compile` has been run on the text of an input: its message is that of
this text, unless the text cannot be read. -/
def messagesAfter (s : Session) (channel : Channel) : PerChannel (Option Text) :=
  let text := s.values.get channel
  if isReadable text then
    s.compiler.messages.set channel ((errorOf? text).map (Compiler.messageOf channel))
  else s.compiler.messages

/-- `messagesAfter` at one input: the message of the error in the text, if it is that input's and
can be read. -/
theorem messagesAfter_get (s : Session) (channel other : Channel) :
    (s.messagesAfter channel).get other =
      if channel = other ∧ isReadable (s.values.get channel) = true then
        (errorOf? (s.values.get channel)).map (Compiler.messageOf channel)
      else s.compiler.messages.get other := by
  unfold messagesAfter
  by_cases hreadable : isReadable (s.values.get channel) = true
  · simp only [hreadable, if_true, and_true, PerChannel.get_set]
  · rw [if_neg hreadable, if_neg fun h => hreadable h.2]

/-! ## Evaluations -/

/-- `adopt` of a compilation changes the compiler, the settings, the selectors and the notices. -/
theorem adopt_eq (s : Session) (channel : Channel) (c : Compilation) (compiler : Compiler) :
    ∃ selectors notices, (s.adopt channel c compiler).1 =
      { s with compiler, selectors, notices, options := (s.options.grantAll c.requests).options } := by
  unfold adopt
  cases c.result with
  | error e => exact ⟨_, _, rfl⟩
  | ok query => exact ⟨_, _, rfl⟩

/-- The settings once `compile` has been run on the text of an input: what the text asks for is
turned on. -/
def optionsAfter (s : Session) (channel : Channel) : DisplayOptions :=
  match MeshLens.compile (s.values.get channel) s.options.flags with
  | .ok c => (s.options.grantAll c.requests).options
  | .error _ => s.options

/-- `compile` changes the messages to `messagesAfter`, the settings to `optionsAfter`, the selectors
and the notices. -/
theorem compile_eq {s s' : Session} {channel : Channel} {selector : Option Text}
    (h : s.compile channel = .ok (s', selector)) :
    ∃ selectors notices, s' =
      { s with
        selectors, notices
        compiler := { messages := s.messagesAfter channel }
        options := s.optionsAfter channel } := by
  have hreadable := isReadable_iff (s.values.get channel) s.options.flags
  unfold compile Compiler.compile at h
  unfold messagesAfter optionsAfter
  -- a compilation that cannot be read contradicts the result
  cases hc : MeshLens.compile (s.values.get channel) s.options.flags with
  | error fault =>
    rw [hc] at h
    cases h
  | ok c =>
    simp only [hc, Except.map, Except.ok.injEq] at h
    obtain ⟨selectors, notices, hadopt⟩ := s.adopt_eq channel c _
    rw [h] at hadopt
    refine ⟨selectors, notices, hadopt.trans ?_⟩
    simp only [hreadable.2 ⟨c, hc⟩, if_true, errorOf?_eq hc]

/-- `optionsAfter` and `messagesAfter` are those from before, when the text cannot be read. -/
theorem after_of_unreadable {s : Session} {channel : Channel}
    (h : ¬isReadable (s.values.get channel) = true) :
    s.optionsAfter channel = s.options ∧ s.messagesAfter channel = s.compiler.messages := by
  have hreadable := isReadable_iff (s.values.get channel) s.options.flags
  refine ⟨?_, if_neg h⟩
  unfold optionsAfter
  split
  · rename_i c hc
    exact absurd (hreadable.2 ⟨c, hc⟩) h
  · rfl

/-- `optionsAfter` leaves the way of hiding alone. -/
theorem compressOnHide_optionsAfter (s : Session) (channel : Channel) :
    (s.optionsAfter channel).compressOnHide = s.options.compressOnHide := by
  unfold optionsAfter
  split
  · rename_i c hc
    exact s.options.compressOnHide_grantAll (requests_of_compile hc)
  · rfl

/-- `runFind` in one equation, when the text can be read: every field of the session afterwards, but
for the notices, and the result. -/
theorem runFind_eq {s : Session} (h : isReadable s.values.find = true) (name : Text) :
    let call := (s.workspace.graphAt name).applyFind Graph.findMarker (s.applied .find)
    ∃ notices, s.runFind name =
      ({ s with
          notices
          compiler := { messages := s.messagesAfter .find }
          options := s.optionsAfter .find
          selectors := s.selectors.set .find (s.applied .find)
          workspace := s.workspace.put name { call.1 with notices := [] }
          lastFind := call.2.toOption.or s.lastFind },
        (call.2.map fun _ => ()).mapError .evaluation) := by
  have hspec := s.compile_spec .find
  rw [if_pos (show isReadable (s.values.get .find) = true from h)] at hspec
  -- the state after compiling is known field by field
  obtain ⟨s', selector, hcompile, hcompiles⟩ := hspec
  obtain ⟨selectors, notices, rfl⟩ := compile_eq hcompile
  obtain rfl := hcompiles.applied
  obtain rfl := hcompiles.selectors
  unfold runFind
  rw [hcompile]
  dsimp only
  -- marking may fail, and answers nothing then
  split
  · rename_i fault hresult
    rw [hresult]
    exact ⟨_, rfl⟩
  · rename_i ids hresult
    rw [hresult]
    exact ⟨_, rfl⟩

/-- The occasion that `Hider.apply` meets in a session: the way of hiding and the layout are those
of the settings. -/
def meeting (s : Session) (occasion : HideOccasion) : HideOccasion :=
  { occasion with compress := s.options.compressOnHide, layout := (s.optionsAfter .hide).layout }

/-- `runHide` in one equation, when the text can be read: every field of the session afterwards, but
for the notices, and the result. -/
theorem runHide_eq {s : Session} (h : isReadable s.values.hide = true) (name : Text)
    (occasion : HideOccasion) :
    let call := s.hider.apply name (s.workspace.graphAt name) (s.applied .hide) (s.meeting occasion)
    ∃ notices, s.runHide name occasion =
      ({ s with
          notices
          compiler := { messages := s.messagesAfter .hide }
          options := s.optionsAfter .hide
          selectors := s.selectors.set .hide (s.applied .hide)
          workspace := s.workspace.put name { call.2.1 with notices := [] }
          hider := call.1
          lastHide := call.2.2.toOption.or s.lastHide },
        (call.2.2.map fun _ => ()).mapError .evaluation) := by
  have hspec := s.compile_spec .hide
  rw [if_pos (show isReadable (s.values.get .hide) = true from h)] at hspec
  -- the state after compiling is known field by field
  obtain ⟨s', selector, hcompile, hcompiles⟩ := hspec
  obtain ⟨selectors, notices, rfl⟩ := compile_eq hcompile
  obtain rfl := hcompiles.applied
  obtain rfl := hcompiles.selectors
  have hcompress := s.compressOnHide_optionsAfter .hide
  unfold runHide meeting
  rw [hcompile]
  dsimp only
  rw [hcompress]
  -- hiding may fail, and answers nothing then
  split
  · rename_i fault hresult
    rw [hresult]
    exact ⟨_, rfl⟩
  · rename_i outcome hresult
    rw [hresult]
    exact ⟨_, rfl⟩

/-- What `evaluate` does to a session, apart from the snapshot, the selectors, the hider and what it
answers. -/
structure Effect (s s' : Session) (channel : Channel) : Prop where
  params : s'.params = s.params
  inputs : s'.inputs = s.inputs
  presets : s'.presets = s.presets
  messages : s'.compiler.messages = s.messagesAfter channel
  options : s'.options = s.optionsAfter channel

/-- `Effect` holds where nothing changes, if the text cannot be read. -/
theorem Effect.of_unreadable {s s' : Session} {channel : Channel}
    (h : ¬isReadable (s.values.get channel) = true) (hs : s' = s) : Effect s s' channel := by
  obtain ⟨hoptions, hmessages⟩ := after_of_unreadable h
  subst hs
  exact ⟨rfl, rfl, rfl, hmessages.symm, hoptions.symm⟩

/-- `runFind` satisfies `Effect` for the find input. -/
theorem runFind_effect (s : Session) (name : Text) : Effect s (s.runFind name).1 .find := by
  by_cases hreadable : isReadable s.values.find = true
  · obtain ⟨notices, hrun⟩ := runFind_eq hreadable name
    rw [hrun]
    exact ⟨rfl, rfl, rfl, rfl, rfl⟩
  · exact .of_unreadable hreadable ((if_neg hreadable).mp (s.runFind_spec name))

/-- `runHide` satisfies `Effect` for the hide input. -/
theorem runHide_effect (s : Session) (name : Text) (occasion : HideOccasion) :
    Effect s (s.runHide name occasion).1 .hide := by
  by_cases hreadable : isReadable s.values.hide = true
  · obtain ⟨notices, hrun⟩ := runHide_eq hreadable name occasion
    rw [hrun]
    exact ⟨rfl, rfl, rfl, rfl, rfl⟩
  · exact .of_unreadable hreadable ((if_neg hreadable).mp (s.runHide_spec name occasion))

/-- `evaluate` satisfies `Effect` for the input whose text it evaluates. -/
theorem evaluate_effect (s : Session) (name : Text) (e : Evaluation) :
    Effect s (s.evaluate name e).1 e.channel := by
  cases e with
  | find => exact s.runFind_effect name
  | hide occasion => exact s.runHide_effect name occasion

/-! ## Inputs -/

/-- The input that an `Operation` writes a text into, which then shows no message. -/
def Operation.types? (s : Session) : Operation → Option Channel
  | .updateInput channel _ | .setValue channel _ => some channel
  | .selectPreset channel index => (preset? (s.presets.get channel) index).map fun _ => channel
  | .complete channel => (s.completions.get channel).next.1.map fun _ => channel
  | .submit _ | .attach _ _ | .detach | .setCompressOnHide _ => none

/-- The messages after an operation has written into the input of `Operation.types?`, if it does. -/
def messagesTyped (s : Session) (op : Operation) : PerChannel (Option Text) :=
  match op.types? s with
  | none => s.compiler.messages
  | some channel => s.compiler.messages.set channel none

/-- `typed` changes the text of an input, its completion and its message to `messagesTyped`. -/
theorem typed_eq (s : Session) (op : Operation) :
    ∃ inputs completions, s.typed op =
      { s with inputs, completions, compiler := { messages := s.messagesTyped op } } := by
  -- only a preset and a completion may find nothing to write into an input
  cases op with
  | selectPreset channel index =>
    cases hpreset : preset? (s.presets.get channel) index with
    | none =>
      simp only [typed, messagesTyped, Operation.types?, hpreset]
      exact ⟨_, _, rfl⟩
    | some preset =>
      simp only [typed, messagesTyped, Operation.types?, hpreset]
      exact ⟨_, _, rfl⟩
  | complete channel =>
    cases hnext : (s.completions.get channel).next with
    | mk word completion =>
      cases word with
      | none =>
        simp only [typed, complete, messagesTyped, Operation.types?, hnext]
        exact ⟨_, _, rfl⟩
      | some text =>
        simp only [typed, complete, messagesTyped, Operation.types?, hnext]
        exact ⟨_, _, rfl⟩
  | _ => exact ⟨_, _, rfl⟩

/-- `prepare` takes at most the message away of the input that the operation writes into. -/
theorem prepare_messages (s : Session) (op : Operation) :
    (s.prepare op).compiler.messages = s.messagesTyped op := by
  have hinput : (s.stored op).compiler.messages = s.messagesTyped op := by
    obtain ⟨inputs, completions, htyped⟩ := s.typed_eq op
    rcases s.stored_spec op with ⟨hstored, -⟩ | ⟨channel, value, -, -, hstored, -⟩
    · rw [hstored, htyped]
    · rw [hstored, htyped]
      rfl
  cases op with
  | attach name elementsChanged => rfl
  | detach => rfl
  | setCompressOnHide compress => rfl
  | _ => exact hinput

/-- `confirmed?` gives a text for the input that the operation writes it into, or for the one that
it submits, as the text stands there. -/
theorem types?_of_confirmed? {s : Session} {op : Operation} {channel : Channel} {value : Text}
    (h : s.confirmed? op = some (channel, value)) :
    op.types? s = some channel ∨ op = .submit channel ∧ value = s.inputs.get channel := by
  -- cases on the operation, as in the definition of `confirmed?`
  cases op with
  | updateInput c text =>
    simp only [confirmed?] at h
    split at h
    · cases h
      exact .inl rfl
    · split at h
      · cases h
        exact .inl rfl
      · cases h
  | submit c =>
    cases h
    exact .inr ⟨rfl, rfl⟩
  | setValue c v =>
    cases h
    exact .inl rfl
  | selectPreset c index =>
    obtain ⟨preset, hpreset, hsame⟩ := Option.map_eq_some_iff.1 h
    cases hsame
    exact .inl (congrArg (Option.map fun _ => channel) hpreset)
  | complete _ | attach _ _ | detach | setCompressOnHide _ => cases h

end Session

end MeshLens
