import MeshLens.Proofs.Session.StoredParameters
import MeshLens.Proofs.Session.SettledQueries

/-!
# The two inputs apart

The two inputs share a compiler, a store of parameters, the settings and the snapshots. All that an
operation on the one touches of these, whether it only types, confirms a text or fails in evaluating
it, is what belongs to this input: finding leaves all of an element but its style classes, and what the
hider remembers; hiding leaves all but the two flags, and what was found.

## Key results

- `Session.side`: all that belongs to an input
- `Graph.unmarked_applyFind`: marking leaves all but style classes
- `Session.side_typed`, `Session.side_store`, `Session.side_evaluate`: what each step leaves of the other
  side
- `Session.perform_apart`: what an operation on one input leaves of the other
-/

namespace MeshLens

namespace Graph

/-! ## Marking -/

/-- `Element.unmarked` of all elements stays the same when `updateClasses` adds and drops style
classes. -/
theorem unmarked_updateClasses (g : Graph) (ids : List Text) (add drop : Text) :
    (g.updateClasses ids add drop).elements.map Element.unmarked =
      g.elements.map Element.unmarked := by
  rw [updateClasses_elements]
  refine Element.map_changed fun e => ?_
  have hadd : (if add = [] then e else e.addClass add).unmarked = e.unmarked := by
    split
    · rfl
    · exact e.unmarked_addClass add
  dsimp only
  split
  · exact hadd
  · exact hadd

/-- `Element.unmarked` of all elements stays the same when `remark` sets new marks. -/
theorem unmarked_remark (g : Graph) (marker : Text) (selector : Option Text) :
    (g.remark marker selector).1.elements.map Element.unmarked =
      g.elements.map Element.unmarked := by
  unfold remark
  split
  · rfl
  · split
    · rfl
    · rename_i old _
      have hdropped := g.unmarked_updateClasses (old.map (·.id)) [] marker
      dsimp only
      -- the old marks are off already when the selector cannot be evaluated
      split
      · exact hdropped
      · split
        · exact hdropped
        · dsimp only
          split
          · exact hdropped
          · exact (unmarked_updateClasses _ _ marker []).trans hdropped

/-- `Element.unmarked` of all elements stays the same in `applyFind`: marking, with whatever
selector, leaves all of an element but its style classes. -/
theorem unmarked_applyFind (g : Graph) (marker : Text) (selector : Option Text) :
    (g.applyFind marker selector).1.elements.map Element.unmarked =
      g.elements.map Element.unmarked := by
  have hbatch := g.batch_elements fun g => g.remark marker selector
  have hremark := g.startBatch.unmarked_remark marker selector
  rw [← hbatch] at hremark
  unfold applyFind
  dsimp only
  split
  · exact hremark
  · exact hremark

end Graph

/-- The input that an `Operation` is on; attaching, detaching and switching the way of hiding are on
none. -/
def Session.Operation.input? : Session.Operation → Option Channel
  | .updateInput channel _ | .complete channel | .submit channel | .setValue channel _
  | .selectPreset channel _ => some channel
  | .attach _ _ | .detach | .setCompressOnHide _ => none

namespace Session

/-! ## Sides -/

/-- All that belongs to one input in a `Session`. -/
structure Side where
  /-- The confirmed text. -/
  value : Text
  /-- The text in the input. -/
  input : Text
  message : Option Text
  /-- The selector in effect. -/
  selector : Option Text
  presets : List Preset
  completion : Completion
  parameter : Option Text

/-- The `Side` of an input in a state of a session. -/
def side (s : Session) (channel : Channel) : Side where
  value := s.values.get channel
  input := s.inputs.get channel
  message := s.compiler.message channel
  selector := s.selectors.get channel
  presets := s.presets.get channel
  completion := s.completions.get channel
  parameter := s.params.get? channel.parameter

variable {s : Session} {channel other : Channel}

/-- `side` of the other input stays the same when `prime` sets up a completion. -/
theorem side_prime (hne : channel ≠ other) (text : Text) (stops : List Text) :
    (s.prime channel text stops).side other = s.side other := by
  simp only [side, prime, PerChannel.get_set, if_neg hne]

/-- `side` of the other input stays the same when `setInput` writes a text. -/
theorem side_setInput (hne : channel ≠ other) (text : Text) :
    (s.setInput channel text).side other = s.side other := by
  simp only [side, setInput, Compiler.message, Compiler.clear, PerChannel.get_set, if_neg hne]

/-- `side` of the other input stays the same when `typed` makes its changes. -/
theorem side_typed {op : Operation} (hop : op.input? = some channel) (hne : channel ≠ other) :
    (s.typed op).side other = s.side other := by
  have hwrite (text : Text) (stops : List Text) :
      ((s.prime channel text stops).setInput channel text).side other = s.side other :=
    (side_setInput hne text).trans (side_prime hne text stops)
  -- cases on the operation: most of them write a text, or do nothing
  cases op with
  | updateInput c text =>
    cases hop
    exact hwrite text _
  | setValue c value =>
    cases hop
    exact hwrite value []
  | submit c => rfl
  | selectPreset c index =>
    cases hop
    unfold typed
    dsimp only
    split
    · rfl
    · exact hwrite _ []
  | complete c =>
    cases hop
    have hmoved (completion : Completion) :
        ({ s with completions := s.completions.set channel completion } : Session).side other =
          s.side other := by
      simp only [side, PerChannel.get_set, if_neg hne]
    unfold typed complete
    dsimp only
    split
    · exact hmoved _
    · exact (side_setInput hne _).trans (hmoved _)
  | attach _ _ | detach | setCompressOnHide _ => cases hop

/-- `side` of the other input stays the same when `store` stores a text, whose parameter has another
name. -/
theorem side_store (hne : channel ≠ other) (value : Text) :
    (s.store channel value).side other = s.side other := by
  have hname : ¬channel.parameter = other.parameter := fun h => hne (Channel.parameter_inj.1 h)
  have hparameter : (s.store channel value).params.get? other.parameter =
      s.params.get? other.parameter := by
    simp only [store]
    split
    · rw [Params.get?_erase, if_neg hname]
    · rw [Params.get?_set, if_neg hname]
  have hvalue : (s.store channel value).values.get other = s.values.get other := by
    rw [store, PerChannel.get_set, if_neg hne]
  rw [side, hparameter, hvalue]
  rfl

/-- `evaluate` leaves the completions of both inputs alone. -/
theorem evaluate_completions (s : Session) (name : Text) (e : Evaluation) :
    (s.evaluate name e).1.completions = s.completions := by
  cases e with
  | find =>
    rw [evaluate]
    by_cases hreadable : isReadable s.values.find = true
    · obtain ⟨notices, hrun⟩ := runFind_eq hreadable name
      rw [hrun]
    · rw [runFind_of_unreadable hreadable]
  | hide occasion =>
    rw [evaluate]
    by_cases hreadable : isReadable s.values.hide = true
    · obtain ⟨notices, hrun⟩ := runHide_eq hreadable name occasion
      rw [hrun]
    · rw [runHide_of_unreadable hreadable]

/-- `side` of the other input stays the same in `evaluate`, also when the evaluation fails. -/
theorem side_evaluate {e : Evaluation} (hne : e.channel ≠ other) (name : Text) :
    (s.evaluate name e).1.side other = s.side other := by
  have heffect := s.evaluate_effect name e
  have hvalues := (s.evaluate_frame name e).1
  have hmessage : (s.evaluate name e).1.compiler.message other = s.compiler.message other := by
    rw [Compiler.message, heffect.messages, messagesAfter_get, if_neg fun h => hne h.1]
    rfl
  have hselector : (s.evaluate name e).1.selectors.get other = s.selectors.get other := by
    rw [evaluate_selectors, PerChannel.get_set, if_neg hne]
  rw [side, hvalues, heffect.inputs, hmessage, hselector, heffect.presets, evaluate_completions,
    heffect.params]
  rfl

/-! ## Finding and hiding -/

/-- Whether an operation on an input has left alone what belongs to the other query. Finding is to
leave all of every element but its style classes (`Element.unmarked`), what the hider remembers and
what was hidden last; hiding is to leave all of every element but the two flags (`Element.bare`),
and what was found last. -/
def Spares (s s' : Session) : Channel → Prop
  | .find =>
    (∀ name, (s'.workspace.graphAt name).elements.map Element.unmarked =
        (s.workspace.graphAt name).elements.map Element.unmarked) ∧
      s'.hider = s.hider ∧ s'.lastHide = s.lastHide
  | .hide =>
    (∀ name, (s'.workspace.graphAt name).elements.map Element.bare =
        (s.workspace.graphAt name).elements.map Element.bare) ∧
      s'.lastFind = s.lastFind

/-- `Spares` holds where nothing changes. -/
theorem Spares.refl (s : Session) (channel : Channel) : Spares s s channel := by
  cases channel with
  | find => exact ⟨fun _ => rfl, rfl, rfl⟩
  | hide => exact ⟨fun _ => rfl, rfl⟩

/-- `Spares` for a step that begins with the snapshots, the answers and the handle as they were. -/
theorem Spares.of_eq {s' s'' : Session} (h : Spares s' s'' channel)
    (hworkspace : s'.workspace = s.workspace) (hhider : s'.hider = s.hider)
    (hfind : s'.lastFind = s.lastFind) (hhide : s'.lastHide = s.lastHide) : Spares s s'' channel := by
  cases channel with
  | find =>
    obtain ⟨hgraphs, hsame, hsame'⟩ := h
    exact ⟨fun name => hworkspace ▸ hgraphs name, hsame.trans hhider, hsame'.trans hhide⟩
  | hide =>
    obtain ⟨hgraphs, hsame⟩ := h
    exact ⟨fun name => hworkspace ▸ hgraphs name, hsame.trans hfind⟩

/-- `Spares` after `typed`, which changes nothing that is to be spared. -/
theorem Spares.of_typed {s' : Session} {op : Operation} (h : Spares (s.typed op) s' channel) :
    Spares s s' channel := by
  obtain ⟨inputs, completions, htyped⟩ := s.typed_eq op
  rw [htyped] at h
  exact h.of_eq rfl rfl rfl rfl

/-- `Spares` after `store`, which changes nothing that is to be spared. -/
theorem Spares.of_store {s' : Session} {c : Channel} {value : Text}
    (h : Spares (s.store c value) s' channel) : Spares s s' channel :=
  h.of_eq rfl rfl rfl rfl

/-- `evaluate` spares the other query, also when it fails. -/
theorem spares_evaluate (s : Session) (name : Text) (e : Evaluation) :
    Spares s (s.evaluate name e).1 e.channel := by
  -- what is left of the snapshot at hand is left of all
  have hgraphs {β : Type} {f : Element → β} {g : Graph}
      (h : g.elements.map f = (s.workspace.graphAt name).elements.map f) (other : Text) :
      ((s.workspace.put name { g with notices := [] }).graphAt other).elements.map f =
        (s.workspace.graphAt other).elements.map f := by
    rw [Workspace.graphAt_put]
    split
    · rename_i hname
      rw [← hname]
      exact h
    · rfl
  cases e with
  | find =>
    rw [evaluate]
    by_cases hreadable : isReadable s.values.find = true
    · obtain ⟨notices, hrun⟩ := runFind_eq hreadable name
      rw [hrun]
      exact ⟨hgraphs (Graph.unmarked_applyFind _ _ _), rfl, rfl⟩
    · rw [runFind_of_unreadable hreadable]
      exact .refl s .find
  | hide occasion =>
    rw [evaluate]
    by_cases hreadable : isReadable s.values.hide = true
    · obtain ⟨notices, hrun⟩ := runHide_eq hreadable name occasion
      rw [hrun]
      exact ⟨hgraphs (Hider.apply_bare _ _ _ _ _), rfl⟩
    · rw [runHide_of_unreadable hreadable]
      exact .refl s .hide

/-! ## Operations -/

/-- `confirmed?` gives a text for the input that the operation is on. -/
theorem input?_of_confirmed? {op : Operation} {value : Text}
    (h : s.confirmed? op = some (channel, value)) : op.input? = some channel := by
  rcases types?_of_confirmed? h with htypes | ⟨rfl, -⟩
  · cases op with
    | updateInput c text => exact htypes
    | setValue c value => exact htypes
    | selectPreset c index =>
      obtain ⟨preset, -, hsame⟩ := Option.map_eq_some_iff.1 htypes
      exact congrArg some hsame
    | complete c =>
      obtain ⟨word, -, hsame⟩ := Option.map_eq_some_iff.1 htypes
      exact congrArg some hsame
    | submit _ | attach _ _ | detach | setCompressOnHide _ => cases htypes
  · rfl

/-- `perform` of an operation on an input only types into it, or also stores a text for it, or
evaluates this text besides. -/
theorem perform_input {op : Operation} (hop : op.input? = some channel) :
    s.perform op = s.typed op ∨ ∃ value,
      s.perform op = (s.typed op).store channel value ∨
        ∃ name, s.perform op =
          (((s.typed op).store channel value).evaluate name (.confirming channel)).1 := by
  have hsteps : s.prepare op = s.stored op ∧ s.due op = s.dueOnStoring op := by
    cases op with
    | attach _ _ | detach | setCompressOnHide _ => cases hop
    | _ => exact ⟨rfl, rfl⟩
  rw [perform_eq, hsteps.1, hsteps.2]
  rcases s.stored_spec op with ⟨hstored, hnothing, -⟩ | ⟨c, value, hconfirmed, -, hstored, hone⟩
  · -- nothing is due for a text that is the confirmed one already
    rw [hstored, hnothing]
    left
    split <;> rfl
  · obtain rfl : c = channel :=
      Option.some.inj ((input?_of_confirmed? hconfirmed).symm.trans hop)
    rw [hstored, hone]
    right
    refine ⟨value, ?_⟩
    split
    · exact .inl rfl
    · exact .inr ⟨_, evaluateAll_singleton _ _ _⟩

/-- `perform` of an operation on one input, in whatever state, leaves the other `side` alone,
whether it succeeds or fails: the confirmed text there, the text in the input, its message, its
selector, its presets, its completion and its parameter. An operation on the input for finding
leaves all of every element but its style classes, what the hider remembers and what was hidden
last. One on the input for hiding leaves all of every element but the two flags, and what was found
last. -/
theorem perform_apart (s : Session) {op : Operation} {channel : Channel}
    (hop : op.input? = some channel) :
    (∀ other, channel ≠ other → (s.perform op).side other = s.side other) ∧
      Spares s (s.perform op) channel := by
  rcases s.perform_input hop with hperform | ⟨value, hperform | ⟨name, hperform⟩⟩
  · rw [hperform]
    exact ⟨fun other hne => side_typed hop hne, (Spares.refl _ channel).of_typed⟩
  · rw [hperform]
    exact ⟨fun other hne => (side_store hne value).trans (side_typed hop hne),
      (Spares.refl _ channel).of_store.of_typed⟩
  · rw [hperform]
    have hchannel := Evaluation.channel_confirming channel
    have hspares := ((s.typed op).store channel value).spares_evaluate name (.confirming channel)
    rw [hchannel] at hspares
    refine ⟨fun other hne => ?_, hspares.of_store.of_typed⟩
    rw [side_evaluate (by rwa [hchannel]), side_store hne, side_typed hop hne]

/-- `perform_apart` where evaluating the text to find fails. The text to hide stays as it was
confirmed, with what has been typed since, and the node that it hides stays hidden. -/
theorem perform_apart_failing :
    ∃ g, Graph.ofValue separatedPayload = .ok g ∧
      let s := (start {} {} (.both []) (.both []) ⟨[("g", g)]⟩).run [.attach "g" none,
        .setValue .hide "app = x", .updateInput .hide "app = xy"]
      let op : Operation := .setValue .find "httpin > 3"
      op.input? = some .find ∧ (s.setValue .find "httpin > 3").2.toOption = none ∧
        (s.side .hide).value = "app = x" ∧ (s.side .hide).input = "app = xy" ∧
        (s.workspace.graphAt "g").elements.map (·.visible) = [false, true] ∧
        (s.perform op).side .hide = s.side .hide ∧ Spares s (s.perform op) .find := by
  have hbuilt : ∃ g, Graph.ofValue separatedPayload = .ok g ∧
      let s := (start {} {} (.both []) (.both []) ⟨[("g", g)]⟩).run [.attach "g" none,
        .setValue .hide "app = x", .updateInput .hide "app = xy"]
      (s.setValue .find "httpin > 3").2.toOption = none ∧
        (s.side .hide).value = "app = x" ∧ (s.side .hide).input = "app = xy" ∧
        (s.workspace.graphAt "g").elements.map (·.visible) = [false, true] :=
    ⟨_, rfl, by decide +kernel⟩
  obtain ⟨g, hg, hfails, hvalue, hinput, hhidden⟩ := hbuilt
  refine ⟨g, hg, ?_⟩
  intro s op
  have hop : op.input? = some .find := rfl
  obtain ⟨hside, hspares⟩ := perform_apart s hop
  exact ⟨hop, hfails, hvalue, hinput, hhidden, hside .hide (by decide), hspares⟩

end Session

end MeshLens
