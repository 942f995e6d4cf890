import MeshLens.Proofs.Session.StepEffect
import MeshLens.Proofs.Session.FallbackSelector

/-!
# What the shown messages are about

A message is written when a text is compiled, and taken away when a text is written into the input. So
it is always about the text that was compiled last. This is the confirmed text, unless another one was
submitted since and not compiled: submitting takes no message away, and compiles nothing while no
snapshot is attached.

## Key results

- `Session.Shown.of_reached`: what an input shows, at any point of any run
- `Session.message_run`: when the message is about the confirmed text
-/

namespace MeshLens

namespace Session

/-- The message that an input shows for a text, if there is one: that of the error that `errorOf?`
finds in it. -/
def messageFor? (channel : Channel) (text : Text) : Option Text :=
  (errorOf? text).map (Compiler.messageOf channel)

/-- Whether a message is the one that `compile` has an input show for an error in a text, whatever
the settings are. -/
def IsMessageFor (channel : Channel) (text message : Text) : Prop :=
  ∀ flags, ∃ c e, MeshLens.compile text flags = .ok c ∧ c.result = .error e ∧
    message = channel.label ++ ": " ++ e.message

/-- `IsMessageFor` holds just of the message that `messageFor?` gives. -/
theorem isMessageFor_iff {channel : Channel} {text message : Text} :
    IsMessageFor channel text message ↔
      messageFor? channel text = some message := by
  constructor
  · -- from all settings to the empty ones, which `errorOf?` compiles with
    intro h
    obtain ⟨c, e, hc, hresult, rfl⟩ := h {}
    rw [messageFor?, errorOf?_eq hc, Compilation.error?, hresult]
    rfl
  · intro h flags
    obtain ⟨e, he, rfl⟩ := Option.map_eq_some_iff.1 h
    -- a text with an error in it can be read, whatever the settings are
    obtain ⟨c, hc⟩ := (isReadable_iff text flags).1 (isReadable_of_error he)
    rw [errorOf?_eq hc, Compilation.error?] at he
    refine ⟨c, e, hc, ?_, rfl⟩
    split at he
    · cases he
    · cases he
      assumption

/-! ## The texts compiled in a run -/

/-- The text of an input that a step compiles: one that the step `evaluates` and that can be read.
-/
def Event.compiles (channel : Channel) (event : Event) : Option Text :=
  (event.evaluates channel).filter fun text => isReadable text

/-- The text that the message of an input is about, after a step: one that is compiled, and none
when a text is written into the input. -/
def Event.concern (channel : Channel) (text : Option Text) (event : Event) : Option Text :=
  match event with
  | .asked s op => if op.types? s = some channel then none else text
  | .evaluated _ _ => (event.compiles channel).or text

/-- The text of an input that was compiled last, if none was written into the input since. -/
def compiledText? (channel : Channel) (past : List Event) : Option Text :=
  past.foldl (Event.concern channel) none

/-- Whether the text compiled last is out of date, after a step: another one was submitted since. -/
def Event.outdate (channel : Channel) (outdated : Bool) (event : Event) : Bool :=
  match event with
  | .asked s (.submit c) => outdated || (c = channel && s.values.get c ≠ s.inputs.get c)
  | .asked _ _ => outdated
  | .evaluated _ _ => (event.compiles channel).isNone && outdated

/-- Whether another text was submitted for an input since its text was compiled last. -/
def isOutdated (channel : Channel) (past : List Event) : Bool :=
  past.foldl (Event.outdate channel) false

/-- `compiledText?` after one more step is what `Event.concern` makes of it. -/
theorem compiledText?_concat (channel : Channel) (past : List Event) (event : Event) :
    compiledText? channel (past ++ [event]) = event.concern channel (compiledText? channel past) := by
  rw [compiledText?, List.foldl_append]
  rfl

/-- `isOutdated` after one more step is what `Event.outdate` makes of it. -/
theorem isOutdated_concat (channel : Channel) (past : List Event) (event : Event) :
    isOutdated channel (past ++ [event]) = event.outdate channel (isOutdated channel past) := by
  rw [isOutdated, List.foldl_append]
  rfl

/-! ## Following the messages -/

/-- At a point of a run, what an input shows: the message for the text that `compiledText?` has,
which is the confirmed text unless it `isOutdated`. -/
structure Shown (channel : Channel) (past : List Event) (s : Session) : Prop where
  message : s.compiler.message channel = (compiledText? channel past).bind (messageFor? channel)
  current : isOutdated channel past = false →
    ∀ text, compiledText? channel past = some text → text = s.values.get channel

variable {s₀ s : Session} {channel : Channel} {past : List Event}

/-- `Shown` is preserved when an operation is asked for and `prepare` makes its changes. -/
theorem Shown.ask (h : Shown channel past s) (op : Operation) :
    Shown channel (past ++ [.asked s op]) (s.prepare op) where
  message := by
    -- the message is taken away just when the text that it is about is
    rw [compiledText?_concat, Compiler.message, prepare_messages, messagesTyped, Event.concern]
    cases htypes : op.types? s with
    | none => exact h.message
    | some c =>
      simp only [PerChannel.get_set, Option.some.injEq]
      split
      · rfl
      · exact h.message
  current := by
    intro houtdated text htext
    rw [compiledText?_concat, Event.concern] at htext
    rw [isOutdated_concat] at houtdated
    -- writing into the input would have taken the message away
    split at htext
    · cases htext
    rename_i htypes
    rw [(s.prepare_spec op).values]
    cases hconfirms : (Event.asked s op).confirms channel with
    | none =>
      -- an operation makes no text current again, so it was current before
      refine h.current ?_ text htext
      unfold Event.outdate at houtdated
      split at houtdated
      · exact (Bool.or_eq_false_iff.1 houtdated).1
      · exact houtdated
      · rename_i hevent
        cases hevent
    | some value =>
      -- what is confirmed without being written is submitted, and so it is no other text
      have hconfirmed := Event.confirms_asked.1 hconfirms
      rcases types?_of_confirmed? hconfirmed with hwritten | ⟨rfl, rfl⟩
      · exact absurd hwritten htypes
      · simp only [Event.outdate, Bool.or_eq_false_iff, decide_true, Bool.true_and,
          decide_eq_false_iff_not, not_not] at houtdated
        exact (h.current houtdated.1 text htext).trans houtdated.2

/-- `Shown` is preserved when an evaluation is made: the message is then about the confirmed text,
if this could be read. -/
theorem Shown.evaluate (h : Shown channel past s) (name : Text) (e : Evaluation) :
    Shown channel (past ++ [.evaluated s e]) (s.evaluate name e).1 := by
  have hvalues := (s.evaluate_frame name e).1
  have hmessages : (s.evaluate name e).1.compiler.message channel = _ :=
    congrArg (PerChannel.get · channel) (s.evaluate_effect name e).messages
  rw [messagesAfter_get] at hmessages
  -- cases: the evaluation compiles the text of this input, or it is about the other one or about
  -- a number that cannot be read
  by_cases hcompiles : e.channel = channel ∧ isReadable (s.values.get e.channel) = true
  · -- the confirmed text is compiled now
    obtain ⟨rfl, hreadable⟩ := hcompiles
    have hevent : (Event.evaluated s e).compiles e.channel = some (s.values.get e.channel) := by
      rw [Event.compiles, Event.evaluates, if_pos rfl]
      exact Option.filter_some_pos hreadable
    have htext : compiledText? e.channel (past ++ [.evaluated s e]) = some (s.values.get e.channel) := by
      rw [compiledText?_concat, Event.concern, hevent]
      rfl
    rw [if_pos ⟨rfl, hreadable⟩] at hmessages
    refine ⟨?_, fun _ text hsame => ?_⟩
    · rw [hmessages, htext]
      rfl
    · rw [hvalues]
      exact (Option.some.inj (htext.symm.trans hsame)).symm
  · -- no text of this input is compiled, and its message stays
    have hevent : (Event.evaluated s e).compiles channel = none := by
      rw [Event.compiles, Event.evaluates]
      split
      · rename_i hsame
        exact Option.filter_some_neg (Bool.eq_false_iff.2 fun hreadable =>
          hcompiles ⟨hsame, hsame ▸ hreadable⟩)
      · rfl
    have htext : compiledText? channel (past ++ [.evaluated s e]) = compiledText? channel past := by
      rw [compiledText?_concat, Event.concern, hevent]
      rfl
    rw [if_neg hcompiles] at hmessages
    refine ⟨?_, fun houtdated => ?_⟩
    · rw [hmessages, htext]
      exact h.message
    · rw [isOutdated_concat, Event.outdate, hevent] at houtdated
      rw [htext, hvalues]
      exact h.current houtdated

/-- `Shown` holds at every point of a run. -/
theorem Shown.of_reached {todo : List Evaluation}
    (hstart : s₀.compiler.message channel = none) (h : Reached s₀ past todo s) :
    Shown channel past s := by
  induction h with
  | start => exact ⟨hstart, fun _ text hnone => nomatch hnone⟩
  | ask op h ih => exact ih.ask op
  | evaluate h hattached hok ih => exact ih.evaluate _ _
  | fail h hattached herror ih => exact ih.evaluate _ _

/-- An input shows the message for the text of it that `compile` was given last, unless a text was
written into it since. A message that is shown belongs to the confirmed text as long as no other
text was submitted since; and after that just when the confirmed text has the same message. -/
theorem message_run (options : DisplayOptions) (params : Params) (given : PerChannel Text)
    (presets : PerChannel (List Preset)) (workspace : Workspace) (ops : List Operation)
    (channel : Channel) :
    let s₀ := start options params given presets workspace
    let s := s₀.run ops
    let compiled := compiledText? channel (s₀.log ops)
    s.compiler.message channel = compiled.bind (messageFor? channel) ∧
    (isOutdated channel (s₀.log ops) = false → ∀ m, s.compiler.message channel = some m →
      IsMessageFor channel (s.values.get channel) m) ∧
    ((∀ m, s.compiler.message channel = some m → IsMessageFor channel (s.values.get channel) m) ↔
      ∀ text m, compiled = some text → IsMessageFor channel text m →
        IsMessageFor channel (s.values.get channel) m) := by
  intro s₀ s compiled
  have hstart : s₀.compiler.message channel = none := PerChannel.get_both none channel
  have hshown : Shown channel (s₀.log ops) s := Shown.of_reached hstart (reached_run s₀ ops)
  have hmessage : s.compiler.message channel = compiled.bind (messageFor? channel) := hshown.message
  -- what is shown is the message for the text compiled last
  have hiff (m : Text) : s.compiler.message channel = some m ↔
      ∃ text, compiled = some text ∧ IsMessageFor channel text m := by
    rw [hmessage, Option.bind_eq_some_iff]
    simp only [isMessageFor_iff]
  -- the first part is `Shown` itself; the others are told through the text compiled last
  refine ⟨hmessage, fun houtdated m hm => ?_, fun h text m htext hm => ?_, fun h m hm => ?_⟩
  · obtain ⟨text, htext, hbelongs⟩ := (hiff m).1 hm
    exact hshown.current houtdated text htext ▸ hbelongs
  · exact h m ((hiff m).2 ⟨text, htext, hm⟩)
  · obtain ⟨text, htext, hbelongs⟩ := (hiff m).1 hm
    exact h text m htext hbelongs

/-- `message_run` at a text that does not compile: it is confirmed and shows its message. -/
theorem message_run_attached :
    ∃ g, Graph.ofValue lonePayload = .ok g ∧
      let s := (overLone g).run [.attach "g" none, .setValue .find "bogus = 1"]
      s.compiler.message .find = some "Find: Invalid operand [bogus]" ∧
        IsMessageFor .find (s.values.get .find) "Find: Invalid operand [bogus]" := by
  have hbuilt : ∃ g, Graph.ofValue lonePayload = .ok g ∧
      let ops := [.attach "g" none, .setValue .find "bogus = 1"]
      ((overLone g).run ops).compiler.message .find =
          some (Text.ofString "Find: Invalid operand [bogus]") ∧
        isOutdated .find ((overLone g).log ops) = false :=
    ⟨_, rfl, by decide +kernel⟩
  obtain ⟨g, hg, hmessage, houtdated⟩ := hbuilt
  refine ⟨g, hg, hmessage, ?_⟩
  have hrun := message_run {} {} (.both []) (.both []) ⟨[("g", g)]⟩
    [.attach "g" none, .setValue .find "bogus = 1"] .find
  exact hrun.2.1 houtdated _ hmessage

/-- A text that does not compile is there at the start, and another one is put into the input. The
snapshot that is attached then shows the message of the first text, and is detached. Then `submit`
confirms the second text, with the message of the first one still there. -/
theorem message_run_submitted :
    ∃ g, Graph.ofValue lonePayload = .ok g ∧
      let s := (start {} {} ⟨"ca", []⟩ (.both []) ⟨[("g", g)]⟩).run
        [.updateInput .find "cb", .attach "g" none, .detach, .submit .find]
      s.values.get .find = "cb" ∧
        s.compiler.message .find = some "Find: Invalid Node or Edge operand [ca]" ∧
        ¬IsMessageFor .find (s.values.get .find) "Find: Invalid Node or Edge operand [ca]" := by
  have hbuilt : ∃ g, Graph.ofValue lonePayload = .ok g ∧
      let s := (start {} {} ⟨"ca", []⟩ (.both []) ⟨[("g", g)]⟩).run
        [.updateInput .find "cb", .attach "g" none, .detach, .submit .find]
      s.values.get .find = Text.ofString "cb" ∧
        s.compiler.message .find = some (Text.ofString "Find: Invalid Node or Edge operand [ca]") ∧
        messageFor? .find (s.values.get .find) ≠
          some (Text.ofString "Find: Invalid Node or Edge operand [ca]") :=
    ⟨_, rfl, by decide +kernel⟩
  obtain ⟨g, hg, hvalue, hmessage, hother⟩ := hbuilt
  exact ⟨g, hg, hvalue, hmessage, fun h => hother (isMessageFor_iff.1 h)⟩

end Session

end MeshLens
