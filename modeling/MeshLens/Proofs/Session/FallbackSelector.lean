import MeshLens.Graph.Definition
import MeshLens.Proofs.Session.RunSteps

/-!
# What is applied when a text does not compile

A text is confirmed whenever the user says so, but it is compiled only when it is evaluated, and so
not while no snapshot is attached. When a text turns out not to compile, the selector of the last text
that did is applied: the last one that was evaluated, which need not be the last one that was
confirmed. The two differ just when a text that compiles was confirmed since, was never evaluated, and
stands for something else.

## Key results

- `Session.Follows.of_reached`: the selector in effect, at any point of any run
- `Session.applied_of_error`: what is applied in place of a text that does not compile
-/

namespace MeshLens

namespace Session

/-! ## The texts of a run -/

/-- The text of an input that a step evaluates: the confirmed one, if the `Evaluation` is of this
input. -/
def Event.evaluates (channel : Channel) : Event → Option Text
  | .asked _ _ => none
  | .evaluated s e => if e.channel = channel then some (s.values.get channel) else none

/-- The texts confirmed for an input, beginning with the one from the start: `Event.confirms` over
the past. -/
def confirmedTexts (s₀ : Session) (channel : Channel) (past : List Event) : List Text :=
  s₀.values.get channel :: past.filterMap (Event.confirms channel)

/-- The texts of an input that were evaluated: `Event.evaluates` over the past. -/
def evaluatedTexts (channel : Channel) (past : List Event) : List Text :=
  past.filterMap (Event.evaluates channel)

/-- What a step makes of the texts that wait for an evaluation: one that compiles is evaluated and
none waits any longer, or another one is confirmed and waits. -/
def Event.await (channel : Channel) (waiting : List Text) (event : Event) : List Text :=
  match event.evaluates channel with
  | some text => if (selectorOf? text).isSome then [] else waiting
  | none => waiting ++ (event.confirms channel).toList

/-- The texts confirmed for an input since a text that compiles was evaluated last: `Event.await`
step after step. -/
def waitingTexts (s₀ : Session) (channel : Channel) (past : List Event) : List Text :=
  past.foldl (Event.await channel) [s₀.values.get channel]

/-- The selector of the last of some texts that compiles, by `selectorOf?`. -/
def lastSelector? (texts : List Text) : Option (Option Text) :=
  texts.reverse.findSome? selectorOf?

/-- `lastSelector?` of two lists is that of the second one, if a text in it compiles. -/
theorem lastSelector?_append (xs ys : List Text) :
    lastSelector? (xs ++ ys) = (lastSelector? ys).or (lastSelector? xs) := by
  rw [lastSelector?, List.reverse_append, List.findSome?_append]
  rfl

/-- `lastSelector?` of one text is its `selectorOf?`. -/
theorem lastSelector?_singleton (text : Text) : lastSelector? [text] = selectorOf? text := by
  rw [lastSelector?, List.reverse_singleton, List.findSome?_singleton]

/-- `lastSelector?` is the selector of the last text when that compiles. -/
theorem lastSelector?_of_getLast? {texts : List Text} {text : Text} {selector : Option Text}
    (hlast : texts.getLast? = some text) (h : selectorOf? text = some selector) :
    lastSelector? texts = some selector := by
  obtain ⟨before, rfl⟩ := List.getLast?_eq_some_iff.1 hlast
  rw [lastSelector?_append, lastSelector?_singleton, h, Option.some_or]

/-- `confirmedTexts` grows by what the next step confirms. -/
theorem confirmedTexts_concat (s₀ : Session) (channel : Channel) (past : List Event) (event : Event) :
    confirmedTexts s₀ channel (past ++ [event]) =
      confirmedTexts s₀ channel past ++ (event.confirms channel).toList := by
  rw [confirmedTexts, List.filterMap_append_singleton]
  rfl

/-- `evaluatedTexts` grows by what the next step evaluates. -/
theorem evaluatedTexts_concat (channel : Channel) (past : List Event) (event : Event) :
    evaluatedTexts channel (past ++ [event]) =
      evaluatedTexts channel past ++ (event.evaluates channel).toList :=
  List.filterMap_append_singleton _ past event

/-- `waitingTexts` after one more step is what `Event.await` makes of it. -/
theorem waitingTexts_concat (s₀ : Session) (channel : Channel) (past : List Event) (event : Event) :
    waitingTexts s₀ channel (past ++ [event]) =
      event.await channel (waitingTexts s₀ channel past) := by
  rw [waitingTexts, List.foldl_append]
  rfl

/-! ## Following the selector in effect -/

/-- What is known of an input from the texts of the past, at a point of a run: its value is the text
confirmed last, and its selector that of the last text evaluated that compiles. -/
structure Follows (s₀ : Session) (channel : Channel) (past : List Event) (s : Session) : Prop where
  value : (confirmedTexts s₀ channel past).getLast? = some (s.values.get channel)
  selector : s.selectors.get channel = (lastSelector? (evaluatedTexts channel past)).getD none
  waiting : lastSelector? (confirmedTexts s₀ channel past) =
    (lastSelector? (waitingTexts s₀ channel past)).or (lastSelector? (evaluatedTexts channel past))

variable {s₀ s : Session} {channel : Channel} {past : List Event}

/-- `Follows` is preserved when an operation is asked for: a text that it confirms waits, and
nothing is evaluated. -/
theorem Follows.ask (h : Follows s₀ channel past s) (op : Operation) :
    Follows s₀ channel (past ++ [.asked s op]) (s.prepare op) := by
  have hspec := s.prepare_spec op
  have hevaluated : evaluatedTexts channel (past ++ [.asked s op]) =
      evaluatedTexts channel past := by
    rw [evaluatedTexts_concat, Event.evaluates, Option.toList_none, List.append_nil]
  refine ⟨?_, ?_, ?_⟩
  · rw [confirmedTexts_concat, hspec.values]
    cases (Event.asked s op).confirms channel with
    | none => simpa using h.value
    | some text => simp
  · rw [hspec.selectors, hevaluated]
    exact h.selector
  · rw [confirmedTexts_concat, waitingTexts_concat, hevaluated, Event.await, Event.evaluates,
      lastSelector?_append, lastSelector?_append, h.waiting, Option.or_assoc]

/-- `Follows` is preserved by `evaluate`. Evaluating a text that does not compile, or the text of
the other input, changes nothing that is known; evaluating one that compiles puts its selector into
effect. -/
theorem Follows.evaluate (h : Follows s₀ channel past s) (name : Text) (e : Evaluation) :
    Follows s₀ channel (past ++ [.evaluated s e]) (s.evaluate name e).1 := by
  have hconfirmed : confirmedTexts s₀ channel (past ++ [.evaluated s e]) =
      confirmedTexts s₀ channel past := by
    rw [confirmedTexts_concat, Event.confirms, Option.toList_none, List.append_nil]
  have hvalue := h.value
  rw [← (s.evaluate_frame name e).1, ← hconfirmed] at hvalue
  -- cases: the text of this input is evaluated, or that of the other one
  by_cases hchannel : e.channel = channel
  · have hevaluates : (Event.evaluated s e).evaluates channel = some (s.values.get channel) :=
      if_pos hchannel
    refine ⟨hvalue, ?_, ?_⟩
    · -- the selector in effect is that of the last text that compiles, now as before
      rw [evaluate_selectors, hchannel, PerChannel.get_set, if_pos rfl, evaluatedTexts_concat,
        hevaluates, Option.toList_some, lastSelector?_append, lastSelector?_singleton, applied,
        h.selector]
      cases selectorOf? (s.values.get channel) <;> rfl
    · rw [hconfirmed, waitingTexts_concat, evaluatedTexts_concat, Event.await, hevaluates,
        Option.toList_some, lastSelector?_append, lastSelector?_singleton]
      -- what is evaluated is the text confirmed last
      cases hselector : selectorOf? (s.values.get channel) with
      | none =>
        simp only [hselector, Option.isSome_none, Bool.false_eq_true, if_false, Option.none_or]
        exact h.waiting
      | some selector =>
        simp only [hselector, Option.isSome_some, if_true]
        exact lastSelector?_of_getLast? h.value hselector
  · have hevaluates : (Event.evaluated s e).evaluates channel = none := if_neg hchannel
    have hevaluated : evaluatedTexts channel (past ++ [.evaluated s e]) =
        evaluatedTexts channel past := by
      rw [evaluatedTexts_concat, hevaluates, Option.toList_none, List.append_nil]
    have hwaiting : waitingTexts s₀ channel (past ++ [.evaluated s e]) =
        waitingTexts s₀ channel past := by
      rw [waitingTexts_concat, Event.await, hevaluates, Event.confirms]
      exact List.append_nil _
    refine ⟨hvalue, ?_, ?_⟩
    · rw [evaluate_selectors, PerChannel.get_set, if_neg hchannel, hevaluated]
      exact h.selector
    · rw [hconfirmed, hwaiting, hevaluated]
      exact h.waiting

/-- `Follows` holds at every point of a run that starts with no selector in effect. -/
theorem Follows.of_reached {todo : List Evaluation} (hstart : s₀.selectors.get channel = none)
    (h : Reached s₀ past todo s) : Follows s₀ channel past s := by
  induction h with
  | start =>
    refine ⟨rfl, hstart, ?_⟩
    exact (Option.or_none).symm
  | ask op h ih => exact ih.ask op
  | evaluate h hattached hok ih => exact ih.evaluate _ _
  | fail h hattached herror ih => exact ih.evaluate _ _

/-! ## The fallback -/

/-- `evaluate` applies the selector of the last text evaluated for this input that compiles, when it
comes upon a text that does not compile, and none if there is no such text. This is the selector of
the last text *confirmed* that compiles, just when every text that compiles and was confirmed since
that evaluation, if there is any, leaves the last one standing for the same selector. -/
theorem applied_of_error (options : DisplayOptions) (params : Params) (given : PerChannel Text)
    (presets : PerChannel (List Preset)) (workspace : Workspace) (ops : List Operation)
    {s₀ t : Session} (hstart : s₀ = start options params given presets workspace)
    {before after : List Event} {e : Evaluation}
    (hlog : s₀.log ops = before ++ .evaluated t e :: after)
    (hreadable : isReadable (t.values.get e.channel) = true)
    (herror : selectorOf? (t.values.get e.channel) = none) :
    let selector := (lastSelector? (evaluatedTexts e.channel before)).getD none
    (∃ name g, t.attached = some name ∧
      Evaluates t (t.evaluate name e).1 e.channel selector name g ∧
      Applies t (t.evaluate name e).1 name selector g e) ∧
    (selector = (lastSelector? (confirmedTexts s₀ e.channel before)).getD none ↔
      ∀ later, lastSelector? (waitingTexts s₀ e.channel before) = some later → later = selector) := by
  have hnone : s₀.selectors.get e.channel = none := by
    rw [hstart]
    exact PerChannel.get_both none e.channel
  obtain ⟨rest, name, hreached, hattached⟩ := (reached_run s₀ ops).of_evaluated hlog
  -- the state of the evaluation is a point of the run, and so `Follows` holds there
  have hfollows := Follows.of_reached hnone hreached
  intro selector
  have hspec := t.evaluate_spec name e
  have happlied : t.applied e.channel = selector := by
    rw [applied, herror, Option.getD_none, hfollows.selector]
  rw [if_pos hreadable, happlied] at hspec
  obtain ⟨g, hevaluates, happlies⟩ := hspec
  refine ⟨⟨name, g, hattached, hevaluates, happlies⟩, ?_⟩
  rw [hfollows.waiting]
  cases lastSelector? (waitingTexts s₀ e.channel before) with
  | none =>
    refine iff_of_true rfl fun later hlater => ?_
    cases hlater
  | some later =>
    constructor
    · intro h later' hlater
      cases hlater
      exact h.symm
    · intro h
      exact (h later rfl).symm

/-- One node, as the JSON data that `Graph.ofValue` reads. -/
def lonePayload : Value :=
  .list [.object [("data", .object [("id", .text "a"), ("app", .text "x")])]]

/-- A session over one snapshot, with the `start` of no options. -/
def overLone (g : Graph) : Session :=
  start {} {} (.both []) (.both []) ⟨[("g", g)]⟩

/-- `applied_of_error` on an attached snapshot: the node is hidden, and stays so with a text that
does not compile. -/
theorem applied_of_error_attached :
    ∃ g, Graph.ofValue lonePayload = .ok g ∧
      let s := (overLone g).run [.attach "g" none, .setValue .hide "app = x"]
      let t := s.prepare (.setValue .hide "bogus = 1")
      let e := Evaluation.hide { hideChanged := true }
      s.perform (.setValue .hide "bogus = 1") = (t.evaluate "g" e).1 ∧
      ∃ g', Evaluates t (t.evaluate "g" e).1 .hide (some "node[app = \"x\"]") "g" g' := by
  have hbuilt : ∃ g, Graph.ofValue lonePayload = .ok g ∧
      let ops := [.attach "g" none, .setValue .hide "app = x"]
      let op := .setValue .hide "bogus = 1"
      let s := (overLone g).run ops
      (s.prepare op).attached = some (Text.ofString "g") ∧
        s.due op = [.hide { hideChanged := true }] ∧
        isReadable (s.prepare op).values.hide = true ∧
        selectorOf? (s.prepare op).values.hide = none ∧
        lastSelector? (evaluatedTexts .hide ((overLone g).log ops ++ [.asked s op])) =
          some (some (Text.ofString "node[app = \"x\"]")) :=
    ⟨_, rfl, by decide +kernel⟩
  obtain ⟨g, hg, hattached, hdue, hreadable, herror, hlast⟩ := hbuilt
  refine ⟨g, hg, ?_⟩
  -- the states get names, so that they are not computed again
  obtain ⟨s, hs⟩ : ∃ s, s = (overLone g).run [.attach "g" none, .setValue .hide "app = x"] := ⟨_, rfl⟩
  rw [← hs] at hattached hdue hreadable herror hlast ⊢
  dsimp only
  have hlog := log_of_due hs hattached hdue
  obtain ⟨t, ht⟩ : ∃ t, t = s.prepare (.setValue .hide "bogus = 1") := ⟨_, rfl⟩
  have hperform := s.perform_eq (.setValue .hide "bogus = 1")
  rw [← ht] at hattached hreadable herror hlog hperform ⊢
  obtain ⟨⟨name, g', hname, hevaluates, -⟩, -⟩ := applied_of_error {} {} (.both []) (.both [])
    ⟨[("g", g)]⟩ _ rfl hlog hreadable herror
  obtain rfl : name = "g" := Option.some.inj (hname.symm.trans hattached)
  rw [hattached, hdue] at hperform
  refine ⟨hperform.trans (evaluateAll_singleton t "g" _), g', ?_⟩
  have hselector := congrArg (Option.getD · none) hlast
  rw [Option.getD_some] at hselector
  rw [← hselector]
  exact hevaluates

/-- `applied_of_error` where the condition fails: with no snapshot attached, a text that compiles is
confirmed and then one that does not. Nothing is hidden in the snapshot that is attached then,
though the first text stands for a selector. -/
theorem applied_of_error_detached :
    ∃ g, Graph.ofValue lonePayload = .ok g ∧
      let s₀ := overLone g
      ∃ before t e, s₀.log [.setValue .hide "app = x", .setValue .hide "bogus = 1",
          .attach "g" none] = before ++ [.evaluated t e] ∧
        isReadable (t.values.get e.channel) = true ∧ selectorOf? (t.values.get e.channel) = none ∧
        lastSelector? (confirmedTexts s₀ e.channel before) =
          some (some (Text.ofString "node[app = \"x\"]")) ∧
        t.applied e.channel = none := by
  have hbuilt : ∃ g, Graph.ofValue lonePayload = .ok g ∧
      let ops := [.setValue .hide "app = x", .setValue .hide "bogus = 1"]
      let op := .attach "g" none
      let s := (overLone g).run ops
      (s.prepare op).attached = some (Text.ofString "g") ∧
        s.due op = [.hide { graphChanged := true, elementsChanged := true }] ∧
        isReadable (s.prepare op).values.hide = true ∧
        selectorOf? (s.prepare op).values.hide = none ∧
        lastSelector? (confirmedTexts (overLone g) .hide
          ((overLone g).log ops ++ [.asked s op])) =
            some (some (Text.ofString "node[app = \"x\"]")) ∧
        (s.prepare op).applied .hide = none :=
    ⟨_, rfl, by decide +kernel⟩
  obtain ⟨g, hg, hattached, hdue, hfacts⟩ := hbuilt
  exact ⟨g, hg, _, _, _, log_of_due rfl hattached hdue, hfacts⟩

end Session

end MeshLens
