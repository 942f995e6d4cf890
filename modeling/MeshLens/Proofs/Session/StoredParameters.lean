import MeshLens.Proofs.Session.StepEffect
import MeshLens.Proofs.Session.ViewInForce

/-!
# The parameters of a session

A text is stored as a parameter in the same step that makes it the confirmed one, before anything is
evaluated, and an empty text by taking the parameter out. So whatever becomes of the evaluation, the
parameters say at any time what is confirmed, and a session that is opened over them later starts with
the same texts.

## Key results

- `Session.Stored.of_reached`: parameters and confirmed texts agree, at any point of any run
- `Session.stored_run`: what the parameters are after any run, and what a new session makes of them
-/

namespace MeshLens

namespace Params

/-- `Params.get?` after `Params.set`. -/
theorem get?_set (p : Params) (name value other : Text) :
    (p.set name value).get? other = if name = other then some value else p.get? other :=
  Entries.get?_set p.values name value other

/-- `Params.get?` after `Params.erase`. -/
theorem get?_erase (p : Params) (name other : Text) :
    (p.erase name).get? other = if name = other then none else p.get? other :=
  Entries.get?_erase p.values name other

end Params

/-- `Channel.parameter` gives the two inputs parameters of their own. -/
theorem Channel.parameter_inj {c d : Channel} : c.parameter = d.parameter ↔ c = d := by
  cases c <;> cases d <;> decide

namespace Session

/-- The text that parameters give for an input: that of `Channel.parameter`, and the empty one where
there is none. -/
def storedText (params : Params) (channel : Channel) : Text :=
  (params.get? channel.parameter).getD []

/-- The invariant of the parameters: those of the inputs say what is confirmed, and all others are
as they were before. -/
structure Stored (before : Params) (s : Session) : Prop where
  text : ∀ channel, storedText s.params channel = s.values.get channel
  others : ∀ name, (∀ channel : Channel, channel.parameter ≠ name) →
    s.params.get? name = before.get? name
  location : s.params.location = before.location

/-! ## Opening a session -/

/-- What `reconcile` does to the parameters when a session opens an input. A stored text wins over
the given one, unless it is empty. -/
structure Reconciles (params : Params) (channel : Channel) (given text : Text) (params' : Params) :
    Prop where
  first : text = if storedText params channel = [] then given else storedText params channel
  own : storedText params' channel = text
  others : ∀ name, channel.parameter ≠ name → params'.get? name = params.get? name
  location : params'.location = params.location

/-- `reconcile` satisfies its specification `Reconciles`. -/
theorem reconcile_spec (params : Params) (channel : Channel) (given : Text) :
    Reconciles params channel given (reconcile params channel given).1
      (reconcile params channel given).2 := by
  have hopen : reconcile params channel given =
      if storedText params channel ≠ [] then (storedText params channel, params)
      else if given ≠ [] then (given, params.set channel.parameter given)
      else (given, params) :=
    rfl
  rw [hopen]
  -- cases: a text is stored, a text is given, or there is neither
  by_cases hstored : storedText params channel = []
  · rw [if_neg (not_not.2 hstored)]
    by_cases hgiven : given = []
    · rw [if_neg (not_not.2 hgiven)]
      exact ⟨(if_pos hstored).symm, hstored.trans hgiven.symm, fun _ _ => rfl, rfl⟩
    · rw [if_pos hgiven]
      refine ⟨(if_pos hstored).symm, ?_, fun name hname => ?_, rfl⟩
      · rw [storedText, Params.get?_set, if_pos rfl]
        rfl
      · rw [Params.get?_set, if_neg hname]
  · rw [if_pos hstored]
    exact ⟨(if_neg hstored).symm, rfl, fun _ _ => rfl, rfl⟩

/-- `start` takes the texts that are stored, and stores those that are given instead. -/
theorem start_spec (options : DisplayOptions) (params : Params) (given : PerChannel Text)
    (presets : PerChannel (List Preset)) (workspace : Workspace) :
    Stored params (start options params given presets workspace) ∧
      ∀ channel, (start options params given presets workspace).values.get channel =
        if storedText params channel = [] then given.get channel
        else storedText params channel := by
  have hfind := reconcile_spec params .find given.find
  have hhide := reconcile_spec (reconcile params .find given.find).2 .hide given.hide
  -- opening the one input leaves the parameter of the other alone
  have hbefore : storedText (reconcile params .find given.find).2 .hide = storedText params .hide := by
    rw [storedText, hfind.others _ (by decide), storedText]
  refine ⟨⟨fun channel => ?_, fun name hname => ?_, ?_⟩, fun channel => ?_⟩
  · cases channel with
    | find =>
      refine Eq.trans ?_ hfind.own
      exact congrArg (Option.getD · []) (hhide.others _ (by decide))
    | hide => exact hhide.own
  · exact (hhide.others name (hname .hide)).trans (hfind.others name (hname .find))
  · exact hhide.location.trans hfind.location
  · cases channel with
    | find => exact hfind.first
    | hide =>
      rw [← hbefore]
      exact hhide.first

/-! ## Steps -/

variable {before : Params} {s₀ s s' : Session}

/-- `Stored` is preserved by a step that leaves the parameters and the confirmed texts alone. -/
theorem Stored.of_eq (h : Stored before s) (hparams : s'.params = s.params)
    (hvalues : s'.values = s.values) : Stored before s' where
  text := by
    rw [hparams, hvalues]
    exact h.text
  others := by
    rw [hparams]
    exact h.others
  location := by
    rw [hparams]
    exact h.location

/-- `Stored` is preserved by `store`, which makes a text the parameter of its input and leaves all
other parameters. -/
theorem Stored.store (h : Stored before s) (channel : Channel) (value : Text) :
    Stored before (s.store channel value) where
  text := by
    intro other
    have hother := h.text other
    simp only [Session.store, storedText, PerChannel.get_set] at hother ⊢
    -- the empty text is stored by taking the parameter out
    by_cases hvalue : value = []
    · rw [if_pos hvalue, Params.get?_erase]
      simp only [Channel.parameter_inj]
      split
      · exact hvalue.symm
      · exact hother
    · rw [if_neg hvalue, Params.get?_set]
      simp only [Channel.parameter_inj]
      split
      · rfl
      · exact hother
  others := by
    intro name hname
    refine Eq.trans ?_ (h.others name hname)
    simp only [Session.store]
    split
    · rw [Params.get?_erase, if_neg (hname channel)]
    · rw [Params.get?_set, if_neg (hname channel)]
  location := by
    refine Eq.trans ?_ h.location
    simp only [Session.store]
    split <;> rfl

/-- `Stored` is preserved when an operation is asked for and `prepare` makes its changes. -/
theorem Stored.ask (h : Stored before s) (op : Operation) : Stored before (s.prepare op) := by
  have htyped : Stored before (s.typed op) := by
    obtain ⟨inputs, completions, hsame⟩ := s.typed_eq op
    rw [hsame]
    exact h.of_eq rfl rfl
  have hinput : Stored before (s.stored op) := by
    rcases s.stored_spec op with ⟨hstored, -⟩ | ⟨channel, value, -, -, hstored, -⟩
    · rw [hstored]
      exact htyped
    · rw [hstored]
      exact htyped.store channel value
  cases op with
  | attach name elementsChanged => exact h.of_eq rfl rfl
  | detach => exact h.of_eq rfl rfl
  | setCompressOnHide compress => exact h.of_eq rfl rfl
  | _ => exact hinput

/-- `Stored` is preserved by `evaluate`, which leaves the parameters and the confirmed texts alone.
-/
theorem Stored.evaluate (h : Stored before s) (name : Text) (e : Evaluation) :
    Stored before (s.evaluate name e).1 :=
  h.of_eq (s.evaluate_effect name e).params (s.evaluate_frame name e).1

/-! ## Runs -/

/-- `Stored` holds at every point of a run that starts with it. -/
theorem Stored.of_reached {past : List Event} {todo : List Evaluation} (hstart : Stored before s₀)
    (h : Reached s₀ past todo s) : Stored before s := by
  induction h with
  | start => exact hstart
  | ask op h ih => exact ih.ask op
  | evaluate h hattached hok ih => exact ih.evaluate _ _
  | fail h hattached herror ih => exact ih.evaluate _ _

/-- `run` keeps the parameters in step with the confirmed texts. After any run, whatever has failed
in it, the parameter of each input is its confirmed text, and all others are as they were. So a new
session that `start` makes over these parameters begins with the same two texts, except that one
that is given to it takes the place of an empty one. -/
theorem stored_run (options : DisplayOptions) (params : Params) (given : PerChannel Text)
    (presets : PerChannel (List Preset)) (workspace : Workspace) (ops : List Operation) :
    let s := (start options params given presets workspace).run ops
    (∀ channel : Channel, (s.params.get? channel.parameter).getD [] = s.values.get channel) ∧
    (∀ name, (∀ channel : Channel, channel.parameter ≠ name) →
      s.params.get? name = params.get? name) ∧
    s.params.location = params.location ∧
    (∀ options' presets' workspace',
      (start options' s.params (.both []) presets' workspace').values = s.values) ∧
    ∀ options' given' presets' workspace' channel,
      (start options' s.params given' presets' workspace').values.get channel =
        if s.values.get channel = [] then given'.get channel else s.values.get channel := by
  intro s
  obtain ⟨hstart, -⟩ := start_spec options params given presets workspace
  have hstored : Stored params s := .of_reached hstart (reached_run _ ops)
  -- a new session reads the parameters that the run has stored
  have hagain (options' given' presets' workspace') (channel : Channel) :
      (start options' s.params given' presets' workspace').values.get channel =
        if s.values.get channel = [] then given'.get channel else s.values.get channel := by
    rw [(start_spec options' s.params given' presets' workspace').2, hstored.text]
  refine ⟨hstored.text, hstored.others, hstored.location, fun options' presets' workspace' => ?_,
    hagain⟩
  have hsame (channel : Channel) :
      (start options' s.params (.both []) presets' workspace').values.get channel =
        s.values.get channel := by
    rw [hagain, PerChannel.get_both]
    split
    · rename_i hnil
      exact hnil.symm
    · rfl
  exact congrArg₂ PerChannel.mk (hsame .find) (hsame .hide)

/-- `stored_run` through failures: an evaluation fails, and then there is no such preset. The texts
are stored all the same, and the parameter of another name is still there. -/
theorem stored_run_failing :
    ∃ g, Graph.ofValue separatedPayload = .ok g ∧
      let params : Params := .ofValues [("duration", "60"), ("graphHide", "app = x")]
      let s₀ := start {} params (.both "dead") (.both []) ⟨[("g", g)]⟩
      let s := s₀.run [.attach "g" none, .setValue .find "httpin > 3", .selectPreset .find 5,
        .updateInput .hide []]
      s.values = ⟨"httpin > 3", []⟩ ∧ (s.params.get? "graphFind").getD [] = "httpin > 3" ∧
        (s.params.get? "graphHide").getD [] = [] ∧ s.params.get? "duration" = some "60" := by
  refine ⟨_, rfl, ?_⟩
  intro params s₀ s
  have hvalues : s.values = ⟨"httpin > 3", []⟩ := by decide +kernel
  obtain ⟨htext, hothers, -⟩ := stored_run {} params (.both "dead") (.both [])
    s₀.workspace [.attach "g" none, .setValue .find "httpin > 3", .selectPreset .find 5,
      .updateInput .hide []]
  have hfind := htext .find
  have hhide := htext .hide
  have hduration := hothers "duration" fun channel => by cases channel <;> decide
  refine ⟨hvalues, hfind.trans (congrArg PerChannel.find hvalues),
    hhide.trans (congrArg PerChannel.hide hvalues), hduration.trans (by decide)⟩

end Session

end MeshLens
