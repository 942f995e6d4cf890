import MeshLens.Proofs.Session.Evaluation

/-!
# What happens in a run

A run is taken apart into single steps: an operation is asked for, and makes its changes, and then the
evaluations that it calls for are made one by one. The log records the steps, each with the state in
which it was taken. What holds of every run, and of each evaluation in it, is shown by induction on
`Session.Reached`, with one case per kind of step.

## Key results

- `Session.log`: the steps of a run
- `Session.reached_run`: a run is made of such steps
- `Session.Reached.of_evaluated`: every evaluation of a run was about to be made
- `Session.prepare_spec`, `Session.evaluate_spec`, `Session.evaluate_selectors`: what each kind of step
  does
-/

namespace MeshLens

namespace Session

/-- A step of a run with the state that it begins in: an `Operation` is asked for, or an
`Evaluation` is begun. -/
inductive Event
  | asked (s : Session) (op : Operation)
  | evaluated (s : Session) (e : Evaluation)

/-- The steps of `perform`: the operation is asked for, and then the evaluations begin. -/
def events (s : Session) (op : Operation) : List Event :=
  .asked s op :: (s.begins op).map fun begun => .evaluated begun.1 begun.2

/-- The steps of `run`, one operation after the other. -/
def log (s : Session) : List Operation → List Event
  | [] => []
  | op :: ops => s.events op ++ (s.perform op).log ops

/-- `log` after one more operation that has a single evaluation due: that evaluation is the last
step. -/
theorem log_of_due {s₀ s : Session} {ops : List Operation} {op : Operation} {name : Text}
    {e : Evaluation} (hs : s = s₀.run ops) (hattached : (s.prepare op).attached = some name)
    (hdue : s.due op = [e]) :
    s₀.log (ops ++ [op]) = (s₀.log ops ++ [.asked s op]) ++ [.evaluated (s.prepare op) e] := by
  -- a single evaluation begins whatever its result is
  have hbegun : (s.prepare op).begun name [e] = [(s.prepare op, e)] := by
    rw [begun]
    split <;> rfl
  have hevents : s.events op = [.asked s op, .evaluated (s.prepare op) e] := by
    rw [events, begins, hattached, hdue]
    simp only [hbegun, List.map_cons, List.map_nil]
  subst hs
  clear hattached hdue hbegun
  -- induction on the operations before the last one
  induction ops generalizing s₀ with
  | nil =>
    rw [List.nil_append, log, log, log, List.append_nil, List.nil_append]
    exact hevents
  | cons op' ops ih =>
    rw [List.cons_append, log, log, ih hevents]
    simp only [List.append_assoc]
    rfl

/-! ## Steps -/

/-- The evaluations that `perform` makes of an operation: those that are `due`, and none where no
snapshot is attached. -/
def called (s : Session) (op : Operation) : List Evaluation :=
  match (s.prepare op).attached with
  | none => []
  | some _ => s.due op

/-- What can be reached from a state in single steps: the steps taken so far, the evaluations that
are still to be made before another operation can be asked for, and the state. -/
inductive Reached (s₀ : Session) : List Event → List Evaluation → Session → Prop
  | start : Reached s₀ [] [] s₀
  | ask {past : List Event} {s : Session} (op : Operation) (h : Reached s₀ past [] s) :
      Reached s₀ (past ++ [.asked s op]) (s.called op) (s.prepare op)
  | evaluate {past : List Event} {s : Session} {name : Text} {e : Evaluation}
      {rest : List Evaluation} (h : Reached s₀ past (e :: rest) s)
      (hattached : s.attached = some name) (hok : (s.evaluate name e).2 = .ok ()) :
      Reached s₀ (past ++ [.evaluated s e]) rest (s.evaluate name e).1
  | fail {past : List Event} {s : Session} {name : Text} {e : Evaluation}
      {rest : List Evaluation} {fault : SessionError} (h : Reached s₀ past (e :: rest) s)
      (hattached : s.attached = some name) (herror : (s.evaluate name e).2 = .error fault) :
      Reached s₀ (past ++ [.evaluated s e]) [] (s.evaluate name e).1

variable {s₀ s : Session} {past : List Event}

/-- `Reached` is preserved by `evaluateAll`, which makes the evaluations that are still to be made.
-/
theorem Reached.evaluateAll {name : Text} {es : List Evaluation} (h : Reached s₀ past es s)
    (hattached : s.attached = some name) :
    Reached s₀ (past ++ (s.begun name es).map fun begun => .evaluated begun.1 begun.2) []
      (s.evaluateAll name es) := by
  -- induction on the evaluations, each of which is one step
  induction es generalizing past s with
  | nil =>
    rw [begun, List.map_nil, List.append_nil]
    exact h
  | cons e es ih =>
    have hframe := (s.evaluate_frame name e).2.1
    cases hmade : s.evaluate name e with
    | mk s' result =>
      rw [hmade] at hframe
      -- an evaluation that fails is the last one
      cases result with
      | ok u =>
        have hok : (s.evaluate name e).2 = .ok () := by rw [hmade]
        have hnext := h.evaluate hattached hok
        rw [hmade] at hnext
        simp only [begun, Session.evaluateAll, hmade, List.map_cons]
        rw [List.append_cons]
        exact ih hnext (hframe.trans hattached)
      | error fault =>
        have herror : (s.evaluate name e).2 = .error fault := by rw [hmade]
        have hlast := h.fail hattached herror
        rw [hmade] at hlast
        simp only [begun, Session.evaluateAll, hmade, List.map_cons, List.map_nil]
        exact hlast

/-- `Reached` is preserved by `perform`, in the steps `events`. -/
theorem Reached.perform (h : Reached s₀ past [] s) (op : Operation) :
    Reached s₀ (past ++ s.events op) [] (s.perform op) := by
  have hasked := h.ask op
  rw [perform_eq, events, List.append_cons, begins]
  unfold called at hasked
  split
  · rename_i hattached
    rw [hattached] at hasked
    rw [List.map_nil, List.append_nil]
    exact hasked
  · rename_i name hattached
    rw [hattached] at hasked
    exact hasked.evaluateAll hattached

/-- `Reached` is preserved by `run`, in the steps `log`. -/
theorem Reached.run (h : Reached s₀ past [] s) (ops : List Operation) :
    Reached s₀ (past ++ s.log ops) [] (s.run ops) := by
  induction ops generalizing past s with
  | nil =>
    rw [log, List.append_nil]
    exact h
  | cons op ops ih =>
    rw [log, ← List.append_assoc]
    exact ih (h.perform op)

/-- `run` leads to states that are `Reached` from its start in the steps of its `log`. -/
theorem reached_run (s₀ : Session) (ops : List Operation) :
    Reached s₀ (s₀.log ops) [] (s₀.run ops) := by
  have hstart : Reached s₀ [] [] s₀ := .start
  exact hstart.run ops

/-- `Reached` for an evaluation of the past: it was about to be made, in the state that the step
gives. -/
theorem Reached.of_evaluated {todo : List Evaluation} (h : Reached s₀ past todo s)
    {before after : List Event} {t : Session} {e : Evaluation}
    (hpast : past = before ++ .evaluated t e :: after) :
    ∃ rest name, Reached s₀ before (e :: rest) t ∧ t.attached = some name := by
  -- induction on the run; the evaluation is its last step, or is in the run before that
  induction h generalizing after with
  | start => cases before <;> cases hpast
  | ask op h ih =>
    rcases List.eq_or_exists_of_append_singleton hpast with ⟨-, hsame, -⟩ | ⟨after, hpast⟩
    · cases hsame
    · exact ih hpast
  | evaluate h hattached hok ih =>
    rcases List.eq_or_exists_of_append_singleton hpast with ⟨rfl, hsame, -⟩ | ⟨after, hpast⟩
    · cases hsame
      exact ⟨_, _, h, hattached⟩
    · exact ih hpast
  | fail h hattached herror ih =>
    rcases List.eq_or_exists_of_append_singleton hpast with ⟨rfl, hsame, -⟩ | ⟨after, hpast⟩
    · cases hsame
      exact ⟨_, _, h, hattached⟩
    · exact ih hpast

/-! ## What a step does -/

/-- The text that a step confirms for an input: that of `confirmed?`, if it is for this input. -/
def Event.confirms (channel : Channel) : Event → Option Text
  | .asked s op =>
    match s.confirmed? op with
    | none => none
    | some (c, text) => if c = channel then some text else none
  | .evaluated _ _ => none

/-- `Event.confirms` of an operation gives the text that `confirmed?` gives for the input. -/
theorem Event.confirms_asked {s : Session} {op : Operation} {channel : Channel} {text : Text} :
    (Event.asked s op).confirms channel = some text ↔ s.confirmed? op = some (channel, text) := by
  unfold Event.confirms
  dsimp only
  cases s.confirmed? op with
  | none => simp
  | some confirmed =>
    obtain ⟨c, value⟩ := confirmed
    simp only [Option.some.injEq, Prod.mk.injEq, Option.ite_none_right_eq_some]

/-- The changes that `prepare` makes for an operation before anything is evaluated, field after
field. -/
structure Prepares (s s' : Session) (op : Operation) : Prop where
  values : ∀ channel, s'.values.get channel =
    ((Event.asked s op).confirms channel).getD (s.values.get channel)
  selectors : s'.selectors = s.selectors
  workspace : s'.workspace = s.workspace
  attached : s'.attached = match op with
    | .attach name _ => some name
    | .detach => none
    | _ => s.attached
  hider : s'.hider = match op with
    | .detach => s.hider.forget
    | _ => s.hider
  compressOnHide : s'.options.compressOnHide = match op with
    | .setCompressOnHide compress => compress
    | _ => s.options.compressOnHide

/-- `prepare` satisfies its specification `Prepares`. -/
theorem prepare_spec (s : Session) (op : Operation) : Prepares s (s.prepare op) op := by
  obtain ⟨hvalues, hattached, hselectors, hworkspace, hhider, hoptions⟩ := s.typed_frame op
  have hcompress := congrArg DisplayOptions.compressOnHide hoptions
  -- an operation on an input changes the confirmed text of it at most
  have hinput (hprepare : s.prepare op = s.stored op) :
      (∀ channel, (s.prepare op).values.get channel =
        ((Event.asked s op).confirms channel).getD (s.values.get channel)) ∧
      (s.prepare op).selectors = s.selectors ∧ (s.prepare op).workspace = s.workspace ∧
      (s.prepare op).attached = s.attached ∧ (s.prepare op).hider = s.hider ∧
      (s.prepare op).options.compressOnHide = s.options.compressOnHide := by
    rw [hprepare]
    -- the text is stored if it is another one than before, and else the operation confirms
    -- nothing new
    rcases s.stored_spec op with ⟨hstored, -, hsame⟩ | ⟨c, value, hconfirmed, -, hstored, -⟩
    · rw [hstored]
      refine ⟨fun channel => ?_, hselectors, hworkspace, hattached, hhider, hcompress⟩
      rw [hvalues]
      cases hconfirms : (Event.asked s op).confirms channel with
      | none => rfl
      | some value => exact hsame _ _ (Event.confirms_asked.1 hconfirms)
    · rw [hstored]
      refine ⟨fun channel => ?_, hselectors, hworkspace, hattached, hhider, hcompress⟩
      rw [store, hvalues, PerChannel.get_set, Event.confirms, hconfirmed]
      dsimp only
      split <;> rfl
  cases op with
  | attach name elementsChanged => exact ⟨fun _ => rfl, rfl, rfl, rfl, rfl, rfl⟩
  | detach => exact ⟨fun _ => rfl, rfl, rfl, rfl, rfl, rfl⟩
  | setCompressOnHide compress => exact ⟨fun _ => rfl, rfl, rfl, rfl, rfl, rfl⟩
  | _ =>
    obtain ⟨h₁, h₂, h₃, h₄, h₅, h₆⟩ := hinput rfl
    exact ⟨h₁, h₂, h₃, h₄, h₅, h₆⟩

/-- What an evaluation with a selector makes of a snapshot, and of what the hider remembers: the
elements are those of `Graph.applyFind` or of `Hider.apply`. -/
def Applies (s s' : Session) (name : Text) (selector : Option Text) (g : Graph) :
    Evaluation → Prop
  | .find =>
    g.elements = ((s.workspace.graphAt name).applyFind Graph.findMarker selector).1.elements ∧
      s'.hider = s.hider
  | .hide occasion =>
    ∃ occasion' : HideOccasion, occasion'.compress = s.options.compressOnHide ∧
      occasion'.graphChanged = occasion.graphChanged ∧
      g.elements =
        (s.hider.apply name (s.workspace.graphAt name) selector occasion').2.1.elements ∧
      s'.hider = (s.hider.apply name (s.workspace.graphAt name) selector occasion').1

/-- `evaluate` applies the selector of the confirmed text, or the one from before when the text does
not compile (`applied`). A text that cannot be read changes nothing. -/
theorem evaluate_spec (s : Session) (name : Text) (e : Evaluation) :
    if isReadable (s.values.get e.channel) then
      ∃ g, Evaluates s (s.evaluate name e).1 e.channel (s.applied e.channel) name g ∧
        Applies s (s.evaluate name e).1 name (s.applied e.channel) g e
    else (s.evaluate name e).1 = s := by
  cases e with
  | find =>
    -- the two kinds of evaluation have a spec each, with the readable value as the only question
    have hspec := s.runFind_spec name
    by_cases hreadable : isReadable s.values.find = true
    · rw [if_pos hreadable] at hspec
      obtain ⟨selector, g, hevaluates, helements, hhider⟩ := hspec
      obtain rfl := hevaluates.applied
      exact (if_pos hreadable).mpr ⟨g, hevaluates, helements, hhider⟩
    · rw [if_neg hreadable] at hspec
      exact (if_neg hreadable).mpr hspec
  | hide occasion =>
    have hspec := s.runHide_spec name occasion
    by_cases hreadable : isReadable s.values.hide = true
    · rw [if_pos hreadable] at hspec
      obtain ⟨selector, occasion', g, hevaluates, helements, hhider, hcompress, hchanged⟩ := hspec
      obtain rfl := hevaluates.applied
      exact (if_pos hreadable).mpr
        ⟨g, hevaluates, occasion', hcompress, hchanged, helements, hhider⟩
    · rw [if_neg hreadable] at hspec
      exact (if_neg hreadable).mpr hspec

/-- `evaluate` puts the selector that it applies into effect. -/
theorem evaluate_selectors (s : Session) (name : Text) (e : Evaluation) :
    (s.evaluate name e).1.selectors = s.selectors.set e.channel (s.applied e.channel) := by
  have hspec := s.evaluate_spec name e
  by_cases hreadable : isReadable (s.values.get e.channel) = true
  · rw [if_pos hreadable] at hspec
    obtain ⟨g, hevaluates, -⟩ := hspec
    exact hevaluates.selectors
  · rw [if_neg hreadable] at hspec
    rw [hspec, applied, selectorOf?_eq_none hreadable, Option.getD_none, PerChannel.set_get_self]

end Session

end MeshLens
