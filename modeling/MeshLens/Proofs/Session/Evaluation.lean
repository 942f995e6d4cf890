import MeshLens.Proofs.Session.Run

/-!
# The evaluations of a run

Every operation first changes the inputs, the confirmed texts, the settings or the attached snapshot,
and then has queries evaluated on the attached snapshot, in order and up to the first evaluation that
fails. Taken apart like this, the operations differ in what they change and in which evaluations they
call for, and in nothing else.

## Key results

- `Session.perform_eq`: an operation is what it changes and the evaluations that are due
-/

namespace MeshLens

namespace Session

/-- What can be evaluated: the find query by `runFind`, or the hide query on some occasion by
`runHide`. -/
inductive Evaluation
  | find
  | hide (occasion : HideOccasion)
  deriving DecidableEq

/-- The input whose text an `Evaluation` evaluates. -/
def Evaluation.channel : Evaluation → Channel
  | .find => .find
  | .hide _ => .hide

/-- Runs an `Evaluation` on a snapshot. -/
def evaluate (s : Session) (name : Text) : Evaluation → Step Unit
  | .find => s.runFind name
  | .hide occasion => s.runHide name occasion

/-- Runs evaluations in order, by `evaluate`, up to the first one that fails. -/
def evaluateAll (s : Session) (name : Text) : List Evaluation → Session
  | [] => s
  | e :: es =>
    match s.evaluate name e with
    | (s, .ok ()) => s.evaluateAll name es
    | (s, .error _) => s

/-- The evaluations of `evaluateAll` that begin, each with the state in which it does. -/
def begun (s : Session) (name : Text) : List Evaluation → List (Session × Evaluation)
  | [] => []
  | e :: es =>
    (s, e) ::
      match s.evaluate name e with
      | (s, .ok ()) => s.begun name es
      | (_, .error _) => []

/-! ## Operations -/

/-- The text that an operation confirms, and the input that it is confirmed for, as the operation
passes them to `confirm`. -/
def confirmed? (s : Session) : Operation → Option (Channel × Text)
  | .updateInput channel text =>
    if text = [] then some (channel, [])
    else if 1 < lengthGap text (s.inputs.get channel) then some (channel, text)
    else none
  | .submit channel => some (channel, s.inputs.get channel)
  | .setValue channel value => some (channel, value)
  | .selectPreset channel index =>
    (preset? (s.presets.get channel) index).map fun preset => (channel, preset.expression)
  | .complete _ | .attach _ _ | .detach | .setCompressOnHide _ => none

/-- What an operation does to the inputs: it writes a text, sets up its completion and takes its
message away. -/
def typed (s : Session) : Operation → Session
  | .updateInput channel text =>
    (s.prime channel text (if text = [] then [] else typingStops)).setInput channel text
  | .setValue channel value => (s.prime channel value []).setInput channel value
  | .selectPreset channel index =>
    match preset? (s.presets.get channel) index with
    | none => s
    | some preset => (s.prime channel preset.expression []).setInput channel preset.expression
  | .complete channel => (s.complete channel).1
  | .submit _ | .attach _ _ | .detach | .setCompressOnHide _ => s

/-- What an operation on an input does before anything is evaluated: the text that is `confirmed?`
is stored, where it is another one than before. -/
def stored (s : Session) (op : Operation) : Session :=
  match s.confirmed? op with
  | none => s.typed op
  | some (channel, value) =>
    if s.values.get channel = value then s.typed op else (s.typed op).store channel value

/-- What `perform` does for an operation before anything is evaluated. -/
def prepare (s : Session) : Operation → Session
  | .attach name _ => s.attachTo name
  | .detach => s.detach
  | .setCompressOnHide compress => s.switchTo compress
  | op => s.stored op

/-- The `Evaluation` that a confirmed text calls for. -/
def Evaluation.confirming : Channel → Evaluation
  | .find => .find
  | .hide => .hide { hideChanged := true }

/-- `Evaluation.confirming` evaluates the text of the input that it is for. -/
theorem Evaluation.channel_confirming (channel : Channel) :
    (Evaluation.confirming channel).channel = channel := by
  cases channel <;> rfl

/-- The evaluations that an operation on an input calls for, where a snapshot is attached: the one
for a text that is `confirmed?` and new. -/
def dueOnStoring (s : Session) (op : Operation) : List Evaluation :=
  match s.confirmed? op with
  | none => []
  | some (channel, value) => if s.values.get channel = value then [] else [.confirming channel]

/-- The `HideOccasion` of attaching a snapshot. -/
def attaching (s : Session) (name : Text) (elementsChanged : Option Bool) : HideOccasion :=
  let graphChanged : Bool := s.attached ≠ some name
  let changed := elementsChanged.getD <|
    Workspace.compositionChanged (s.attached.map s.workspace.graphAt) (s.workspace.graphAt name)
  { graphChanged, elementsChanged := graphChanged && changed }

/-- The evaluations that an operation calls for, where a snapshot is attached: what `perform` makes
on top of `prepare`. -/
def due (s : Session) : Operation → List Evaluation
  | .attach name elementsChanged =>
    (if s.values.find = [] then [] else [.find]) ++
      if s.values.hide = [] then [] else [.hide (s.attaching name elementsChanged)]
  | .detach => []
  | .setCompressOnHide compress =>
    if s.options.compressOnHide = compress ∨ s.values.hide = [] then []
    else [.hide { compressChanged := true }]
  | op => s.dueOnStoring op

/-- The evaluations that `perform` begins, each with the state in which it does. -/
def begins (s : Session) (op : Operation) : List (Session × Evaluation) :=
  match (s.prepare op).attached with
  | none => []
  | some name => (s.prepare op).begun name (s.due op)

/-- `stored` stores a text and `dueOnStoring` evaluates it when it is another one than before, and
otherwise neither does anything. -/
theorem stored_spec (s : Session) (op : Operation) :
    (s.stored op = s.typed op ∧ s.dueOnStoring op = [] ∧
      ∀ channel value, s.confirmed? op = some (channel, value) → s.values.get channel = value) ∨
    ∃ channel value, s.confirmed? op = some (channel, value) ∧ s.values.get channel ≠ value ∧
      s.stored op = (s.typed op).store channel value ∧
      s.dueOnStoring op = [.confirming channel] := by
  unfold stored dueOnStoring
  cases s.confirmed? op with
  | none =>
    refine .inl ⟨rfl, rfl, fun channel value h => ?_⟩
    cases h
  | some confirmed =>
    obtain ⟨channel, value⟩ := confirmed
    by_cases hsame : s.values.get channel = value
    · refine .inl ⟨if_pos hsame, if_pos hsame, fun channel' value' h => ?_⟩
      cases h
      exact hsame
    · exact .inr ⟨channel, value, rfl, hsame, if_neg hsame, if_neg hsame⟩

/-- `evaluateAll` of a single evaluation is `evaluate`. -/
theorem evaluateAll_singleton (s : Session) (name : Text) (e : Evaluation) :
    s.evaluateAll name [e] = (s.evaluate name e).1 := by
  unfold evaluateAll
  split
  · rename_i h
    rw [h, evaluateAll]
  · rename_i h
    rw [h]

/-- `evaluate` leaves the confirmed texts, the attached snapshot and the way of hiding as they are.
-/
theorem evaluate_frame (s : Session) (name : Text) (e : Evaluation) :
    (s.evaluate name e).1.values = s.values ∧ (s.evaluate name e).1.attached = s.attached ∧
      (s.evaluate name e).1.options.compressOnHide = s.options.compressOnHide := by
  -- either query is run, which `runFind_spec` and `runHide_spec` describe, or nothing is
  cases e with
  | find =>
    have hspec := s.runFind_spec name
    rw [evaluate]
    split at hspec
    · obtain ⟨selector, g, hevaluates, -⟩ := hspec
      exact ⟨hevaluates.values, hevaluates.attached, hevaluates.compressOnHide⟩
    · rw [hspec]
      exact ⟨rfl, rfl, rfl⟩
  | hide occasion =>
    have hspec := s.runHide_spec name occasion
    rw [evaluate]
    split at hspec
    · obtain ⟨selector, occasion', g, hevaluates, -⟩ := hspec
      exact ⟨hevaluates.values, hevaluates.attached, hevaluates.compressOnHide⟩
    · rw [hspec]
      exact ⟨rfl, rfl, rfl⟩

/-- `confirm` is storing, and `evaluateAll` of one evaluation where a snapshot is attached. -/
theorem confirm_eq_evaluateAll (s : Session) (channel : Channel) (value : Text) :
    (s.confirm channel value).1 =
      if s.values.get channel = value then s
      else
        match s.attached with
        | none => s.store channel value
        | some name => (s.store channel value).evaluateAll name [.confirming channel] := by
  rw [confirm_eq]
  split
  · rfl
  · cases s.attached with
    | none => rfl
    | some name =>
      have hevaluate := evaluateAll_singleton (s.store channel value) name (.confirming channel)
      cases channel <;> exact hevaluate.symm

/-- `attach` is attaching, and `evaluateAll` of what is due on the snapshot that is attached then.
-/
theorem attach_eq_evaluateAll (s : Session) (name : Text) (elementsChanged : Option Bool) :
    (s.attach name elementsChanged).1 =
      (s.attachTo name).evaluateAll name (s.due (.attach name elementsChanged)) := by
  -- the hide query comes last, if there is a text for it
  have hlast (s' : Session) (occasion : HideOccasion) :
      (if s.values.hide = [] then (s', Except.ok ()) else s'.runHide name occasion).1 =
        s'.evaluateAll name (if s.values.hide = [] then [] else [.hide occasion]) := by
    split
    · rfl
    · exact (evaluateAll_singleton s' name (.hide occasion)).symm
  unfold attach due
  simp only
  -- cases: without a text to find, only the hide query is due
  by_cases hfind : s.values.find = []
  · simp only [hfind, if_true, List.nil_append]
    exact hlast (s.attachTo name) (s.attaching name elementsChanged)
  · simp only [hfind, if_false, List.cons_append, List.nil_append]
    -- the hide text is the same after finding
    have hvalues := ((s.attachTo name).evaluate_frame name .find).1
    rw [evaluateAll]
    rw [evaluate] at hvalues ⊢
    cases hfound : (s.attachTo name).runFind name with
    | mk s₁ result =>
      have hhide : s₁.values.hide = s.values.hide := by
        rw [hfound] at hvalues
        exact congrArg PerChannel.hide hvalues
      have hfound' : ({ s with attached := some name } : Session).runFind name = (s₁, result) :=
        hfound
      simp only [hfound']
      cases result with
      | error e => rfl
      | ok u =>
        have hafter := hlast s₁ (s.attaching name elementsChanged)
        rw [← hhide] at hafter
        simp only [← hhide]
        exact hafter

/-- Two sessions that differ in the inputs, the completions, the messages and the notices at most:
what `typed` changes. -/
structure SameBut (s s' : Session) : Prop where
  values : s'.values = s.values
  attached : s'.attached = s.attached
  selectors : s'.selectors = s.selectors
  workspace : s'.workspace = s.workspace
  hider : s'.hider = s.hider
  options : s'.options = s.options

/-- `typed` leaves everything but the inputs alone. -/
theorem typed_frame (s : Session) (op : Operation) : SameBut s (s.typed op) := by
  cases op with
  | selectPreset channel index =>
    unfold typed
    dsimp only
    split
    · exact ⟨rfl, rfl, rfl, rfl, rfl, rfl⟩
    · exact ⟨rfl, rfl, rfl, rfl, rfl, rfl⟩
  | complete channel =>
    unfold typed complete
    dsimp only
    split
    · exact ⟨rfl, rfl, rfl, rfl, rfl, rfl⟩
    · exact ⟨rfl, rfl, rfl, rfl, rfl, rfl⟩
  | _ => exact ⟨rfl, rfl, rfl, rfl, rfl, rfl⟩

/-- `perform` of an operation that confirms a text is `typed`, and `confirm` of the text. -/
theorem perform_of_confirmed? {s : Session} {op : Operation} {channel : Channel} {value : Text}
    (h : s.confirmed? op = some (channel, value)) :
    s.perform op = ((s.typed op).confirm channel value).1 := by
  -- cases on the operation, as in `confirmed?`
  cases op with
  | updateInput c text =>
    simp only [confirmed?] at h
    split at h
    · rename_i hnil
      cases h
      simp only [perform, updateInput, typed, if_pos hnil]
      rw [hnil]
      rfl
    · rename_i hne
      split at h
      · rename_i hgap
        cases h
        simp only [perform, updateInput, typed, if_neg hne]
        rw [if_pos hgap]
      · cases h
  | submit c =>
    cases h
    rfl
  | setValue c v =>
    cases h
    rfl
  | selectPreset c index =>
    obtain ⟨preset, hpreset, hsame⟩ := Option.map_eq_some_iff.1 h
    cases hsame
    simp only [perform, selectPreset, typed, hpreset]
    rfl
  | complete _ | attach _ _ | detach | setCompressOnHide _ => cases h

/-- `perform` is `prepare`, and `evaluateAll` of what is `due` where a snapshot is attached. -/
theorem perform_eq (s : Session) (op : Operation) :
    s.perform op =
      match (s.prepare op).attached with
      | none => s.prepare op
      | some name => (s.prepare op).evaluateAll name (s.due op) := by
  -- an operation on an input confirms a text, or changes the input only
  have hinput (hdue : s.due op = s.dueOnStoring op) (hprepare : s.prepare op = s.stored op)
      (htyped : s.confirmed? op = none → s.perform op = s.typed op) :
      s.perform op =
        match (s.prepare op).attached with
        | none => s.prepare op
        | some name => (s.prepare op).evaluateAll name (s.due op) := by
    rw [hdue, hprepare]
    -- the text is confirmed and new, confirmed before, or there is none
    rcases s.stored_spec op with ⟨hstored, hnothing, hsame⟩ | ⟨channel, value, hconfirmed, hne,
      hstored, hone⟩
    · have hperform : s.perform op = s.typed op := by
        cases hconfirmed : s.confirmed? op with
        | none => exact htyped hconfirmed
        | some confirmed =>
          rw [perform_of_confirmed? hconfirmed, confirm_eq_evaluateAll, (s.typed_frame op).values,
            if_pos (hsame _ _ hconfirmed)]
      rw [hperform, hstored, hnothing]
      split <;> rfl
    · rw [perform_of_confirmed? hconfirmed, confirm_eq_evaluateAll, (s.typed_frame op).values,
        if_neg hne, hstored, hone]
      rfl
  cases op with
  | attach name elementsChanged => exact s.attach_eq_evaluateAll name elementsChanged
  | detach => rfl
  | setCompressOnHide compress =>
    rw [perform, setCompressOnHide_eq, prepare, due]
    -- cases: the way of hiding is the one from before, or else a snapshot is attached or not
    by_cases hsame : s.options.compressOnHide = compress
    · have hswitch : s.switchTo compress = s := by rw [switchTo, ← hsame]
      rw [if_pos hsame, if_pos (.inl hsame), hswitch]
      split <;> rfl
    · have hattached : (s.switchTo compress).attached = s.attached := rfl
      rw [if_neg hsame, hattached]
      cases s.attached with
      | none => rfl
      | some name =>
        by_cases hhide : s.values.hide = []
        · simp only [hhide, or_true, if_true]
          rfl
        · simp only [hsame, hhide, or_self, if_false]
          exact (evaluateAll_singleton (s.switchTo compress) name
            (.hide { compressChanged := true })).symm
  | updateInput channel text =>
    refine hinput rfl rfl fun hnone => ?_
    simp only [confirmed?] at hnone
    split at hnone
    · cases hnone
    · rename_i hne
      split at hnone
      · cases hnone
      · rename_i hgap
        simp only [perform, updateInput, typed, if_neg hne]
        rw [if_neg hgap]
  | complete channel => exact hinput rfl rfl fun _ => rfl
  | submit channel => exact hinput rfl rfl fun hnone => nomatch hnone
  | setValue channel value => exact hinput rfl rfl fun hnone => nomatch hnone
  | selectPreset channel index =>
    refine hinput rfl rfl fun hnone => ?_
    have hpreset : preset? (s.presets.get channel) index = none := Option.map_eq_none_iff.1 hnone
    simp only [perform, selectPreset, typed, hpreset]

end Session

end MeshLens
