import Mathlib.Data.List.Induction
import MeshLens.Proofs.Graph.BuiltInvariant
import MeshLens.Proofs.Graph.NoHangingEdges

/-!
# When a rendering is asked for

A change is rendered at once when no batch is open, and else at the end of the outermost batch. Nothing in
this depends on what the change is: of the bookkeeping of drawing a graph keeps nothing but how many batches
are open and whether a change still waits, and whatever is done to the elements is one such change.

## Key results

- `Graph.mutate_drawing`: every change is a touch
- `Graph.drawStep_of_isRendered`, `Graph.drawStep_of_not_isRendered`: what one step does to the bookkeeping
- `Graph.isOwed_concat`: when something is owed after one more step
- `Graph.Drawn.concat`, `Graph.IsQuiet.drawn`: what one more step keeps, and what so holds after any steps
-/

namespace MeshLens

/-- A change to the elements of a `Graph`, to some of them or to none. -/
inductive Mutation
  | classes (ids : List Text) (add drop : Text)
  | visibility (ids : List Text) (visible : Bool)
  | alter (step : Alteration)

/-- A step of drawing: `startBatch` or `endBatch?`, or a `Mutation`. -/
inductive DrawStep
  | startBatch
  | endBatch
  | mutate (m : Mutation)

namespace Graph

variable {g : Graph}

/-- The bookkeeping of drawing: the `Graph` without its elements and what was reported. -/
def drawing (g : Graph) : Graph :=
  { g with elements := [], notices := [] }

/-- What the listeners of an event are told, as `Graph.emit` tells them. -/
def told (g : Graph) (event : Text) (args : List Value) : List Emission :=
  (g.listeners.filter fun listener => listener.1 = event).map fun listener => ⟨listener.2, args⟩

/-- What the listeners are told with each `render`. -/
def toldRender (g : Graph) : List Emission :=
  g.told renderEvent []

/-- The graph after a `Mutation`. -/
def mutate (g : Graph) : Mutation → Graph
  | .classes ids add drop => g.updateClasses ids add drop
  | .visibility ids visible => g.setVisible ids visible
  | .alter step => g.alter step

/-- The graph after a `DrawStep`. Closing a batch where none is open is refused, and changes
nothing. -/
def drawStep (g : Graph) : DrawStep → Graph
  | .startBatch => g.startBatch
  | .endBatch => g.endBatch?.getD g
  | .mutate m => g.mutate m

/-- The graph after several steps: `drawStep` one after the other. -/
def drawAll (g : Graph) (steps : List DrawStep) : Graph :=
  steps.foldl drawStep g

/-- `drawAll` of one more step is `drawStep` after the others. -/
theorem drawAll_concat (g : Graph) (past : List DrawStep) (step : DrawStep) :
    g.drawAll (past ++ [step]) = (g.drawAll past).drawStep step :=
  List.foldl_append

/-! ## Bookkeeping -/

/-- `modify` leaves the `drawing` alone. -/
@[simp] theorem modify_drawing (g : Graph) (ids : List Text) (change : Element → Element) :
    (g.modify ids change).drawing = g.drawing :=
  rfl

/-- `note` leaves the `drawing` alone. -/
@[simp] theorem note_drawing (g : Graph) (notice : Notice) : (g.note notice).drawing = g.drawing :=
  rfl

/-- `touch` renders at once where no batch is open. -/
theorem touch_of_closed (h : g.openBatches = 0) : g.touch = g.render :=
  if_pos h

/-- `touch` only marks the graph as stale where a batch is open. -/
theorem touch_of_open (h : g.openBatches ≠ 0) : g.touch = { g with stale := true } :=
  if_neg h

/-- `touch` does the same in the graph as in its `drawing`. -/
@[simp] theorem touch_drawing (g : Graph) : g.touch.drawing = g.drawing.touch := by
  by_cases h : g.openBatches = 0
  · rw [touch_of_closed h, touch_of_closed (g := g.drawing) h]
    rfl
  · rw [touch_of_open h, touch_of_open (g := g.drawing) h]
    rfl

/-! ## Changes -/

/-- `setVisible` is one `touch` of the `drawing`. -/
theorem setVisible_drawing (g : Graph) (ids : List Text) (visible : Bool) :
    (g.setVisible ids visible).drawing = g.drawing.touch := by
  rw [setVisible, touch_drawing, modify_drawing]

/-- `updateClasses` is one `touch` of the `drawing`. -/
theorem updateClasses_drawing (g : Graph) (ids : List Text) (add drop : Text) :
    (g.updateClasses ids add drop).drawing = g.drawing.touch := by
  rw [updateClasses, touch_drawing, modify_drawing]

/-- `remove` is one `touch` of the `drawing`. -/
theorem remove_drawing (g : Graph) (ids : List Text) :
    (g.remove ids).1.drawing = g.drawing.touch := by
  rw [remove, note_drawing, touch_drawing, modify_drawing]

/-- `putBack` leaves the `drawing` alone. -/
theorem putBack_drawing (g : Graph) (es : List Element) : (g.putBack es).1.drawing = g.drawing := by
  induction es generalizing g with
  | nil => rfl
  | cons e es ih =>
    rw [putBack]
    split
    · exact ih _
    · exact ih _

/-- `restore` is one `touch` of the `drawing`. -/
theorem restore_drawing (g : Graph) (ids : List Text) :
    (g.restore ids).1.drawing = g.drawing.touch := by
  rw [restore, touch_drawing]
  exact congrArg touch (putBack_drawing g _)

/-- `mutate` is one `touch` of the `drawing`, whatever is changed, and whether any element is. -/
theorem mutate_drawing (g : Graph) (m : Mutation) : (g.mutate m).drawing = g.drawing.touch := by
  rcases m with ⟨ids, add, drop⟩ | ⟨ids, visible⟩ | ids | ids
  · exact updateClasses_drawing g ids add drop
  · exact setVisible_drawing g ids visible
  · exact remove_drawing g ids
  · exact restore_drawing g ids

/-! ## Steps -/

/-- Between two states there was one `render`, of which all who listen were told. -/
structure RendersOnce (g g' : Graph) : Prop where
  renders : g'.renders = g.renders + 1
  emissions : g'.emissions = g.emissions ++ g.toldRender

/-- Between two states there was no `render`, and nobody was told anything. -/
structure RendersNot (g g' : Graph) : Prop where
  renders : g'.renders = g.renders
  emissions : g'.emissions = g.emissions

end Graph

namespace DrawStep

/-- Whether a `DrawStep` changes something. -/
def isMutation : DrawStep → Bool
  | mutate _ => true
  | _ => false

/-- `isMutation` fails of opening a batch. -/
@[simp] theorem isMutation_startBatch : startBatch.isMutation = false := rfl

/-- `isMutation` fails of closing a batch. -/
@[simp] theorem isMutation_endBatch : endBatch.isMutation = false := rfl

/-- `isMutation` holds of a change. -/
@[simp] theorem isMutation_mutate (m : Mutation) : (mutate m).isMutation = true := rfl

/-- How many batches are open after a `DrawStep`, with `depth` of them open before. -/
def depthAfter (depth : Nat) : DrawStep → Nat
  | startBatch => depth + 1
  | endBatch => depth - 1
  | mutate _ => depth

/-- Whether a `DrawStep` is rendered: a change when no batch is open, and the end of the outermost
batch when a change waits for it. -/
def IsRendered (depth : Nat) (owed : Prop) : DrawStep → Prop
  | startBatch => False
  | endBatch => depth = 1 ∧ owed
  | mutate _ => depth = 0

end DrawStep

namespace Graph

variable {g : Graph} {step : DrawStep}

/-- The bookkeeping after a `DrawStep`, but for the rendering. -/
def deferred (g : Graph) (step : DrawStep) : Graph :=
  { g.drawing with
    openBatches := step.depthAfter g.openBatches
    stale := g.stale || step.isMutation }

/-- `endBatch?` is refused where no batch is open. -/
theorem endBatch?_of_closed (h : g.openBatches = 0) : g.endBatch? = none := by
  rw [endBatch?, h]

/-- `endBatch?` closes the innermost batch, and renders if it is the last one and something was
changed. -/
theorem endBatch?_of_open {depth : Nat} (h : g.openBatches = depth + 1) :
    g.endBatch? = some
      (if depth = 0 ∧ g.stale = true then ({ g with openBatches := depth } : Graph).render
        else { g with openBatches := depth }) := by
  rw [endBatch?, h]

/-- `drawStep` of a step that `IsRendered` does its bookkeeping first. -/
theorem drawStep_of_isRendered (h : step.IsRendered g.openBatches (g.stale = true)) :
    (g.drawStep step).drawing = (g.deferred step).render := by
  cases step with
  | startBatch => exact h.elim
  | endBatch =>
    rw [drawStep, endBatch?_of_open h.1, if_pos ⟨rfl, h.2⟩, deferred, h.1]
    rfl
  | mutate m =>
    rw [drawStep, mutate_drawing, touch_of_closed (g := g.drawing) h]
    rfl

/-- `drawStep` of a step that is not rendered does its bookkeeping only. -/
theorem drawStep_of_not_isRendered (h : ¬step.IsRendered g.openBatches (g.stale = true)) :
    (g.drawStep step).drawing = g.deferred step := by
  cases step with
  | startBatch =>
    rw [deferred, DrawStep.isMutation_startBatch, Bool.or_false]
    rfl
  | endBatch =>
    rw [deferred, DrawStep.isMutation_endBatch, Bool.or_false, drawStep]
    cases hdepth : g.openBatches with
    | zero =>
      rw [endBatch?_of_closed hdepth]
      exact congrArg (fun depth => { g.drawing with openBatches := depth }) hdepth
    | succ depth =>
      -- the end of the last batch with a change in it is a step that is rendered
      have hrest : ¬(depth = 0 ∧ g.stale = true) := fun hrest =>
        h ⟨hdepth.trans (congrArg (· + 1) hrest.1), hrest.2⟩
      rw [endBatch?_of_open hdepth, if_neg hrest]
      rfl
  | mutate m =>
    rw [drawStep, mutate_drawing, touch_of_open (g := g.drawing) h, deferred,
      DrawStep.isMutation_mutate, Bool.or_true]
    rfl

/-- `openBatches` after `drawStep` is `depthAfter` the step. -/
theorem openBatches_drawStep (g : Graph) (step : DrawStep) :
    (g.drawStep step).openBatches = step.depthAfter g.openBatches := by
  by_cases h : step.IsRendered g.openBatches (g.stale = true)
  · exact (congrArg Graph.openBatches (drawStep_of_isRendered h) :)
  · exact (congrArg Graph.openBatches (drawStep_of_not_isRendered h) :)

/-- `listeners` stay the same in `drawStep`. -/
theorem listeners_drawStep (g : Graph) (step : DrawStep) :
    (g.drawStep step).listeners = g.listeners := by
  by_cases h : step.IsRendered g.openBatches (g.stale = true)
  · exact (congrArg Graph.listeners (drawStep_of_isRendered h) :)
  · exact (congrArg Graph.listeners (drawStep_of_not_isRendered h) :)

/-- `stale` is off after a step that is rendered. -/
theorem stale_drawStep_of_isRendered (h : step.IsRendered g.openBatches (g.stale = true)) :
    (g.drawStep step).stale = false :=
  (congrArg Graph.stale (drawStep_of_isRendered h) :)

/-- `stale` after a step that is not rendered is on if it was on before, or something is changed. -/
theorem stale_drawStep_of_not_isRendered (h : ¬step.IsRendered g.openBatches (g.stale = true)) :
    (g.drawStep step).stale = (g.stale || step.isMutation) :=
  (congrArg Graph.stale (drawStep_of_not_isRendered h) :)

/-- `drawStep` of a step that `IsRendered` renders once. -/
theorem rendersOnce_drawStep (h : step.IsRendered g.openBatches (g.stale = true)) :
    g.RendersOnce (g.drawStep step) :=
  ⟨(congrArg Graph.renders (drawStep_of_isRendered h) :),
    (congrArg Graph.emissions (drawStep_of_isRendered h) :)⟩

/-- `drawStep` of any other step does not render. -/
theorem rendersNot_drawStep (h : ¬step.IsRendered g.openBatches (g.stale = true)) :
    g.RendersNot (g.drawStep step) :=
  ⟨(congrArg Graph.renders (drawStep_of_not_isRendered h) :),
    (congrArg Graph.emissions (drawStep_of_not_isRendered h) :)⟩

/-! ## Runs -/

/-- Whether something was changed since the last `render`. -/
def IsOwed (g : Graph) (past : List DrawStep) : Prop :=
  ∃ before m after, past = before ++ .mutate m :: after ∧
    (g.drawAll before).renders = (g.drawAll past).renders

/-- `renders` does not decrease in `drawStep`. -/
theorem renders_le_drawStep (g : Graph) (step : DrawStep) : g.renders ≤ (g.drawStep step).renders := by
  by_cases h : step.IsRendered g.openBatches (g.stale = true)
  · exact (rendersOnce_drawStep h).renders ▸ Nat.le_succ _
  · exact Nat.le_of_eq (rendersNot_drawStep h).renders.symm

/-- `renders` does not decrease in `drawAll`. -/
theorem renders_le_drawAll (g : Graph) (before after : List DrawStep) :
    (g.drawAll before).renders ≤ (g.drawAll (before ++ after)).renders := by
  induction after using List.reverseRecOn with
  | nil => exact Nat.le_of_eq (congrArg (fun past => (g.drawAll past).renders) (List.append_nil _).symm)
  | append_singleton after step ih =>
    rw [← List.append_assoc, drawAll_concat]
    exact Nat.le_trans ih (renders_le_drawStep _ step)

/-- `IsOwed` after one more step: this step is not rendered, and something was owed before or is
changed by it. -/
theorem isOwed_concat (g : Graph) (past : List DrawStep) (step : DrawStep) :
    g.IsOwed (past ++ [step]) ↔
      (g.drawAll (past ++ [step])).renders = (g.drawAll past).renders ∧
        (g.IsOwed past ∨ step.isMutation = true) := by
  have hlast : (g.drawAll past).renders ≤ (g.drawAll (past ++ [step])).renders :=
    renders_le_drawAll g past [step]
  constructor
  · rintro ⟨before, m, after, hpast, hsame⟩
    rcases List.eq_or_exists_of_append_singleton hpast with ⟨rfl, rfl, -⟩ | ⟨rest, rfl⟩
    · exact ⟨hsame.symm, .inr rfl⟩
    · -- no rendering after the change, and so none at the last step either
      have hbefore := renders_le_drawAll g before (.mutate m :: rest)
      exact ⟨by omega, .inl ⟨before, m, rest, rfl, by omega⟩⟩
  · rintro ⟨hsame, ⟨before, m, after, rfl, hbefore⟩ | hmutation⟩
    · exact ⟨before, m, after ++ [step], by simp, hbefore.trans hsame.symm⟩
    · cases step with
      | mutate m => exact ⟨past, m, [], rfl, hsame.symm⟩
      | startBatch => cases hmutation
      | endBatch => cases hmutation

/-- A `Graph` with no batch open and nothing to be drawn. -/
structure IsQuiet (g : Graph) : Prop where
  depth : g.openBatches = 0
  stale : g.stale = false

/-- `add` leaves the `drawing` alone. -/
theorem add_drawing {g' : Graph} {definition : Value} {e : Element}
    (h : g.add definition = .ok (g', e)) : g'.drawing = g.drawing := by
  obtain ⟨d, -, hadded⟩ := Except.map_eq_ok h
  cases hadded
  rfl

/-- `addAll` leaves the `drawing` alone. -/
theorem addAll_drawing {g' : Graph} {definitions : List Value}
    (h : g.addAll definitions = .ok g') : g'.drawing = g.drawing := by
  induction definitions generalizing g with
  | nil =>
    cases h
    rfl
  | cons definition definitions ih =>
    rw [addAll] at h
    split at h
    · cases h
    · rename_i added e hadd
      exact (ih h).trans (add_drawing hadd)

/-- `ofValue` gives a graph of which nothing was drawn, and nothing is to be drawn. -/
theorem ofValue_drawing {payload : Value} (h : ofValue payload = .ok g) : g.drawing = {} := by
  obtain ⟨definitions, -, h⟩ := Except.bind_eq_ok h
  exact addAll_drawing h

/-- `IsQuiet` holds of a graph that `ofValue` has built. -/
theorem isQuiet_of_ofValue {payload : Value} (h : ofValue payload = .ok g) : g.IsQuiet :=
  ⟨(congrArg Graph.openBatches (ofValue_drawing h) :), (congrArg Graph.stale (ofValue_drawing h) :)⟩

/-- `IsQuiet` is preserved by `listen`, which asks for nothing. -/
theorem IsQuiet.listen (h : g.IsQuiet) (event tag : Text) : (g.listen event tag).IsQuiet :=
  ⟨h.depth, h.stale⟩

/-- The invariant of drawing: what holds after any steps from a graph that `IsQuiet`. -/
structure Drawn (g : Graph) (past : List DrawStep) : Prop where
  listeners : (g.drawAll past).listeners = g.listeners
  events : ∃ n, (g.drawAll past).renders = g.renders + n ∧
    (g.drawAll past).emissions = g.emissions ++ (List.replicate n g.toldRender).flatten
  stale_iff : (g.drawAll past).stale = true ↔ g.IsOwed past
  quiet : (g.drawAll past).openBatches = 0 → (g.drawAll past).stale = false

variable {past : List DrawStep}

/-- `Drawn`: the listeners are told the same as at the start. -/
theorem Drawn.toldRender (h : g.Drawn past) : (g.drawAll past).toldRender = g.toldRender := by
  rw [Graph.toldRender, told, h.listeners]
  rfl

/-- `stale` is off where no batch is open: a change waits only within a batch, and the end of the
outermost one is rendered when one does. -/
theorem stale_drawStep_of_quiet (hquiet : g.openBatches = 0 → g.stale = false)
    (h : ¬step.IsRendered g.openBatches (g.stale = true))
    (hdepth : (g.drawStep step).openBatches = 0) : (g.drawStep step).stale = false := by
  rw [openBatches_drawStep] at hdepth
  rw [stale_drawStep_of_not_isRendered h]
  cases step with
  | startBatch => cases hdepth
  | endBatch =>
    rw [DrawStep.isMutation_endBatch, Bool.or_false]
    rcases Nat.le_one_iff_eq_zero_or_eq_one.1 (Nat.sub_eq_zero_iff_le.1 hdepth) with hzero | hone
    · exact hquiet hzero
    · exact Bool.eq_false_iff.2 fun hstale => h ⟨hone, hstale⟩
  | mutate m => exact absurd hdepth h

/-- `Drawn` is preserved by one more step. -/
theorem Drawn.concat (h : g.Drawn past) (step : DrawStep) : g.Drawn (past ++ [step]) := by
  obtain ⟨n, hrenders, hemissions⟩ := h.events
  -- cases: the step is rendered, and nothing is owed after it; or it is not
  by_cases hrendered :
      step.IsRendered (g.drawAll past).openBatches ((g.drawAll past).stale = true)
  · have honce := rendersOnce_drawStep hrendered
    have hstale := stale_drawStep_of_isRendered hrendered
    rw [← drawAll_concat] at honce hstale
    refine ⟨?_, ⟨n + 1, ?_, ?_⟩, ?_, fun _ => hstale⟩
    · rw [drawAll_concat, listeners_drawStep, h.listeners]
    · rw [honce.renders, hrenders, Nat.add_assoc]
    · rw [honce.emissions, hemissions, h.toldRender, List.replicate_succ', List.flatten_append,
        List.flatten_singleton, List.append_assoc]
    · rw [isOwed_concat, honce.renders, hstale]
      simp
  · have hnot := rendersNot_drawStep hrendered
    have hstale := stale_drawStep_of_not_isRendered hrendered
    have hquiet := stale_drawStep_of_quiet h.quiet hrendered
    rw [← drawAll_concat] at hnot hstale hquiet
    refine ⟨?_, ⟨n, ?_, ?_⟩, ?_, hquiet⟩
    · rw [drawAll_concat, listeners_drawStep, h.listeners]
    · rw [hnot.renders, hrenders]
    · rw [hnot.emissions, hemissions]
    · rw [isOwed_concat, hstale, Bool.or_eq_true, h.stale_iff]
      exact (and_iff_right hnot.renders).symm

/-- `Drawn` holds after any steps from a graph that `IsQuiet`, by induction on the steps. -/
theorem IsQuiet.drawn (h : g.IsQuiet) (past : List DrawStep) : g.Drawn past := by
  -- on the last step, since what is owed looks back from the end
  induction past using List.reverseRecOn with
  | nil =>
    refine ⟨rfl, ⟨0, rfl, (List.append_nil _).symm⟩, ?_, fun _ => h.stale⟩
    refine iff_of_false (fun hstale => Bool.false_ne_true (h.stale.symm.trans hstale)) ?_
    rintro ⟨before, m, after, hpast, -⟩
    cases before <;> cases hpast
  | append_singleton past step ih => exact ih.concat step

end Graph

end MeshLens
