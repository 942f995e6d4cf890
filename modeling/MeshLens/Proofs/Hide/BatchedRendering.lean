import MeshLens.Proofs.Graph.RenderRequests
import MeshLens.Proofs.Hide.LayoutRequests

/-!
# Finding and hiding as one batch

Finding and hiding make their changes within a batch of their own, and close it also where they fail. So
within a batch of the caller they are not rendered at all, and elsewhere once at most: finding exactly once
where it gives a result, since it takes the old marks off in any case.

## Key results

- `Graph.remark_waiting`, `Graph.rehide_waiting`: what finding and hiding leave to be drawn
- `Graph.batched_batch`: a batch is rendered when it is the outermost one and something changed in it
- `Graph.renders_deferred`: when renderings are asked for, whatever comes before
-/

namespace MeshLens

namespace Graph

variable {g g' g'' : Graph} {changed : Bool}

/-! ## Changes within a batch -/

/-- The bookkeeping of a `Graph` with an open batch when something was changed, or nothing was. -/
def waiting (g : Graph) (changed : Bool) : Graph :=
  { g.drawing with stale := g.stale || changed }

/-- `waiting` without a change is the `drawing`. -/
theorem waiting_false (g : Graph) : g.waiting false = g.drawing := by
  rw [waiting, Bool.or_false]
  rfl

/-- `waiting` leaves as many batches open. -/
theorem openBatches_of_waiting (h : g'.drawing = g.waiting changed) :
    g'.openBatches = g.openBatches :=
  (congrArg Graph.openBatches h :)

/-- `waiting` for one change and then for another. -/
theorem waiting_trans {later : Bool} (h : g'.drawing = g.waiting changed)
    (h' : g''.drawing = g'.waiting later) : g''.drawing = g.waiting (changed || later) := by
  have hstale : g'.stale = (g.stale || changed) := (congrArg Graph.stale h :)
  rw [h', waiting, h, hstale, Bool.or_assoc]
  rfl

/-- `touch` makes a graph with an open batch wait. -/
theorem touch_waiting (hopen : g.openBatches ≠ 0) : g.drawing.touch = g.waiting true := by
  rw [touch_of_open (g := g.drawing) hopen, waiting, Bool.or_true]

/-- `removeEmptyBoxes` leaves something to be drawn, or changes nothing. -/
theorem removeEmptyBoxes_waiting {g : Graph} (hopen : g.openBatches ≠ 0) (removed : List Text) :
    ∃ changed, (g.removeEmptyBoxes removed).1.drawing = g.waiting changed := by
  by_cases hboxes : g.emptyBoxes = []
  · rw [removeEmptyBoxes_of_nil hboxes]
    exact ⟨false, (waiting_false g).symm⟩
  · -- by induction on the number of live elements, which each round lowers
    have hlt := emptyBoxes_liveCount_lt hboxes
    have hround := (remove_drawing g g.emptyBoxes).trans (touch_waiting hopen)
    have hopen' : (g.remove g.emptyBoxes).1.openBatches ≠ 0 :=
      (openBatches_of_waiting hround).symm ▸ hopen
    rw [removeEmptyBoxes_of_ne_nil hboxes]
    obtain ⟨changed, hrest⟩ :=
      removeEmptyBoxes_waiting hopen' (distinct (removed ++ (g.remove g.emptyBoxes).2))
    exact ⟨_, waiting_trans hround hrest⟩
termination_by g.liveCount

/-- `hideBlankBoxes` leaves something to be drawn, or changes nothing. -/
theorem hideBlankBoxes_waiting {g : Graph} (hopen : g.openBatches ≠ 0) (hidden : List Text) :
    ∃ changed, (g.hideBlankBoxes hidden).1.drawing = g.waiting changed := by
  by_cases hboxes : g.blankBoxes = []
  · rw [hideBlankBoxes_of_nil hboxes]
    exact ⟨false, (waiting_false g).symm⟩
  · -- by induction on the number of visible elements, which each round lowers
    have hlt := blankBoxes_visibleCount_lt hboxes
    have hround := (setVisible_drawing g g.blankBoxes false).trans (touch_waiting hopen)
    have hopen' : (g.setVisible g.blankBoxes false).openBatches ≠ 0 :=
      (openBatches_of_waiting hround).symm ▸ hopen
    rw [hideBlankBoxes_of_ne_nil hboxes]
    obtain ⟨changed, hrest⟩ := hideBlankBoxes_waiting hopen' (distinct (hidden ++ g.blankBoxes))
    exact ⟨_, waiting_trans hround hrest⟩
termination_by g.visibleCount

/-- `conceal` leaves something to be drawn, or changes nothing. -/
theorem conceal_waiting (hopen : g.openBatches ≠ 0) (mode : HideMode) (ids : List Text) :
    ∃ changed, (g.conceal mode ids).1.drawing = g.waiting changed := by
  cases mode with
  | hidden =>
    have hfirst := (setVisible_drawing g ids false).trans (touch_waiting hopen)
    obtain ⟨changed, hrest⟩ :=
      hideBlankBoxes_waiting ((openBatches_of_waiting hfirst).symm ▸ hopen) ids
    exact ⟨_, waiting_trans hfirst hrest⟩
  | removed =>
    have hfirst := (remove_drawing g ids).trans (touch_waiting hopen)
    obtain ⟨changed, hrest⟩ :=
      removeEmptyBoxes_waiting ((openBatches_of_waiting hfirst).symm ▸ hopen) (g.remove ids).2
    exact ⟨_, waiting_trans hfirst hrest⟩

/-- `release` leaves something to be drawn, or changes nothing. -/
theorem release_waiting (hopen : g.openBatches ≠ 0) (name : Text) (handle : Option HideHandle)
    (graphChanged : Bool) :
    ∃ changed, (g.release name handle graphChanged).drawing = g.waiting changed := by
  unfold release
  split
  · exact ⟨false, (waiting_false g).symm⟩
  · split
    · exact ⟨false, (waiting_false g).symm⟩
    · split
      · exact ⟨true, (setVisible_drawing g _ true).trans (touch_waiting hopen)⟩
      · exact ⟨true, (restore_drawing g _).trans (touch_waiting hopen)⟩

/-- `rehide` leaves something to be drawn, or changes nothing. -/
theorem rehide_waiting (hopen : g.openBatches ≠ 0) (name : Text) (handle : Option HideHandle)
    (selector : Option Text) (occasion : HideOccasion) :
    ∃ changed, (g.rehide name handle selector occasion).1.drawing = g.waiting changed := by
  obtain ⟨released, hrelease⟩ := release_waiting hopen name handle occasion.graphChanged
  unfold rehide
  cases selector with
  | none => exact ⟨released, hrelease⟩
  | some text =>
    dsimp only
    split
    · exact ⟨released, hrelease⟩
    · obtain ⟨concealed, hconceal⟩ :=
        conceal_waiting ((openBatches_of_waiting hrelease).symm ▸ hopen) _ _
      exact ⟨_, waiting_trans hrelease hconceal⟩

/-- `remark` leaves something to be drawn where it succeeds; it takes the old marks off before it
can fail on the selector. -/
theorem remark_waiting (hopen : g.openBatches ≠ 0) (marker : Text) (selector : Option Text) :
    ∃ changed, (g.remark marker selector).1.drawing = g.waiting changed ∧
      ∀ ids, (g.remark marker selector).2 = .ok ids → changed = true := by
  have hclasses {g : Graph} (hopen : g.openBatches ≠ 0) (ids : List Text) (add drop : Text) :=
    (updateClasses_drawing g ids add drop).trans (touch_waiting hopen)
  -- cases on what the old marks and the selector come to, in the order of `remark`
  unfold remark
  split
  · exact ⟨false, (waiting_false g).symm, fun ids h => nomatch h⟩
  · split
    · exact ⟨false, (waiting_false g).symm, fun ids h => nomatch h⟩
    · rename_i old _
      have hold := hclasses hopen (old.map (·.id)) [] marker
      cases selector with
      | none => exact ⟨true, hold, fun _ _ => rfl⟩
      | some text =>
        dsimp only
        split
        · exact ⟨true, hold, fun _ _ => rfl⟩
        · split
          · exact ⟨true, hold, fun _ _ => rfl⟩
          · have hopen' := (openBatches_of_waiting hold).symm ▸ hopen
            exact ⟨true, waiting_trans hold (hclasses hopen' _ marker []), fun _ _ => rfl⟩

/-! ## Batches -/

section
variable {α : Type} (step : Graph → Graph × α)

/-- `startBatch` leaves a batch open. -/
theorem openBatches_startBatch_ne_zero (g : Graph) : g.startBatch.openBatches ≠ 0 :=
  Nat.succ_ne_zero _

/-- `batch` renders when it is the outermost one and something changed in it or before, and else
goes on waiting. -/
theorem batch_of_waiting (h : (step g.startBatch).1.drawing = g.startBatch.waiting changed) :
    (g.batch step).1.drawing =
      if g.openBatches = 0 ∧ (g.stale || changed) = true then g.drawing.render
      else g.waiting changed := by
  have hopen : (step g.startBatch).1.openBatches = g.openBatches + 1 :=
    (congrArg Graph.openBatches h :)
  have hstale : (step g.startBatch).1.stale = (g.stale || changed) :=
    (congrArg Graph.stale h :)
  have hlast := congrArg (fun d : Graph => { d with openBatches := g.openBatches }) h
  show ((step g.startBatch).1.endBatch?.getD _).drawing = _
  rw [endBatch?_of_open hopen, Option.getD_some]
  by_cases hdraw : g.openBatches = 0 ∧ (g.stale || changed) = true
  · rw [if_pos hdraw, if_pos ⟨hdraw.1, hstale.trans hdraw.2⟩]
    exact congrArg render hlast
  · rw [if_neg hdraw, if_neg fun h => hdraw ⟨h.1, hstale.symm.trans h.2⟩]
    exact hlast

/-- What a call is like that opened a batch of its own and has closed it. It was rendered as often
as is said: once at most, and not at all within a batch of the caller, where what waited goes on
waiting. Listeners were told of it, and of other things after it. -/
structure Batched (g g' : Graph) (times : Nat) (rest : List Emission) : Prop where
  depth : g'.openBatches = g.openBatches
  listeners : g'.listeners = g.listeners
  renders : g'.renders = g.renders + times
  emissions : g'.emissions = g.emissions ++ (List.replicate times g.toldRender).flatten ++ rest
  once : times ≤ 1
  nested : g.openBatches ≠ 0 → times = 0
  waits : g.openBatches ≠ 0 → g.stale = true → g'.stale = true
  settled : g.openBatches = 0 → g'.stale = false

/-- `batch` is rendered just when it is the outermost one and something changed in it, where nothing
waits unless a batch is open. -/
theorem batched_batch (hquiet : g.openBatches = 0 → g.stale = false)
    (h : (step g.startBatch).1.drawing = g.startBatch.waiting changed) :
    g.Batched (g.batch step).1 (if g.openBatches = 0 ∧ changed = true then 1 else 0) [] := by
  have hbatch := batch_of_waiting step h
  -- cases: the batch is rendered, or what was changed waits
  by_cases hdraw : g.openBatches = 0 ∧ changed = true
  · rw [if_pos ⟨hdraw.1, by rw [hdraw.2, Bool.or_true]⟩] at hbatch
    rw [if_pos hdraw]
    exact
      { depth := (congrArg Graph.openBatches hbatch :)
        listeners := (congrArg Graph.listeners hbatch :)
        renders := (congrArg Graph.renders hbatch :)
        emissions := by
          rw [List.append_nil, List.replicate_one, List.flatten_singleton]
          exact (congrArg Graph.emissions hbatch :)
        once := Nat.le_refl 1
        nested := fun hopen => absurd hdraw.1 hopen
        waits := fun hopen => absurd hdraw.1 hopen
        settled := fun _ => (congrArg Graph.stale hbatch :) }
  · have hwait : ¬(g.openBatches = 0 ∧ (g.stale || changed) = true) := fun hboth =>
      hdraw ⟨hboth.1, by simpa [hquiet hboth.1] using hboth.2⟩
    rw [if_neg hwait] at hbatch
    rw [if_neg hdraw]
    have hstale : (g.batch step).1.stale = (g.stale || changed) := (congrArg Graph.stale hbatch :)
    exact
      { depth := (congrArg Graph.openBatches hbatch :)
        listeners := (congrArg Graph.listeners hbatch :)
        renders := (congrArg Graph.renders hbatch :)
        emissions := by
          rw [List.append_nil, List.replicate_zero, List.flatten_nil, List.append_nil]
          exact (congrArg Graph.emissions hbatch :)
        once := Nat.zero_le 1
        nested := fun _ => rfl
        waits := fun _ hwaits => by rw [hstale, hwaits, Bool.true_or]
        settled := fun hclosed =>
          hstale.trans (Bool.eq_false_iff.2 fun htrue => hwait ⟨hclosed, htrue⟩) }

/-- `stale` after a `batch` within another one is on if it was on before, or something changed. -/
theorem stale_batch (hopen : g.openBatches ≠ 0)
    (h : (step g.startBatch).1.drawing = g.startBatch.waiting changed) :
    (g.batch step).1.stale = (g.stale || changed) := by
  have hbatch := batch_of_waiting step h
  rw [if_neg fun hboth => hopen hboth.1] at hbatch
  exact (congrArg Graph.stale hbatch :)

end

/-! ## Calls -/

/-- `Batched` is preserved by `note`, as a report is told to nobody. -/
theorem Batched.note {g' : Graph} {times : Nat} {rest : List Emission} (h : g.Batched g' times rest)
    (notice : Notice) : g.Batched (g'.note notice) times rest :=
  { h with }

/-- `applyFind` that gives a result is rendered once where no batch is open, and waits where one is.
-/
theorem batched_applyFind (hquiet : g.openBatches = 0 → g.stale = false) (marker : Text)
    (selector : Option Text) :
    let call := g.applyFind marker selector
    ∃ times, g.Batched call.1 times [] ∧
      ∀ ids, call.2 = .ok ids →
        (g.openBatches = 0 → times = 1) ∧ (g.openBatches ≠ 0 → call.1.stale = true) := by
  obtain ⟨changed, hremark, hchanged⟩ :=
    remark_waiting g.openBatches_startBatch_ne_zero marker selector
  have hbatch := batched_batch (fun g => g.remark marker selector) hquiet hremark
  have hstale := fun hopen => stale_batch (fun g => g.remark marker selector) hopen hremark
  have hresult := g.batch_result fun g => g.remark marker selector
  refine ⟨if g.openBatches = 0 ∧ changed = true then 1 else 0, ?_⟩
  unfold applyFind
  split
  rename_i g' result hcall
  rw [hcall] at hbatch hstale hresult
  cases result with
  -- a failed call changed nothing, and nothing is asked of its times
  | error fault => exact ⟨hbatch, fun ids h => nomatch h⟩
  | ok ids =>
    -- a call that succeeds noted a change, so a closed batch is rendered and an open one owes it
    have htrue : changed = true := hchanged ids hresult.symm
    refine ⟨hbatch.note _, fun _ _ => ⟨fun hclosed => if_pos ⟨hclosed, htrue⟩, fun hopen => ?_⟩⟩
    exact (hstale hopen).trans (by rw [htrue, Bool.or_true])

/-- What listeners are told when a layout is asked for, as `emit` and `runLayout` tell them. -/
def toldLayout (g : Graph) (name : Text) : List Emission :=
  g.told zoomIgnoreEvent [.bool true] ++ g.told layoutEvent [.text name]

/-- `Batched` calls may still ask for a layout and report what they did. -/
theorem Batched.runLayout {g' : Graph} {times : Nat} (h : g.Batched g' times []) (name : Text) :
    g.Batched ((g'.emit zoomIgnoreEvent [.bool true]).runLayout name) times (g.toldLayout name) where
  depth := h.depth
  listeners := h.listeners
  renders := h.renders
  emissions := by
    have hemit : ((g'.emit zoomIgnoreEvent [.bool true]).runLayout name).emissions =
        g'.emissions ++ g'.told zoomIgnoreEvent [.bool true] ++ g'.told layoutEvent [.text name] :=
      rfl
    have htold (event : Text) (args : List Value) : g'.told event args = g.told event args := by
      rw [told, h.listeners]
      rfl
    rw [hemit, h.emissions, htold, htold, toldLayout, List.append_nil, ← List.append_assoc]
  once := h.once
  nested := h.nested
  waits := h.waits
  settled := h.settled

end Graph

/-- What listeners are told after a call of a `Hider` was rendered. -/
def Hider.toldAfter (hider : Hider) (g : Graph) (occasion : HideOccasion) :
    Except EvaluationError HideOutcome → List Emission
  | .error _ => []
  | .ok outcome =>
    if outcome.layoutRequested then
      g.toldLayout (if occasion.layout = [] then hider.layout else occasion.layout)
    else []

/-- `Hider.apply` is rendered once at most. -/
theorem Hider.batched_apply (hider : Hider) {g : Graph} (hquiet : g.openBatches = 0 → g.stale = false)
    (name : Text) (selector : Option Text) (occasion : HideOccasion) :
    let call := hider.apply name g selector occasion
    ∃ times, g.Batched call.2.1 times (hider.toldAfter g occasion call.2.2) := by
  obtain ⟨changed, hrehide⟩ :=
    Graph.rehide_waiting g.openBatches_startBatch_ne_zero name hider.handle selector occasion
  obtain ⟨times, hbatch⟩ :
      ∃ times, g.Batched (g.batch fun g => g.rehide name hider.handle selector occasion).1 times [] :=
    ⟨_, Graph.batched_batch _ hquiet hrehide⟩
  refine ⟨times, ?_⟩
  unfold apply conclude
  split
  rename_i g' result hcall
  rw [hcall] at hbatch
  cases result with
  | error fault => exact hbatch
  | ok handle =>
    dsimp only [toldAfter]
    rw [HideHandle.layoutRequested_outcome]
    -- the layout is asked for after the batch is closed
    have hlayout : g.Batched
        (if needsLayout occasion selector handle = true then
          (g'.emit Graph.zoomIgnoreEvent [.bool true]).runLayout
            (if occasion.layout = [] then hider.layout else occasion.layout)
        else g') times
        (if needsLayout occasion selector handle = true then
          g.toldLayout (if occasion.layout = [] then hider.layout else occasion.layout)
        else []) := by
      split
      · exact hbatch.runLayout _
      · exact hbatch
    cases handle with
    | none => exact hlayout
    | some h => exact hlayout.note _

namespace Graph

/-! ## Any steps, and then a step or a call -/

/-- `drawAll` of any steps from a quiet graph, in batches or not: a change is rendered at once when
no batch is open, the end of the outermost batch is rendered when something was changed since the
last rendering, and nothing else is. Renderings are counted as they are told, no change waits while
no batch is open, and closing a batch where none is open is refused. Finding and hiding leave as
many batches open as there were, also where they fail, and are rendered once at most; finding that
gives a result is rendered exactly once where no batch is open. -/
theorem renders_deferred {g : Graph} (h : g.IsQuiet) (past : List DrawStep) :
    let now := g.drawAll past
    (∃ times, now.renders = g.renders + times ∧
      now.emissions = g.emissions ++ (List.replicate times g.toldRender).flatten) ∧
      (now.openBatches = 0 → now.stale = false) ∧
      (now.endBatch? = none ↔ now.openBatches = 0) ∧
      (now.openBatches = 0 → now.drawStep .endBatch = now) ∧
      (∀ step : DrawStep, (now.drawStep step).openBatches = step.depthAfter now.openBatches ∧
        (step.IsRendered now.openBatches (g.IsOwed past) → now.RendersOnce (now.drawStep step)) ∧
        (¬step.IsRendered now.openBatches (g.IsOwed past) → now.RendersNot (now.drawStep step))) ∧
      (∀ marker selector,
        let call := now.applyFind marker selector
        ∃ times, now.Batched call.1 times [] ∧
          ∀ ids, call.2 = .ok ids →
            (now.openBatches = 0 → times = 1) ∧ (now.openBatches ≠ 0 → call.1.stale = true)) ∧
      ∀ (hider : Hider) name selector occasion,
        let call := hider.apply name now selector occasion
        ∃ times, now.Batched call.2.1 times (hider.toldAfter now occasion call.2.2) := by
  intro now
  have hdrawn := h.drawn past
  have howed : g.IsOwed past ↔ now.stale = true := hdrawn.stale_iff.symm
  have hrefused (hclosed : now.openBatches = 0) : now.endBatch? = none := endBatch?_of_closed hclosed
  refine ⟨hdrawn.events, hdrawn.quiet, ⟨fun hnone => ?_, hrefused⟩, fun hclosed => ?_, fun step => ?_,
    fun marker selector => batched_applyFind hdrawn.quiet marker selector,
    fun hider name selector occasion => hider.batched_apply hdrawn.quiet name selector occasion⟩
  · -- only the depth 0 refuses an end of a batch
    cases hdepth : now.openBatches with
    | zero => rfl
    | succ depth =>
      rw [endBatch?_of_open hdepth] at hnone
      cases hnone
  · rw [drawStep, hrefused hclosed]
    rfl
  · rw [howed]
    -- what a step does is asked of the reached graph, which owes what the past left it
    exact ⟨openBatches_drawStep now step, rendersOnce_drawStep, rendersNot_drawStep⟩

/-- `renders_deferred` in nested batches: one element is taken out, after a change of nothing was
rendered at once. The inner end is not rendered, and the outer end is. -/
theorem renders_deferred_nested :
    let payload : Value := .list [.object [("data", .object [("id", .text "a")])]]
    let past : List DrawStep := [.mutate (.visibility [] true), .startBatch, .startBatch,
      .mutate (.alter (.remove ["a"])), .endBatch]
    ∃ g, ofValue payload = .ok g ∧
      let now := (g.listen renderEvent "seen").drawAll past
      now.renders = 1 ∧ now.RendersOnce (now.drawStep .endBatch) ∧ (now.drawStep .endBatch).renders = 2 := by
  intro payload past
  let built : Graph := { elements := [{ id := "a", kind := .node, data := [("id", .text "a")] }] }
  have hbuilt : ofValue payload = .ok built := rfl
  let g := built.listen renderEvent "seen"
  have hrenders : (g.drawAll past).renders = 1 := by decide +kernel
  have hdepth : (g.drawAll past).openBatches = 1 := by decide +kernel
  have howed : g.IsOwed past :=
    ⟨[.mutate (.visibility [] true), .startBatch, .startBatch], .alter (.remove ["a"]), [.endBatch], rfl,
      by decide +kernel⟩
  obtain ⟨-, -, -, -, hsteps, -⟩ := renders_deferred ((isQuiet_of_ofValue hbuilt).listen _ "seen") past
  have honce := (hsteps .endBatch).2.1 ⟨hdepth, howed⟩
  exact ⟨built, hbuilt, hrenders, honce, honce.renders.trans (congrArg (· + 1) hrenders)⟩

end Graph

end MeshLens
