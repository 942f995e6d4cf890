import MeshLens.Proofs.Hide.OtherSnapshots
import MeshLens.Proofs.Session.ViewInForce

/-!
# Snapshots that are not attached

A session works on the snapshot that is attached. Once another one has taken its place, a snapshot stays
as it was left, with all its style classes, with what is hidden in it and with what was drawn of it:
whatever the session still remembers of it, and whichever evaluations on the other one fail.

## Key results

- `Session.evaluateAll_frame`: evaluations leave all but their snapshot alone
- `Session.perform_bystander`, `Session.run_bystander`: so does an operation, and any run
- `Session.run_leaves_replaced`: what happens to a snapshot that was replaced
-/

namespace MeshLens

namespace Session

variable {s : Session} {name other : Text}

/-- `evaluate` on a snapshot leaves all others alone. -/
theorem evaluate_graphAt (hne : name ≠ other) (e : Evaluation) :
    (s.evaluate name e).1.workspace.graphAt other = s.workspace.graphAt other := by
  have hspec := s.evaluate_spec name e
  split at hspec
  · obtain ⟨g, hevaluates, -⟩ := hspec
    rw [hevaluates.workspace, Workspace.graphAt_put, if_neg hne]
  · rw [hspec]

/-- `evaluateAll` on a snapshot leaves all others alone, up to the first evaluation that fails. -/
theorem evaluateAll_frame (hne : name ≠ other) (es : List Evaluation) :
    (s.evaluateAll name es).workspace.graphAt other = s.workspace.graphAt other ∧
      (s.evaluateAll name es).attached = s.attached := by
  -- induction on the evaluations
  induction es generalizing s with
  | nil => exact ⟨rfl, rfl⟩
  | cons e es ih =>
    have hgraph := evaluate_graphAt (s := s) hne e
    have hattached := (s.evaluate_frame name e).2.1
    -- an evaluation that fails is the last one, and leaves the others alone all the same
    unfold evaluateAll
    split
    · rename_i s' hevaluate
      rw [hevaluate] at hgraph hattached
      exact ⟨ih.1.trans hgraph, ih.2.trans hattached⟩
    · rename_i s' fault hevaluate
      rw [hevaluate] at hgraph hattached
      exact ⟨hgraph, hattached⟩

/-- `perform` leaves a snapshot alone that is not attached when the operation begins to evaluate. -/
theorem perform_bystander {op : Operation} (hother : (s.prepare op).attached ≠ some other) :
    (s.perform op).workspace.graphAt other = s.workspace.graphAt other ∧
      (s.perform op).attached ≠ some other := by
  have hworkspace := (s.prepare_spec op).workspace
  rw [perform_eq]
  cases hattached : (s.prepare op).attached with
  | none => exact ⟨congrArg (·.graphAt other) hworkspace, hother⟩
  | some name =>
    have hne : name ≠ other := fun hname => hother (hattached.trans (congrArg some hname))
    obtain ⟨hgraph, hsame⟩ := (s.prepare op).evaluateAll_frame hne (s.due op)
    exact ⟨hgraph.trans (congrArg (·.graphAt other) hworkspace), fun hback => hother (hsame ▸ hback)⟩

/-- `run` leaves a snapshot alone that is not attached at first, and that no operation attaches. -/
theorem run_bystander {ops : List Operation} (hother : s.attached ≠ some other)
    (hops : ∀ op ∈ ops, ∀ elementsChanged, op ≠ .attach other elementsChanged) :
    (s.run ops).workspace.graphAt other = s.workspace.graphAt other := by
  -- induction on the operations; the snapshot is still not attached after the first of them
  induction ops generalizing s with
  | nil => rfl
  | cons op ops ih =>
    have hprepared : (s.prepare op).attached ≠ some other := by
      rw [(s.prepare_spec op).attached]
      -- only attaching it could bring it back
      cases op with
      | attach name elementsChanged =>
        intro hname
        exact hops _ List.mem_cons_self elementsChanged (by rw [Option.some.inj hname])
      | detach => exact nofun
      | _ => exact hother
    obtain ⟨hgraph, hstill⟩ := perform_bystander hprepared
    exact (ih hstill fun op hop => hops op (List.mem_cons_of_mem _ hop)).trans hgraph

/-- `run` from the operation on that attaches another snapshot in its place: as long as it is not
attached again, a snapshot stays as it was left, whatever is asked of the session and whatever
fails. Nor does a `Hider` change it that is used on the other snapshot while it holds a handle on
this one, told over all snapshots (`Workspace.hide`) or on the other one alone (`Hider.apply`). The
handle that it holds then is on the other one. -/
theorem run_leaves_replaced (s : Session) {old new : Text} (hne : old ≠ new)
    (elementsChanged : Option Bool) {ops : List Operation}
    (hops : ∀ op ∈ ops, ∀ elementsChanged, op ≠ .attach old elementsChanged) :
    (s.run (.attach new elementsChanged :: ops)).workspace.graphAt old = s.workspace.graphAt old ∧
      ∀ (w : Workspace) (hider : Hider) (selector : Option Text) (occasion : HideOccasion),
        let call := w.hide new hider selector occasion
        call.2.1.graphAt old = w.graphAt old ∧
          (∀ h, call.1.handle = some h → h.graph = new) ∧
          hider.apply new (w.graphAt new) selector occasion =
            (call.1, call.2.1.graphAt new, call.2.2) := by
  constructor
  · -- attaching the new snapshot leaves the old one behind, and no later call comes back to it
    have hnew : (s.prepare (.attach new elementsChanged)).attached ≠ some old :=
      fun hname => hne (Option.some.inj hname).symm
    obtain ⟨hgraph, hstill⟩ := perform_bystander hnew
    exact (run_bystander hstill hops).trans hgraph
  · intro w hider selector occasion call
    -- an evaluator on the workspace writes only under the name it is given
    obtain ⟨hhider, hresult, hgraphs⟩ := w.hide_spec new hider selector occasion
    refine ⟨(hgraphs old).trans (if_neg hne.symm), fun h hhandle => ?_, ?_⟩
    · exact Hider.graph_of_apply (hhider ▸ hhandle)
    · rw [show call.1 = _ from hhider, show call.2.2 = _ from hresult,
        show call.2.1.graphAt new = _ from (hgraphs new).trans (if_pos rfl)]

/-- `run_leaves_replaced` where the hider still holds a handle on the snapshot before: finding fails
in the snapshot that is attached next, and then the way of hiding is switched and more evaluations
fail. The node stays hidden there. -/
theorem run_leaves_replaced_held :
    ∃ g h, Graph.ofValue singlePayload = .ok g ∧ Graph.ofValue separatedPayload = .ok h ∧
      let s := (overTwo g h).run [.attach "g" none, .setValue .hide "app = x",
        .setValue .find "httpin > 3"]
      let ops := [.setCompressOnHide true, .submit .find, .setValue .hide "httpin > 4", .detach,
        .attach "h" (some true)]
      s.hider.handle = some ⟨"g", .hidden, ["a"]⟩ ∧
        (s.attach "h" none).2.toOption = none ∧ (s.attach "h" none).1.hider = s.hider ∧
        (s.run (.attach "h" none :: ops)).workspace.graphAt "g" = s.workspace.graphAt "g" ∧
        (s.workspace.graphAt "g").elements.map (·.visible) = [false] ∧
        (s.workspace.hide "h" s.hider none {}).2.1.graphAt "g" = s.workspace.graphAt "g" := by
  have hbuilt : ∃ g h, Graph.ofValue singlePayload = .ok g ∧
      Graph.ofValue separatedPayload = .ok h ∧
      let s := (overTwo g h).run [.attach "g" none, .setValue .hide "app = x",
        .setValue .find "httpin > 3"]
      s.hider.handle = some ⟨"g", .hidden, ["a"]⟩ ∧
        (s.attach "h" none).2.toOption = none ∧ (s.attach "h" none).1.hider = s.hider ∧
        (s.workspace.graphAt "g").elements.map (·.visible) = [false] :=
    -- the facts about the two payloads are evaluated at once, and named
    ⟨_, _, rfl, rfl, by decide +kernel⟩
  obtain ⟨g, h, hg, hh, hhandle, hfails, hkept, hhidden⟩ := hbuilt
  refine ⟨g, h, hg, hh, ?_⟩
  intro s ops
  have hne : Text.ofString "g" ≠ Text.ofString "h" := by decide
  have hops : ∀ op ∈ ops, ∀ elementsChanged, op ≠ .attach "g" elementsChanged := by
    rintro op hop elementsChanged rfl
    simp [ops, hne] at hop
  obtain ⟨hrun, hcall⟩ := run_leaves_replaced s hne none hops
  exact ⟨hhandle, hfails, hkept, hrun, hhidden, (hcall s.workspace s.hider none {}).1⟩

end Session

end MeshLens
