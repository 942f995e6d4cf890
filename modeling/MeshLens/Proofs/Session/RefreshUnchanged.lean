import MeshLens.Proofs.Session.SettledQueries
import MeshLens.Proofs.Session.ViewInForce

/-!
# Attaching the same snapshot again

Attaching the attached snapshot again evaluates both queries on it again. While elements are made
invisible only, this changes nothing, however the state was reached: every text is evaluated on the
attached snapshot when it is confirmed and when the snapshot is attached, and a query stays settled
from then on. The exception is a hide query that could not be evaluated when the snapshot was attached,
because finding failed before it: it is evaluated late, as soon as finding succeeds.

## Key results

- `Session.Settles.of_reached`: what is settled at any point of any run
- `Session.refresh_run`: what attaching the attached snapshot again comes to
-/

namespace MeshLens

namespace Session

/-! ## Owed evaluations -/

/-- Whether the hide query is still to be evaluated on the attached snapshot, after a step: another
snapshot may call for it, and so may another text. -/
def Event.owe (owed : Bool) : Event → Bool
  | .asked s (.attach name _) => if s.attached = some name then owed else s.values.hide ≠ []
  | .asked s op => owed || (s.called op).any fun e => e.channel = .hide
  | .evaluated _ e => e.channel = .find && owed

/-- Whether the hide query was `called` for on the attached snapshot, and not evaluated since:
`Event.owe` step after step. -/
def isOwed (past : List Event) : Bool :=
  past.foldl Event.owe false

/-- `isOwed` after one more step is what `Event.owe` makes of it. -/
theorem isOwed_concat (past : List Event) (event : Event) :
    isOwed (past ++ [event]) = event.owe (isOwed past) := by
  rw [isOwed, List.foldl_append]
  rfl

/-- `log` asks for operations of the run only. -/
theorem mem_of_asked_mem_log {s t : Session} {ops : List Operation} {op : Operation}
    (h : .asked t op ∈ s.log ops) : op ∈ ops := by
  induction ops generalizing s with
  | nil => cases h
  | cons first ops ih =>
    rw [log] at h
    rcases List.mem_append.1 h with h | h
    · rcases List.mem_cons.1 h with h | h
      · cases h
        exact List.mem_cons_self
      · obtain ⟨begun, -, h⟩ := List.mem_map.1 h
        cases h
    · exact List.mem_cons_of_mem _ (ih h)

/-! ## What is settled -/

/-- What is settled on the attached snapshot at a point of a run: the find query, unless it is to be
evaluated next, and the hide query, unless its evaluation `isOwed`. Texts that are empty or cannot
be read are not evaluated. -/
structure Settles (past : List Event) (todo : List Evaluation) (s : Session) : Prop where
  nodup : ∀ name, (s.workspace.graphAt name).ids.Nodup
  plain : ∀ channel, Selector.PlainText (s.selectors.get channel)
  soft : Soft s
  found : ∀ name, s.attached = some name → (∃ rest, todo = .find :: rest) ∨ s.values.find = [] ∨
    (isReadable s.values.find = true → FindSettled s name)
  hides : ∀ name, s.attached = some name → isOwed past = true ∨ s.values.hide = [] ∨
    (isReadable s.values.hide = true → HideSettled s name)

variable {s₀ s s' : Session} {past : List Event} {name : Text}

/-- `Compiled` depends on the confirmed text, the selectors and the settings only. -/
theorem Compiled.of_eq {channel : Channel} (h : Compiled s channel)
    (hvalue : s'.values.get channel = s.values.get channel) (hselectors : s'.selectors = s.selectors)
    (hoptions : s'.options = s.options) : Compiled s' channel where
  selector := by
    rw [applied, hvalue, hselectors]
    exact h.selector
  granted := by
    rw [hoptions, hvalue]
    exact h.granted

/-- `FindSettled` depends on the find text, the selectors, the settings, the snapshots and the last
answer only. -/
theorem FindSettled.of_eq (h : FindSettled s name) (hvalue : s'.values.find = s.values.find)
    (hselectors : s'.selectors = s.selectors) (hoptions : s'.options = s.options)
    (hworkspace : s'.workspace = s.workspace) (hlast : s'.lastFind = s.lastFind) :
    FindSettled s' name where
  compiled := h.compiled.of_eq hvalue hselectors hoptions
  marked := by
    rw [hworkspace, hselectors]
    exact h.marked
  answered := by
    rw [hworkspace, hselectors, hlast]
    exact h.answered

/-- `HideSettled` depends on the hide text, the selectors, the settings, the snapshots, the hider
and the last answer only. -/
theorem HideSettled.of_eq (h : HideSettled s name) (hvalue : s'.values.hide = s.values.hide)
    (hselectors : s'.selectors = s.selectors) (hoptions : s'.options = s.options)
    (hworkspace : s'.workspace = s.workspace) (hhider : s'.hider = s.hider)
    (hlast : s'.lastHide = s.lastHide) : HideSettled s' name where
  compiled := h.compiled.of_eq hvalue hselectors hoptions
  rests := by
    rw [hworkspace, hselectors, hhider]
    exact h.rests
  answered := by
    rw [hselectors, hhider, hlast]
    exact h.answered

/-- What `stored` leaves alone, before anything is evaluated. -/
structure Stores (s s' : Session) : Prop where
  selectors : s'.selectors = s.selectors
  options : s'.options = s.options
  workspace : s'.workspace = s.workspace
  attached : s'.attached = s.attached
  hider : s'.hider = s.hider
  lastFind : s'.lastFind = s.lastFind
  lastHide : s'.lastHide = s.lastHide

/-- `stored` satisfies `Stores`, and confirms the text from before, or has the new one evaluated. -/
theorem stored_stores (s : Session) (op : Operation) :
    Stores s (s.stored op) ∧
      (s.dueOnStoring op = [] ∧ (s.stored op).values = s.values ∨
        ∃ channel value, s.dueOnStoring op = [.confirming channel] ∧
          (s.stored op).values = s.values.set channel value) := by
  obtain ⟨inputs, completions, htyped⟩ := s.typed_eq op
  rcases s.stored_spec op with ⟨hstored, hnothing, -⟩ | ⟨channel, value, -, -, hstored, hone⟩
  · rw [hstored, htyped]
    exact ⟨⟨rfl, rfl, rfl, rfl, rfl, rfl, rfl⟩, .inl ⟨hnothing, rfl⟩⟩
  · rw [hstored, htyped]
    exact ⟨⟨rfl, rfl, rfl, rfl, rfl, rfl, rfl⟩, .inr ⟨channel, value, hone, rfl⟩⟩

section Ask

variable (h : Settles past [] s)

include h

/-- `Settles` between two operations: the find query is settled, as it is not to be evaluated next.
-/
theorem Settles.findSettled (hattached : s.attached = some name) :
    s.values.find = [] ∨ (isReadable s.values.find = true → FindSettled s name) := by
  refine (h.found name hattached).resolve_left ?_
  rintro ⟨rest, hnil⟩
  cases hnil

/-- `Settles` is preserved when an operation on an input is asked for: it settles nothing, and
unsettles the query whose text it changes. -/
theorem Settles.ask_input {op : Operation} (hprepare : s.prepare op = s.stored op)
    (hdue : s.due op = s.dueOnStoring op)
    (howe : (Event.asked s op).owe (isOwed past) =
      (isOwed past || (s.called op).any fun e => e.channel = .hide)) :
    Settles (past ++ [.asked s op]) (s.called op) (s.prepare op) := by
  obtain ⟨hstores, hvalues⟩ := s.stored_stores op
  rw [← hprepare] at hstores hvalues
  have hcalled (name : Text) (hattached : s.attached = some name) :
      s.called op = s.dueOnStoring op := by
    rw [called, hstores.attached, hattached, hdue]
  refine ⟨?_, ?_, ?_, fun name hattached => ?found, fun name hattached => ?hides⟩
  · rw [hstores.workspace]
    exact h.nodup
  · rw [hstores.selectors]
    exact h.plain
  · refine ⟨?_, ?_⟩
    · rw [hstores.options]
      exact h.soft.compress
    · rw [hstores.hider]
      exact h.soft.held
  case found =>
    rw [hstores.attached] at hattached
    have hkept (hvalue : (s.prepare op).values.find = s.values.find) :
        (∃ rest, s.called op = .find :: rest) ∨ (s.prepare op).values.find = [] ∨
          (isReadable (s.prepare op).values.find = true → FindSettled (s.prepare op) name) := by
      rw [hvalue]
      refine .inr ((h.findSettled hattached).imp_right fun hsettled hreadable => ?_)
      exact (hsettled hreadable).of_eq hvalue hstores.selectors hstores.options hstores.workspace
        hstores.lastFind
    -- another text to find is evaluated next, and any other change leaves the query settled
    rcases hvalues with ⟨-, hsame⟩ | ⟨channel, value, hone, hset⟩
    · exact hkept (congrArg PerChannel.find hsame)
    · cases channel with
      | find => exact .inl ⟨[], (hcalled name hattached).trans hone⟩
      | hide => exact hkept ((congrArg PerChannel.find hset).trans rfl)
  case hides =>
    rw [hstores.attached] at hattached
    rw [isOwed_concat, howe, hcalled name hattached]
    have hkept (hvalue : (s.prepare op).values.hide = s.values.hide)
        (hnot : (s.dueOnStoring op).any (fun e => e.channel = .hide) = false) :
        (isOwed past || (s.dueOnStoring op).any fun e => e.channel = .hide) = true ∨
          (s.prepare op).values.hide = [] ∨
          (isReadable (s.prepare op).values.hide = true → HideSettled (s.prepare op) name) := by
      rw [hvalue, hnot, Bool.or_false]
      refine (h.hides name hattached).imp_right (Or.imp_right fun hsettled hreadable => ?_)
      exact (hsettled hreadable).of_eq hvalue hstores.selectors hstores.options hstores.workspace
        hstores.hider hstores.lastHide
    -- another text to hide is owed from now on
    rcases hvalues with ⟨hnothing, hsame⟩ | ⟨channel, value, hone, hset⟩
    · exact hkept (congrArg PerChannel.hide hsame) (by rw [hnothing]; rfl)
    · cases channel with
      | find => exact hkept ((congrArg PerChannel.hide hset).trans rfl) (by rw [hone]; rfl)
      | hide =>
        left
        rw [hone]
        exact Bool.or_true _

/-- `Settles` is preserved when a snapshot is attached, on which both queries are evaluated then,
unless it was attached already. -/
theorem Settles.ask_attach (name : Text) (elementsChanged : Option Bool) :
    Settles (past ++ [.asked s (.attach name elementsChanged)])
      (s.called (.attach name elementsChanged)) (s.attachTo name) := by
  refine ⟨h.nodup, h.plain, ⟨h.soft.compress, h.soft.held⟩, fun other hother => ?_,
    fun other hother => ?_⟩
  · obtain rfl : name = other := Option.some.inj hother
    by_cases hfind : s.values.find = []
    · exact .inr (.inl hfind)
    · have hdue : s.called (.attach name elementsChanged) = .find :: _ :=
        congrArg (· ++ _) (if_neg hfind)
      exact .inl ⟨_, hdue⟩
  · obtain rfl : name = other := Option.some.inj hother
    rw [isOwed_concat, Event.owe]
    by_cases hsame : s.attached = some name
    · -- what was owed on the snapshot still is
      rw [if_pos hsame]
      refine (h.hides name hsame).imp_right (Or.imp_right fun hsettled hreadable => ?_)
      exact (hsettled hreadable).of_eq rfl rfl rfl rfl rfl rfl
    · rw [if_neg hsame]
      by_cases hhide : s.values.hide = []
      · exact .inr (.inl hhide)
      · exact .inl (decide_eq_true hhide)

/-- `Settles` is preserved when elements are to be made invisible as before. -/
theorem Settles.ask_soft :
    Settles (past ++ [.asked s (.setCompressOnHide false)]) (s.called (.setCompressOnHide false))
      (s.switchTo false) := by
  have hswitch : s.switchTo false = s := by
    rw [switchTo, ← h.soft.compress]
  have hcalled : s.called (.setCompressOnHide false) = [] := by
    rw [called]
    split
    · rfl
    · exact if_pos (.inl h.soft.compress)
  have howed : isOwed (past ++ [.asked s (.setCompressOnHide false)]) = isOwed past := by
    rw [isOwed_concat]
    show (isOwed past || (s.called (.setCompressOnHide false)).any _) = _
    rw [hcalled]
    exact Bool.or_false _
  rw [hswitch, hcalled]
  exact ⟨h.nodup, h.plain, h.soft, h.found, howed ▸ h.hides⟩

/-- `Settles` is preserved when an operation is asked for, other than one that takes elements out
from then on. -/
theorem Settles.ask {op : Operation} (hop : op ≠ .setCompressOnHide true) :
    Settles (past ++ [.asked s op]) (s.called op) (s.prepare op) := by
  cases op with
  | attach name elementsChanged => exact h.ask_attach name elementsChanged
  | detach =>
    -- nothing is attached, and nothing held
    refine ⟨h.nodup, h.plain, ⟨h.soft.compress, fun _ hheld => ?_⟩, fun _ hnone => ?_,
      fun _ hnone => ?_⟩
    · cases hheld
    · cases hnone
    · cases hnone
  | setCompressOnHide compress =>
    cases compress with
    | true => exact absurd rfl hop
    | false => exact h.ask_soft
  | _ => exact h.ask_input rfl rfl rfl

end Ask

/-! ## Evaluating -/

/-- `Soft` is preserved by `evaluate`. -/
theorem Soft.evaluate (h : Soft s) (name : Text) (e : Evaluation) : Soft (s.evaluate name e).1 where
  compress := (s.evaluate_frame name e).2.2.trans h.compress
  held := by
    have hspec := s.evaluate_spec name e
    by_cases hreadable : isReadable (s.values.get e.channel) = true
    case neg =>
      -- an unreadable value makes no call
      rw [if_neg hreadable] at hspec
      rw [hspec]
      exact h.held
    rw [if_pos hreadable] at hspec
    obtain ⟨g, -, happlies⟩ := hspec
    cases e with
    | find =>
      obtain ⟨-, hhider⟩ := happlies
      rw [hhider]
      exact h.held
    | hide occasion =>
      obtain ⟨occasion', hcompress, -, -, hhider⟩ := happlies
      -- in soft mode the call holds what it made invisible, and takes nothing out
      rw [hhider, Hider.apply_hider]
      exact (Graph.rehide_visible name (fun hd hhd => .inl (h.held hd hhd))
        (hcompress.trans h.compress) _ _).2

/-- `evaluate` keeps the ids of the elements. -/
theorem ids_evaluate (hplain : ∀ channel, Selector.PlainText (s.selectors.get channel)) (name : Text)
    (e : Evaluation) (other : Text) :
    ((s.evaluate name e).1.workspace.graphAt other).ids = (s.workspace.graphAt other).ids := by
  have hspec := s.evaluate_spec name e
  by_cases hreadable : isReadable (s.values.get e.channel) = true
  case neg =>
    rw [if_neg hreadable] at hspec
    rw [hspec]
  rw [if_pos hreadable] at hspec
  obtain ⟨g, hevaluates, happlies⟩ := hspec
  rw [hevaluates.workspace, Workspace.graphAt_put]
  split
  case isFalse => rfl
  rename_i hsame
  subst hsame
  cases e with
  | find =>
    -- a find writes marks only
    have helements := happlies.1.trans (Graph.applyFind_findMarker _ (hevaluates.plain (hplain _)))
    rw [Graph.ids, helements]
    exact (Element.overlooked_withMark Graph.findMarker _).map_id _
  | hide occasion =>
    obtain ⟨occasion', -, -, helements, -⟩ := happlies
    -- hiding changes what is seen and what is in the graph, and no id
    exact Graph.ids_of_bare ((Graph.bare_congr helements).trans (s.hider.apply_bare _ _ _ _))

/-- `Settles` is preserved by `evaluate` on the attached snapshot: its query is settled then, and
the other one stays as it is. -/
theorem Settles.evaluate {e : Evaluation} {rest : List Evaluation} (h : Settles past (e :: rest) s)
    (hattached : s.attached = some name) (todo : List Evaluation) :
    Settles (past ++ [.evaluated s e]) todo (s.evaluate name e).1 := by
  obtain ⟨hvalues, hattached', -⟩ := s.evaluate_frame name e
  have happlied : Selector.PlainText (s.applied e.channel) ∨
      ¬isReadable (s.values.get e.channel) = true := by
    have hspec := s.evaluate_spec name e
    by_cases hreadable : isReadable (s.values.get e.channel) = true
    · rw [if_pos hreadable] at hspec
      obtain ⟨g, hevaluates, -⟩ := hspec
      exact .inl (hevaluates.plain (h.plain _))
    · exact .inr hreadable
  have hname {other : Text} (hother : (s.evaluate name e).1.attached = some other) : other = name := by
    rw [hattached', hattached] at hother
    exact (Option.some.inj hother).symm
  -- the fields before those of the two queries are kept by any evaluation
  refine ⟨fun other => ?_, fun channel => ?_, h.soft.evaluate name e, fun other hother => ?found,
    fun other hother => ?hides⟩
  · rw [ids_evaluate h.plain]
    exact h.nodup other
  · rw [evaluate_selectors, PerChannel.get_set]
    split
    · rcases happlied with hplain | hunreadable
      · exact hplain
      · rw [applied, selectorOf?_eq_none hunreadable]
        exact h.plain _
    · exact h.plain channel
  case found =>
    obtain rfl := hname hother
    rw [hvalues]
    refine .inr ?_
    cases e with
    | find =>
      refine .inr fun hreadable => findSettled_runFind hreadable other ?_
      exact happlied.resolve_right (not_not_intro hreadable)
    | hide occasion =>
      -- an evaluation of the find query would have come first
      have hfound := (h.found other hattached).resolve_left (by rintro ⟨rest, hfirst⟩; cases hfirst)
      exact hfound.imp_right fun hsettled hreadable =>
        (hsettled hreadable).runHide h.soft (h.plain .find) occasion
  case hides =>
    obtain rfl := hname hother
    rw [hvalues, isOwed_concat]
    cases e with
    | find =>
      exact (h.hides other hattached).imp_right (Or.imp_right fun hsettled hreadable =>
        (hsettled hreadable).runFind h.plain)
    | hide occasion =>
      refine .inr (.inr fun hreadable => hideSettled_runHide hreadable h.soft (h.nodup other) ?_ occasion)
      exact happlied.resolve_right (not_not_intro hreadable)

/-- `Settles` holds at every point of a run that starts with it, and in which no elements are taken
out. -/
theorem Settles.of_reached {todo : List Evaluation} (hstart : Settles [] [] s₀)
    (h : Reached s₀ past todo s) :
    (∀ t, .asked t (.setCompressOnHide true) ∉ past) → Settles past todo s := by
  induction h with
  | start => exact fun _ => hstart
  | ask op h ih =>
    intro hsoft
    refine (ih fun t ht => hsoft t (List.mem_append_left _ ht)).ask ?_
    rintro rfl
    exact hsoft _ (List.mem_append_right _ List.mem_cons_self)
  | evaluate h hattached hok ih =>
    exact fun hsoft => (ih fun t ht => hsoft t (List.mem_append_left _ ht)).evaluate hattached _
  | fail h hattached herror ih =>
    exact fun hsoft => (ih fun t ht => hsoft t (List.mem_append_left _ ht)).evaluate hattached _

/-! ## Attaching again -/

/-- `runHide` in states that show the same comes to states that show the same. -/
theorem SameAs.runHide (h : SameAs s s') (name : Text) :
    SameAs (s.runHide name {}).1 (s'.runHide name {}).1 := by
  have happlied : s'.applied .hide = s.applied .hide := by
    rw [applied, applied, h.values, h.selectors]
  have hafter : s'.optionsAfter .hide = s.optionsAfter .hide := by
    rw [optionsAfter, optionsAfter, h.values, h.options]
  have hmeeting : s'.meeting {} = s.meeting {} := by
    rw [meeting, meeting, hafter, h.options]
  by_cases hreadable : isReadable s.values.hide = true
  · have hreadable' : isReadable s'.values.hide = true := h.values ▸ hreadable
    obtain ⟨notices, hrun⟩ := runHide_eq hreadable name {}
    obtain ⟨notices', hrun'⟩ := runHide_eq hreadable' name {}
    rw [hmeeting, happlied, h.hider, hafter] at hrun'
    -- undoing the handle and hiding depend on the elements only
    have hbegin : (s.workspace.graphAt name).startBatch.elements =
        (s'.workspace.graphAt name).startBatch.elements := (h.elements name).symm
    have hrelease := Graph.release_congr hbegin s.hider.handle name (s.meeting {}).graphChanged
    have hcompress : (s.meeting {}).compress = (s.meeting {}).compress := rfl
    obtain ⟨hresult, helements⟩ := Graph.rehide_congr hrelease hcompress (s.applied .hide)
    rw [hrun, hrun']
    refine ⟨fun other => ?_, fun other => ?_, h.attached, ?_, h.lastFind, ?_, h.values, h.inputs, ?_,
      h.params, rfl⟩
    · -- the elements are the same, and so are the layouts, the handle and the answer
      rw [Workspace.graphAt_put, Workspace.graphAt_put]
      split
      · exact (s.hider.apply_elements _ _ _ _).trans
          (helements.symm.trans (s.hider.apply_elements _ _ _ _).symm)
      · exact h.elements other
    · rw [Workspace.graphAt_put, Workspace.graphAt_put]
      split
      · exact (s.hider.apply_layouts_eq _ _ _ rfl rfl rfl).trans
          ((h.layouts name).trans (s.hider.apply_layouts_eq _ _ _ rfl rfl rfl).symm)
      · exact h.layouts other
    · rw [Hider.apply_hider, Hider.apply_hider, hresult]
    · rw [Hider.apply_result, Hider.apply_result, hresult]
      cases (((s'.workspace.graphAt name).startBatch.rehide name s.hider.handle (s.applied .hide)
        (s.meeting {})).2.map _) with
      | error fault => exact h.lastHide
      | ok outcome => rfl
    · rw [h.selectors]
  · rw [runHide_of_unreadable hreadable,
      runHide_of_unreadable (h.values ▸ hreadable : ¬isReadable s'.values.hide = true)]
    exact h

/-- `runHide` asks for no layout where nothing is said to have changed. -/
theorem runHide_layouts (s : Session) (name other : Text) :
    ((s.runHide name {}).1.workspace.graphAt other).layouts =
      (s.workspace.graphAt other).layouts := by
  by_cases hreadable : isReadable s.values.hide = true
  · obtain ⟨notices, hrun⟩ := runHide_eq hreadable name {}
    rw [hrun, Workspace.graphAt_put]
    split
    · rename_i hsame
      subst hsame
      exact s.hider.apply_layouts_eq _ _ _ rfl rfl rfl
    · rfl
  · rw [runHide_of_unreadable hreadable]

/-- The state after `runFind` once more, where there is a text to find. -/
def refound (s : Session) (name : Text) : Session :=
  if s.values.find = [] then s else (s.runFind name).1

/-- Whether `runFind` succeeds once more, or there is nothing to find. -/
def refinds (s : Session) (name : Text) : Bool :=
  s.values.find = [] || (s.runFind name).2.toBool

/-- `attach` of the attached snapshot evaluates both queries again, the hide query only when finding
succeeds. -/
theorem attach_again (hattached : s.attached = some name) (elementsChanged : Option Bool) :
    (s.attach name elementsChanged).1 =
      if s.values.hide ≠ [] ∧ s.refinds name = true then
        ((s.refound name).runHide name {}).1
      else s.refound name := by
  have hsame : s.attachTo name = s := by
    rw [attachTo, ← hattached]
  have hoccasion : s.attaching name elementsChanged = {} := by
    simp [attaching, hattached]
  have hlast (s₁ : Session) :
      s₁.evaluateAll name (if s.values.hide = [] then [] else [.hide {}]) =
        if s.values.hide ≠ [] then (s₁.runHide name {}).1 else s₁ := by
    by_cases hhide : s.values.hide = []
    · rw [if_pos hhide, if_neg (not_not_intro hhide)]
      rfl
    · rw [if_neg hhide, if_pos hhide]
      exact evaluateAll_singleton s₁ name (.hide {})
  rw [attach_eq_evaluateAll, hsame, due, hoccasion, refinds]
  unfold refound
  by_cases hfind : s.values.find = []
  · simp only [hfind, if_true, List.nil_append, decide_true, Bool.true_or, and_true]
    exact hlast s
  · simp only [hfind, if_false, List.cons_append, List.nil_append, decide_false, Bool.false_or]
    -- the hide text is the same after finding, and hiding is the last evaluation
    rw [evaluateAll, evaluate]
    cases hfound : s.runFind name with
    | mk s₁ result =>
      cases result with
      | ok u =>
        simp only [Except.toBool, and_true]
        exact hlast s₁
      | error fault => simp only [Except.toBool, Bool.false_eq_true, and_false, if_false]

section Refresh

variable (h : Settles past [] s) (hattached : s.attached = some name)

include h hattached

/-- `refound` changes nothing, as the find query is settled. -/
theorem Settles.same_refound : SameAs s (s.refound name) := by
  unfold refound
  split
  · exact .refl s
  · rename_i hfind
    exact FindSettled.same ((h.findSettled hattached).resolve_left hfind) (h.plain .find)

/-- `runHide` after `refound` changes nothing, unless it is owed. -/
theorem Settles.same_rehidden (howed : isOwed past = false) (hhide : s.values.hide ≠ []) :
    SameAs (s.refound name) ((s.refound name).runHide name {}).1 := by
  have hsettled : isReadable s.values.hide = true → HideSettled s name := by
    refine ((h.hides name hattached).resolve_left ?_).resolve_left hhide
    rw [howed]
    exact Bool.false_ne_true
  unfold refound
  split
  · exact HideSettled.same hsettled h.soft (h.plain .hide)
  · have hvalues := (s.evaluate_frame name .find).1
    have hselectors := s.evaluate_selectors name .find
    have hplain : Selector.PlainText (s.runFind name).1.selectors.hide := by
      have hkept : (s.runFind name).1.selectors.hide = s.selectors.hide :=
        (congrArg PerChannel.hide hselectors).trans rfl
      rw [hkept]
      exact h.plain .hide
    refine HideSettled.same (fun hreadable => ?_) (h.soft.evaluate name .find) hplain
    rw [show (s.runFind name).1.values = s.values from hvalues] at hreadable
    exact (hsettled hreadable).runFind h.plain

end Refresh

/-- `attach` of the attached snapshot after a `run` that only ever made elements invisible: it
changes nothing and asks for no layout, unless the hide query is owed on the snapshot and finding
succeeds now. Then it comes to the evaluation of the hide query that is owed. -/
theorem refresh_run (options : DisplayOptions) (params : Params) (given : PerChannel Text)
    (presets : PerChannel (List Preset)) {workspace : Workspace}
    (hnodup : ∀ entry ∈ workspace.graphs, entry.2.ids.Nodup)
    (hoptions : options.compressOnHide = false) {ops : List Operation}
    (hops : ∀ op ∈ ops, op ≠ .setCompressOnHide true) {s₀ s : Session}
    (hstart : s₀ = start options params given presets workspace) (hs : s = s₀.run ops) {name : Text}
    (hattached : s.attached = some name) (elementsChanged : Option Bool) :
    let refreshed := (s.attach name elementsChanged).1
    let late := isOwed (s₀.log ops) = true ∧ s.values.hide ≠ [] ∧ s.refinds name = true
    (¬late → SameAs s refreshed) ∧ (late → SameAs (s.runHide name {}).1 refreshed) ∧
      ∀ other, (refreshed.workspace.graphAt other).layouts = (s.workspace.graphAt other).layouts := by
  -- nothing is attached at the start, and so nothing is to be settled there
  have hbegins : Settles [] [] s₀ := by
    subst hstart
    refine ⟨fun name => ?_, fun channel => ?_, ⟨hoptions, fun _ hheld => ?_⟩, fun _ hnone => ?_,
      fun _ hnone => ?_⟩
    · show (workspace.graphAt name).ids.Nodup
      unfold Workspace.graphAt Workspace.graph?
      cases hfound : workspace.graphs.get? name with
      | none => exact List.nodup_nil
      | some g =>
        obtain ⟨entry, hentry, rfl⟩ := Entries.exists_mem_of_get? hfound
        exact hnodup entry hentry
    · have hnone : (start options params given presets workspace).selectors.get channel = none :=
        PerChannel.get_both none channel
      rw [hnone]
      exact fun text selector hsome => nomatch hsome
    · cases hheld
    · cases hnone
    · cases hnone
  have hsettles := Settles.of_reached hbegins (reached_run s₀ ops) fun t hasked =>
    hops _ (mem_of_asked_mem_log hasked) rfl
  rw [← hs] at hsettles
  intro refreshed late
  have hsame := hsettles.same_refound hattached
  have hrefreshed : refreshed = _ := attach_again hattached elementsChanged
  have hpunctual : ¬late → SameAs s refreshed := by
    intro hnot
    rw [hrefreshed]
    split
    · rename_i hboth
      have howed : isOwed (s₀.log ops) = false := Bool.eq_false_iff.2 fun howed => hnot ⟨howed, hboth⟩
      exact hsame.trans (hsettles.same_rehidden hattached howed hboth.1)
    · exact hsame
  have hbelated : late → SameAs (s.runHide name {}).1 refreshed := by
    rintro ⟨-, hboth⟩
    rw [hrefreshed, if_pos hboth]
    exact hsame.runHide name
  refine ⟨hpunctual, hbelated, fun other => ?_⟩
  by_cases hlate : late
  · exact ((hbelated hlate).layouts other).trans (s.runHide_layouts name other)
  · exact (hpunctual hlate).layouts other

/-- `refresh_run` where a box is invisible already when its nodes are hidden once more: two nodes
and their box are hidden, and then another snapshot is attached in between. Attaching the snapshot
again leaves it so. -/
theorem refresh_run_stale :
    ∃ g, Graph.ofValue Hider.boxedPayload = .ok g ∧
      let s := (overTwo g g).run [.setValue .hide "app = x", .attach "g" none,
        .setValue .find "app = x", .attach "h" none, .attach "g" none]
      s.lastHide.map (·.hidden) = some (["a", "a->b", "b"] : List Text) ∧
        s.lastFind = some (["a"] : List Text) ∧ SameAs s (s.attach "g" (some true)).1 := by
  have hbuilt : ∃ g, Graph.ofValue Hider.boxedPayload = .ok g ∧
      let ops := [.setValue .hide "app = x", .attach "g" none, .setValue .find "app = x",
        .attach "h" none, .attach "g" none]
      let s := (overTwo g g).run ops
      s.lastHide.map (·.hidden) = some (["a", "a->b", "b"] : List Text) ∧
        s.lastFind = some (["a"] : List Text) ∧ s.attached = some (Text.ofString "g") ∧
        isOwed ((overTwo g g).log ops) = false :=
    ⟨_, rfl, by decide +kernel⟩
  obtain ⟨g, hg, hhidden, hfound, hattached, howed⟩ := hbuilt
  have hnodup : ∀ entry ∈ (⟨[("g", g), ("h", g)]⟩ : Workspace).graphs, entry.2.ids.Nodup :=
    List.forall_mem_cons.2 ⟨(Graph.ofValue_untouched hg).nodup,
      List.forall_mem_singleton.2 (Graph.ofValue_untouched hg).nodup⟩
  refine ⟨g, hg, hhidden, hfound, ?_⟩
  have hrun := refresh_run {} {} (.both []) (.both []) hnodup rfl (by simp) rfl rfl hattached (some true)
  refine hrun.1 fun hlate => ?_
  cases howed.symm.trans hlate.1

/-- `refresh_run` where the hide query is still to be evaluated, since finding came upon a text that
is taken for a number and is none. Then nothing is to be found any more, and attaching the snapshot
again hides a node. -/
theorem refresh_run_owed :
    ∃ g, Graph.ofValue separatedPayload = .ok g ∧
      let s := (overTwo g g).run [.setValue .hide "app = x", .setValue .find "httpin > 3",
        .attach "g" none, .setValue .find []]
      s.attached = some (Text.ofString "g") ∧ ¬SameAs s (s.attach "g" none).1 := by
  have hbuilt : ∃ g, Graph.ofValue separatedPayload = .ok g ∧
      let s := (overTwo g g).run [.setValue .hide "app = x", .setValue .find "httpin > 3",
        .attach "g" none, .setValue .find []]
      s.attached = some (Text.ofString "g") ∧
        ((s.attach "g" none).1.workspace.graphAt "g").view ≠ (s.workspace.graphAt "g").view :=
    ⟨_, rfl, by decide +kernel⟩
  obtain ⟨g, hg, hattached, hview⟩ := hbuilt
  refine ⟨g, hg, hattached, fun hsame => hview ?_⟩
  rw [Graph.view, hsame.elements]
  rfl

end Session

end MeshLens
