import MeshLens.Proofs.Find.MarkingEffect
import MeshLens.Proofs.Graph.BuiltInvariant
import MeshLens.Proofs.Hide.HideFrame
import MeshLens.Proofs.Session.Run

/-!
# What the find query has marked

The find query is evaluated on the live elements of a snapshot, and hiding neither sees marks nor
changes them. So at any time an element carries the mark just when it matches the selector that was
evaluated last on its snapshot, and was in the graph then. An element that was taken out at that time
and has been put back since is never marked, whether it matches or not: the marks are in step with
the query just as long as there is none.

## Key results

- `Session.Traced`, `Session.Traced.run`: the marks of every snapshot, after any run
- `Session.inStep_iff`: when the marks are those of the query in effect
-/

namespace MeshLens

/-- What an evaluation of a find query marked: all that matched the selector among the elements that
were looked at (`Graph.lookedAt`). -/
structure Finding where
  selector : Option Text := none
  seen : List Text := []

/-- Whether the marks of a snapshot are those of a `Finding`. -/
structure Graph.MarkedBy (g : Graph) (f : Finding) : Prop where
  nodup : g.ids.Nodup
  plain : Selector.PlainText f.selector
  marked_iff : ∀ e ∈ g.elements,
    findMarker ∈ e.classes ↔ e.Matches f.selector ∧ e.id ∈ f.seen

namespace Graph

/-- `MarkedBy` is preserved by hiding, which leaves `bare` alone. -/
theorem MarkedBy.of_bare {g g' : Graph} {f : Finding} (hg : g.MarkedBy f)
    (h : g'.bare = g.bare) : g'.MarkedBy f where
  nodup := by
    rw [ids_of_bare h]
    exact hg.nodup
  plain := hg.plain
  marked_iff := by
    intro e' he'
    -- the element is one from before, but for the two flags that hiding changes
    have hmem : e'.bare ∈ g.bare := by
      rw [← h]
      exact List.mem_map_of_mem he'
    obtain ⟨e, he, hsame⟩ := List.mem_map.1 hmem
    obtain ⟨hid, hkind, hdata, hclasses⟩ : e.id = e'.id ∧ e.kind = e'.kind ∧ e.data = e'.data ∧
        e.classes = e'.classes := by
      simp only [Element.bare, Element.mk.injEq] at hsame
      exact ⟨hsame.1, hsame.2.1, hsame.2.2.1, hsame.2.2.2.1⟩
    rw [← hid, ← hclasses, ← Element.matches_congr hg.plain hkind hdata]
    exact hg.marked_iff e he

/-- `applyFind` marks what `MarkedBy` says: the matches among the elements that are looked at. -/
theorem markedBy_of_applyFind {g g' : Graph} (hnodup : g.ids.Nodup) {selector : Option Text}
    (hplain : Selector.PlainText selector)
    (h : g'.elements = (g.applyFind findMarker selector).1.elements) :
    g'.MarkedBy ⟨selector, g.lookedAt selector⟩ := by
  rw [g.applyFind_findMarker hplain] at h
  -- marking keeps the ids, and puts the mark on just what is found
  have hids : g'.ids = g.ids := by
    rw [ids, ids, h, List.map_map]
    refine List.map_congr_left fun e _ => ?_
    exact (Element.withMark_frame _ _ e).1
  refine ⟨by rw [hids]; exact hnodup, hplain, fun e' he' => ?_⟩
  rw [h] at he'
  obtain ⟨e, he, rfl⟩ := List.mem_map.1 he'
  obtain ⟨hid, hkind, hdata, -, -⟩ :=
    e.withMark_frame findMarker (e.id ∈ g.found selector)
  have hmark : findMarker ∈ (e.withMark findMarker (e.id ∈ g.found selector)).classes ↔
      e.id ∈ g.found selector :=
    Element.mem_classes_withMark.trans decide_eq_true_iff
  have hmatches := Element.matches_congr hplain hkind hdata
  refine hmark.trans ((mem_found hnodup he).trans ?_)
  simp only [hid]
  exact and_congr_left fun _ => hmatches.symm

end Graph

namespace Session

/-! ## Following the evaluations -/

/-- The snapshot that an operation evaluates the find query on, if it does: the one that is attached
when another text is confirmed, or one that `attach` attaches while there is a text. -/
def finds? (s : Session) : Operation → Option Text
  | .attach name _ => if s.values.find = [] then none else some name
  | op => if (s.perform op).values.find = s.values.find then none else s.attached

/-- What is known of the marks of each snapshot, when the find query may have been evaluated on one
of them between two states. A text that is not `isReadable` is not evaluated. -/
def noted (s s' : Session) (evaluated : Option Text) (findings : Text → Finding) :
    Text → Finding :=
  match evaluated with
  | none => findings
  | some name =>
    if isReadable s'.values.find then fun other =>
      if name = other then
        ⟨s'.selectors.find, (s.workspace.graphAt name).lookedAt s'.selectors.find⟩
      else findings other
    else findings

/-- What is known of the marks of each snapshot after `perform`. -/
def follow (s : Session) (op : Operation) (findings : Text → Finding) : Text → Finding :=
  noted s (s.perform op) (s.finds? op) findings

/-- What is known of the marks of each snapshot after `run`. -/
def followAll (s : Session) (findings : Text → Finding) : List Operation → Text → Finding
  | [] => findings
  | op :: ops => (s.perform op).followAll (s.follow op findings) ops

/-- The invariant of the marks: every snapshot is `MarkedBy` what is known, and the attached one by
the query in effect. -/
structure Traced (s : Session) (findings : Text → Finding) : Prop where
  graphs : ∀ name, (s.workspace.graphAt name).MarkedBy (findings name)
  plain : Selector.PlainText s.selectors.find
  current : ∀ name, s.attached = some name → s.values.find ≠ [] →
    isReadable s.values.find = true → (findings name).selector = s.selectors.find

/-! ## Steps -/

variable {s : Session} {findings : Text → Finding}

/-- `Traced` is preserved by `runHide`, which changes nothing that is known. -/
theorem Traced.runHide (h : s.Traced findings) (name : Text) (occasion : HideOccasion) :
    (s.runHide name occasion).1.Traced findings ∧
      (s.runHide name occasion).1.values = s.values ∧
      (s.runHide name occasion).1.selectors.find = s.selectors.find := by
  have hspec := s.runHide_spec name occasion
  split at hspec
  · obtain ⟨selector, occasion', g, hevaluates, hg, -⟩ := hspec
    have hfind : (s.runHide name occasion).1.selectors.find = s.selectors.find := by
      rw [hevaluates.selectors]
      rfl
    refine ⟨⟨fun other => ?_, ?_, ?_⟩, hevaluates.values, hfind⟩
    · -- one snapshot is hidden on, the others stay
      rw [hevaluates.workspace, Workspace.graphAt_put]
      split
      · rename_i hname
        subst hname
        refine (h.graphs name).of_bare ?_
        exact (Graph.bare_congr hg).trans (s.hider.apply_bare name _ selector occasion')
      · exact h.graphs other
    · rw [hfind]
      exact h.plain
    · rw [hevaluates.attached, hevaluates.values, hfind]
      exact h.current
  · rw [hspec]
    exact ⟨h, rfl, rfl⟩

/-- `Traced` holds after `runFind` on the attached snapshot, whose marks become those of the query
in effect, unless the text cannot be read. -/
theorem traced_runFind {name : Text} (hgraphs : ∀ name, (s.workspace.graphAt name).MarkedBy
    (findings name)) (hplain : Selector.PlainText s.selectors.find)
    (hattached : s.attached = some name) :
    (s.runFind name).1.Traced (noted s (s.runFind name).1 (some name) findings) ∧
      (s.runFind name).1.values = s.values := by
  have hspec := s.runFind_spec name
  by_cases hreadable : isReadable s.values.find = true
  · rw [if_pos hreadable] at hspec
    obtain ⟨selector, g, hevaluates, hg, -⟩ := hspec
    have hselector : (s.runFind name).1.selectors.find = selector := by
      rw [hevaluates.selectors]
      rfl
    have hplain' : Selector.PlainText selector := hevaluates.plain hplain
    have hreadable' : isReadable (s.runFind name).1.values.find = true := by
      rw [hevaluates.values, hreadable]
    simp only [noted, if_pos hreadable', hselector]
    refine ⟨⟨fun other => ?_, ?_, ?_⟩, hevaluates.values⟩
    · rw [hevaluates.workspace, Workspace.graphAt_put]
      -- the snapshot that was evaluated on has new marks, the others keep theirs
      by_cases hname : name = other
      · rw [if_pos hname, if_pos hname]
        exact Graph.markedBy_of_applyFind (hgraphs name).nodup hplain' hg
      · rw [if_neg hname, if_neg hname]
        exact hgraphs other
    · rw [hselector]
      exact hplain'
    · intro other hother _ _
      rw [hevaluates.attached, hattached] at hother
      rw [if_pos (Option.some.inj hother), hselector]
  · rw [if_neg hreadable] at hspec
    simp only [noted, hspec, if_neg hreadable]
    exact ⟨⟨hgraphs, hplain, fun _ _ _ h => absurd h hreadable⟩, trivial⟩

/-- `Traced` is preserved by `confirm`, which evaluates the find query when it is another text than
before. -/
theorem Traced.confirm (h : s.Traced findings) (channel : Channel) (value : Text) :
    (s.confirm channel value).1.Traced (noted s (s.confirm channel value).1
      (if (s.confirm channel value).1.values.find = s.values.find then none else s.attached)
      findings) := by
  rw [confirm_eq]
  by_cases hsame : s.values.get channel = value
  · rw [if_pos hsame, if_pos rfl]
    exact h
  · rw [if_neg hsame]
    cases hattached : s.attached with
    | none =>
      simp only [ite_self]
      exact ⟨h.graphs, h.plain, fun name hname => nomatch hattached.symm.trans hname⟩
    | some name =>
      have hstored : (s.store channel value).attached = some name := hattached
      cases channel with
      | find =>
        obtain ⟨htraced, hvalues⟩ := traced_runFind (s := s.store .find value) h.graphs h.plain
          hstored
        -- another text is confirmed, so the note is of this evaluation
        have hchanged : ¬((s.store .find value).runFind name).1.values.find = s.values.find := by
          rw [hvalues]
          exact fun hback => hsame hback.symm
        simp only [if_neg hchanged]
        exact htraced
      | hide =>
        have hbefore : (s.store .hide value).Traced findings :=
          ⟨h.graphs, h.plain, h.current⟩
        obtain ⟨htraced, hvalues, -⟩ := hbefore.runHide name { hideChanged := true }
        -- the find text is the same as before, so nothing is noted
        have hunchanged : ((s.store .hide value).runHide name
            { hideChanged := true }).1.values.find = s.values.find := by
          rw [hvalues]
          rfl
        simp only [if_pos hunchanged]
        exact htraced

/-- `Traced` is preserved by what changes neither the confirmed texts, the selectors nor a snapshot.
-/
theorem Traced.of_eq {s' : Session} (h : s.Traced findings) (hworkspace : s'.workspace = s.workspace)
    (hselectors : s'.selectors = s.selectors) (hvalues : s'.values = s.values)
    (hattached : s'.attached = s.attached) : s'.Traced findings where
  graphs := by
    rw [hworkspace]
    exact h.graphs
  plain := by
    rw [hselectors]
    exact h.plain
  current := by
    rw [hattached, hvalues, hselectors]
    exact h.current

/-- `Traced` is preserved by `attach`, which evaluates the find query on the snapshot when there is
a text. -/
theorem Traced.attach (h : s.Traced findings) (name : Text) (elementsChanged : Option Bool) :
    (s.attach name elementsChanged).1.Traced (noted s (s.attach name elementsChanged).1
      (if s.values.find = [] then none else some name) findings) := by
  obtain ⟨s₁, hs₁, hhide⟩ := s.attach_spec name elementsChanged
  have hafter {findings : Text → Finding} (htraced : s₁.Traced findings) :
      (s.attach name elementsChanged).1.Traced findings ∧
        (s.attach name elementsChanged).1.values = s₁.values ∧
        (s.attach name elementsChanged).1.selectors.find = s₁.selectors.find := by
    rcases hhide with hsame | ⟨occasion, hsame⟩
    · rw [hsame]
      exact ⟨htraced, rfl, rfl⟩
    · rw [hsame]
      exact htraced.runHide name occasion
  -- cases: without a text to find, only hiding may change the snapshot
  by_cases hfind : s.values.find = []
  · rw [if_pos hfind] at hs₁ ⊢
    have hvalues : s₁.values.find = [] := by
      rw [hs₁]
      exact hfind
    refine (hafter ⟨?_, ?_, fun _ _ hne => absurd hvalues hne⟩).1
    · rw [hs₁]
      exact h.graphs
    · rw [hs₁]
      exact h.plain
  · rw [if_neg hfind] at hs₁ ⊢
    obtain ⟨htraced, -⟩ := traced_runFind (s := s.attachTo name) h.graphs h.plain rfl
    rw [← hs₁] at htraced
    obtain ⟨hlast, hvalues, hselectors⟩ := hafter htraced
    -- hiding comes after finding, and leaves what the note is made of alone
    have hnoted : noted s (s.attach name elementsChanged).1 (some name) findings =
        noted (s.attachTo name) s₁ (some name) findings := by
      simp only [noted, hvalues, hselectors]
      rfl
    rw [hnoted]
    exact hlast

/-- `Traced` needs no note where the confirmed texts stay the same, as the find query was not
evaluated then. -/
theorem Traced.unchanged {s' : Session} (h : s'.Traced findings) (hvalues : s'.values = s.values)
    (attached : Option Text) :
    s'.Traced (noted s s' (if s'.values.find = s.values.find then none else attached) findings) := by
  rw [hvalues, if_pos rfl]
  exact h

/-- `Traced` is preserved by `setValue`, which evaluates what confirming the text does. -/
theorem Traced.setValue (h : s.Traced findings) (channel : Channel) (value : Text) :
    (s.setValue channel value).1.Traced (noted s (s.setValue channel value).1
      (if (s.setValue channel value).1.values.find = s.values.find then none else s.attached)
      findings) := by
  have hinput : ((s.prime channel value []).setInput channel value).Traced findings :=
    h.of_eq rfl rfl rfl rfl
  exact hinput.confirm channel value

/-- `Traced` is preserved by `updateInput`, which evaluates what confirming does, or nothing. -/
theorem Traced.updateInput (h : s.Traced findings) (channel : Channel) (text : Text) :
    (s.updateInput channel text).1.Traced (noted s (s.updateInput channel text).1
      (if (s.updateInput channel text).1.values.find = s.values.find then none else s.attached)
      findings) := by
  have hinput : ((s.prime channel text typingStops).setInput channel text).Traced findings :=
    h.of_eq rfl rfl rfl rfl
  -- clearing and pasting confirm the text, typing does not
  by_cases htext : text = []
  · have hclear : s.updateInput channel text = s.setValue channel [] := if_pos htext
    rw [hclear]
    exact h.setValue channel []
  · by_cases hgap : 1 < lengthGap text (s.inputs.get channel)
    · have hpaste : s.updateInput channel text =
          ((s.prime channel text typingStops).setInput channel text).confirm channel text :=
        (if_neg htext).trans (if_pos hgap)
      rw [hpaste]
      exact hinput.confirm channel text
    · have htype : s.updateInput channel text =
          ((s.prime channel text typingStops).setInput channel text, .ok ()) :=
        (if_neg htext).trans (if_neg hgap)
      rw [htype]
      exact hinput.unchanged rfl s.attached

/-- `Traced` is preserved by `selectPreset`, which confirms an expression, or does nothing. -/
theorem Traced.selectPreset (h : s.Traced findings) (channel : Channel) (index : Int) :
    (s.selectPreset channel index).1.Traced (noted s (s.selectPreset channel index).1
      (if (s.selectPreset channel index).1.values.find = s.values.find then none else s.attached)
      findings) := by
  cases hpreset : preset? (s.presets.get channel) index with
  | none =>
    have hnothing : (s.selectPreset channel index).1 = s := by
      simp only [Session.selectPreset, hpreset]
    rw [hnothing]
    exact h.unchanged rfl s.attached
  | some preset =>
    have hset : (s.selectPreset channel index).1 = (s.setValue channel preset.expression).1 := by
      simp only [Session.selectPreset, hpreset]
    rw [hset]
    exact h.setValue channel preset.expression

/-- `Traced` is preserved by `perform`, whatever the operation is. -/
theorem Traced.perform (h : s.Traced findings) (op : Operation) :
    (s.perform op).Traced (s.follow op findings) := by
  cases op with
  | updateInput channel text => exact h.updateInput channel text
  | complete channel =>
    -- completing changes inputs only
    have hspec : (s.complete channel).1.values = s.values ∧
        (s.complete channel).1.Traced findings := by
      unfold complete
      split
      split
      · exact ⟨rfl, h.of_eq rfl rfl rfl rfl⟩
      · exact ⟨rfl, h.of_eq rfl rfl rfl rfl⟩
    exact hspec.2.unchanged hspec.1 s.attached
  | submit channel => exact h.confirm channel (s.inputs.get channel)
  | setValue channel value => exact h.setValue channel value
  | selectPreset channel index => exact h.selectPreset channel index
  | attach name elementsChanged => exact h.attach name elementsChanged
  | detach =>
    have hdetached : s.detach.Traced findings :=
      ⟨h.graphs, h.plain, fun name hname => nomatch hname⟩
    exact hdetached.unchanged rfl s.attached
  | setCompressOnHide compress =>
    -- switching the way of hiding may put elements back, but marks none
    have hswitched : (s.switchTo compress).Traced findings := h.of_eq rfl rfl rfl rfl
    have hspec : (s.setCompressOnHide compress).1.values = s.values ∧
        (s.setCompressOnHide compress).1.Traced findings := by
      rw [setCompressOnHide_eq]
      split
      · exact ⟨rfl, h⟩
      · split
        · exact ⟨rfl, hswitched⟩
        · rename_i name _
          split
          · exact ⟨rfl, hswitched⟩
          · obtain ⟨htraced, hvalues, -⟩ :=
              hswitched.runHide name { compressChanged := true }
            exact ⟨hvalues, htraced⟩
    exact hspec.2.unchanged hspec.1 s.attached

/-! ## Runs -/

/-- `Traced` is preserved by `run`. -/
theorem Traced.run (h : s.Traced findings) (ops : List Operation) :
    (s.run ops).Traced (s.followAll findings ops) := by
  induction ops generalizing s findings with
  | nil => exact h
  | cons op ops ih => exact ih (h.perform op)

/-- `Traced` holds after `start` over snapshots as they were built, without marks. -/
theorem traced_start (options : DisplayOptions) (params : Params) (given : PerChannel Text)
    (presets : PerChannel (List Preset)) {workspace : Workspace}
    (hworkspace : ∀ entry ∈ workspace.graphs, (∃ payload, Graph.ofValue payload = .ok entry.2) ∧
      ∀ e ∈ entry.2.elements, Graph.findMarker ∉ e.classes) :
    (start options params given presets workspace).Traced fun _ => {} where
  graphs := by
    intro name
    have hnone : Selector.PlainText none := fun text s hnone => nomatch hnone
    show (workspace.graphAt name).MarkedBy {}
    unfold Workspace.graphAt Workspace.graph?
    cases hfound : workspace.graphs.get? name with
    | none => exact ⟨List.nodup_nil, hnone, fun e he => absurd he List.not_mem_nil⟩
    | some g =>
      obtain ⟨entry, hentry, rfl⟩ := Entries.exists_mem_of_get? hfound
      obtain ⟨⟨payload, hpayload⟩, hunmarked⟩ := hworkspace entry hentry
      refine ⟨(Graph.ofValue_untouched hpayload).nodup, hnone, fun e he => ?_⟩
      exact iff_of_false (hunmarked e he) fun hmatches => nomatch hmatches.2
  plain := fun text s hnone => nomatch hnone
  current := fun name hname => nomatch hname

/-- Whether the live elements of a snapshot that carry the mark are those that match the selector of
the find query. -/
def InStep (s : Session) (name : Text) : Prop :=
  ∀ e ∈ (s.workspace.graphAt name).live,
    Graph.findMarker ∈ e.classes ↔ e.Matches s.selectors.find

/-- `InStep` can be decided on the finite list of live elements. -/
instance (s : Session) (name : Text) : Decidable (s.InStep name) :=
  inferInstanceAs (Decidable (∀ e ∈ (s.workspace.graphAt name).live,
    Graph.findMarker ∈ e.classes ↔ e.Matches s.selectors.find))

/-- `InStep` holds of the attached snapshot after `run`, with a find query, just when every live
element that matches was in the graph when the query was evaluated last. In any case the marks are
those of the last evaluation on the snapshot, which was of the query in effect unless its text
cannot be read. -/
theorem inStep_iff (options : DisplayOptions) (params : Params) (given : PerChannel Text)
    (presets : PerChannel (List Preset)) {workspace : Workspace}
    (hworkspace : ∀ entry ∈ workspace.graphs, (∃ payload, Graph.ofValue payload = .ok entry.2) ∧
      ∀ e ∈ entry.2.elements, Graph.findMarker ∉ e.classes)
    (ops : List Operation) {s₀ s : Session}
    (hstart : s₀ = start options params given presets workspace) (hs : s = s₀.run ops)
    {name : Text} (hattached : s.attached = some name) (hfind : s.values.find ≠ []) :
    let f := s₀.followAll (fun _ => {}) ops name
    (s.InStep name ↔ ∀ e ∈ (s.workspace.graphAt name).live,
      (e.Matches f.selector ∧ e.id ∈ f.seen ↔ e.Matches s.selectors.find)) ∧
    (isReadable s.values.find = true → (s.InStep name ↔
      ∀ e ∈ (s.workspace.graphAt name).live, e.Matches s.selectors.find → e.id ∈ f.seen)) := by
  have htraced := (traced_start options params given presets hworkspace).run ops
  rw [← hstart, ← hs] at htraced
  intro f
  -- what the run has traced, at the attached snapshot
  have hmarked : ∀ e ∈ (s.workspace.graphAt name).live,
      (Graph.findMarker ∈ e.classes ↔ e.Matches f.selector ∧ e.id ∈ f.seen) :=
    fun e he => (htraced.graphs name).marked_iff e (Graph.mem_live.1 he).1
  constructor
  · constructor
    · intro hstep e he
      exact (hmarked e he).symm.trans (hstep e he)
    · intro hsame e he
      exact (hmarked e he).trans (hsame e he)
  · intro hreadable
    -- the last evaluation was of the query in effect, so what it saw is what matters
    have hselector : f.selector = s.selectors.find :=
      htraced.current name hattached hfind hreadable
    constructor
    · intro hstep e he hmatches
      exact ((hmarked e he).1 ((hstep e he).2 hmatches)).2
    · intro hseen e he
      rw [hmarked e he, hselector]
      exact ⟨fun h => h.1, fun hmatches => ⟨hmatches, hseen e he hmatches⟩⟩

/-- Two nodes of one namespace, with no edges, as the JSON data that `Graph.ofValue` reads. -/
def pairPayload : Value :=
  .list [
    .object [("data", .object [("id", .text "a"), ("app", .text "x"), ("namespace", .text "y")])],
    .object [("data", .object [("id", .text "b"), ("app", .text "z"), ("namespace", .text "y")])]]

/-- A session over that snapshot, with the `start` of no options. -/
def overPair (g : Graph) : Session :=
  start {} {} (.both []) (.both []) ⟨[("g", g)]⟩

/-- Operations after which marks are behind: hiding the one node takes out both, then the namespace
is found, and the nodes are put back. -/
def uncover : List Operation := [
  .attach "g" none,
  .setCompressOnHide true,
  .setValue .hide "app = x",
  .setValue .find "ns = y",
  .setValue .hide []]

/-- `inStep_iff` after `uncover` and attaching the snapshot once more, which marks the nodes that
were put back. -/
theorem inStep_iff_refreshed :
    ∃ g, Graph.ofValue pairPayload = .ok g ∧
      ((overPair g).run (uncover ++ [.attach "g" none])).InStep "g" := by
  have hbuilt : ∃ g, Graph.ofValue pairPayload = .ok g ∧
      (∀ e ∈ g.elements, Graph.findMarker ∉ e.classes) ∧
      let s := (overPair g).run (uncover ++ [.attach "g" none])
      s.attached = some (Text.ofString "g") ∧ s.values.find ≠ [] ∧
        isReadable s.values.find = true ∧
        ∀ e ∈ (s.workspace.graphAt "g").live, e.Matches s.selectors.find →
          e.id ∈ ((overPair g).followAll (fun _ => {})
            (uncover ++ [.attach "g" none]) "g").seen :=
    ⟨_, rfl, by decide +kernel⟩
  obtain ⟨g, hg, hunmarked, hattached, hfind, hreadable, hseen⟩ := hbuilt
  have hworkspace : ∀ entry ∈ (⟨[("g", g)]⟩ : Workspace).graphs,
      (∃ payload, Graph.ofValue payload = .ok entry.2) ∧
        ∀ e ∈ entry.2.elements, Graph.findMarker ∉ e.classes :=
    List.forall_mem_singleton.2 ⟨⟨pairPayload, hg⟩, hunmarked⟩
  have hstart : overPair g = start {} {} (.both []) (.both []) ⟨[("g", g)]⟩ := rfl
  refine ⟨g, hg, ?_⟩
  -- the state gets a name, so that it is not computed again
  obtain ⟨s, hs⟩ : ∃ s, s = (overPair g).run (uncover ++ [.attach "g" none]) := ⟨_, rfl⟩
  rw [← hs] at hattached hfind hreadable hseen ⊢
  have hiff := inStep_iff {} {} (.both []) (.both []) hworkspace _ hstart hs hattached hfind
  exact (hiff.2 hreadable).2 hseen

/-- `InStep` fails after `uncover`: the nodes that were put back match and are not marked. -/
theorem not_inStep_uncovered :
    ∃ g, Graph.ofValue pairPayload = .ok g ∧
      (∀ e ∈ g.elements, Graph.findMarker ∉ e.classes) ∧
      let s := (overPair g).run uncover
      s.attached = some (Text.ofString "g") ∧ s.values.find ≠ [] ∧
        isReadable s.values.find = true ∧ ¬s.InStep "g" :=
  ⟨_, rfl, by decide +kernel⟩

end Session

end MeshLens
