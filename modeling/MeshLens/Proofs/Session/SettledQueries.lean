import MeshLens.Proofs.Hide.HideIdempotent
import MeshLens.Proofs.Hide.LayoutRequests
import MeshLens.Proofs.Query.RequestsGranted
import MeshLens.Proofs.Session.StepEffect

/-!
# Evaluating again

After a query has been evaluated on a snapshot, evaluating it again changes nothing: the settings that
it asks for are on, its selector is the one in effect, and the marks, or what is invisible, are as the
evaluation would leave them. An evaluation of the other query leaves this as it is. All of this holds
while elements are made invisible; what is taken out is not found again.

## Key results

- `Session.SameAs`: states that show the same
- `Session.FindSettled.same`, `Session.HideSettled.same`: evaluating a settled query changes nothing
- `Session.findSettled_runFind`, `Session.hideSettled_runHide`: evaluating a query settles it
- `Session.HideSettled.runFind`, `Session.FindSettled.runHide`: and leaves the other one settled
-/

namespace MeshLens

namespace Session

/-- Whether two states of a `Session` have the same elements in the same snapshots, the same layouts
asked for, and the same answers, texts, selectors, parameters and settings. -/
structure SameAs (s s' : Session) : Prop where
  elements : ∀ name, (s'.workspace.graphAt name).elements = (s.workspace.graphAt name).elements
  layouts : ∀ name, (s'.workspace.graphAt name).layouts = (s.workspace.graphAt name).layouts
  attached : s'.attached = s.attached
  hider : s'.hider = s.hider
  lastFind : s'.lastFind = s.lastFind
  lastHide : s'.lastHide.map (·.concealed) = s.lastHide.map (·.concealed)
  values : s'.values = s.values
  inputs : s'.inputs = s.inputs
  selectors : s'.selectors = s.selectors
  params : s'.params = s.params
  options : s'.options = s.options

/-- `SameAs` is reflexive. -/
theorem SameAs.refl (s : Session) : SameAs s s :=
  ⟨fun _ => rfl, fun _ => rfl, rfl, rfl, rfl, rfl, rfl, rfl, rfl, rfl, rfl⟩

/-- `SameAs` is transitive. -/
theorem SameAs.trans {s s' s'' : Session} (h : SameAs s s') (h' : SameAs s' s'') : SameAs s s'' where
  elements name := (h'.elements name).trans (h.elements name)
  layouts name := (h'.layouts name).trans (h.layouts name)
  attached := h'.attached.trans h.attached
  hider := h'.hider.trans h.hider
  lastFind := h'.lastFind.trans h.lastFind
  lastHide := h'.lastHide.trans h.lastHide
  values := h'.values.trans h.values
  inputs := h'.inputs.trans h.inputs
  selectors := h'.selectors.trans h.selectors
  params := h'.params.trans h.params
  options := h'.options.trans h.options

variable {s s' : Session} {channel other : Channel} {name : Text}

/-! ## Compiling again -/

/-- `optionsAfter` changes nothing when all is granted that the text asks for. -/
theorem optionsAfter_of_grants (h : s.options.Grants (s.values.get channel)) :
    s.optionsAfter channel = s.options := by
  unfold optionsAfter
  split
  · rename_i c hc
    exact h.grantAll_eq hc
  · rfl

/-- `optionsAfter` grants all that the text asks for, if this can be read. -/
theorem grants_optionsAfter (hreadable : isReadable (s.values.get channel) = true) :
    (s.optionsAfter channel).Grants (s.values.get channel) := by
  obtain ⟨c, hc⟩ := (isReadable_iff _ s.options.flags).1 hreadable
  rw [optionsAfter, hc]
  exact DisplayOptions.grants_of_compile hc

/-- `optionsAfter` turns nothing off: what is granted stays granted. -/
theorem grants_of_grants {text : Text} (h : s.options.Grants text) (channel : Channel) :
    (s.optionsAfter channel).Grants text := by
  unfold optionsAfter
  split
  · exact h.grantAll _
  · exact h

/-- Whether `compile` of the confirmed text of an input would change no selector and no setting. -/
structure Compiled (s : Session) (channel : Channel) : Prop where
  selector : s.applied channel = s.selectors.get channel
  granted : s.options.Grants (s.values.get channel)

/-- What `evaluate` does to the selectors and the settings. -/
structure Adopts (s s' : Session) (channel : Channel) : Prop where
  values : s'.values = s.values
  selectors : s'.selectors = s.selectors.set channel (s.applied channel)
  options : s'.options = s.optionsAfter channel

/-- `Adopts` leaves the input `Compiled` whose text is evaluated. -/
theorem Adopts.compiled (h : Adopts s s' channel)
    (hreadable : isReadable (s.values.get channel) = true) : Compiled s' channel where
  selector := by
    have happlied : s'.selectors.get channel = s.applied channel := by
      rw [h.selectors, PerChannel.get_set, if_pos rfl]
    rw [happlied, applied, happlied, h.values, applied]
    cases selectorOf? (s.values.get channel) <;> rfl
  granted := by
    rw [h.options, h.values]
    exact grants_optionsAfter hreadable

/-- `Adopts` leaves the other input `Compiled`, if it was. -/
theorem Adopts.compiled_other (h : Adopts s s' channel) (hne : channel ≠ other)
    (hother : Compiled s other) : Compiled s' other where
  selector := by
    have hsame : s'.selectors.get other = s.selectors.get other := by
      rw [h.selectors, PerChannel.get_set, if_neg hne]
    rw [applied, hsame, h.values]
    exact hother.selector
  granted := by
    rw [h.options, h.values]
    exact grants_of_grants hother.granted channel

/-! ## Settled queries -/

/-- Whether `runFind` on a snapshot would change nothing. -/
structure FindSettled (s : Session) (name : Text) : Prop where
  compiled : Compiled s .find
  marked : (s.workspace.graphAt name).Marked s.selectors.find
  answered : ∀ ids, (s.workspace.graphAt name).hits s.selectors.find = .ok ids → s.lastFind = some ids

/-- Whether `runHide` on a snapshot would change nothing. -/
structure HideSettled (s : Session) (name : Text) : Prop where
  compiled : Compiled s .hide
  rests : (s.workspace.graphAt name).Rests name s.selectors.hide s.hider.handle
  answered : s.selectors.hide = none ∨ s.hider.handle ≠ none →
    s.lastHide.map (·.concealed) = some (HideHandle.outcome s.hider.handle false).concealed

/-- The settings and the state of the `Hider` under which elements are made invisible only. -/
structure Soft (s : Session) : Prop where
  compress : s.options.compressOnHide = false
  held : ∀ h, s.hider.handle = some h → h.mode = .hidden

/-- `runFind` changes nothing when the text cannot be read. -/
theorem runFind_of_unreadable (h : ¬isReadable s.values.find = true) (name : Text) :
    (s.runFind name).1 = s :=
  (if_neg h).mp (s.runFind_spec name)

/-- `runHide` changes nothing when the text cannot be read. -/
theorem runHide_of_unreadable (h : ¬isReadable s.values.hide = true) (name : Text)
    (occasion : HideOccasion) : (s.runHide name occasion).1 = s :=
  (if_neg h).mp (s.runHide_spec name occasion)

/-- `FindSettled`: finding again changes nothing. -/
theorem FindSettled.same (h : isReadable s.values.find = true → FindSettled s name)
    (hplain : Selector.PlainText s.selectors.find) : SameAs s (s.runFind name).1 := by
  by_cases hreadable : isReadable s.values.find = true
  · obtain ⟨hcompiled, hmarked, hanswered⟩ := h hreadable
    have hselector : s.applied .find = s.selectors.find := hcompiled.selector
    obtain ⟨notices, hrun⟩ := runFind_eq hreadable name
    rw [hrun, hselector]
    refine ⟨fun other => ?_, fun other => ?_, rfl, rfl, ?_, rfl, rfl, rfl, rfl, rfl,
      optionsAfter_of_grants hcompiled.granted⟩
    · -- the marks are those that the selector gives already
      rw [Workspace.graphAt_put]
      split
      · rename_i hsame
        subst hsame
        exact hmarked.applyFind_elements hplain
      · rfl
    · rw [Workspace.graphAt_put]
      split
      · rename_i hsame
        subst hsame
        exact Graph.applyFind_layouts _ _ _
      · rfl
    · rw [Graph.applyFind_result _ hplain]
      cases hhits : (s.workspace.graphAt name).hits s.selectors.find with
      | error fault => rfl
      | ok ids => exact (hanswered ids hhits).symm
  · rw [runFind_of_unreadable hreadable]
    exact .refl s

/-- `HideSettled`: hiding again changes nothing. -/
theorem HideSettled.same (h : isReadable s.values.hide = true → HideSettled s name) (hsoft : Soft s)
    (hplain : Selector.PlainText s.selectors.hide) : SameAs s (s.runHide name {}).1 := by
  by_cases hreadable : isReadable s.values.hide = true
  · obtain ⟨hcompiled, hrests, hanswered⟩ := h hreadable
    have hselector : s.applied .hide = s.selectors.hide := hcompiled.selector
    obtain ⟨notices, hrun⟩ := runHide_eq hreadable name {}
    obtain ⟨helements, hhider, houtcome⟩ :=
      Hider.apply_of_rests hrests hplain (show (s.meeting {}).graphChanged = false from rfl)
        hsoft.compress
    rw [hrun, hselector]
    refine ⟨fun other => ?_, fun other => ?_, rfl, hhider, rfl, ?_, rfl, rfl, rfl, rfl,
      optionsAfter_of_grants hcompiled.granted⟩
    · -- the handle is undone and the same elements are made invisible again
      rw [Workspace.graphAt_put]
      split
      · rename_i hsame
        subst hsame
        exact helements
      · rfl
    · rw [Workspace.graphAt_put]
      split
      · rename_i hsame
        subst hsame
        exact Hider.apply_layouts_eq _ _ _ _ rfl rfl rfl
      · rfl
    · cases hresult : (s.hider.apply name (s.workspace.graphAt name) s.selectors.hide
        (s.meeting {})).2.2 with
      | error fault => rfl
      | ok outcome =>
        obtain ⟨hheld, hsame⟩ := houtcome outcome hresult
        exact (congrArg some hsame).trans (hanswered hheld).symm
  · rw [runHide_of_unreadable hreadable]
    exact .refl s

/-! ## Evaluating -/

/-- `runFind` satisfies `Adopts`. -/
theorem runFind_adopts (s : Session) (name : Text) : Adopts s (s.runFind name).1 .find where
  values := (s.evaluate_frame name .find).1
  selectors := s.evaluate_selectors name .find
  options := (s.runFind_effect name).options

/-- `runHide` satisfies `Adopts`. -/
theorem runHide_adopts (s : Session) (name : Text) (occasion : HideOccasion) :
    Adopts s (s.runHide name occasion).1 .hide where
  values := (s.evaluate_frame name (.hide occasion)).1
  selectors := s.evaluate_selectors name (.hide occasion)
  options := (s.runHide_effect name occasion).options

/-- `runFind` settles the find query. -/
theorem findSettled_runFind (hreadable : isReadable s.values.find = true) (name : Text)
    (hplain : Selector.PlainText (s.applied .find)) : FindSettled (s.runFind name).1 name := by
  have hcompiled := (s.runFind_adopts name).compiled hreadable
  obtain ⟨notices, hrun⟩ := runFind_eq hreadable name
  have hmarked := (s.workspace.graphAt name).marked_applyFind hplain
  have helements := (s.workspace.graphAt name).applyFind_findMarker hplain
  rw [hrun] at hcompiled ⊢
  refine ⟨hcompiled, ?_, fun ids hids => ?_⟩
  · -- the snapshot that is put back has the elements that were marked
    rw [Workspace.graphAt_put, if_pos rfl]
    exact hmarked
  · rw [Workspace.graphAt_put, if_pos rfl] at hids
    have hsame : (s.workspace.graphAt name).hits (s.applied .find) = .ok ids := by
      rw [← hids]
      exact (Graph.hits_congr (Element.overlooked_withMark Graph.findMarker _) helements hplain).symm
    rw [Graph.applyFind_result _ hplain, hsame]
    rfl

/-- `runHide` settles the hide query. -/
theorem hideSettled_runHide (hreadable : isReadable s.values.hide = true) (hsoft : Soft s)
    (hnodup : (s.workspace.graphAt name).ids.Nodup) (hplain : Selector.PlainText (s.applied .hide))
    (occasion : HideOccasion) : HideSettled (s.runHide name occasion).1 name := by
  have hcompiled := (s.runHide_adopts name occasion).compiled hreadable
  obtain ⟨notices, hrun⟩ := runHide_eq hreadable name occasion
  obtain ⟨hrests, hanswers⟩ :=
    Hider.rests_apply hnodup hplain (show (s.meeting occasion).compress = false from hsoft.compress)
      s.hider name
  rw [hrun] at hcompiled ⊢
  refine ⟨hcompiled, ?_, fun hheld => ?_⟩
  · rw [Workspace.graphAt_put, if_pos rfl]
    exact hrests.of_unmarked hplain rfl
  · obtain ⟨outcome, hok, hsame⟩ := hanswers hheld
    rw [hok]
    exact congrArg some hsame

/-- `runFind` leaves the hide query settled. -/
theorem HideSettled.runFind (h : HideSettled s name)
    (hplain : ∀ channel, Selector.PlainText (s.selectors.get channel)) :
    HideSettled (s.runFind name).1 name := by
  by_cases hreadable : isReadable s.values.find = true
  · have hcompiled := (s.runFind_adopts name).compiled_other (by decide) h.compiled
    have happlied : Selector.PlainText (s.applied .find) := by
      obtain ⟨g, hevaluates, -⟩ := (if_pos (show isReadable (s.values.get .find) = true from
        hreadable)).mp (s.evaluate_spec name .find)
      exact hevaluates.plain (hplain .find)
    have helements := (s.workspace.graphAt name).applyFind_findMarker happlied
    obtain ⟨notices, hrun⟩ := runFind_eq hreadable name
    rw [hrun] at hcompiled ⊢
    refine ⟨hcompiled, ?_, h.answered⟩
    rw [Workspace.graphAt_put, if_pos rfl]
    -- marks are all that has changed
    refine h.rests.of_unmarked (hplain .hide) ((congrArg _ helements).trans ?_)
    rw [List.map_map]
    exact List.map_congr_left fun e _ => Element.unmarked_withMark _ _ e
  · rw [runFind_of_unreadable hreadable]
    exact h

/-- `runHide` leaves the find query settled. -/
theorem FindSettled.runHide (h : FindSettled s name) (hsoft : Soft s)
    (hplain : Selector.PlainText s.selectors.find) (occasion : HideOccasion) :
    FindSettled (s.runHide name occasion).1 name := by
  by_cases hreadable : isReadable s.values.hide = true
  · have hcompiled := (s.runHide_adopts name occasion).compiled_other (by decide) h.compiled
    obtain ⟨notices, hrun⟩ := runHide_eq hreadable name occasion
    have hhidden := s.hider.apply_elements name (s.workspace.graphAt name) (s.applied .hide)
      (s.meeting occasion)
    have hcompress : (s.meeting occasion).compress = false := hsoft.compress
    obtain ⟨⟨visible, hvisible⟩, -⟩ := Graph.rehide_visible name
      (fun h hh => .inl (hsoft.held h hh)) hcompress (s.workspace.graphAt name).startBatch
      (s.applied .hide)
    have helements := hhidden.trans hvisible
    rw [hrun] at hcompiled ⊢
    refine ⟨hcompiled, ?_, fun ids hids => ?_⟩
    · -- visibility is all that has changed
      rw [Workspace.graphAt_put, if_pos rfl]
      exact h.marked.of_visible hplain helements
    · rw [Workspace.graphAt_put, if_pos rfl] at hids
      refine h.answered ids ?_
      rw [← hids]
      exact (Graph.hits_congr (Element.overlooked_withVisible visible) helements hplain).symm
  · rw [runHide_of_unreadable hreadable]
    exact h

end Session

end MeshLens
