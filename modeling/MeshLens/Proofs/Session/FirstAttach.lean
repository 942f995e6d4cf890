import MeshLens.Proofs.Hide.ReapplySucceeds
import MeshLens.Proofs.Session.StepEffect

/-!
# The first snapshot

A session is opened, a snapshot is attached, and a text is confirmed. Attaching evaluates the texts that
are there at the start. When this makes no failure, a text that does not compile makes none either: the
selectors in effect were evaluated just now, and they can be evaluated once more.

## Key results

- `Session.Fresh.tried`: what is in effect once a snapshot is attached can be evaluated again
- `Session.Tried.setValue_shows_iff`: when confirming a text shows a message
- `Session.Searched.setValue_found`: what is found once a text is confirmed
-/

namespace MeshLens

namespace Graph

variable {g : Graph} {selector : Option Text} {ids : List Text}

/-- `hits` in a snapshot that is all there are its elements that match, in their order. -/
theorem hits_eq (hlive : ∀ e ∈ g.elements, e.live = true) (h : g.hits selector = .ok ids) :
    ids = (g.elements.filter fun e => e.Matches selector).map (·.id) := by
  cases selector with
  | none =>
    cases h
    simp [Element.Matches]
  | some text =>
    obtain ⟨hits, hselect, rfl⟩ := Except.map_eq_ok h
    have hall : g.live = g.elements := List.filter_eq_self.2 hlive
    unfold select at hselect
    rw [hall] at hselect
    cases hs : Selector.parse text with
    | error fault =>
      rw [hs] at hselect
      cases hselect
    | ok s =>
      rw [hs] at hselect
      have hmatching : Element.matching s g.elements = .ok hits := hselect
      -- no element fails, so the elements are sorted out by whether they match
      have hmatches : ∀ e ∈ g.elements, s.accepts e = .ok (e.Matches (some text) : Bool) := by
        intro e he
        obtain ⟨accepted, haccepts⟩ := Element.matching_ok_iff.1 ⟨hits, hmatching⟩ e he
        have hiff : e.Matches (some text) ↔ accepted = true := by
          rw [← Element.accepted_iff, Element.accepted, hs]
          simp only [haccepts]
        rw [haccepts]
        exact congrArg Except.ok (Bool.eq_iff_iff.2 (hiff.symm.trans decide_eq_true_iff.symm))
      rw [Except.ok.inj (hmatching.symm.trans (Element.matching_eq_filter hmatches))]

end Graph

namespace Session

variable {g : Graph} {name value : Text} {channel : Channel} {s s' : Session}

/-! ## Selectors in effect -/

/-- `applied` gives a selector that asks for no style class, when the one from before asks for none.
-/
theorem plain_applied (h : Selector.PlainText (s.selectors.get channel)) :
    Selector.PlainText (s.applied channel) := by
  by_cases hreadable : isReadable (s.values.get channel) = true
  · obtain ⟨s', selector, -, hcompiles⟩ := (if_pos hreadable).mp (s.compile_spec channel)
    rw [← hcompiles.applied]
    exact hcompiles.plain h
  · rw [applied, selectorOf?_eq_none hreadable]
    exact h

/-- `evaluate` fails and changes nothing, when the text cannot be read. -/
theorem evaluate_of_unreadable {e : Evaluation} (h : ¬isReadable (s.values.get e.channel) = true)
    (name : Text) : ∃ fault, s.evaluate name e = (s, .error (.unreadable fault)) := by
  obtain ⟨fault, hfault⟩ := (if_neg h).mp (s.compile_spec e.channel)
  refine ⟨fault, ?_⟩
  cases e with
  | find =>
    have hcompile : s.compile .find = .error fault := hfault
    rw [evaluate, runFind, hcompile]
  | hide occasion =>
    have hcompile : s.compile .hide = .error fault := hfault
    rw [evaluate, runHide, hcompile]

/-- `evaluate` succeeds only on a text that can be read. -/
theorem isReadable_of_evaluate_ok {e : Evaluation} (h : (s.evaluate name e).2 = .ok ()) :
    isReadable (s.values.get e.channel) = true := by
  by_contra hunreadable
  obtain ⟨fault, hfault⟩ := evaluate_of_unreadable hunreadable name
  rw [hfault] at h
  cases h

/-! ## Attaching -/

/-- A session that `start` has just opened over a snapshot. -/
structure Fresh (g : Graph) (name : Text) (s : Session) : Prop where
  graph : s.workspace.graphAt name = g
  selectors : s.selectors = .both none
  handle : s.hider.handle = none
  lastFind : s.lastFind = none

/-- What `attach` makes of a session before it comes to hiding. -/
structure Searched (g : Graph) (name : Text) (s s' : Session) : Prop where
  marks : ∃ f, Element.Overlooked f ∧ (s'.workspace.graphAt name).elements = g.elements.map f
  found : g.hits s'.selectors.find = .ok (s'.lastFind.getD [])
  find : s'.selectors.find = (selectorOf? s.values.find).getD none
  plain : Selector.PlainText s'.selectors.find
  hide : s'.selectors.hide = none
  handle : s'.hider.handle = none
  values : s'.values = s.values
  attached : s'.attached = some name

/-- Whether `evaluate` with the selectors in effect would succeed on the attached snapshot. -/
structure Tried (name : Text) (s : Session) : Prop where
  attached : s.attached = some name
  plain : ∀ channel, Selector.PlainText (s.selectors.get channel)
  find : ∃ ids, (s.workspace.graphAt name).hits s.selectors.find = .ok ids
  hide : ∀ occasion : HideOccasion, occasion.graphChanged = false → ∃ outcome,
    (s.hider.apply name (s.workspace.graphAt name) s.selectors.hide occasion).2.2 = .ok outcome

/-- `attach` succeeds when the evaluations that it makes do. -/
theorem attach_of_ok {elementsChanged : Option Bool}
    (h : (s.attach name elementsChanged).2 = .ok ()) : ∃ s₁,
      (if s.values.find = [] then (s.attachTo name, Except.ok ()) else (s.attachTo name).runFind name) =
        (s₁, .ok ()) ∧
      (if s₁.values.hide = [] then (s₁, Except.ok ())
        else s₁.runHide name (s.attaching name elementsChanged)) =
        ((s.attach name elementsChanged).1, .ok ()) := by
  -- finding that fails is all that is done, and contradicts the success
  cases hstage : (if s.values.find = [] then (s.attachTo name, Except.ok ())
      else (s.attachTo name).runFind name) with
  | mk s₁ found =>
    cases found with
    | error e =>
      have hattach : s.attach name elementsChanged = (s₁, .error e) := by
        unfold attach
        unfold attachTo at hstage
        simp only [hstage]
      rw [hattach] at h
      cases h
    | ok u =>
      have hattach : s.attach name elementsChanged =
          if s₁.values.hide = [] then (s₁, .ok ())
          else s₁.runHide name (s.attaching name elementsChanged) := by
        unfold attach
        unfold attachTo at hstage
        simp only [hstage]
        rfl
      rw [hattach] at h ⊢
      exact ⟨s₁, rfl, Prod.ext rfl h⟩

/-- `attach` leaves the confirmed texts alone. -/
theorem attach_values (s : Session) (name : Text) (elementsChanged : Option Bool) :
    (s.attach name elementsChanged).1.values = s.values := by
  obtain ⟨s₁, hs₁, hattach⟩ := s.attach_spec name elementsChanged
  have hfirst : s₁.values = s.values := by
    rw [hs₁]
    split
    · rfl
    · exact ((s.attachTo name).evaluate_frame name .find).1
  rcases hattach with hsame | ⟨occasion, hsame⟩
  · rw [hsame, hfirst]
  · rw [hsame]
    exact (s₁.evaluate_frame name (.hide occasion)).1.trans hfirst

/-- `runFind` has the result of selecting, when the text can be read. -/
theorem runFind_result (hreadable : isReadable s.values.find = true)
    (hplain : Selector.PlainText (s.applied .find)) (name : Text) :
    (s.runFind name).2 =
      (((s.workspace.graphAt name).hits (s.applied .find)).map fun _ => ()).mapError .evaluation := by
  obtain ⟨notices, hrun⟩ := runFind_eq hreadable name
  rw [hrun, ← Graph.applyFind_result _ hplain]

/-- `Fresh` becomes `Searched` when attaching evaluates the text to find: what is found is what it
selects in the graph. -/
theorem Fresh.searched (h : Fresh g name s)
    (hfound : (if s.values.find = [] then (s.attachTo name, Except.ok ())
      else (s.attachTo name).runFind name) = (s', .ok ())) : Searched g name s s' := by
  obtain ⟨hgraph, hselectors, hhandle, hlast⟩ := h
  have hnone : ∀ channel, s.selectors.get channel = none := by
    rw [hselectors]
    exact PerChannel.get_both none
  have hplain : Selector.PlainText s.selectors.find := by
    rw [show s.selectors.find = none from hnone .find]
    exact fun _ _ hsome => nomatch hsome
  split at hfound
  · -- an empty text is not evaluated, and stands for nothing all the same
    rename_i hempty
    cases hfound
    refine ⟨⟨id, ⟨fun _ => rfl, fun _ => rfl, fun _ => rfl, fun _ => rfl⟩, ?_⟩, ?_, ?_, hplain,
      hnone .hide, hhandle, rfl, rfl⟩
    · rw [List.map_id]
      exact congrArg Graph.elements hgraph
    · show g.hits s.selectors.find = .ok (s.lastFind.getD [])
      rw [show s.selectors.find = none from hnone .find, hlast]
      rfl
    · rw [hempty, selectorOf?_blank (List.forall_mem_nil _)]
      exact hnone .find
  · have hreadable : isReadable s.values.find = true :=
      isReadable_of_evaluate_ok (s := s.attachTo name) (e := .find) (congrArg Prod.snd hfound)
    obtain ⟨notices, hrun⟩ := runFind_eq (s := s.attachTo name) hreadable name
    have happlied : (s.attachTo name).applied .find = (selectorOf? s.values.find).getD none :=
      congrArg _ (hnone .find)
    have hplain' : Selector.PlainText ((s.attachTo name).applied .find) := plain_applied hplain
    have hgraph' : (s.attachTo name).workspace.graphAt name = g := hgraph
    rw [hrun, hgraph', Graph.applyFind_result _ hplain'] at hfound
    -- the evaluation answers what is selected, before any mark is set
    cases hhits : g.hits ((s.attachTo name).applied .find) with
    | error fault =>
      rw [hhits] at hfound
      cases hfound
    | ok ids =>
      rw [hhits] at hfound
      obtain rfl := (Prod.mk.inj hfound).1
      refine ⟨⟨fun e => e.withMark Graph.findMarker (e.id ∈ g.found ((s.attachTo name).applied .find)),
        Element.overlooked_withMark _ _, ?_⟩, hhits, happlied, hplain',
        hnone .hide, hhandle, rfl, rfl⟩
      rw [Workspace.graphAt_put, if_pos rfl]
      exact g.applyFind_findMarker hplain'

/-- `Fresh` becomes `Searched` in `attach`, when there is no text to hide. -/
theorem Fresh.searched_attach (h : Fresh g name s) (hhide : s.values.hide = [])
    {elementsChanged : Option Bool} (hok : (s.attach name elementsChanged).2 = .ok ()) :
    Searched g name s (s.attach name elementsChanged).1 := by
  obtain ⟨s₁, hfound, hhidden⟩ := attach_of_ok hok
  have hsearched := h.searched hfound
  rw [if_pos (hsearched.values ▸ hhide)] at hhidden
  obtain ⟨hsame, -⟩ := Prod.mk.inj hhidden
  exact hsame ▸ hsearched

/-- `Fresh` becomes `Tried` in `attach` that succeeds: what is in effect then can be evaluated
again. -/
theorem Fresh.tried (h : Fresh g name s) (hnodup : g.ids.Nodup)
    (hlive : ∀ e ∈ g.elements, e.live = true) {elementsChanged : Option Bool}
    (hok : (s.attach name elementsChanged).2 = .ok ()) :
    Tried name (s.attach name elementsChanged).1 := by
  obtain ⟨s₁, hfound, hhidden⟩ := attach_of_ok hok
  have hsearched := h.searched hfound
  obtain ⟨f, hf, helements⟩ := hsearched.marks
  have hfind : ∃ ids, (s₁.workspace.graphAt name).hits s₁.selectors.find = .ok ids :=
    ⟨_, (Graph.hits_congr hf helements hsearched.plain).trans hsearched.found⟩
  have hplain : ∀ channel, Selector.PlainText (s₁.selectors.get channel) := by
    intro channel
    cases channel with
    | find => exact hsearched.plain
    | hide =>
      rw [show s₁.selectors.get .hide = none from hsearched.hide]
      exact fun _ _ hsome => nomatch hsome
  -- marking takes nothing out and changes no id
  have hlive₁ : ∀ e ∈ (s₁.workspace.graphAt name).elements, e.live = true := by
    rw [helements]
    intro e he
    obtain ⟨d, hd, rfl⟩ := List.mem_map.1 he
    rw [Element.live, hf.removed]
    exact hlive d hd
  have hnodup₁ : (s₁.workspace.graphAt name).ids.Nodup := by
    rw [Graph.ids, helements, hf.map_id]
    exact hnodup
  split at hhidden
  · -- nothing is hidden, so there is no selector to hide with
    obtain ⟨rfl, -⟩ := Prod.mk.inj hhidden
    refine ⟨hsearched.attached, hplain, hfind, fun occasion _ => ?_⟩
    refine Hider.apply_ok_iff.2 fun text hsome => ?_
    cases hsearched.hide.symm.trans hsome
  · have hreadable : isReadable s₁.values.hide = true :=
      isReadable_of_evaluate_ok (e := .hide (s.attaching name elementsChanged))
        (congrArg Prod.snd hhidden)
    obtain ⟨notices, hrun⟩ := runHide_eq hreadable name (s.attaching name elementsChanged)
    rw [hrun] at hhidden
    obtain ⟨hsession, hresult⟩ := Prod.mk.inj hhidden
    rw [← hsession]
    refine ⟨hsearched.attached, fun channel => ?_, ?_, fun occasion hsame => ?_⟩
    · show Selector.PlainText ((s₁.selectors.set .hide (s₁.applied .hide)).get channel)
      rw [PerChannel.get_set]
      split
      · exact plain_applied (hplain .hide)
      · exact hplain channel
    · -- where elements are taken out, the selector is evaluated on fewer of them
      rw [Workspace.graphAt_put, if_pos rfl]
      exact Graph.hits_ok_of_bare (s₁.hider.apply_bare _ _ _ _) hlive₁ hsearched.plain hfind
    · rw [Workspace.graphAt_put, if_pos rfl]
      obtain ⟨outcome, hok, -⟩ := Except.map_eq_ok (Except.mapError_eq_ok hresult)
      exact Hider.apply_again_ok hnodup₁ hlive₁ (plain_applied (hplain .hide)) hsearched.handle
        ⟨outcome, hok⟩ rfl hsame

/-! ## Confirming a text -/

/-- `setValue` on the attached snapshot evaluates the text, unless it is the confirmed text already.
-/
theorem setValue_eq (h : s.attached = some name) (channel : Channel) (value : Text) :
    let t := s.prepare (.setValue channel value)
    s.setValue channel value =
      if s.values.get channel = value then (t, .ok ()) else t.evaluate name (.confirming channel) := by
  intro t
  have htyped : s.setValue channel value =
      (s.typed (.setValue channel value)).confirm channel value := rfl
  have hprepare : t = if s.values.get channel = value then s.typed (.setValue channel value)
      else (s.typed (.setValue channel value)).store channel value := rfl
  rw [htyped, confirm_eq, hprepare]
  rw [(s.typed_frame _).values, (s.typed_frame _).attached, h]
  split
  · rfl
  · cases channel <;> rfl

/-- `Tried`: evaluating a text with an error succeeds, since the selector in effect is evaluated
instead. -/
theorem Tried.evaluate_ok (h : Tried name s) {t : Session} (hworkspace : t.workspace = s.workspace)
    (hselectors : t.selectors = s.selectors) (hhider : t.hider = s.hider) {e : QueryError}
    (herror : errorOf? (t.values.get channel) = some e)
    (hreadable : isReadable (t.values.get channel) = true) :
    (t.evaluate name (.confirming channel)).2 = .ok () := by
  -- a value with an error leaves the selector in effect, and with that one the calls succeeded
  have happlied : t.applied channel = s.selectors.get channel := by
    rw [applied, selectorOf?_of_error herror, hselectors]
    rfl
  cases channel with
  | find =>
    obtain ⟨ids, hids⟩ := h.find
    have hplain : Selector.PlainText (t.applied .find) := happlied ▸ h.plain .find
    refine (runFind_result hreadable hplain name).trans ?_
    rw [hworkspace, happlied]
    exact congrArg (fun r => (Except.map _ r).mapError _) hids
  | hide =>
    obtain ⟨notices, hrun⟩ := runHide_eq hreadable name { hideChanged := true }
    obtain ⟨outcome, houtcome⟩ := h.hide (t.meeting { hideChanged := true }) rfl
    refine (congrArg Prod.snd hrun).trans ?_
    rw [hworkspace, hhider, happlied]
    exact congrArg (fun r => (Except.map _ r).mapError _) houtcome

/-- `Tried`: after `setValue` succeeds, the input shows a message just when the text has an error,
and is another one than before. -/
theorem Tried.setValue_shows_iff (h : Tried name s) (channel : Channel) (value : Text) :
    (s.setValue channel value).2 = .ok () ∧
        ((s.setValue channel value).1.compiler.message channel).isSome = true ↔
      s.values.get channel ≠ value ∧ (errorOf? value).isSome = true := by
  let t := s.prepare (.setValue channel value)
  have ht : Prepares s t (.setValue channel value) := s.prepare_spec _
  have hcleared : t.compiler.messages.get channel = none := by
    have hmessages : t.compiler.messages = s.messagesTyped (.setValue channel value) :=
      s.prepare_messages _
    rw [hmessages, messagesTyped, Operation.types?]
    simp only [PerChannel.get_set, if_true]
  rw [setValue_eq h.attached]
  by_cases hsame : s.values.get channel = value
  · -- the message is taken away, and nothing is compiled
    rw [if_pos hsame]
    refine iff_of_false (fun hshows => ?_) fun hother => hother.1 hsame
    have hnone : t.compiler.message channel = none := hcleared
    rw [hnone] at hshows
    cases hshows.2
  · rw [if_neg hsame]
    have hvalue : t.values.get channel = value := by
      rw [ht.values, Event.confirms_asked.2 rfl]
      rfl
    -- a text that cannot be read makes a failure, and any other text writes the message
    by_cases hreadable : isReadable value = true
    · have hshown : (t.evaluate name (.confirming channel)).1.compiler.message channel =
          (errorOf? value).map (Compiler.messageOf channel) := by
        have heffect := (t.evaluate_effect name (.confirming channel)).messages
        rw [Evaluation.channel_confirming] at heffect
        rw [Compiler.message, heffect, messagesAfter_get, hvalue, if_pos ⟨rfl, hreadable⟩]
      rw [hshown, Option.isSome_map]
      refine ⟨fun hshows => ⟨hsame, hshows.2⟩, fun hother => ⟨?_, hother.2⟩⟩
      obtain ⟨e, he⟩ := Option.isSome_iff_exists.1 hother.2
      rw [← hvalue] at he hreadable
      exact h.evaluate_ok ht.workspace ht.selectors ht.hider he hreadable
    · have hunreadable : ¬isReadable (t.values.get (Evaluation.confirming channel).channel) = true := by
        rw [Evaluation.channel_confirming, hvalue]
        exact hreadable
      obtain ⟨fault, hfault⟩ := evaluate_of_unreadable hunreadable name
      refine iff_of_false (fun hshows => ?_) fun hother => hreadable ?_
      · rw [hfault] at hshows
        cases hshows.1
      · obtain ⟨e, he⟩ := Option.isSome_iff_exists.1 hother.2
        exact isReadable_of_error he

/-- `Searched`: what is found once `setValue` confirms a text is what its selector selects in the
snapshot that was attached. -/
theorem Searched.setValue_found (h : Searched g name s s') {selector : Option Text}
    (hselector : selectorOf? value = some selector) (hok : (s'.setValue .find value).2 = .ok ()) :
    g.hits selector = .ok ((s'.setValue .find value).1.lastFind.getD []) := by
  rw [setValue_eq h.attached] at hok ⊢
  let t := s'.prepare (.setValue .find value)
  have ht : Prepares s' t (.setValue .find value) := s'.prepare_spec _
  by_cases hsame : s'.values.get .find = value
  · -- it was found when the snapshot was attached
    rw [if_pos hsame]
    have hlast : t.lastFind = s'.lastFind := by
      show (if s'.values.get .find = value then _ else _ : Session).lastFind = _
      rw [if_pos hsame]
      rfl
    have hin : s'.selectors.find = selector := by
      have hfirst : s.values.find = value := h.values ▸ hsame
      rw [h.find, hfirst, hselector]
      rfl
    rw [hlast, ← hin]
    exact h.found
  · rw [if_neg hsame] at hok ⊢
    have hvalue : t.values.find = value := by
      have hconfirmed := ht.values .find
      rw [Event.confirms_asked.2 rfl] at hconfirmed
      exact hconfirmed
    have happlied : t.applied .find = selector := by
      rw [applied, show t.values.get .find = value from hvalue, hselector]
      rfl
    have hplain : Selector.PlainText (t.applied .find) := by
      refine plain_applied ?_
      rw [ht.selectors]
      exact h.plain
    have hreadable : isReadable t.values.find = true := isReadable_of_evaluate_ok (e := .find) hok
    obtain ⟨f, hf, helements⟩ := h.marks
    obtain ⟨notices, hrun⟩ := runFind_eq hreadable name
    have hlast := congrArg (fun step : Step Unit => step.1.lastFind) hrun
    have hresult := (runFind_result hreadable hplain name).symm.trans hok
    -- the marks that are there since the snapshot was attached are overlooked
    have hhits : (t.workspace.graphAt name).hits (t.applied .find) = g.hits selector := by
      rw [Graph.hits_congr hf (ht.workspace ▸ helements) hplain, happlied]
    obtain ⟨ids, hids, -⟩ := Except.map_eq_ok (Except.mapError_eq_ok hresult)
    simp only [Graph.applyFind_result _ hplain, hids] at hlast
    show g.hits selector = .ok ((t.runFind name).1.lastFind.getD [])
    rw [hlast, ← hhits, hids]
    rfl

end Session

end MeshLens
