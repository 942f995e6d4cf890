import MeshLens.Proofs.Hide.VisibleState
import MeshLens.Proofs.Session.RunSteps

/-!
# What a session hides

However a state of a session was reached, the attached snapshot is seen as one call of a new hider on
the snapshot as it was built would leave it: the call that the last evaluation of the hide query on
this snapshot made. An evaluation that was called for and not made leaves that one in its place: the
one before it failed, or the text held a number that cannot be read. Only then can the view be behind
the query and the settings.

## Key results

- `Session.Viewed.of_reached`: the veil over the attached snapshot, at any point of any run
- `Session.InForce.of_reached`: the veil is that of the query in effect, unless it is behind
- `Session.view_run`: what is seen after any run
-/

namespace MeshLens

namespace Session

/-! ## Snapshots of a run -/

/-- The snapshot that a step attaches: the one named in an operation `attach`. -/
def Event.attaches : Event → Option Text
  | .asked _ (.attach name _) => some name
  | _ => none

/-- The snapshots attached so far, in order and with repetitions: `Event.attaches` over the past. -/
def attachedNames (past : List Event) : List Text :=
  past.filterMap Event.attaches

/-- Whether a step that `attaches` a snapshot attaches one that is not among those seen before, or
that is the attached one already. -/
def Event.AttachesAnew (seen : List Text) : Event → Prop
  | .asked s (.attach name _) => s.attached = some name ∨ name ∉ seen
  | _ => True

/-- `Event.AttachesAnew` can be decided, so that it can be checked in a run. -/
instance (seen : List Text) (event : Event) : Decidable (event.AttachesAnew seen) := by
  unfold Event.AttachesAnew
  split <;> infer_instance

/-- Whether all steps of a run satisfy `AttachesAnew`, each with what was attached before it. -/
def AttachesOnce : (seen : List Text) → List Event → Prop
  | _, [] => True
  | seen, event :: rest =>
    event.AttachesAnew seen ∧ AttachesOnce (seen ++ event.attaches.toList) rest

/-- `AttachesOnce` can be decided, step after step. -/
instance decidableAttachesOnce : (seen : List Text) → (past : List Event) →
    Decidable (AttachesOnce seen past)
  | _, [] => inferInstanceAs (Decidable True)
  | seen, event :: rest =>
    have := decidableAttachesOnce (seen ++ event.attaches.toList) rest
    inferInstanceAs (Decidable (_ ∧ _))

/-- `attachedNames` grows by what the next step attaches. -/
theorem attachedNames_concat (past : List Event) (event : Event) :
    attachedNames (past ++ [event]) = attachedNames past ++ event.attaches.toList :=
  List.filterMap_append_singleton _ past event

/-- `attachedNames` loses nothing in a step. -/
theorem mem_attachedNames_concat {past : List Event} {name : Text} (h : name ∈ attachedNames past)
    (event : Event) : name ∈ attachedNames (past ++ [event]) := by
  rw [attachedNames_concat]
  exact List.mem_append_left _ h

/-- `attachedNames` stays the same in an evaluation, which attaches nothing. -/
theorem attachedNames_evaluated (past : List Event) (s : Session) (e : Evaluation) :
    attachedNames (past ++ [.evaluated s e]) = attachedNames past := by
  have hnone : (Event.evaluated s e).attaches = none := rfl
  rw [attachedNames_concat, hnone, Option.toList_none, List.append_nil]

/-- `AttachesOnce` holds of a longer run just if it holds of the shorter one and the last step
attaches anew. -/
theorem attachesOnce_concat {seen : List Text} {past : List Event} {event : Event} :
    AttachesOnce seen (past ++ [event]) ↔
      AttachesOnce seen past ∧ event.AttachesAnew (seen ++ attachedNames past) := by
  -- Induction on the past, whose first step moves into `seen`.
  induction past generalizing seen with
  | nil => simp [AttachesOnce, attachedNames]
  | cons first past ih =>
    have hnames : attachedNames (first :: past) = first.attaches.toList ++ attachedNames past := by
      cases hattaches : first.attaches with
      | none => simp [attachedNames, hattaches]
      | some name => simp [attachedNames, hattaches]
    rw [List.cons_append, AttachesOnce, AttachesOnce, ih, hnames, List.append_assoc, and_assoc]

/-! ## The veil of a run -/

/-- The `Veil` over the attached snapshot after a step: another snapshot has none, and an evaluation
of the hide query lays one, unless the text cannot be read. -/
def Event.lay (v : Veil) : Event → Veil
  | .asked s (.attach name _) => if s.attached = some name then v else {}
  | .evaluated s (.hide _) =>
    if isReadable s.values.hide then ⟨s.applied .hide, s.options.compressOnHide⟩ else v
  | _ => v

/-- The `Veil` over the attached snapshot after the past: `Event.lay` step after step. -/
def veil (past : List Event) : Veil :=
  past.foldl Event.lay {}

/-- Whether an evaluation of the hide query was called for and is not made, after a step. -/
def Event.lag (behind : Bool) : Event → Bool
  | .asked s op =>
    (s.called op).any (fun e => e.channel = .hide) ||
      match op with
      | .attach name _ => decide (s.attached = some name) && behind
      | _ => behind
  | .evaluated s (.hide _) => !isReadable s.values.hide && behind
  | .evaluated _ .find => behind

/-- Whether the `veil` over the attached snapshot is not the one that was called for last:
`Event.lag` step after step. -/
def isBehind (past : List Event) : Bool :=
  past.foldl Event.lag false

/-- The `Veil` that is wanted: the selector in effect, but none while the confirmed text is empty,
in the way of the settings. -/
def wanted (s : Session) : Veil where
  selector := if s.values.hide = [] then none else s.selectors.hide
  compress := s.options.compressOnHide

/-- `veil` after one more step is what `Event.lay` makes of the veil before it. -/
theorem veil_concat (past : List Event) (event : Event) :
    veil (past ++ [event]) = event.lay (veil past) := by
  rw [veil, List.foldl_append]
  rfl

/-- `isBehind` after one more step is what `Event.lag` makes of it. -/
theorem isBehind_concat (past : List Event) (event : Event) :
    isBehind (past ++ [event]) = event.lag (isBehind past) := by
  rw [isBehind, List.foldl_append]
  rfl

/-- `Event.lay` of an evaluation of the hide query whose text can be read lays the selector applied,
in the way of the settings. -/
theorem Event.lay_hide {s : Session} (h : isReadable s.values.hide = true) (occasion : HideOccasion)
    (v : Veil) : (Event.evaluated s (.hide occasion)).lay v =
      ⟨s.applied .hide, s.options.compressOnHide⟩ :=
  if_pos h

/-- `Event.lay` of an evaluation whose text cannot be read lays nothing. -/
theorem Event.lay_of_unreadable {s : Session} {e : Evaluation}
    (h : ¬isReadable (s.values.get e.channel) = true) (v : Veil) :
    (Event.evaluated s e).lay v = v := by
  cases e with
  | find => rfl
  | hide occasion => exact if_neg h

/-! ## Which evaluations are called for -/

/-- `due` calls for the hide query once at most, as the last evaluation, and as on another snapshot
only where another one is attached. -/
theorem due_spec (s : Session) (op : Operation) :
    ∃ first last, s.due op = first ++ last ∧ (∀ e ∈ first, e = .find) ∧
      (last = [] ∨ ∃ occasion, last = [.hide occasion] ∧ (occasion.graphChanged = true →
        ∃ name elementsChanged, op = .attach name elementsChanged ∧ s.attached ≠ some name)) := by
  -- what is stored in an input calls for an evaluation of that input, or for none
  have hinput (hdue : s.due op = s.dueOnStoring op) :
      ∃ first last, s.due op = first ++ last ∧ (∀ e ∈ first, e = .find) ∧
        (last = [] ∨ ∃ occasion, last = [.hide occasion] ∧ (occasion.graphChanged = true →
          ∃ name elementsChanged, op = .attach name elementsChanged ∧ s.attached ≠ some name)) := by
    rw [hdue]
    rcases s.stored_spec op with ⟨-, hnothing, -⟩ | ⟨channel, value, -, -, -, hone⟩
    · rw [hnothing]
      exact ⟨[], [], rfl, List.forall_mem_nil _, .inl rfl⟩
    · rw [hone]
      cases channel with
      | find => exact ⟨[.find], [], rfl, List.forall_mem_singleton.2 rfl, .inl rfl⟩
      | hide =>
        refine ⟨[], [_], rfl, List.forall_mem_nil _, .inr ⟨_, rfl, fun h => ?_⟩⟩
        cases h
  cases op with
  | attach name elementsChanged =>
    refine ⟨_, _, rfl, ?_, ?_⟩
    · split
      · exact List.forall_mem_nil _
      · exact List.forall_mem_singleton.2 rfl
    · split
      · exact .inl rfl
      · refine .inr ⟨_, rfl, fun h => ⟨name, elementsChanged, rfl, ?_⟩⟩
        simpa [attaching] using h
  | detach => exact ⟨[], [], rfl, List.forall_mem_nil _, .inl rfl⟩
  | setCompressOnHide compress =>
    refine ⟨[], s.due (.setCompressOnHide compress), rfl, List.forall_mem_nil _, ?_⟩
    by_cases hnone : s.options.compressOnHide = compress ∨ s.values.hide = []
    · exact .inl (if_pos hnone)
    · refine .inr ⟨_, if_neg hnone, fun h => ?_⟩
      cases h
  | _ => exact hinput rfl

/-- `called` has the properties of `due_spec`: nothing comes behind the hide query, and it is called
for as on another snapshot only where another one is attached. -/
theorem called_spec (s : Session) (op : Operation) :
    (∀ before occasion rest, s.called op = before ++ .hide occasion :: rest → rest = []) ∧
      ∀ occasion, .hide occasion ∈ s.called op → occasion.graphChanged = true →
        ∃ name elementsChanged, op = .attach name elementsChanged ∧ s.attached ≠ some name := by
  obtain ⟨first, last, hdue, hfirst, hlast⟩ := s.due_spec op
  have hfind {occasion : HideOccasion} : .hide occasion ∉ first := by
    intro hmem
    cases hfirst _ hmem
  have hnot {before rest : List Evaluation} {occasion : HideOccasion} :
      first ≠ before ++ .hide occasion :: rest := by
    rintro rfl
    exact hfind (List.mem_append_right _ List.mem_cons_self)
  -- what is called is what is due, or nothing where no snapshot is attached
  have hcalled : s.called op = [] ∨ s.called op = first ++ last := by
    rw [called]
    split
    · exact .inl rfl
    · exact .inr hdue
  rcases hcalled with hnone | hsome
  · rw [hnone]
    refine ⟨fun before occasion rest hsplit => ?_, fun occasion hmem => ?_⟩
    · cases before <;> cases hsplit
    · cases hmem
  · rw [hsome]
    rcases hlast with rfl | ⟨occasion', rfl, hattach⟩
    · rw [List.append_nil]
      exact ⟨fun before occasion rest hsplit => absurd hsplit hnot,
        fun occasion hmem => absurd hmem hfind⟩
    · constructor
      · intro before occasion rest hsplit
        rcases List.eq_or_exists_of_append_singleton hsplit with ⟨-, -, hrest⟩ | ⟨rest, hsplit⟩
        · exact hrest
        · exact absurd hsplit hnot
      · intro occasion hmem hchanged
        have hsame := (List.mem_append.1 hmem).resolve_left hfind
        obtain rfl : occasion = occasion' := by simpa using hsame
        exact hattach hchanged

/-- `wanted` keeps its selector where the hide query is not `due`, and its way where it has a
selector; and where a snapshot is attached then, none is wanted. -/
theorem wanted_of_not_due {s : Session} {op : Operation}
    (h : (s.due op).any (fun e => e.channel = .hide) = false) :
    (s.prepare op).wanted.selector = s.wanted.selector ∧
      (s.wanted.selector ≠ none → (s.prepare op).wanted.compress = s.wanted.compress) ∧
      ∀ name elementsChanged, op = .attach name elementsChanged → s.wanted.selector = none := by
  have hspec := s.prepare_spec op
  -- an input that stores a value without an evaluation stores the value confirmed before
  have hinput (hdue : s.due op = s.dueOnStoring op)
      (hcompress : (s.prepare op).options.compressOnHide = s.options.compressOnHide) :
      (s.prepare op).wanted.selector = s.wanted.selector ∧
        (s.wanted.selector ≠ none → (s.prepare op).wanted.compress = s.wanted.compress) := by
    have hvalue : (s.prepare op).values.hide = s.values.hide := by
      refine (hspec.values .hide).trans ?_
      cases hconfirms : (Event.asked s op).confirms .hide with
      | none => rfl
      | some value =>
        have hconfirmed := Event.confirms_asked.1 hconfirms
        rcases s.stored_spec op with ⟨-, -, hsame⟩ | ⟨channel, text, htext, -, -, hone⟩
        · exact (hsame _ _ hconfirmed).symm
        · -- another text would be evaluated
          cases hconfirmed.symm.trans htext
          rw [hdue, hone] at h
          cases h
    exact ⟨by rw [wanted, wanted, hvalue, hspec.selectors], fun _ => hcompress⟩
  cases op with
  | attach name elementsChanged =>
    have hnone : s.values.hide = [] := by
      apply Decidable.byContradiction
      intro hne
      simp [due, if_neg hne, Evaluation.channel] at h
    refine ⟨rfl, fun _ => rfl, fun _ _ _ => ?_⟩
    rw [wanted, if_pos hnone]
  | detach =>
    refine ⟨rfl, fun _ => rfl, fun name elementsChanged hop => ?_⟩
    cases hop
  | setCompressOnHide compress =>
    refine ⟨rfl, fun hselector => ?_, fun name elementsChanged hop => ?_⟩
    case refine_2 => cases hop
    have hhide : s.values.hide ≠ [] := fun hnil => hselector (if_pos hnil)
    apply Decidable.byContradiction
    intro hne
    have hdue : ¬(s.options.compressOnHide = compress ∨ s.values.hide = []) := by
      rintro (hsame | hnil)
      · exact hne hsame.symm
      · exact hhide hnil
    simp [due, if_neg hdue, Evaluation.channel] at h
  | _ =>
    obtain ⟨hselector, hcompress⟩ := hinput rfl hspec.compressOnHide
    refine ⟨hselector, hcompress, fun name elementsChanged hop => ?_⟩
    cases hop

/-! ## Steps -/

/-- What is known of the snapshots at a point of a run. Those that were never attached are as they
were built, and no `HideHandle` holds anything of them; over the attached one lies the `veil` of the
run. The evaluations still to do are those of `called_spec`. -/
structure Viewed (s₀ : Session) (past : List Event) (todo : List Evaluation) (s : Session) :
    Prop where
  plain : ∀ channel, Selector.PlainText (s.selectors.get channel)
  untouched : ∀ name, name ∉ attachedNames past →
    (s.workspace.graphAt name).elements = (s₀.workspace.graphAt name).elements
  held : ∀ h, s.hider.handle = some h → h.graph ∈ attachedNames past
  veiled : ∀ name, s.attached = some name → name ∈ attachedNames past ∧
    Veiled name (s₀.workspace.graphAt name) (veil past) s.hider.handle (s.workspace.graphAt name)
  last : ∀ before occasion rest, todo = before ++ .hide occasion :: rest → rest = []
  anew : ∀ occasion, .hide occasion ∈ todo → occasion.graphChanged = true →
    ∀ name, s.attached = some name → HideHandle.on name s.hider.handle = none

variable {s₀ s : Session} {past : List Event} {name : Text}

/-- `Viewed`: nothing is held of a snapshot that was never attached. -/
theorem Viewed.on_eq_none {todo : List Evaluation} (h : Viewed s₀ past todo s)
    (hname : name ∉ attachedNames past) : HideHandle.on name s.hider.handle = none :=
  HideHandle.on_eq_none fun hd hheld hgraph => hname (hgraph ▸ h.held hd hheld)

/-- `Viewed` at the attached snapshot after `prepare`: an operation leaves the veil over it, and one
that attaches another snapshot finds no veil over that. -/
theorem Viewed.veiled_ask (h : Viewed s₀ past [] s) (op : Operation)
    (hanew : (Event.asked s op).AttachesAnew (attachedNames past))
    (hattached : (s.prepare op).attached = some name) :
    name ∈ attachedNames (past ++ [.asked s op]) ∧
      Veiled name (s₀.workspace.graphAt name) (veil (past ++ [.asked s op]))
        (s.prepare op).hider.handle ((s.prepare op).workspace.graphAt name) := by
  have hspec := s.prepare_spec op
  -- an operation that attaches nothing leaves the veil where it was
  have hkept (hsame : (s.prepare op).attached = s.attached)
      (hhider : (s.prepare op).hider = s.hider)
      (hlay : (Event.asked s op).lay (veil past) = veil past) :
      name ∈ attachedNames (past ++ [.asked s op]) ∧
        Veiled name (s₀.workspace.graphAt name) (veil (past ++ [.asked s op]))
          (s.prepare op).hider.handle ((s.prepare op).workspace.graphAt name) := by
    obtain ⟨hpast, hveiled⟩ := h.veiled name (hsame ▸ hattached)
    rw [veil_concat, hlay, hhider, hspec.workspace]
    exact ⟨mem_attachedNames_concat hpast _, hveiled⟩
  cases op with
  | attach other elementsChanged =>
    obtain rfl : other = name := Option.some.inj hattached
    rw [veil_concat, Event.lay]
    refine ⟨by simp [attachedNames_concat, Event.attaches], ?_⟩
    by_cases hsame : s.attached = some other
    · rw [if_pos hsame]
      exact (h.veiled other hsame).2
    · -- nothing was done to it so far
      have hnew : other ∉ attachedNames past := hanew.resolve_left hsame
      rw [if_neg hsame]
      exact .of_untouched (h.untouched other hnew) (h.on_eq_none hnew) false
  | detach => cases hattached
  | _ => exact hkept hspec.attached hspec.hider rfl

/-- `Viewed` is preserved when an operation is asked for and `prepare` makes its changes. -/
theorem Viewed.ask (h : Viewed s₀ past [] s) (op : Operation)
    (hanew : (Event.asked s op).AttachesAnew (attachedNames past)) :
    Viewed s₀ (past ++ [.asked s op]) (s.called op) (s.prepare op) := by
  have hspec := s.prepare_spec op
  obtain ⟨hlast, hchanged⟩ := s.called_spec op
  -- an operation writes into inputs and parameters; of the snapshots only the attached name and
  -- the handle may change
  refine ⟨?plain, ?untouched, ?held, fun name => h.veiled_ask op hanew, hlast, ?anew⟩
  case plain =>
    rw [hspec.selectors]
    exact h.plain
  case untouched =>
    intro name hname
    rw [hspec.workspace]
    exact h.untouched name fun hpast => hname (mem_attachedNames_concat hpast _)
  case held =>
    intro hd hhd
    rw [hspec.hider] at hhd
    split at hhd
    · cases hhd
    · exact mem_attachedNames_concat (h.held hd hhd) _
  -- a hide is owed anew only to a snapshot that no handle holds
  case anew =>
    intro occasion hmem hnew name hname
    obtain ⟨other, elementsChanged, rfl, hne⟩ := hchanged occasion hmem hnew
    obtain rfl : other = name := Option.some.inj hname
    exact h.on_eq_none (hanew.resolve_left hne)

/-- `Viewed` is kept when an evaluation still to do is dropped, as one that fails drops those behind
it. -/
theorem Viewed.drop {todo : List Evaluation} (h : Viewed s₀ past todo s) : Viewed s₀ past [] s where
  plain := h.plain
  untouched := h.untouched
  held := h.held
  veiled := h.veiled
  last := by
    intro before occasion rest hsplit
    cases before <;> cases hsplit
  anew := by
    intro occasion hmem
    cases hmem

section Evaluate

variable {e : Evaluation} {rest : List Evaluation} (h : Viewed s₀ past (e :: rest) s)

include h

/-- `Viewed.last` of the evaluations behind the first one. -/
theorem Viewed.last_tail : ∀ before occasion rest', rest = before ++ .hide occasion :: rest' →
    rest' = [] := by
  rintro before occasion rest' rfl
  exact h.last (e :: before) occasion rest' rfl

/-- `Viewed` is preserved by an evaluation whose text cannot be read, as it changes nothing. -/
theorem Viewed.evaluate_unreadable (hreadable : ¬isReadable (s.values.get e.channel) = true) :
    Viewed s₀ (past ++ [.evaluated s e]) rest s := by
  have hnames := attachedNames_evaluated past s e
  refine ⟨h.plain, hnames ▸ h.untouched, hnames ▸ h.held, ?_, h.last_tail, ?_⟩
  · rw [hnames, veil_concat, Event.lay_of_unreadable hreadable]
    exact h.veiled
  · exact fun occasion hmem => h.anew occasion (List.mem_cons_of_mem _ hmem)

/-- `Viewed` is preserved by an evaluation that touches the attached snapshot only, and lays the
veil of the run over it. -/
theorem Viewed.of_evaluates {s' : Session} {selector : Option Text} {g : Graph}
    (hattached : s.attached = some name) (hevaluates : Evaluates s s' e.channel selector name g)
    (hveiled : Veiled name (s₀.workspace.graphAt name) (veil (past ++ [.evaluated s e]))
      s'.hider.handle g)
    (hheld : ∀ hd, s'.hider.handle = some hd → s.hider.handle = some hd ∨ hd.graph = name)
    (hkept : ∀ occasion, .hide occasion ∈ rest → s'.hider = s.hider) :
    Viewed s₀ (past ++ [.evaluated s e]) rest s' := by
  have hnames := attachedNames_evaluated past s e
  obtain ⟨hname, -⟩ := h.veiled name hattached
  -- the other snapshots are the same as before
  have hgraph (other : Text) :
      s'.workspace.graphAt other = if name = other then g else s.workspace.graphAt other := by
    rw [hevaluates.workspace, Workspace.graphAt_put]
  refine ⟨?plain, ?untouched, ?held, ?veiled, h.last_tail, ?anew⟩
  case plain =>
    intro channel
    rw [hevaluates.selectors, PerChannel.get_set]
    split
    · exact hevaluates.plain (h.plain _)
    · exact h.plain channel
  case untouched =>
    intro other hother
    rw [hnames] at hother
    have hne : name ≠ other := fun hsame => hother (hsame ▸ hname)
    rw [hgraph, if_neg hne]
    exact h.untouched other hother
  case held =>
    intro hd hhd
    rw [hnames]
    rcases hheld hd hhd with hbefore | hown
    · exact h.held hd hbefore
    · rw [hown]
      exact hname
  case veiled =>
    intro other hother
    rw [hevaluates.attached, hattached] at hother
    obtain rfl : name = other := Option.some.inj hother
    rw [hnames, hgraph, if_pos rfl]
    exact ⟨hname, hveiled⟩
  case anew =>
    intro occasion hmem
    rw [hkept occasion hmem, hevaluates.attached]
    exact h.anew occasion (List.mem_cons_of_mem _ hmem)

/-- `Viewed` is preserved by `evaluate`: finding marks below the veil, and hiding lays a new one. -/
theorem Viewed.evaluate (hattached : s.attached = some name)
    (hbuilt : ∀ name, Pristine (s₀.workspace.graphAt name).elements) :
    Viewed s₀ (past ++ [.evaluated s e]) rest (s.evaluate name e).1 := by
  have hspec := s.evaluate_spec name e
  obtain ⟨-, hveiled⟩ := h.veiled name hattached
  -- cases: a text that cannot be read changes nothing, and else the query says what is done
  by_cases hreadable : isReadable (s.values.get e.channel) = true
  case neg =>
    rw [if_neg hreadable] at hspec
    rw [hspec]
    exact h.evaluate_unreadable hreadable
  rw [if_pos hreadable] at hspec
  obtain ⟨g, hevaluates, happlies⟩ := hspec
  have hplain : Selector.PlainText (s.applied e.channel) := hevaluates.plain (h.plain _)
  cases e with
  | find =>
    obtain ⟨helements, hhider⟩ := happlies
    refine h.of_evaluates hattached hevaluates ?_ (fun hd hhd => .inl (hhider ▸ hhd))
      fun _ _ => hhider
    rw [veil_concat, hhider]
    exact hveiled.mark hplain helements
  | hide occasion =>
    obtain ⟨occasion', hcompress, hchanged, helements, hhider⟩ := happlies
    -- no evaluation is left behind this one
    obtain rfl : rest = [] := h.last [] occasion rest rfl
    refine h.of_evaluates hattached hevaluates ?_
      (fun hd hhd => .inr (Hider.graph_of_apply (hhider ▸ hhd)))
      fun _ hmem => absurd hmem List.not_mem_nil
    rw [veil_concat, Event.lay_hide hreadable, hhider, ← hcompress]
    refine hveiled.hide (hbuilt name) hplain (fun hnew => ?_) helements
    exact h.anew occasion List.mem_cons_self (hchanged ▸ hnew) name hattached

end Evaluate

/-- The invariant of the view: the `veil` over the attached snapshot is the one that is `wanted`,
unless it `isBehind`. -/
def InForce (past : List Event) (s : Session) : Prop :=
  s.attached ≠ none → isBehind past = false →
    s.wanted.selector = (veil past).selector ∧
      (s.wanted.selector ≠ none → s.wanted.compress = (veil past).compress)

/-- `InForce` is preserved when an operation is asked for: the hide query is not called for in it,
or the veil is behind afterwards. -/
theorem InForce.ask (h : InForce past s) (op : Operation) :
    InForce (past ++ [.asked s op]) (s.prepare op) := by
  intro hattached hbehind
  have hspec := s.prepare_spec op
  have hcalled : s.called op = s.due op := by
    rw [called]
    split
    · rename_i hnone
      exact absurd hnone hattached
    · rfl
  rw [isBehind_concat] at hbehind
  obtain ⟨hnotDue, hbefore⟩ := Bool.or_eq_false_iff.1 hbehind
  rw [hcalled] at hnotDue
  obtain ⟨hselector, hcompress, hnone⟩ := wanted_of_not_due hnotDue
  -- where the snapshot stays, what was known of it stays
  have hkept (hsame : (s.prepare op).attached = s.attached) (hbehind : isBehind past = false) :
      (s.prepare op).wanted.selector = (veil past).selector ∧
        ((s.prepare op).wanted.selector ≠ none →
          (s.prepare op).wanted.compress = (veil past).compress) := by
    obtain ⟨hselector', hcompress'⟩ := h (hsame ▸ hattached) hbehind
    rw [hselector]
    exact ⟨hselector', fun hsome => (hcompress hsome).trans (hcompress' hsome)⟩
  rw [veil_concat]
  cases op with
  | attach name elementsChanged =>
    rw [Event.lay]
    by_cases hsame : s.attached = some name
    · rw [if_pos hsame]
      have hbehind : isBehind past = false := by simpa [hsame] using hbefore
      exact hkept hsame.symm hbehind
    · rw [if_neg hsame]
      have hnothing := hselector.trans (hnone name elementsChanged rfl)
      exact ⟨hnothing, fun hsome => absurd hnothing hsome⟩
  | detach => exact absurd rfl hattached
  | _ => exact hkept hspec.attached hbefore

/-- `InForce` is preserved by `evaluate`, which lays the veil that is wanted, or changes nothing. -/
theorem InForce.evaluate (h : InForce past s) (name : Text) (e : Evaluation) :
    InForce (past ++ [.evaluated s e]) (s.evaluate name e).1 := by
  obtain ⟨hvalues, hattached', hcompress⟩ := s.evaluate_frame name e
  have hselectors := s.evaluate_selectors name e
  intro hattached hbehind
  rw [hattached'] at hattached
  rw [isBehind_concat] at hbehind
  rw [veil_concat, wanted, hvalues, hcompress, hselectors]
  cases e with
  | find => exact h hattached hbehind
  | hide occasion =>
    by_cases hreadable : isReadable s.values.hide = true
    · rw [Event.lay_hide hreadable]
      refine ⟨?_, fun _ => rfl⟩
      -- an empty text stands for no selector
      by_cases hnil : s.values.hide = []
      · have hblank : selectorOf? (s.values.get .hide) = some none :=
          selectorOf?_blank (by rw [PerChannel.get, hnil]; exact List.forall_mem_nil _)
        rw [if_pos hnil, applied, hblank, Option.getD_some]
      · rw [if_neg hnil]
        rfl
    · -- a text that cannot be read changes nothing
      have hlag : isBehind past = false := by
        have hnot : isReadable s.values.hide = false := Bool.eq_false_iff.2 hreadable
        simpa [Event.lag, hnot] using hbehind
      have hnone : selectorOf? (s.values.get .hide) = none := selectorOf?_eq_none hreadable
      have hunreadable : ¬isReadable (s.values.get (Evaluation.hide occasion).channel) = true :=
        hreadable
      rw [Event.lay_of_unreadable hunreadable, Evaluation.channel, applied, hnone, Option.getD_none,
        PerChannel.set_get_self]
      exact h hattached hlag

/-! ## Runs -/

/-- `Viewed` holds at the start of a session, before a snapshot is attached. -/
theorem viewed_start (hselectors : ∀ channel, s₀.selectors.get channel = none)
    (hheld : s₀.hider.handle = none) (hunattached : s₀.attached = none) :
    Viewed s₀ [] [] s₀ where
  plain := by
    intro channel text selector hsome
    rw [hselectors] at hsome
    cases hsome
  untouched := fun _ _ => rfl
  held := by
    intro hd hsome
    rw [hheld] at hsome
    cases hsome
  veiled := by
    intro name hname
    rw [hunattached] at hname
    cases hname
  last := by
    intro before occasion rest hsplit
    cases before <;> cases hsplit
  anew := by
    intro occasion hmem
    cases hmem

/-- `Viewed` holds at every point of a run that starts with it, by its steps. -/
theorem Viewed.of_reached {todo : List Evaluation}
    (hstart : Viewed s₀ [] [] s₀) (hbuilt : ∀ name, Pristine (s₀.workspace.graphAt name).elements)
    (h : Reached s₀ past todo s) : AttachesOnce [] past → Viewed s₀ past todo s := by
  -- induction on the run, whose steps ask for an operation, make an evaluation or drop one
  induction h with
  | start => exact fun _ => hstart
  | ask op h ih =>
    intro honce
    obtain ⟨honce, hanew⟩ := attachesOnce_concat.1 honce
    exact (ih honce).ask op hanew
  | evaluate h hattached hok ih =>
    exact fun honce => (ih (attachesOnce_concat.1 honce).1).evaluate hattached hbuilt
  | fail h hattached herror ih =>
    exact fun honce => ((ih (attachesOnce_concat.1 honce).1).evaluate hattached hbuilt).drop

/-- `InForce` holds at every point of a run that starts with no snapshot attached. -/
theorem InForce.of_reached {todo : List Evaluation} (hstart : s₀.attached = none)
    (h : Reached s₀ past todo s) : InForce past s := by
  induction h with
  | start => exact fun hattached => absurd hstart hattached
  | ask op h ih => exact ih.ask op
  | evaluate h hattached hok ih => exact ih.evaluate _ _
  | fail h hattached herror ih => exact ih.evaluate _ _

/-- `Pristine` holds of the snapshots that `Graph.ofValue` has built, all of whose edges have their
ends. -/
theorem pristine_graphAt {workspace : Workspace}
    (h : ∀ entry ∈ workspace.graphs, (∃ payload, Graph.ofValue payload = .ok entry.2) ∧
      Graph.Joined entry.2.elements) (name : Text) : Pristine (workspace.graphAt name).elements := by
  unfold Workspace.graphAt Workspace.graph?
  cases hfound : workspace.graphs.get? name with
  | none =>
    exact ⟨List.nodup_nil, fun e he => absurd he List.not_mem_nil,
      fun e he => absurd he List.not_mem_nil⟩
  | some g =>
    obtain ⟨entry, hentry, rfl⟩ := Entries.exists_mem_of_get? hfound
    obtain ⟨⟨payload, hpayload⟩, hjoined⟩ := h entry hentry
    obtain ⟨hnodup, hshown⟩ := Graph.ofValue_untouched hpayload
    exact ⟨hnodup, hshown, hjoined⟩

/-- What is seen of the attached snapshot is what one call of a new hider shows of the snapshot as it
was built: the call that was made in the last evaluation of the hide query on it, or none. This is the
call for the query in effect and the settings, except that it may be another one where an evaluation
that was called for since was not made. -/
theorem view_run (options : DisplayOptions) (params : Params) (given : PerChannel Text)
    (presets : PerChannel (List Preset)) {workspace : Workspace}
    (hworkspace : ∀ entry ∈ workspace.graphs, (∃ payload, Graph.ofValue payload = .ok entry.2) ∧
      Graph.Joined entry.2.elements)
    (ops : List Operation) {s₀ s : Session}
    (hstart : s₀ = start options params given presets workspace) (hs : s = s₀.run ops)
    (honce : AttachesOnce [] (s₀.log ops)) {name : Text} (hattached : s.attached = some name) :
    let seen := (s.workspace.graphAt name).view
    let laid := ((veil (s₀.log ops)).over name (workspace.graphAt name)).2.view
    let wanted := (s.wanted.over name (workspace.graphAt name)).2.view
    seen = laid ∧ (seen = wanted ↔ (isBehind (s₀.log ops) = true → laid = wanted)) := by
  -- nothing is selected, held or attached at the start
  have hselectors (channel : Channel) : s₀.selectors.get channel = none := by
    rw [hstart]
    exact PerChannel.get_both none channel
  have hheld : s₀.hider.handle = none := by rw [hstart]; rfl
  have hunattached : s₀.attached = none := by rw [hstart]; rfl
  have hgraphs : s₀.workspace = workspace := by rw [hstart]; rfl
  have hreached := reached_run s₀ ops
  have hbuilt : ∀ name, Pristine (s₀.workspace.graphAt name).elements := by
    rw [hgraphs]
    exact pristine_graphAt hworkspace
  have hviewed := Viewed.of_reached (viewed_start hselectors hheld hunattached) hbuilt hreached honce
  have hinForce := InForce.of_reached hunattached hreached
  rw [← hs] at hviewed hinForce
  intro seen laid wanted
  have hseen : seen = laid := by
    have hveiled := ((hviewed.veiled name hattached).2).view_eq (hbuilt name)
    rw [hgraphs] at hveiled
    exact hveiled
  -- the laid veil is the wanted one where the hide query is not behind
  refine ⟨hseen, ?_⟩
  rw [hseen]
  constructor
  · exact fun hwanted _ => hwanted
  · intro hbehind
    cases hcase : isBehind (s₀.log ops) with
    | true => exact hbehind hcase
    | false =>
      have hsome : s.attached ≠ none := by
        rw [hattached]
        exact Option.some_ne_none name
      obtain ⟨hselector, hcompress⟩ := hinForce hsome hcase
      have hsame := Veil.view_over_congr hselector hcompress name (workspace.graphAt name)
      exact hsame.symm

/-- A session over two snapshots, with the `start` of no options. -/
def overTwo (g h : Graph) : Session :=
  start {} {} (.both []) (.both []) ⟨[("g", g), ("h", h)]⟩

/-- `view_run` where a second copy of a snapshot is attached: it is hidden in as the first one was,
and then with elements taken out. -/
theorem view_run_copies :
    ∃ g, Graph.ofValue Hider.boxedPayload = .ok g ∧
      let s := (overTwo g g).run [.attach "g" none, .setValue .hide "app = x", .attach "h" none,
        .setCompressOnHide true]
      s.wanted = ⟨some "node[app = \"x\"]", true⟩ ∧
        (s.workspace.graphAt "h").view = (s.wanted.over "h" g).2.view := by
  have hbuilt : ∃ g, Graph.ofValue Hider.boxedPayload = .ok g ∧ Graph.Joined g.elements ∧
      let ops := [.attach "g" none, .setValue .hide "app = x", .attach "h" none,
        .setCompressOnHide true]
      let s := (overTwo g g).run ops
      AttachesOnce [] ((overTwo g g).log ops) ∧ s.attached = some (Text.ofString "h") ∧
        isBehind ((overTwo g g).log ops) = false ∧
        s.wanted = ⟨some "node[app = \"x\"]", true⟩ := by
    -- the run is evaluated; `Joined` is a statement on finite lists, and unfolds to one to decide
    refine ⟨_, rfl, ?_, by decide +kernel⟩
    unfold Graph.Joined
    decide +kernel
  obtain ⟨g, hg, hjoined, honce, hattached, hbehind, hwanted⟩ := hbuilt
  have hworkspace : ∀ entry ∈ (⟨[("g", g), ("h", g)]⟩ : Workspace).graphs,
      (∃ payload, Graph.ofValue payload = .ok entry.2) ∧ Graph.Joined entry.2.elements :=
    List.forall_mem_cons.2 ⟨⟨⟨_, hg⟩, hjoined⟩, List.forall_mem_singleton.2 ⟨⟨_, hg⟩, hjoined⟩⟩
  refine ⟨g, hg, hwanted, ?_⟩
  have hrun := view_run {} {} (.both []) (.both []) hworkspace _ rfl rfl honce hattached
  refine hrun.2.2 fun h => ?_
  cases hbehind.symm.trans h

/-- One node, as the JSON data that `Graph.ofValue` reads. -/
def singlePayload : Value :=
  .list [.object [("data", .object [("id", .text "a"), ("app", .text "x")])]]

/-- The node of `singlePayload`, and an idle one with an information separator behind a number. -/
def separatedPayload : Value :=
  .list [
    .object [("data", .object [("id", .text "a"), ("app", .text "x")])],
    .object [("data", .object [("id", .text "b"), ("httpIn", .text "5\u001c"),
      ("isIdle", .bool true)])]]

/-- `view_run` at a run where the seen view is not the wanted one. In the snapshot that is attached
later, finding comes upon a text that is taken for a number and is none, and fails. Nothing is
hidden then, though the text to hide is still confirmed, and its selector in effect. -/
theorem view_run_separated :
    ∃ g h, Graph.ofValue singlePayload = .ok g ∧ Graph.ofValue separatedPayload = .ok h ∧
      Graph.Joined g.elements ∧ Graph.Joined h.elements ∧
      let ops := [.attach "g" none, .setValue .hide "app = x", .setValue .find "httpin > 3",
        .attach "h" none]
      let s := (overTwo g h).run ops
      AttachesOnce [] ((overTwo g h).log ops) ∧ s.attached = some (Text.ofString "h") ∧
        s.wanted = ⟨some "node[app = \"x\"]", false⟩ ∧
        (s.workspace.graphAt "h").view ≠ (s.wanted.over "h" h).2.view := by
  refine ⟨_, _, rfl, rfl, ?_, ?_, by decide +kernel⟩
  · unfold Graph.Joined
    decide +kernel
  · unfold Graph.Joined
    decide +kernel

end Session

end MeshLens
