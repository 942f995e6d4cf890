import MeshLens.Proofs.Query.Requests

/-!
# Requests that are granted

A query asks only for settings that can be granted and that queries look at. So once what a text asks
for has been granted, nothing is left to ask for when the text is compiled again; and this stays so,
since granting never turns a setting off.

## Key results

- `DisplayOptions.Grants`: what a text asks for is on
- `DisplayOptions.grants_of_compile`, `DisplayOptions.Grants.grantAll_eq`: compiling a text grants what
  it asks for, and compiling it again changes no setting
- `DisplayOptions.Grants.grantAll`: what is on stays on
-/

namespace MeshLens

/-- Whether a request is for a setting that queries look at. -/
def OptionRequest.Consulted (r : OptionRequest) : Prop :=
  if r.option = edgeLabelsOption then r.edgeLabels ≠ []
  else Switch.ofName? r.option ∈ [some .showRank, some .showSecurity, some .showIdleNodes]

/-- `Consulted` is decided by the option and the edge labels. -/
instance (r : OptionRequest) : Decidable r.Consulted := by
  unfold OptionRequest.Consulted
  infer_instance

/-- Whether all that is on in some settings is on in others. -/
structure DisplayFlags.Within (flags flags' : DisplayFlags) : Prop where
  showRank : flags.showRank = true → flags'.showRank = true
  showSecurity : flags.showSecurity = true → flags'.showSecurity = true
  showIdleNodes : flags.showIdleNodes = true → flags'.showIdleNodes = true
  edgeLabels : ∀ label ∈ flags.edgeLabels, label ∈ flags'.edgeLabels

namespace DisplayFlags

variable {flags flags' : DisplayFlags}

/-- `Within` holds of the settings themselves. -/
theorem Within.refl (flags : DisplayFlags) : flags.Within flags :=
  ⟨id, id, id, fun _ h => h⟩

/-- `Within` goes through further settings. -/
theorem Within.trans {flags'' : DisplayFlags} (h : flags.Within flags') (h' : flags'.Within flags'') :
    flags.Within flags'' :=
  ⟨fun on => h'.showRank (h.showRank on), fun on => h'.showSecurity (h.showSecurity on),
    fun on => h'.showIdleNodes (h.showIdleNodes on),
    fun label hlabel => h'.edgeLabels label (h.edgeLabels label hlabel)⟩

/-- `covers` holds in all settings that those are within in which it holds. -/
theorem Within.covers (h : flags.Within flags') {r : OptionRequest} (hr : flags.covers r = true) :
    flags'.covers r = true := by
  unfold DisplayFlags.covers at hr ⊢
  split
  · rename_i hedge
    rw [if_pos hedge] at hr
    obtain ⟨label, hlabel, hmem⟩ := (Option.any_eq_true _ _).1 hr
    refine (Option.any_eq_true _ _).2 ⟨label, hlabel, ?_⟩
    exact decide_eq_true (h.edgeLabels label (of_decide_eq_true hmem))
  · rename_i hedge
    rw [if_neg hedge] at hr
    split at hr
    · exact h.showRank hr
    · exact h.showSecurity hr
    · exact h.showIdleNodes hr
    · cases hr

/-- `collect` leaves nothing new when all is on. -/
theorem foldl_collect_of_covers {requests collected : List OptionRequest}
    (h : ∀ r ∈ requests, flags.covers r = true) :
    requests.foldl flags.collect collected = collected := by
  induction requests with
  | nil => rfl
  | cons r requests ih =>
    rw [List.forall_mem_cons] at h
    rw [List.foldl_cons, collect, if_pos (.inr h.1)]
    exact ih h.2

/-- `collect` keeps what was collected. -/
theorem mem_collect_of_mem {collected : List OptionRequest} {r : OptionRequest} (request : OptionRequest)
    (h : r ∈ collected) : r ∈ flags.collect collected request := by
  unfold collect
  split
  · exact h
  · exact List.mem_append_left _ h

/-- `collect` keeps what was collected, whatever requests follow. -/
theorem mem_foldl_collect_of_mem (requests : List OptionRequest) {collected : List OptionRequest}
    {r : OptionRequest} (h : r ∈ collected) : r ∈ requests.foldl flags.collect collected := by
  induction requests generalizing collected with
  | nil => exact h
  | cons request requests ih => exact ih (mem_collect_of_mem request h)

/-- `collect` takes what is asked for, unless it is on. -/
theorem covers_or_mem_collect {requests collected : List OptionRequest} {r : OptionRequest}
    (h : r ∈ requests) : flags.covers r = true ∨ r ∈ requests.foldl flags.collect collected := by
  induction requests generalizing collected with
  | nil => cases h
  | cons request requests ih =>
    rcases List.mem_cons.1 h with rfl | h
    · rw [List.foldl_cons]
      unfold collect
      split
      · rename_i hknown
        rcases hknown with hmem | hcovers
        · exact .inr (mem_foldl_collect_of_mem requests hmem)
        · exact .inl hcovers
      · exact .inr (mem_foldl_collect_of_mem requests (by simp))
    · exact ih h

end DisplayFlags

namespace DisplayOptions

variable {o o' : DisplayOptions} {r : OptionRequest} {text : Text}

/-! ## Granting -/

/-- `addEdgeLabels` adds the labels, and no others. -/
theorem mem_addEdgeLabels {labels : List Text} {label : Text} :
    label ∈ (o.addEdgeLabels labels).edgeLabels ↔ label ∈ o.edgeLabels ∨ label ∈ labels := by
  unfold addEdgeLabels
  dsimp only
  generalize o.edgeLabels = present
  -- for any labels present so far, by induction on those to come
  induction labels generalizing present with
  | nil => simp
  | cons first labels ih =>
    rw [List.foldl_cons, ih]
    split
    · rename_i hmem
      constructor
      · exact fun h => h.imp_right (List.mem_cons_of_mem _)
      · rintro (h | h)
        · exact .inl h
        · rcases List.mem_cons.1 h with rfl | h
          · exact .inl hmem
          · exact .inr h
    · simp [or_assoc]

/-- `turnOn` turns nothing off. -/
theorem within_turnOn (o : DisplayOptions) (switch : Switch) :
    o.flags.Within (o.turnOn switch).flags := by
  cases switch with
  | showRank => exact ⟨fun _ => rfl, id, id, fun _ h => h⟩
  | showSecurity => exact ⟨id, fun _ => rfl, id, fun _ h => h⟩
  | showIdleNodes => exact ⟨id, id, fun _ => rfl, fun _ h => h⟩
  | compressOnHide => exact .refl _
  | layout => exact .refl _

/-- `grant` turns nothing off. -/
theorem within_grant {changed : Bool} (h : o.grant r = .ok (o', changed)) :
    o.flags.Within o'.flags := by
  unfold grant at h
  split at h
  · -- edge labels are added to, and a switch is turned on; nothing is taken away
    split at h
    · cases h
    · split at h
      · cases h
        exact .refl _
      · cases h
        exact ⟨id, id, id, fun label hlabel => mem_addEdgeLabels.2 (.inl hlabel)⟩
  · split at h
    · split at h
      · cases h
        exact .refl _
      · cases h
        exact within_turnOn o _
    · split at h
      · cases h
        exact .refl _
      · split at h <;> cases h

/-- `grantAll` turns nothing off. -/
theorem within_grantAll (o : DisplayOptions) (requests : List OptionRequest) :
    o.flags.Within (o.grantAll requests).options.flags := by
  induction requests generalizing o with
  | nil => exact .refl _
  | cons r requests ih =>
    unfold grantAll
    split
    · exact .refl _
    · rename_i o' changed hgrant
      have hrest := (within_grant hgrant).trans (ih o')
      split <;> exact hrest

/-- `grant` grants a request for a setting that queries look at, and the setting is on then. -/
theorem covers_grant (o : DisplayOptions) (h : r.Consulted) :
    ∃ o' changed, o.grant r = .ok (o', changed) ∧ o'.flags.covers r = true := by
  unfold OptionRequest.Consulted at h
  unfold grant DisplayFlags.covers
  split
  · rename_i hedge
    rw [if_pos hedge] at h
    obtain ⟨first, rest, hlabels⟩ := List.exists_cons_of_ne_nil h
    simp only [hlabels, List.head?_cons, Option.any_some]
    split
    · rename_i hpresent
      exact ⟨o, false, rfl, decide_eq_true hpresent⟩
    · exact ⟨_, true, rfl, decide_eq_true (mem_addEdgeLabels.2 (.inr List.mem_cons_self))⟩
  · rename_i hedge
    rw [if_neg hedge] at h
    -- one of three switches, which is on already or is turned on
    simp only [List.mem_cons, List.not_mem_nil, or_false] at h
    rcases h with hswitch | hswitch | hswitch <;> simp only [hswitch] <;> split
    case inl.isTrue on | inr.inl.isTrue on | inr.inr.isTrue on => exact ⟨o, false, rfl, on⟩
    all_goals exact ⟨_, true, rfl, rfl⟩

/-- `grantAll` turns all settings on that queries look at. -/
theorem covers_grantAll (o : DisplayOptions) {requests : List OptionRequest}
    (h : ∀ r ∈ requests, r.Consulted) :
    ∀ r ∈ requests, (o.grantAll requests).options.flags.covers r = true := by
  -- induction on the requests: what the first one turned on stays on
  induction requests generalizing o with
  | nil => exact List.forall_mem_nil _
  | cons r requests ih =>
    rw [List.forall_mem_cons] at h
    obtain ⟨o', changed, hgrant, hcovers⟩ := covers_grant o h.1
    have hrest : (o.grantAll (r :: requests)).options = (o'.grantAll requests).options := by
      rw [grantAll, hgrant]
      dsimp only
      split <;> rfl
    rw [hrest]
    exact List.forall_mem_cons.2 ⟨(within_grantAll o' requests).covers hcovers, ih o' h.2⟩

/-! ## What a text asks for -/

/-- Whether all that a text asks for is on. -/
def Grants (o : DisplayOptions) (text : Text) : Prop :=
  ∀ r ∈ asked text, o.flags.covers r = true

/-- `Grants` is left by granting more requests. -/
theorem Grants.grantAll (h : o.Grants text) (requests : List OptionRequest) :
    (o.grantAll requests).options.Grants text :=
  fun r hr => (within_grantAll o requests).covers (h r hr)

/-- `Consulted` holds of the requests that a query can make. -/
theorem consulted_of_known : ∀ r ∈ Query.knownRequests, r.Consulted := by
  decide +kernel

/-- `grantAll` of the requests of a text grants what it asks for. -/
theorem grants_of_compile {c : Compilation} (h : compile text o.flags = .ok c) :
    (o.grantAll c.requests).options.Grants text := by
  intro r hr
  -- a request is passed over when its setting is on, and it stays on
  rcases DisplayFlags.covers_or_mem_collect hr with hcovers | hmem
  · exact (within_grantAll o c.requests).covers hcovers
  · refine covers_grantAll o (fun r hr => ?_) r (by rw [requests_eq h]; exact hmem)
    rw [requests_eq h] at hr
    exact consulted_of_known r (known_of_asked text r
      ((mem_of_mem_collect o.flags _ hr).resolve_left List.not_mem_nil))

/-- `grantAll` of the requests of a text changes nothing where all is on that it asks for. -/
theorem Grants.grantAll_eq (hgrants : o.Grants text) {c : Compilation}
    (h : compile text o.flags = .ok c) : (o.grantAll c.requests).options = o := by
  rw [requests_eq h, DisplayFlags.foldl_collect_of_covers hgrants]
  rfl

end DisplayOptions

end MeshLens
