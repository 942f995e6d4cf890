import MeshLens.Proofs.Number.LiteralChars
import MeshLens.Proofs.Query.RequestsGranted

/-!
# Requests that are served

The requests of a query are collected while it is read, and granted one by one on the settings as they
are by then. Both agree on what is on: each request that is open when a text is compiled changes a
setting when it is granted, since no request has a part in another one. Once they are granted the text
compiles to the same, and asks for nothing.

## Key results

- `DisplayOptions.Extends`: what granting leaves alone
- `DisplayOptions.grantAll_of_open`, `DisplayOptions.grantAll_of_covers`: requests that are open, and
  requests that are granted already
- `DisplayOptions.Served`: what becomes of the requests of a text
- `compile_served`: the requests of every text that can be compiled are served
- `compile_not_served_separated`: a text that asks for two settings and is not compiled
-/

namespace MeshLens

/-! ## Numbers that end compiling -/

/-- Whether a text looks like a number and has an information separator around it, so that it cannot
be read as one. -/
def UnreadableNumber.Separated (fault : UnreadableNumber) : Prop :=
  isNumber fault.text = true ∧ ∃ c ∈ fault.text, isSeparator c = true

variable {fault : UnreadableNumber}

/-- `isRank` fails for numbers with a separator only. -/
theorem separated_of_isRank {value : Text} (h : Query.isRank value = .error fault) :
    fault.Separated := by
  unfold Query.isRank at h
  split at h
  · rename_i hnumber
    cases hread : readNumber value with
    | ok x =>
      rw [hread] at h
      cases h
    | error fault' =>
      rw [hread] at h
      cases h
      have hsep := (readNumber_eq_error_iff hnumber).1 ⟨fault, hread⟩
      -- the fault names the text that was read
      have hself : fault = ⟨value⟩ := by
        unfold readNumber at hread
        split at hread
        · cases hread
        · exact (Except.error.inj hread).symm
      rw [hself]
      exact ⟨hnumber, hsep⟩
  · cases h

namespace Query

/-- `Operand.resolve` fails for a number with a separator only; it reads the value of a rank and no
other as a number. -/
theorem separated_of_operand {operand : Operand} {conjunctive : Bool} {op : Comparison} {value : Text}
    (h : operand.resolve conjunctive op value = .error (.number fault)) : fault.Separated := by
  unfold Operand.resolve at h
  split at h
  · -- a number is compared as it is written, and only a rank is read
    cases hc : numericCriterion operand.key op value <;> rw [hc] at h <;> cases h
  · unfold rankCriterion at h
    split at h
    · rename_i hrank
      cases h
      exact separated_of_isRank hrank
    · cases h
    · cases hc : numericCriterion operand.key op value <;> rw [hc] at h <;> cases h
  · split at h <;> cases h
  · split at h <;> cases h
  · cases h

/-- `Expression.read` fails for a number with a separator only. -/
theorem separated_of_expression {conjunctive : Bool} {s : Text}
    (h : (Expression.read conjunctive s).result = .error (.number fault)) : fault.Separated := by
  unfold Expression.read at h
  split at h
  · -- a part that no phrase was read from fails for its syntax, not for a number
    cases h
  · rename_i phrase _
    cases phrase with
    | flag negated word =>
      dsimp only [Phrase.resolve] at h
      split at h <;> cases h
    | comparison word op value =>
      dsimp only [Phrase.resolve] at h
      split at h
      · cases h
      · rename_i operand _
        -- a comparison fails where the operand cannot read the value, and a flag reads none
        cases hresolve : operand.resolve conjunctive op value with
        | ok alternatives =>
          rw [hresolve] at h
          cases h
        | error fault' =>
          rw [hresolve] at h
          cases h
          exact separated_of_operand hresolve

end Query

open Query

/-- `readMore` fails for a number with a separator only. -/
theorem Clause.separated_of_readMore (c : Clause) (parts : List Text)
    (h : (c.readMore parts).result = .error (.number fault)) : fault.Separated := by
  induction parts generalizing c with
  | nil => cases h
  | cons s parts ih =>
    simp only [readMore] at h
    split at h
    · rename_i fault' hbind
      cases h
      -- narrowing by an expression only fails for its kind
      cases hread : (Expression.read true s).result with
      | error fault' =>
        rw [hread] at hbind
        cases hbind
        exact separated_of_expression hread
      | ok e =>
        rw [hread] at hbind
        simp only [Except.bind, narrow] at hbind
        split at hbind <;> cases hbind
    · exact ih _ h

/-- `Clause.read` fails for a number with a separator only. -/
theorem Clause.separated_of_read {s : Text} (h : (Clause.read s).result = .error (.number fault)) :
    fault.Separated := by
  simp only [read] at h
  split at h
  · rename_i hread
    cases h
    exact separated_of_expression hread
  · exact separated_of_readMore _ _ h

/-- `readClauses` fails for a number with a separator only. -/
theorem CompiledQuery.separated_of_readClauses (parts : List Text)
    (h : (CompiledQuery.readClauses parts).result = .error (.number fault)) : fault.Separated := by
  induction parts with
  | nil => cases h
  | cons s parts ih =>
    simp only [readClauses] at h
    split at h
    · rename_i hread
      cases h
      exact Clause.separated_of_read hread
    · cases hrest : (readClauses parts).result with
      | ok clauses =>
        rw [hrest] at h
        cases h
      | error fault' =>
        rw [hrest] at h
        cases h
        exact ih hrest

/-- `compile` ends without a result for a number with a separator only. -/
theorem separated_of_compile {text : Text} {flags : DisplayFlags}
    (h : compile text flags = .error fault) : fault.Separated := by
  unfold compile at h
  split at h
  · cases h
  · dsimp only at h
    split at h
    · cases h
    · cases h
    · rename_i hresult
      cases h
      cases hread : (CompiledQuery.readClauses (Text.splitOn " OR " (canonical text))).result with
      | ok clauses =>
        rw [CompiledQuery.read, hread] at hresult
        cases hresult
      | error fault' =>
        rw [CompiledQuery.read, hread] at hresult
        cases hresult
        exact CompiledQuery.separated_of_readClauses _ hread

/-! ## What is collected -/

namespace DisplayFlags

variable {flags : DisplayFlags} {requests collected : List OptionRequest}

/-- `collect` leaves no request twice. -/
theorem nodup_foldl_collect (h : collected.Nodup) :
    (requests.foldl flags.collect collected).Nodup := by
  induction requests generalizing collected with
  | nil => exact h
  | cons r requests ih =>
    refine ih ?_
    unfold collect
    split
    · exact h
    · rename_i hnew
      rw [not_or] at hnew
      exact List.nodup_append.2 ⟨h, by simp, fun a ha b hb hab =>
        hnew.1 (List.mem_singleton.1 hb ▸ hab ▸ ha)⟩

/-- `collect` leaves no request for what is on. -/
theorem covers_of_mem_foldl_collect (h : ∀ r ∈ collected, flags.covers r = false) :
    ∀ r ∈ requests.foldl flags.collect collected, flags.covers r = false := by
  induction requests generalizing collected with
  | nil => exact h
  | cons request requests ih =>
    refine ih fun r hr => ?_
    unfold collect at hr
    split at hr
    · exact h r hr
    · rename_i hnew
      rw [not_or, Bool.not_eq_true] at hnew
      rcases List.mem_append.1 hr with hr | hr
      · exact h r hr
      · exact List.mem_singleton.1 hr ▸ hnew.2

/-- `collect` leaves just what was asked for and is not on. -/
theorem mem_foldl_collect_iff {r : OptionRequest} :
    r ∈ requests.foldl flags.collect [] ↔ r ∈ requests ∧ flags.covers r = false := by
  constructor
  · intro h
    exact ⟨(mem_of_mem_collect flags requests h).resolve_left List.not_mem_nil,
      covers_of_mem_foldl_collect (List.forall_mem_nil _) r h⟩
  · rintro ⟨h, hoff⟩
    exact (covers_or_mem_collect h).resolve_left (by simp [hoff])

end DisplayFlags

/-! ## Granting one request -/

/-- Whether granting a request has no part in another one. -/
def OptionRequest.Spares (r r' : OptionRequest) : Prop :=
  if r.option = edgeLabelsOption then
    r'.option = edgeLabelsOption → ∀ label ∈ r'.edgeLabels.head?, label ∉ r.edgeLabels
  else r'.option = edgeLabelsOption ∨ Switch.ofName? r.option ≠ Switch.ofName? r'.option

/-- `Spares` is decided by the options and the edge labels. -/
instance (r r' : OptionRequest) : Decidable (r.Spares r') := by
  unfold OptionRequest.Spares
  infer_instance

/-- `Spares` holds of any two requests that a query can make. -/
theorem spares_of_known :
    ∀ r ∈ knownRequests, ∀ r' ∈ knownRequests, r ≠ r' → r.Spares r' := by
  decide +kernel

namespace DisplayOptions

/-- Whether settings are others with more turned on: edge labels are added behind those that are there,
and settings that no query looks at are the same. -/
structure Extends (o o' : DisplayOptions) : Prop where
  within : o.flags.Within o'.flags
  edgeLabels : o.edgeLabels <+: o'.edgeLabels
  compressOnHide : o'.compressOnHide = o.compressOnHide
  layout : o'.layout = o.layout
  unnamedLayout : o'.unnamedLayout = o.unnamedLayout

variable {o o' : DisplayOptions} {r r' : OptionRequest} {changed : Bool}

/-- `Extends` holds of the settings themselves. -/
theorem Extends.refl (o : DisplayOptions) : o.Extends o :=
  ⟨.refl _, List.prefix_rfl, rfl, rfl, rfl⟩

/-- `Extends` goes through further settings. -/
theorem Extends.trans {o'' : DisplayOptions} (h : o.Extends o') (h' : o'.Extends o'') :
    o.Extends o'' :=
  ⟨h.within.trans h'.within, h.edgeLabels.trans h'.edgeLabels,
    h'.compressOnHide.trans h.compressOnHide, h'.layout.trans h.layout,
    h'.unnamedLayout.trans h.unnamedLayout⟩

/-- `addEdgeLabels` puts labels behind those that are there. -/
theorem edgeLabels_prefix_addEdgeLabels (o : DisplayOptions) (labels : List Text) :
    o.edgeLabels <+: (o.addEdgeLabels labels).edgeLabels := by
  unfold addEdgeLabels
  dsimp only
  generalize o.edgeLabels = present
  induction labels generalizing present with
  | nil => exact List.prefix_rfl
  | cons label labels ih =>
    rw [List.foldl_cons]
    refine List.IsPrefix.trans ?_ (ih _)
    split
    · exact List.prefix_rfl
    · exact List.prefix_append _ _

end DisplayOptions

/-- `Consulted` requests are for edge labels, or for one of three switches. -/
theorem OptionRequest.Consulted.cases {r : OptionRequest} (h : r.Consulted) :
    (r.option = edgeLabelsOption ∧ ∃ first rest, r.edgeLabels = first :: rest) ∨
      r.option ≠ edgeLabelsOption ∧ ∃ switch, Switch.ofName? r.option = some switch ∧
        (switch = .showRank ∨ switch = .showSecurity ∨ switch = .showIdleNodes) := by
  unfold OptionRequest.Consulted at h
  split at h
  · rename_i hedge
    obtain ⟨first, rest, hlabels⟩ := List.exists_cons_of_ne_nil h
    exact .inl ⟨hedge, first, rest, hlabels⟩
  · rename_i hedge
    simp only [List.mem_cons, List.not_mem_nil, or_false] at h
    refine .inr ⟨hedge, ?_⟩
    rcases h with h | h | h
    · exact ⟨_, h, .inl rfl⟩
    · exact ⟨_, h, .inr (.inl rfl)⟩
    · exact ⟨_, h, .inr (.inr rfl)⟩

namespace DisplayOptions

variable {o : DisplayOptions} {r r' : OptionRequest} {requests : List OptionRequest}

/-- `addEdgeLabels` leaves a request alone that is for none of them. -/
theorem covers_addEdgeLabels (hr : r.option = OptionRequest.edgeLabelsOption) (h : r.Spares r') :
    (o.addEdgeLabels r.edgeLabels).flags.covers r' = o.flags.covers r' := by
  rw [OptionRequest.Spares, if_pos hr] at h
  unfold DisplayFlags.covers
  split
  · rename_i hr'
    cases hhead : r'.edgeLabels.head? with
    | none => rfl
    | some label =>
      have hother := h hr' label (by rw [hhead]; rfl)
      have hmem : label ∈ (o.addEdgeLabels r.edgeLabels).edgeLabels ↔ _ := mem_addEdgeLabels
      simp only [Option.any_some, decide_eq_decide]
      exact hmem.trans (or_iff_left hother)
  · rfl

/-- `turnOn` leaves a request alone that is not for the switch. -/
theorem covers_turnOn {switch : Switch} (hr : r.option ≠ OptionRequest.edgeLabelsOption)
    (hswitch : Switch.ofName? r.option = some switch) (h : r.Spares r') :
    (o.turnOn switch).flags.covers r' = o.flags.covers r' := by
  rw [OptionRequest.Spares, if_neg hr, hswitch] at h
  unfold DisplayFlags.covers
  split
  · cases switch <;> rfl
  · rename_i hr'
    have hne := h.resolve_left hr'
    -- what a switch is for depends on no other switch
    cases hother : Switch.ofName? r'.option with
    | none => rfl
    | some other => cases switch <;> cases other <;> simp_all [turnOn, flags]

/-- `turnOn` adds to the settings. -/
theorem extends_turnOn (o : DisplayOptions) {switch : Switch}
    (h : switch = .showRank ∨ switch = .showSecurity ∨ switch = .showIdleNodes) :
    o.Extends (o.turnOn switch) := by
  rcases h with rfl | rfl | rfl <;> exact ⟨within_turnOn o _, List.prefix_rfl, rfl, rfl, rfl⟩

/-- `grant` changes a setting when the request is open, and only then; it adds to the settings, and
leaves alone what it spares. -/
theorem grant_spec (o : DisplayOptions) (h : r.Consulted) :
    ∃ o', o.grant r = .ok (o', !o.flags.covers r) ∧ o.Extends o' ∧
      (o.flags.covers r = true → o' = o) ∧
      ∀ r', r.Spares r' → o'.flags.covers r' = o.flags.covers r' := by
  -- edge labels, of which the first one counts, or a switch
  rcases h.cases with ⟨hedge, first, rest, hlabels⟩ | ⟨hedge, switch, hswitch, hshow⟩
  · have hcovers : o.flags.covers r = decide (first ∈ o.edgeLabels) := by
      simp only [DisplayFlags.covers, if_pos hedge, hlabels, List.head?_cons, Option.any_some]
      rfl
    by_cases hpresent : first ∈ o.edgeLabels
    · refine ⟨o, ?_, .refl o, fun _ => rfl, fun _ _ => rfl⟩
      simp only [grant, if_pos hedge, hlabels, hcovers, hpresent, if_true, decide_true, Bool.not_true]
    · refine ⟨o.addEdgeLabels r.edgeLabels, ?_, ?_, fun hon => ?_, fun r' => covers_addEdgeLabels hedge⟩
      · simp only [grant, if_pos hedge, hlabels, hcovers, hpresent, if_false, decide_false,
          Bool.not_false]
      · exact ⟨⟨id, id, id, fun label hlabel => mem_addEdgeLabels.2 (.inl hlabel)⟩,
          edgeLabels_prefix_addEdgeLabels o _, rfl, rfl, rfl⟩
      · rw [hcovers, decide_eq_true_eq] at hon
        exact absurd hon hpresent
  · have hcovers : o.flags.covers r = o.isOn switch := by
      simp only [DisplayFlags.covers, if_neg hedge, hswitch]
      rcases hshow with rfl | rfl | rfl <;> rfl
    cases hon : o.isOn switch with
    | true =>
      refine ⟨o, ?_, .refl o, fun _ => rfl, fun _ _ => rfl⟩
      simp only [grant, if_neg hedge, hswitch, hon, hcovers, if_true, Bool.not_true]
    | false =>
      refine ⟨o.turnOn switch, ?_, extends_turnOn o hshow, fun h => ?_,
        fun r' => covers_turnOn hedge hswitch⟩
      · simp only [grant, if_neg hedge, hswitch, hon, hcovers, Bool.false_eq_true, if_false,
          Bool.not_false]
      · rw [hcovers, hon] at h
        cases h

/-! ## Granting requests in order -/

/-- `grantAll` adds to the settings. -/
theorem extends_grantAll (o : DisplayOptions) (h : ∀ r ∈ requests, r.Consulted) :
    o.Extends (o.grantAll requests).options := by
  induction requests generalizing o with
  | nil => exact .refl o
  | cons r requests ih =>
    rw [List.forall_mem_cons] at h
    obtain ⟨o', hgrant, hextends, -, -⟩ := o.grant_spec h.1
    rw [grantAll, hgrant]
    dsimp only
    split <;> exact hextends.trans (ih o' h.2)

/-- `grantAll` grants all requests that are open and have no part in each other. -/
theorem grantAll_of_open (o : DisplayOptions) (h : ∀ r ∈ requests, r.Consulted)
    (hspares : requests.Pairwise OptionRequest.Spares)
    (hopen : ∀ r ∈ requests, o.flags.covers r = false) :
    (o.grantAll requests).granted = requests ∧ (o.grantAll requests).error = none := by
  -- induction on the requests, each of which leaves the others open
  induction requests generalizing o with
  | nil => exact ⟨rfl, rfl⟩
  | cons r requests ih =>
    rw [List.forall_mem_cons] at h hopen
    rw [List.pairwise_cons] at hspares
    obtain ⟨o', hgrant, -, -, hcovers⟩ := o.grant_spec h.1
    -- those behind it are still open once it is granted
    obtain ⟨hgranted, herror⟩ := ih o' h.2 hspares.2 fun r' hr' => by
      rw [hcovers r' (hspares.1 r' hr'), hopen.2 r' hr']
    rw [grantAll, hgrant, hopen.1]
    simp only [Bool.not_false, if_true]
    exact ⟨congrArg (r :: ·) hgranted, herror⟩

/-- `grantAll` changes nothing for requests that are granted already. -/
theorem grantAll_of_covers (h : ∀ r ∈ requests, r.Consulted)
    (hcovers : ∀ r ∈ requests, o.flags.covers r = true) : o.grantAll requests = { options := o } := by
  induction requests with
  | nil => rfl
  | cons r requests ih =>
    rw [List.forall_mem_cons] at h hcovers
    obtain ⟨o', hgrant, -, hsame, -⟩ := o.grant_spec h.1
    rw [grantAll, hgrant, hcovers.1, hsame hcovers.1]
    simp only [Bool.not_true, Bool.false_eq_true, if_false]
    exact ih h.2 hcovers.2

/-! ## The requests of a text -/

/-- What becomes of the requests that are open when a text is compiled in some settings. They are what
the text asks for and is not on, each once. Granting them grants just these, without a fault, and only
adds to the settings. After that the text compiles to the same and asks for nothing, and granting them
again changes nothing. -/
structure Served (text : Text) (result : Except QueryError (Option CompiledQuery))
    (o : DisplayOptions) (requests : List OptionRequest) : Prop where
  compiled : compile text o.flags = .ok ⟨result, requests⟩
  nodup : requests.Nodup
  mem_iff : ∀ r, r ∈ requests ↔ r ∈ asked text ∧ o.flags.covers r = false
  granted : (o.grantAll requests).granted = requests
  faultless : (o.grantAll requests).error = none
  extended : o.Extends (o.grantAll requests).options
  settled : compile text (o.grantAll requests).options.flags = .ok ⟨result, []⟩
  again : (o.grantAll requests).options.grantAll requests = { options := (o.grantAll requests).options }

/-- `Served` holds of what a text compiles to, whatever the settings are. -/
theorem served_of_compile {text : Text} {c : Compilation} (h : compile text o.flags = .ok c) :
    Served text c.result o c.requests := by
  have hmem : ∀ r, r ∈ c.requests ↔ r ∈ asked text ∧ o.flags.covers r = false := by
    intro r
    rw [requests_eq h, DisplayFlags.mem_foldl_collect_iff]
  have hnodup : c.requests.Nodup := by
    rw [requests_eq h]
    exact DisplayFlags.nodup_foldl_collect List.nodup_nil
  have hknown : ∀ r ∈ c.requests, r ∈ knownRequests :=
    fun r hr => known_of_asked text r ((hmem r).1 hr).1
  have hconsulted : ∀ r ∈ c.requests, r.Consulted :=
    fun r hr => consulted_of_known r (hknown r hr)
  have hspares : c.requests.Pairwise OptionRequest.Spares :=
    hnodup.imp_of_mem fun hr hr' hne => spares_of_known _ (hknown _ hr) _ (hknown _ hr') hne
  obtain ⟨hgranted, herror⟩ := grantAll_of_open o hconsulted hspares fun r hr => ((hmem r).1 hr).2
  refine ⟨h, hnodup, hmem, hgranted, herror, extends_grantAll o hconsulted, ?_,
    grantAll_of_covers hconsulted (covers_grantAll o hconsulted)⟩
  -- the same is read of the text, and all that it asks for is on
  obtain ⟨requests, hsame⟩ := compile_eq_ok_congr h (o.grantAll c.requests).options.flags
  have hnone : requests = [] :=
    (requests_eq hsame).trans (DisplayFlags.foldl_collect_of_covers (grants_of_compile h))
  rw [hsame, hnone]

end DisplayOptions

/-- `compile` gives the same for a text in all settings, and its requests are served in all of them;
it ends without a result, whatever the settings are, only for a number that cannot be read. -/
theorem compile_served (text : Text) :
    (∃ fault : UnreadableNumber, fault.Separated ∧ ∀ flags, compile text flags = .error fault) ∨
      ∃ result, ∀ o : DisplayOptions, ∃ requests, DisplayOptions.Served text result o requests := by
  cases h : compile text with
  | error fault => exact .inl ⟨fault, separated_of_compile h, compile_eq_error_congr h⟩
  | ok c =>
    refine .inr ⟨c.result, fun o => ?_⟩
    obtain ⟨requests, hsame⟩ := compile_eq_ok_congr h o.flags
    exact ⟨requests, DisplayOptions.served_of_compile hsame⟩

/-- A text with an error asks for edge labels of which one is there, for what is on already, and for the
rank. -/
theorem compile_served_failing :
    let text : Text := "rt > 5 and mtls or rank = 7 or bogus = 1"
    let o : DisplayOptions := { showSecurity := true, edgeLabels := ["rtP95"], compressOnHide := true }
    let requests := [responseTimeRequest, rankRequest]
    DisplayOptions.Served text (.error (.unknownOperand "bogus")) o requests ∧
      (o.grantAll requests).options =
        { o with showRank := true, edgeLabels := ["rtP95", "responseTime"] } := by
  intro text o requests
  refine ⟨?_, by decide +kernel⟩
  rcases compile_served text with ⟨fault, -, hfault⟩ | ⟨result, hserved⟩
  · -- this text compiles, so the other case of the theorem is the one at hand
    have hok : (compile text).toOption.isSome = true := by decide +kernel
    rw [hfault] at hok
    cases hok
  · obtain ⟨requests', hrequests⟩ := hserved o
    -- the canonical compilation is evaluated, and names the fault and both requests
    have hcompiled : (compile text o.flags).toOption.map (fun c => (c.error?, c.requests)) =
        some (some (.unknownOperand "bogus"), requests) := by
      decide +kernel
    rw [hrequests.compiled] at hcompiled
    obtain ⟨herror, rfl⟩ := Prod.mk.inj (Option.some.inj hcompiled)
    have hresult : result = .error (.unknownOperand "bogus") := by
      cases result with
      | ok query => cases herror
      | error e => exact congrArg _ (Option.some.inj herror)
    exact hresult ▸ hrequests

/-- `compile` ends without a result, in all settings, for a text that asks for two of them: the rank looks
like a number, and the separator behind it keeps it from being read. -/
theorem compile_not_served_separated :
    let text : Text := "rt > 5 or rank = \"5" ++ CodePoint.ofNat 28 :: Text.ofString "\""
    let fault : UnreadableNumber := ⟨['5', CodePoint.ofNat 28]⟩
    asked text = [responseTimeRequest, rankRequest] ∧ (∀ flags, compile text flags = .error fault) ∧
      ¬∃ result requests, DisplayOptions.Served text result {} requests := by
  intro text fault
  have hfault : (match compile text with | .error fault => some fault | .ok _ => none) = some fault := by
    decide +kernel
  have hcompile : compile text = .error fault := by
    split at hfault
    · rename_i heq
      exact Option.some.inj hfault ▸ heq
    · cases hfault
  refine ⟨by decide +kernel, compile_eq_error_congr hcompile, ?_⟩
  rintro ⟨result, requests, hserved⟩
  have hcompiled := hserved.compiled
  rw [compile_eq_error_congr hcompile] at hcompiled
  cases hcompiled

end MeshLens
