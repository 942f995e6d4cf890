import MeshLens.Proofs.ForStd
import MeshLens.Query.Compile

/-!
# What queries ask for

A query may ask for settings that its operands only make sense with. Which way elements are hidden is
none of these, so no query ever changes it. And what a text compiles to is the same whatever the
settings are.

## Key results

- `requests_of_compile`: no query asks for another way of hiding
- `DisplayOptions.compressOnHide_grantAll`: granting other requests leaves it alone
- `compile_result_congr`: what a text compiles to does not depend on the settings
- `compile_eq_ok_congr`, `compile_eq_error_congr`: so it has a result in all settings or in none
-/

namespace MeshLens

/-! ## Granting requests -/

/-- Whether a request is about something else than the way of hiding. -/
def OptionRequest.SparesHiding (r : OptionRequest) : Prop :=
  Switch.ofName? r.option ≠ some .compressOnHide

/-- `SparesHiding` is decided by the name of the option. -/
instance (r : OptionRequest) : Decidable r.SparesHiding :=
  inferInstanceAs (Decidable (_ ≠ _))

namespace DisplayOptions

/-- `grant` of a request about other things leaves the way of hiding alone. -/
theorem compressOnHide_grant {o o' : DisplayOptions} {r : OptionRequest} {changed : Bool}
    (hr : r.SparesHiding) (h : o.grant r = .ok (o', changed)) :
    o'.compressOnHide = o.compressOnHide := by
  unfold grant at h
  split at h
  · -- a request for edge labels sets no switch
    split at h
    · cases h
    · split at h <;> cases h <;> rfl
  · split at h
    · rename_i switch hswitch
      split at h
      · cases h
        rfl
      · cases h
        -- the request is for another switch than the one of hiding
        cases switch with
        | compressOnHide => exact absurd hswitch hr
        | _ => rfl
    · split at h
      · cases h
        rfl
      · split at h <;> cases h

/-- `grantAll` of requests about other things leaves the way of hiding alone. -/
theorem compressOnHide_grantAll (o : DisplayOptions) {requests : List OptionRequest}
    (h : ∀ r ∈ requests, r.SparesHiding) :
    (o.grantAll requests).options.compressOnHide = o.compressOnHide := by
  induction requests generalizing o with
  | nil => rfl
  | cons r requests ih =>
    rw [List.forall_mem_cons] at h
    unfold grantAll
    split
    · rfl
    · rename_i o' changed hgrant
      have hrest := ih o' h.2
      rw [compressOnHide_grant h.1 hgrant] at hrest
      split <;> exact hrest

end DisplayOptions

namespace Query

/-! ## Reading requests -/

/-- `lookUp?` gives one of the values of the table. -/
theorem mem_of_lookUp? {α : Type} {table : Entries α} {word : Text} {a : α}
    (h : lookUp? table word = some a) : ∃ key, (key, a) ∈ table := by
  unfold lookUp? at h
  induction table with
  | nil => cases h
  | cons entry table ih =>
    obtain ⟨key, value⟩ := entry
    rw [Entries.get?_cons] at h
    split at h
    · cases h
      exact ⟨key, List.mem_cons_self⟩
    · obtain ⟨key', hmem⟩ := ih h
      exact ⟨key', List.mem_cons_of_mem _ hmem⟩

/-- The requests that the flags and the operands make. -/
def knownRequests : List OptionRequest :=
  flags.filterMap (fun entry => entry.2.request) ++ operands.filterMap (fun entry => entry.2.request)

/-- `Phrase.request?` is one of the known requests. -/
theorem known_of_phrase {p : Phrase} {r : OptionRequest} (h : p.request? = some r) :
    r ∈ knownRequests := by
  cases p with
  | flag negated word =>
    obtain ⟨entry, hentry, hr⟩ := Option.bind_eq_some_iff.1 h
    obtain ⟨key, hmem⟩ := mem_of_lookUp? hentry
    exact List.mem_append_left _ (List.mem_filterMap.2 ⟨_, hmem, hr⟩)
  | comparison word op value =>
    obtain ⟨entry, hentry, hr⟩ := Option.bind_eq_some_iff.1 h
    obtain ⟨key, hmem⟩ := mem_of_lookUp? hentry
    exact List.mem_append_right _ (List.mem_filterMap.2 ⟨_, hmem, hr⟩)

/-- `Expression.read` makes known requests only. -/
theorem known_of_expression (conjunctive : Bool) (s : Text) :
    ∀ r ∈ (Expression.read conjunctive s).requests, r ∈ knownRequests := by
  intro r hr
  unfold Expression.read at hr
  split at hr
  · cases hr
  · exact known_of_phrase (Option.mem_toList.1 hr)

end Query

open Query

/-- `readMore` makes known requests only. -/
theorem Clause.known_of_readMore (c : Clause) (parts : List Text) :
    ∀ r ∈ (c.readMore parts).requests, r ∈ knownRequests := by
  induction parts generalizing c with
  | nil => exact List.forall_mem_nil _
  | cons s parts ih =>
    intro r hr
    simp only [readMore] at hr
    split at hr
    · exact known_of_expression true s r hr
    · rcases List.mem_append.1 hr with hr | hr
      · exact known_of_expression true s r hr
      · exact ih _ r hr

/-- `Clause.read` makes known requests only. -/
theorem Clause.known_of_read (s : Text) : ∀ r ∈ (Clause.read s).requests, r ∈ knownRequests := by
  intro r hr
  simp only [read] at hr
  split at hr
  · exact known_of_expression _ _ r hr
  · rcases List.mem_append.1 hr with hr | hr
    · exact known_of_expression _ _ r hr
    · exact known_of_readMore _ _ r hr

/-- `readClauses` makes known requests only. -/
theorem CompiledQuery.known_of_readClauses (parts : List Text) :
    ∀ r ∈ (CompiledQuery.readClauses parts).requests, r ∈ knownRequests := by
  induction parts with
  | nil => exact List.forall_mem_nil _
  | cons s parts ih =>
    intro r hr
    simp only [readClauses] at hr
    split at hr
    · exact Clause.known_of_read s r hr
    · rcases List.mem_append.1 hr with hr | hr
      · exact Clause.known_of_read s r hr
      · exact ih r hr

/-- What a text asks for, whether it is granted or not. -/
def asked (text : Text) : List OptionRequest :=
  if canonical text = [] then [] else (CompiledQuery.read (canonical text)).requests

/-- `asked` are known requests only. -/
theorem known_of_asked (text : Text) : ∀ r ∈ asked text, r ∈ knownRequests := by
  intro r hr
  unfold asked at hr
  split at hr
  · cases hr
  · exact CompiledQuery.known_of_readClauses _ r hr

/-- `requests` of a compilation are what is left open of what the text asks for. -/
theorem requests_eq {text : Text} {flags : DisplayFlags} {c : Compilation}
    (h : compile text flags = .ok c) : c.requests = (asked text).foldl flags.collect [] := by
  unfold compile at h
  split at h
  · rename_i hnil
    rw [asked, if_pos hnil]
    cases h
    rfl
  · rename_i hne
    rw [asked, if_neg hne]
    dsimp only at h
    split at h
    · cases h
      rfl
    · cases h
      rfl
    · cases h

/-- `collect` takes what was asked for only. -/
theorem mem_of_mem_collect (flags : DisplayFlags) (requests : List OptionRequest)
    {collected : List OptionRequest} {r : OptionRequest}
    (h : r ∈ requests.foldl flags.collect collected) : r ∈ collected ∨ r ∈ requests := by
  induction requests generalizing collected with
  | nil => exact .inl h
  | cons request requests ih =>
    rcases ih h with h | h
    · unfold DisplayFlags.collect at h
      split at h
      · exact .inl h
      · rcases List.mem_append.1 h with h | h
        · exact .inl h
        · exact .inr (List.mem_singleton.1 h ▸ List.mem_cons_self)
    · exact .inr (List.mem_cons_of_mem _ h)

/-- `compile` makes no request for another way of hiding. -/
theorem requests_of_compile {text : Text} {flags : DisplayFlags} {c : Compilation}
    (h : compile text flags = .ok c) : ∀ r ∈ c.requests, r.SparesHiding := by
  have hspared : ∀ r ∈ knownRequests, r.SparesHiding := by decide +kernel
  intro r hr
  rw [requests_eq h] at hr
  exact hspared r (known_of_asked text r
    ((mem_of_mem_collect flags _ hr).resolve_left List.not_mem_nil))

/-- `compile` comes to the same result in all settings. -/
theorem compile_result_congr (text : Text) (flags flags' : DisplayFlags) :
    (compile text flags).map Compilation.result = (compile text flags').map Compilation.result := by
  unfold compile
  split
  · rfl
  · dsimp only
    split <;> rfl

/-- `compile` gives the same result in all settings or in none, besides what it asks for. -/
theorem compile_eq_ok_congr {text : Text} {flags : DisplayFlags} {c : Compilation}
    (h : compile text flags = .ok c) (flags' : DisplayFlags) :
    ∃ requests, compile text flags' = .ok ⟨c.result, requests⟩ := by
  have hresult := compile_result_congr text flags' flags
  rw [h] at hresult
  obtain ⟨c', hc', hsame⟩ := Except.map_eq_ok hresult
  exact ⟨c'.requests, hsame ▸ hc'⟩

/-- `compile` ends without a result in all settings or in none. -/
theorem compile_eq_error_congr {text : Text} {flags : DisplayFlags} {fault : UnreadableNumber}
    (h : compile text flags = .error fault) (flags' : DisplayFlags) :
    compile text flags' = .error fault := by
  have hresult := compile_result_congr text flags flags'
  rw [h] at hresult
  cases hcompile : compile text flags' with
  | error fault' =>
    rw [hcompile] at hresult
    exact congrArg _ (Except.error.inj hresult).symm
  | ok c =>
    rw [hcompile] at hresult
    cases hresult

end MeshLens
