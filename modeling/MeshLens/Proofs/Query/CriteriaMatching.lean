import MeshLens.Proofs.Entries
import MeshLens.Proofs.Query.Meaning

/-!
# Matching the groups of a query

An element matches the group of several criteria when all of them hold of it, and several groups
when it matches one. Matching fails where a text that cannot be read as a number is come upon, and
only there, as long as no integer is too large.

## Key results

- `Criterion.verdict`: what testing the predicate of one criterion comes to
- `verdict_allHold`, `verdict_anyAccepts`: the same for a row of criteria and for groups in order
-/

namespace MeshLens

/-- What a test comes to: an answer that says whether something holds, or the fault of a text that
cannot be read as a number. -/
structure Verdict (r : Except EvaluationError Bool) (holds stumbles : Prop) : Prop where
  answer : ¬stumbles → ∃ b, r = .ok b ∧ (b = true ↔ holds)
  fault : stumbles → ∃ fault, r = .error (.unreadable fault)

namespace Verdict

variable {r r' : Except EvaluationError Bool} {holds holds' stumbles stumbles' : Prop}

/-- `Verdict` of a test without failure. -/
theorem of_ok {b c : Bool} (h : b = c) : Verdict (.ok b) (c = true) False where
  answer := fun _ => ⟨b, rfl, by rw [h]⟩
  fault := False.elim

/-- `Verdict` of two tests, the second of which is made only when the first one succeeds. -/
theorem both (hr : Verdict r holds stumbles) (hr' : Verdict r' holds' stumbles') :
    Verdict (r >>= fun b => if b then r' else .ok false) (holds ∧ holds')
      (stumbles ∨ (holds ∧ stumbles')) := by
  by_cases hs : stumbles
  · obtain ⟨fault, rfl⟩ := hr.fault hs
    exact ⟨fun h => absurd (.inl hs) h, fun _ => ⟨fault, rfl⟩⟩
  · obtain ⟨b, rfl, hiff⟩ := hr.answer hs
    cases b with
    | false =>
      have hno : ¬holds := fun h => Bool.false_ne_true (hiff.2 h)
      -- the second test is not made
      show Verdict (.ok false) _ _
      simpa [hs, hno] using of_ok (c := false) rfl
    | true =>
      have hyes : holds := hiff.1 rfl
      show Verdict r' _ _
      simpa [hs, hyes] using hr'

/-- `Verdict` of two tests, the second of which is made only when the first one fails. -/
theorem either (hr : Verdict r holds stumbles) (hr' : Verdict r' holds' stumbles') :
    Verdict (r >>= fun b => if b then .ok true else r') (holds ∨ holds')
      (stumbles ∨ (¬holds ∧ stumbles')) := by
  -- when the first test stumbles, both do; otherwise it says whether the second one is made
  by_cases hs : stumbles
  · obtain ⟨fault, rfl⟩ := hr.fault hs
    exact ⟨fun h => absurd (.inl hs) h, fun _ => ⟨fault, rfl⟩⟩
  · obtain ⟨b, rfl, hiff⟩ := hr.answer hs
    cases b with
    | false =>
      have hno : ¬holds := fun h => Bool.false_ne_true (hiff.2 h)
      show Verdict r' _ _
      simpa [hs, hno] using hr'
    | true =>
      have hyes : holds := hiff.1 rfl
      -- the second test is not made
      show Verdict (.ok true) _ _
      simpa [hs, hyes] using of_ok (c := true) rfl

end Verdict

/-! ## Going through the parts of a selector -/

/-- `allHold` tests a predicate, and the others when it holds. -/
theorem Predicate.allHold_cons (p : Predicate) (ps : List Predicate) (data : Entries Value) :
    allHold (p :: ps) data =
      p.holds data >>= fun b => if b then allHold ps data else .ok false := by
  rw [allHold]
  cases p.holds data with
  | error fault => rfl
  | ok b => cases b <;> rfl

/-- `allHold` of one predicate tests it. -/
theorem Predicate.allHold_singleton (p : Predicate) (data : Entries Value) :
    allHold [p] data = p.holds data := by
  rw [allHold_cons]
  cases p.holds data with
  | error fault => rfl
  | ok b => cases b <;> rfl

/-- `anyAccepts` tries a group, and the others when it does not match. -/
theorem SelectorGroup.anyAccepts_cons (g : SelectorGroup) (gs : List SelectorGroup) (e : Element) :
    anyAccepts (g :: gs) e =
      g.accepts e >>= fun b => if b then .ok true else anyAccepts gs e := by
  rw [anyAccepts]
  cases g.accepts e with
  | error fault => rfl
  | ok b => cases b <;> rfl

/-- `anyAccepts` of one group tries it. -/
theorem SelectorGroup.anyAccepts_singleton (g : SelectorGroup) (e : Element) :
    anyAccepts [g] e = g.accepts e := by
  rw [anyAccepts_cons]
  cases g.accepts e with
  | error fault => rfl
  | ok b => cases b <;> rfl

/-- `anyAccepts` of two lists tries the groups of the first and then those of the second. -/
theorem SelectorGroup.anyAccepts_append (xs ys : List SelectorGroup) (e : Element) :
    anyAccepts (xs ++ ys) e =
      anyAccepts xs e >>= fun b => if b then .ok true else anyAccepts ys e := by
  induction xs with
  | nil => rfl
  | cons x xs ih =>
    rw [List.cons_append, anyAccepts_cons, ih, anyAccepts_cons]
    cases x.accepts e with
    | error fault => rfl
    | ok b => cases b <;> rfl

/-! ## Values -/

namespace Value

/-- `present?` gives the value of the attribute. -/
theorem get?_of_present? {data : Entries Value} {key : Text} {v : Value}
    (h : present? data key = some v) : data.get? key = some v := by
  unfold present? at h
  split at h
  · cases h
  · exact h

/-- `present?` gives a value that fits when all data do. -/
theorem fits_of_present? {data : Entries Value} {key : Text} {v : Value}
    (hfit : ∀ entry ∈ data, entry.2.fits = true) (h : present? data key = some v) :
    v.fits = true := by
  obtain ⟨entry, hmem, rfl⟩ := Entries.exists_mem_of_get? (get?_of_present? h)
  exact hfit entry hmem

/-- `number?` of an integer is its number, unless it is too large. -/
theorem number?_int (n : Integer) :
    (int n).number? =
      match Binary64.ofInt? n.value with
      | some x => .ok (some x)
      | none => .error .integerTooLarge :=
  rfl

/-- `number?` of a text is what it reads as, when it looks like a number. -/
theorem number?_text (s : Text) :
    (text s).number? =
      if isNumber s then
        match readNumber s with
        | .ok x => .ok (some x)
        | .error fault => .error (.unreadable fault)
      else .ok none :=
  rfl

/-- `number?` of a value that can be read is the number that it stands for. -/
theorem number?_eq_meant? {v : Value} (hfit : v.fits = true) (h : ¬v.IsUnreadable) :
    v.number? = .ok v.meant? := by
  cases v with
  | int n =>
    rw [number?_int]
    show _ = Except.ok (Binary64.ofInt? n.value)
    have hsome : (Binary64.ofInt? n.value).isSome = true := hfit
    -- the range of numbers is never evaluated
    generalize Binary64.ofInt? n.value = x at hsome ⊢
    cases x with
    | none => cases hsome
    | some x => rfl
  | text s =>
    rw [number?_text]
    show _ = Except.ok (numberOfText? (Text.trim s))
    -- a text that looks like no number compares with none
    by_cases hs : isNumber s = true
    · cases hread : readNumber s with
      | ok x => rw [if_pos hs, numberOfText?_trim_of_readNumber hread]
      | error fault =>
        have hsep := (readNumber_eq_error_iff hs).1 ⟨fault, hread⟩
        exact absurd ⟨s, rfl, hs, hsep⟩ h
    · rw [if_neg hs]
      rw [isNumber, Bool.not_eq_true, Option.isSome_eq_false_iff, Option.isNone_iff_eq_none] at hs
      rw [hs]
  | null => rfl
  | bool b => rfl
  | float x => rfl
  | list items => rfl
  | object fields => rfl

/-- `standsIn` a relation of whole numbers compares the numbers. -/
theorem standsIn_number {op : Relation} (h : op.isPartial = false) (v : Value) (y : Binary64) :
    v.standsIn op (.number y) = v.number?.map fun x? => x?.any (op.onNumbers · y) := by
  simp only [standsIn, h, Bool.false_eq_true, if_false]
  cases v.number? with
  | error fault => rfl
  | ok x? => cases x? <;> rfl

/-- `number?` fails for a text that cannot be read. -/
theorem number?_of_isUnreadable {v : Value} (h : v.IsUnreadable) :
    ∃ fault, v.number? = .error (.unreadable fault) := by
  obtain ⟨s, rfl, hs, hsep⟩ := h
  obtain ⟨fault, hread⟩ := (readNumber_eq_error_iff hs).2 hsep
  exact ⟨fault, by rw [number?_text, if_pos hs, hread]⟩

end Value

/-! ## One criterion -/

namespace Criterion

/-- Whether a criterion asks for no part of a number. -/
def isRelational : Criterion → Bool
  | number _ op _ => !op.relation.isPartial
  | _ => true

/-- `Verdict` of testing the predicate of a criterion: whether the criterion holds. -/
theorem verdict {c : Criterion} (hc : c.isRelational = true) {data : Entries Value}
    (hfit : ∀ entry ∈ data, entry.2.fits = true) :
    Verdict (c.predicate.holds data) (c.holds data = true) (c.Stumbles data) := by
  cases c with
  | truthy key =>
    refine .of_ok ?_
    simp only [holds]
    cases Value.present? data key <;> rfl
  | undefined key => exact .of_ok rfl
  | falsy key =>
    refine .of_ok ?_
    simp only [holds]
    cases Value.present? data key <;> rfl
  | text key op value =>
    simp only [predicate, Predicate.holds, holds, Stumbles]
    cases hv : Value.present? data key with
    | none => exact .of_ok rfl
    | some v =>
      simp only [Value.standsIn, Comparison.holdsOfText]
      split
      · exact .of_ok rfl
      · exact .of_ok rfl
  | number key op literal =>
    simp only [isRelational, Bool.not_eq_true'] at hc
    simp only [predicate, Predicate.holds, holds, Stumbles]
    cases hv : Value.present? data key with
    | none =>
      refine ⟨fun _ => ⟨op.negated, rfl, Iff.rfl⟩, ?_⟩
      rintro ⟨v, hnone, -⟩
      cases hnone
    | some v =>
      -- the one test that can fail
      simp only [Value.standsIn_number hc]
      constructor
      · intro hread
        have hv' := Value.number?_eq_meant? (Value.fits_of_present? hfit hv)
          fun hunreadable => hread ⟨v, rfl, hunreadable⟩
        rw [hv']
        cases hmeant : v.meant? with
        | none => exact ⟨_, rfl, by simp [Comparison.holdsOfNumber, hmeant]⟩
        | some y => exact ⟨_, rfl, by simp [Comparison.holdsOfNumber, hmeant]⟩
      · rintro ⟨w, hw, hunreadable⟩
        cases hw
        obtain ⟨fault, hfault⟩ := Value.number?_of_isUnreadable hunreadable
        exact ⟨fault, by rw [hfault]; rfl⟩

/-- Whether criteria all hold of the data of an element. -/
def AllHold (criteria : List Criterion) (data : Entries Value) : Prop :=
  ∀ c ∈ criteria, c.holds data = true

/-- Whether a text that cannot be read as a number is come upon in criteria, which are tested until
one does not hold. -/
def AllStumble (criteria : List Criterion) (data : Entries Value) : Prop :=
  ComesUpon (fun c => c.holds data = true) (fun c => c.Stumbles data) criteria

/-- `Verdict` of testing predicates in order: whether their criteria all hold. -/
theorem verdict_allHold {criteria : List Criterion} (hc : ∀ c ∈ criteria, c.isRelational = true)
    {data : Entries Value} (hfit : ∀ entry ∈ data, entry.2.fits = true) :
    Verdict (Predicate.allHold (criteria.map predicate) data) (AllHold criteria data)
      (AllStumble criteria data) := by
  induction criteria with
  | nil => exact ⟨fun _ => ⟨true, rfl, by simp [AllHold]⟩, False.elim⟩
  | cons c criteria ih =>
    have hfirst := verdict (hc c List.mem_cons_self) hfit
    have hrest := ih fun d hd => hc d (List.mem_cons_of_mem _ hd)
    rw [List.map_cons, Predicate.allHold_cons, AllHold, List.forall_mem_cons]
    exact hfirst.both hrest

end Criterion

/-! ## Groups in order -/

/-- Whether the criteria of some alternative all hold. -/
def AnyHolds (alternatives : List (List Criterion)) (data : Entries Value) : Prop :=
  ∃ criteria ∈ alternatives, Criterion.AllHold criteria data

/-- Whether a text that cannot be read as a number is come upon in alternatives, which are tried
until one holds. -/
def AnyStumbles (alternatives : List (List Criterion)) (data : Entries Value) : Prop :=
  ComesUpon (fun criteria => ¬Criterion.AllHold criteria data)
    (fun criteria => Criterion.AllStumble criteria data) alternatives

/-- `Verdict` of trying groups in order: whether one of them matches, when each has its verdict. -/
theorem verdict_anyAccepts {α : Type} {group : α → SelectorGroup} {holds stumbles : α → Prop}
    {e : Element} {xs : List α}
    (h : ∀ x ∈ xs, Verdict ((group x).accepts e) (holds x) (stumbles x)) :
    Verdict (SelectorGroup.anyAccepts (xs.map group) e) (∃ x ∈ xs, holds x)
      (ComesUpon (fun x => ¬holds x) stumbles xs) := by
  induction xs with
  | nil => exact ⟨fun _ => ⟨false, rfl, by simp⟩, False.elim⟩
  | cons x xs ih =>
    have hfirst := h x List.mem_cons_self
    have hrest := ih fun y hy => h y (List.mem_cons_of_mem _ hy)
    rw [List.map_cons, SelectorGroup.anyAccepts_cons]
    simp only [List.mem_cons, exists_eq_or_imp]
    exact hfirst.either hrest

/-- `ofCriteria` of another kind matches no element. -/
theorem SelectorGroup.accepts_ofCriteria_of_ne {kind : Kind} {e : Element} (h : e.kind ≠ kind)
    (criteria : List Criterion) : (ofCriteria kind criteria).accepts e = .ok false := by
  have : ¬kind = e.kind := fun h' => h h'.symm
  simp [accepts, ofCriteria, this]

/-- `anyAccepts` finds no match among groups of another kind. -/
theorem SelectorGroup.anyAccepts_of_ne {kind : Kind} {e : Element} (h : e.kind ≠ kind)
    (alternatives : List (List Criterion)) :
    anyAccepts (alternatives.map (ofCriteria kind)) e = .ok false := by
  induction alternatives with
  | nil => rfl
  | cons criteria alternatives ih =>
    rw [List.map_cons, anyAccepts_cons, accepts_ofCriteria_of_ne h, ih]
    rfl

/-- `ofCriteria` of the kind of an element matches when its predicates hold. -/
theorem SelectorGroup.accepts_ofCriteria (e : Element) (criteria : List Criterion) :
    (ofCriteria e.kind criteria).accepts e =
      Predicate.allHold (criteria.map Criterion.predicate) e.data := by
  simp [accepts, ofCriteria]

end MeshLens
