import MeshLens.Config.Merge
import MeshLens.Proofs.Entries

/-!
# What merging comes to

Merging objects is merging their values name by name: a name of the override counts, unless both sides have
an object there, which are merged in turn. So the value at a path is that of the override where it has one
that is no object, or where the base has no object, and that of the base where the override has none.

## Key results

- `Value.at?`: the value at a path
- `get?_merge_of_none`, `get?_merge_of_some`: what is at a name
- `names_merge`: the names in order
- `merge_merge`: merging the same once more changes nothing
- `merge_override_law`: what is at a path, at any depth
-/

namespace MeshLens

/-! ## Values in values -/

namespace Value

/-- The value at a path of names. -/
def at? : Value → List Text → Option Value
  | value, [] => some value
  | .object fields, name :: path => (Entries.get? fields name).bind fun value => value.at? path
  | _, _ :: _ => none

/-- Whether there is an object at a path. -/
def HasObject (value : Value) (path : List Text) : Prop :=
  ∃ fields, value.at? path = some (.object fields)

mutual

/-- Whether no name comes twice in an object, nor in the objects in its fields. -/
def Distinct : Value → Prop
  | .object fields => (Entries.names fields).Nodup ∧ FieldsDistinct fields
  | _ => True

/-- Whether this is so of the values of fields. -/
def FieldsDistinct : List (Text × Value) → Prop
  | [] => True
  | (_, value) :: fields => value.Distinct ∧ FieldsDistinct fields

end

/-- `at?` the empty path is the value itself. -/
@[simp] theorem at?_nil (value : Value) : value.at? [] = some value := by
  cases value <;> rfl

/-- `at?` a path into an object goes on in the field of its first name. -/
theorem at?_object_cons (fields : Entries Value) (name : Text) (path : List Text) :
    (object fields).at? (name :: path) = (fields.get? name).bind fun value => value.at? path :=
  rfl

/-- `at?` finds something at a longer path in an object only. -/
theorem exists_of_at?_cons {value found : Value} {name : Text} {path : List Text}
    (h : value.at? (name :: path) = some found) :
    ∃ fields inner, value = .object fields ∧ Entries.get? fields name = some inner ∧
      inner.at? path = some found := by
  cases value with
  | object fields =>
    obtain ⟨inner, hinner, hfound⟩ := Option.bind_eq_some_iff.1 h
    exact ⟨fields, inner, rfl, hinner, hfound⟩
  | _ => cases h

/-- `HasObject` at the empty path holds of the objects. -/
theorem hasObject_nil {value : Value} : value.HasObject [] ↔ ∃ fields, value = .object fields := by
  simp [HasObject]

/-- `HasObject` at a path into an object is a matter of the field of its first name. -/
theorem hasObject_cons {fields : Entries Value} {name : Text} {value : Value}
    (h : fields.get? name = some value) {path : List Text} :
    (object fields).HasObject (name :: path) ↔ value.HasObject path := by
  simp [HasObject, at?_object_cons, h]

/-- `FieldsDistinct` holds of the values of each field. -/
theorem FieldsDistinct.of_mem {fields : List (Text × Value)} (h : FieldsDistinct fields) :
    ∀ field ∈ fields, field.2.Distinct := by
  induction fields with
  | nil => exact List.forall_mem_nil _
  | cons field fields ih => exact List.forall_mem_cons.2 ⟨h.1, ih h.2⟩

/-- `Distinct` holds of the values in an object. -/
theorem Distinct.of_get? {fields : Entries Value} (h : (object fields).Distinct) {name : Text}
    {value : Value} (hvalue : fields.get? name = some value) : value.Distinct :=
  FieldsDistinct.of_mem h.2 _ (Entries.mem_of_get? hvalue)

end Value

namespace Config

open Entries

/-! ## Merging name by name -/

/-- `mergeValue` takes a value that is no object as it stands. -/
theorem mergeValue_of_not_object {value : Value} (h : ∀ fields, value ≠ .object fields)
    (old : Option Value) : mergeValue old value = value := by
  cases value with
  | object fields => exact absurd rfl (h fields)
  | _ => rfl

/-- `mergeValue` takes any value as it stands where there was no object. -/
theorem mergeValue_of_old {old : Option Value} (h : ∀ fields, old ≠ some (.object fields))
    (value : Value) : mergeValue old value = value := by
  cases value with
  | object fields =>
    cases old with
    | none => rfl
    | some old =>
      cases old with
      | object base => exact absurd rfl (h base)
      | _ => rfl
  | _ => rfl

/-- `mergeValue` of two objects merges their fields. -/
theorem mergeValue_object (base override : Entries Value) :
    mergeValue (some (.object base)) (.object override) = .object (merge base override) :=
  rfl

/-- `merge` goes through the override, name by name. -/
theorem merge_cons (base : Entries Value) (field : Text × Value) (override : List (Text × Value)) :
    merge base (field :: override) =
      merge (base.set field.1 (mergeValue (base.get? field.1) field.2)) override :=
  rfl

section Merge

variable {base override : Entries Value} {name : Text} {value : Value}

/-- `merge` leaves a name that the override does not have. -/
theorem get?_merge_of_none (h : override.get? name = none) :
    (merge base override).get? name = base.get? name := by
  induction override generalizing base with
  | nil => rfl
  | cons field override ih =>
    rw [get?_cons] at h
    split at h
    · cases h
    · rename_i hne
      rw [merge_cons, ih h, get?_set, if_neg hne]

/-- `merge` leaves under a name of the override what the two values there come to. -/
theorem get?_merge_of_some (hover : (names override).Nodup) (h : override.get? name = some value) :
    (merge base override).get? name = some (mergeValue (base.get? name) value) := by
  -- induction on the override, in which no later field has the name
  induction override generalizing base with
  | nil => cases h
  | cons field override ih =>
    obtain ⟨hnew, hrest⟩ := List.nodup_cons.1 hover
    rw [get?_cons] at h
    split at h
    · rename_i hname
      subst hname
      cases h
      rw [merge_cons, get?_merge_of_none (get?_eq_none_iff.2 hnew), get?_set, if_pos rfl]
    · rename_i hne
      rw [merge_cons, ih hrest h, get?_set, if_neg hne]

/-- `merge` keeps the names of the base, and puts the new ones of the override behind them. -/
theorem names_merge (hover : (names override).Nodup) :
    names (merge base override) = names base ++ (names override).filter (· ∉ names base) := by
  -- induction on the override, whose first name joins those of the base
  induction override generalizing base with
  | nil => simp [merge, names]
  | cons field override ih =>
    obtain ⟨hnew, hrest⟩ : field.1 ∉ names override ∧ (names override).Nodup := List.nodup_cons.1 hover
    have hnames : names (field :: override) = field.1 :: names override := rfl
    rw [merge_cons, ih hrest, hnames]
    by_cases hmem : field.1 ∈ names base
    · rw [names_set_of_mem hmem, List.filter_cons_of_neg (by simpa using hmem)]
    · have hset : ∀ v, names (base.set field.1 v) = names base ++ [field.1] := by
        intro v
        rw [set_of_notMem hmem, names, List.map_append]
        rfl
      -- the name is not among the names that follow, so that only those of the base are left out
      have hfilter : (names override).filter (· ∉ names base ++ [field.1]) =
          (names override).filter (· ∉ names base) := by
        refine List.filter_congr fun other hother => ?_
        have hne : other ≠ field.1 := fun heq => hnew (heq ▸ hother)
        simp [hne]
      rw [hset, hfilter, List.filter_cons_of_pos (by simpa using hmem), List.append_assoc]
      rfl

/-- `merge` puts fields behind those that are there when all their names are new. -/
theorem merge_eq_append (h : (names (base ++ override)).Nodup) :
    merge base override = base ++ override := by
  induction override generalizing base with
  | nil => exact (List.append_nil base).symm
  | cons field override ih =>
    have hnew : field.1 ∉ names base := by
      intro hmem
      rw [names, List.map_append, List.nodup_append] at h
      exact h.2.2 _ hmem _ List.mem_cons_self rfl
    have hsplit : base ++ [field] ++ override = base ++ field :: override := by simp
    rw [merge_cons, get?_eq_none_iff.2 hnew, mergeValue_of_old (by simp), set_of_notMem hnew,
      ih (hsplit ▸ h), hsplit]

/-- `merge` over nothing changes nothing. -/
theorem nil_merge (hover : (names override).Nodup) : merge [] override = override :=
  merge_eq_append hover

/-- `merge` changes nothing where each value comes to what is there. -/
theorem merge_eq_self (h : ∀ field ∈ override, ∃ old, base.get? field.1 = some old ∧
    mergeValue (some old) field.2 = old) : merge base override = base := by
  induction override with
  | nil => rfl
  | cons field override ih =>
    obtain ⟨⟨old, hold, hmerge⟩, hrest⟩ := List.forall_mem_cons.1 h
    rw [merge_cons, hold, hmerge, set_eq_self hold, ih hrest]

end Merge

/-! ## Merging again -/

/-- `merge` once more changes nothing when the values of the fields come to the same once more. -/
theorem merge_merge_of_forall {override : Entries Value} (hover : (names override).Nodup)
    (h : ∀ field ∈ override, ∀ old, mergeValue (some (mergeValue old field.2)) field.2 =
      mergeValue old field.2) (base : Entries Value) :
    merge (merge base override) override = merge base override :=
  merge_eq_self fun field hfield =>
    ⟨_, get?_merge_of_some hover (get?_of_mem hover hfield), h field hfield _⟩

mutual

/-- `mergeValue` once more changes nothing. -/
theorem mergeValue_again : ∀ {value : Value}, value.Distinct → ∀ old,
    mergeValue (some (mergeValue old value)) value = mergeValue old value
  | .object fields, h, old => by
    have hagain := merge_merge_of_forall h.1 (mergeValue_again_of_mem h.2)
    -- the second time there is an object in any case
    by_cases hold : ∃ base, old = some (.object base)
    · obtain ⟨base, rfl⟩ := hold
      rw [mergeValue_object, mergeValue_object, hagain]
    · have hself : merge fields fields = fields := by
        have hnil := hagain []
        rwa [nil_merge h.1] at hnil
      rw [mergeValue_of_old (not_exists.1 hold), mergeValue_object, hself]
  | .null, _, _ | .bool _, _, _ | .int _, _, _ | .float _, _, _ | .text _, _, _ | .list _, _, _ =>
    rfl

/-- `mergeValue` once more changes nothing in the values of fields. -/
theorem mergeValue_again_of_mem : ∀ {fields : List (Text × Value)}, Value.FieldsDistinct fields →
    ∀ field ∈ fields, ∀ old,
      mergeValue (some (mergeValue old field.2)) field.2 = mergeValue old field.2
  | [], _ => List.forall_mem_nil _
  | (_, _) :: _, h =>
    List.forall_mem_cons.2 ⟨mergeValue_again h.1, mergeValue_again_of_mem h.2⟩

end

/-- `merge` once more changes nothing. -/
theorem merge_merge {override : Entries Value} (h : (Value.object override).Distinct)
    (base : Entries Value) : merge (merge base override) override = merge base override :=
  merge_merge_of_forall h.1 (mergeValue_again_of_mem h.2) base

/-! ## Paths -/

/-- Whether an override has at a path a value that counts as it stands: one that is no object, or that
stands where the base has no object, while above it both have objects. -/
structure Replaces (base override : Value) (path : List Text) (value : Value) : Prop where
  at? : override.at? path = some value
  whole : (∀ fields, value ≠ .object fields) ∨ ¬base.HasObject path
  above : ∀ front, front <+: path → front ≠ path → base.HasObject front ∧ override.HasObject front

section Paths

variable {old new value : Value} {base override : Entries Value} {name : Text} {path : List Text}

/-- `Replaces` below a name that both have is a matter of the two values there. -/
theorem replaces_cons (hold : base.get? name = some old) (hnew : override.get? name = some new) :
    Replaces (.object base) (.object override) (name :: path) value ↔ Replaces old new path value := by
  have hat : (Value.object override).at? (name :: path) = new.at? path := by
    rw [Value.at?_object_cons, hnew, Option.bind_some]
  constructor
  · rintro ⟨hvalue, hwhole, habove⟩
    -- down: what is asked above the longer path is what was asked above the shorter one
    refine ⟨hat ▸ hvalue, ?_, fun front hfront hne => ?_⟩
    · rwa [Value.hasObject_cons hold] at hwhole
    · have h := habove (name :: front) (List.cons_prefix_cons.2 ⟨rfl, hfront⟩)
        fun heq => hne (List.cons.inj heq).2
      rwa [Value.hasObject_cons hold, Value.hasObject_cons hnew] at h
  · rintro ⟨hvalue, hwhole, habove⟩
    refine ⟨hat ▸ hvalue, ?_, fun front hfront hne => ?_⟩
    · rwa [Value.hasObject_cons hold]
    · -- up: the object that the new front starts at is the one given, any longer front was asked
      -- before
      cases front with
      | nil => exact ⟨⟨base, rfl⟩, ⟨override, rfl⟩⟩
      | cons other front =>
        obtain ⟨rfl, hstart⟩ := List.cons_prefix_cons.1 hfront
        rw [Value.hasObject_cons hold, Value.hasObject_cons hnew]
        exact habove front hstart fun heq => hne (heq ▸ rfl)

/-- `Replaces` holds at the root unless both are objects. -/
theorem replaces_nil (h : (∀ fields, new ≠ .object fields) ∨ ¬old.HasObject []) :
    Replaces old new [] new where
  at? := Value.at?_nil new
  whole := h
  above := fun _ hfront hne => absurd (List.prefix_nil.1 hfront) hne

/-- `Replaces` holds at a name that the base does not have. -/
theorem replaces_singleton (hbase : base.get? name = none) (hover : override.get? name = some new) :
    Replaces (.object base) (.object override) [name] new where
  at? := by rw [Value.at?_object_cons, hover, Option.bind_some, Value.at?_nil]
  whole := by
    refine .inr ?_
    rintro ⟨fields, hfields⟩
    rw [Value.at?_object_cons, hbase] at hfields
    cases hfields
  above := by
    intro front hfront hne
    cases front with
    | nil => exact ⟨⟨base, rfl⟩, ⟨override, rfl⟩⟩
    | cons other front =>
      obtain ⟨rfl, hnil⟩ := List.cons_prefix_cons.1 hfront
      exact absurd (congrArg (other :: ·) (List.prefix_nil.1 hnil)) hne

/-- `Replaces` at a longer path holds of two objects. -/
theorem Replaces.objects (h : Replaces old new (name :: path) value) :
    ∃ base override, old = .object base ∧ new = .object override := by
  obtain ⟨hbase, hover⟩ := h.above [] (List.nil_prefix) (List.cons_ne_nil _ _).symm
  obtain ⟨base, rfl⟩ := Value.hasObject_nil.1 hbase
  obtain ⟨override, rfl⟩ := Value.hasObject_nil.1 hover
  exact ⟨base, override, rfl, rfl⟩

/-- `mergeValue` comes to what `Replaces` what was there. -/
theorem Replaces.at?_mergeValue (h : Replaces old new path value) (hnew : new.Distinct) :
    (mergeValue (some old) new).at? path = some value := by
  -- induction on the path, into the objects that both have above it
  induction path generalizing old new with
  | nil =>
    obtain rfl : new = value := by simpa using h.at?
    have hmerge : mergeValue (some old) new = new := by
      rcases h.whole with hwhole | hwhole
      · exact mergeValue_of_not_object hwhole _
      · refine mergeValue_of_old (fun fields hfields => hwhole ?_) new
        exact Value.hasObject_nil.2 ⟨fields, Option.some.inj hfields⟩
    rw [hmerge, Value.at?_nil]
  | cons name path ih =>
    obtain ⟨base, override, rfl, rfl⟩ := h.objects
    obtain ⟨inner, hinner, hvalue⟩ := Option.bind_eq_some_iff.1 h.at?
    rw [mergeValue_object, Value.at?_object_cons, get?_merge_of_some hnew.1 hinner,
      Option.bind_some]
    cases hbase : get? base name with
    | none => rw [mergeValue_of_old (by simp), hvalue]
    | some old => exact ih ((replaces_cons hbase hinner).1 h) (hnew.of_get? hinner)

/-- `mergeValue` leaves the base where the override has nothing, and nothing above counts as it
stands. -/
theorem at?_mergeValue_of_none (hnone : new.at? path = none)
    (habove : ∀ front, front <+: path → front ≠ path → ∀ value, ¬Replaces old new front value)
    (hnew : new.Distinct) : (mergeValue (some old) new).at? path = old.at? path := by
  -- induction on the path, as long as both have objects
  induction path generalizing old new with
  | nil => rw [Value.at?_nil] at hnone; cases hnone
  | cons name path ih =>
    -- otherwise the override would count as a whole
    have hroot : ¬Replaces old new [] new :=
      habove [] List.nil_prefix (List.cons_ne_nil _ _).symm new
    have hobjects : (∃ override, new = .object override) ∧ ∃ base, old = .object base := by
      by_cases hover : ∃ override, new = .object override
      · by_cases hbase : old.HasObject []
        · exact ⟨hover, Value.hasObject_nil.1 hbase⟩
        · exact absurd (replaces_nil (.inr hbase)) hroot
      · exact absurd (replaces_nil (.inl (not_exists.1 hover))) hroot
    obtain ⟨⟨override, rfl⟩, base, rfl⟩ := hobjects
    rw [mergeValue_object, Value.at?_object_cons, Value.at?_object_cons]
    cases hover : get? override name with
    | none => rw [get?_merge_of_none hover]
    | some new =>
      rw [Value.at?_object_cons, hover, Option.bind_some] at hnone
      rw [get?_merge_of_some hnew.1 hover, Option.bind_some]
      cases hbase : get? base name with
      | none =>
        -- the path goes on behind the name, where the override counts
        have hlonger : [name] ≠ name :: path := by
          intro heq
          rw [← (List.cons.inj heq).2, Value.at?_nil] at hnone
          cases hnone
        exact absurd (replaces_singleton hbase hover)
          (habove [name] (List.prefix_append [name] path) hlonger new)
      | some old =>
        rw [Option.bind_some]
        refine ih hnone (fun front hfront hne value hvalue => ?_) (hnew.of_get? hover)
        refine habove (name :: front) (List.cons_prefix_cons.2 ⟨rfl, hfront⟩) ?_ value
          ((replaces_cons hbase hover).2 hvalue)
        exact fun heq => hne (List.cons.inj heq).2

/-- `mergeValue` merges two objects at a path. -/
theorem at?_mergeValue_of_objects (hbase : old.at? path = some (.object base))
    (hover : new.at? path = some (.object override)) (hnew : new.Distinct) :
    (mergeValue (some old) new).at? path = some (.object (merge base override)) ∧
      (names override).Nodup := by
  induction path generalizing old new with
  | nil =>
    obtain rfl : old = .object base := by simpa using hbase
    obtain rfl : new = .object override := by simpa using hover
    exact ⟨Value.at?_nil _, hnew.1⟩
  | cons name path ih =>
    obtain ⟨olds, old, rfl, hold, hbase⟩ := Value.exists_of_at?_cons hbase
    obtain ⟨news, new, rfl, hinner, hover⟩ := Value.exists_of_at?_cons hover
    rw [mergeValue_object, Value.at?_object_cons, get?_merge_of_some hnew.1 hinner,
      Option.bind_some, hold]
    exact ih hbase hover (hnew.of_get? hinner)

end Paths

/-- A configuration merged over another one has at every path what the override has there, when that counts
as it stands; what the base has, where the override has nothing there nor anything above that counts as it
stands; and otherwise the objects of both, merged. An object has the names of the base in their order, and
then the new ones. Nothing merged and merging over nothing change nothing, and neither does merging once
more. -/
theorem merge_override_law (base : Entries Value) {override : Entries Value}
    (hover : (Value.object override).Distinct) :
    (∀ path value, Replaces (.object base) (.object override) path value →
      (Value.object (merge base override)).at? path = some value) ∧
    (∀ path, (Value.object override).at? path = none →
      (∀ front, front <+: path → front ≠ path →
        ∀ value, ¬Replaces (.object base) (.object override) front value) →
      (Value.object (merge base override)).at? path = (Value.object base).at? path) ∧
    (∀ path olds news, (Value.object base).at? path = some (.object olds) →
      (Value.object override).at? path = some (.object news) →
      (Value.object (merge base override)).at? path = some (.object (merge olds news)) ∧
        names (merge olds news) = names olds ++ (names news).filter (· ∉ names olds)) ∧
    merge base [] = base ∧ merge [] override = override ∧
    merge (merge base override) override = merge base override := by
  rw [← mergeValue_object]
  refine ⟨fun path value h => h.at?_mergeValue hover,
    fun path hnone habove => at?_mergeValue_of_none hnone habove hover,
    fun path olds news holds hnews => ?_, rfl, nil_merge hover.1, merge_merge hover base⟩
  obtain ⟨hmerged, hnodup⟩ := at?_mergeValue_of_objects holds hnews hover
  exact ⟨hmerged, names_merge hnodup⟩

/-- An object takes the place of a text in an object of the base, and a text that of an object. -/
theorem merge_override_law_mixed :
    let base : Entries Value := [
      ("log", .object [("level", .text "INFO"), ("dir", .text "log")]),
      ("display", .object [("layout", .text "dagre")])]
    let override : Entries Value := [
      ("display", .null),
      ("log", .object [("file", .bool true), ("level", .object [("name", .text "DEBUG")])])]
    (Value.object override).Distinct ∧
      (Value.object (merge base override)).at? ["log", "level"] =
        some (.object [("name", .text "DEBUG")]) ∧
      (Value.object (merge base override)).at? ["display"] = some .null ∧
      merge (merge base override) override = merge base override := by
  intro base override
  have hover : (Value.object override).Distinct :=
    ⟨by decide, trivial, ⟨by decide, trivial, ⟨by decide, trivial, trivial⟩, trivial⟩, trivial⟩
  obtain ⟨hreplaced, -, -, -, -, hagain⟩ := merge_override_law base hover
  refine ⟨hover, hreplaced _ _ ?_, hreplaced _ _ ?_, hagain⟩
  · refine (replaces_cons rfl rfl).2 ((replaces_cons rfl rfl).2 (replaces_nil (.inr ?_)))
    simp [Value.HasObject]
  · exact (replaces_cons rfl rfl).2 (replaces_nil (.inl (by simp)))

end Config

end MeshLens
