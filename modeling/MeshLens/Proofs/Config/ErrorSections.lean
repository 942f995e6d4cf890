import MeshLens.Config.Reader

/-!
# How configurations are refused

Whatever goes wrong when a configuration is read from an object is found by a check of what is written in
one of its sections, or of what the environment has in its place, and the error names the section.

## Key results

- `loadRuntime_failsWith`, `loadDisplay_failsWith`, `loadQuery_failsWith`: how the first pass fails
- `checkRuntime_failsWith`, `checkDisplay_failsWith`, `checkQuery_failsWith`: how the second pass fails
- `ofFields_failsWith`: how the reading fails
-/

namespace MeshLens

/-- Whether an error is found by a check of what is written in a section, or of what takes its place, and
names the section. -/
def ConfigError.IsIn (place : Text) : ConfigError → Prop
  | .missing key | .notAnObject key | .notAText key | .notABool key | .notAList key
  | .unknownEdgeLabel key | .empty key => place <+: key
  | .unknownLevel => place = "log"
  | .notAGraphFile => place = "graph"
  | .rootNotAnObject | .unreadable _ | .unopened _ _ => False

namespace Config

/-- Whether a reading fails with errors of one kind only. -/
def FailsWith {α : Type} (P : ConfigError → Prop) (reading : Except ConfigError α) : Prop :=
  ∀ e, reading = .error e → P e

section Failing

variable {α β : Type} {P Q : ConfigError → Prop} {reading : Except ConfigError α}

/-- `FailsWith` holds of a reading that does not fail. -/
theorem failsWith_ok (a : α) : FailsWith P (.ok a) :=
  fun _ h => nomatch h

/-- `FailsWith` holds of an error of the kind. -/
theorem failsWith_error {e : ConfigError} (h : P e) :
    FailsWith P (.error e : Except ConfigError α) := by
  rintro _ ⟨⟩
  exact h

/-- `FailsWith` holds for a wider kind of errors. -/
theorem FailsWith.mono (h : FailsWith P reading) (hPQ : ∀ e, P e → Q e) : FailsWith Q reading :=
  fun e he => hPQ e (h e he)

/-- `FailsWith` holds of what is made of a value that was read. -/
theorem FailsWith.map (h : FailsWith P reading) (f : α → β) : FailsWith P (reading.map f) := by
  cases reading with
  | ok a => exact failsWith_ok _
  | error e => exact failsWith_error (h e rfl)

/-- `FailsWith` holds of two readings one after the other. -/
theorem FailsWith.bind (h : FailsWith P reading) {next : α → Except ConfigError β}
    (hnext : ∀ a, FailsWith P (next a)) : FailsWith P (reading >>= next) := by
  cases reading with
  | ok a => exact hnext a
  | error e => exact failsWith_error (h e rfl)

variable {fields : Entries Value} {value : Value} {place key : Text}

/-- `place <+: key` holds of the keys in a section. -/
theorem prefix_key (place key : Text) : place <+: place ++ "." ++ key := by
  rw [List.append_assoc]
  exact List.prefix_append _ _

/-- `section?` fails with errors of its section. -/
theorem section?_failsWith : FailsWith (·.IsIn key) (section? fields key) := by
  rw [section?]
  split
  · exact failsWith_ok _
  · exact failsWith_ok _
  · exact failsWith_ok _
  · exact failsWith_error (List.prefix_refl key)

/-- `requiredSection` fails with errors of its section. -/
theorem requiredSection_failsWith : FailsWith (·.IsIn key) (requiredSection fields key) := by
  rw [requiredSection]
  split
  · rename_i e h
    exact failsWith_error (section?_failsWith e h)
  · exact failsWith_error (List.prefix_refl key)
  · exact failsWith_ok _

/-- `text` fails with errors of the sections that its key is in. -/
theorem text_failsWith (h : place <+: key) : FailsWith (·.IsIn place) (text value key) := by
  cases value with
  | text s => exact failsWith_ok _
  | _ => exact failsWith_error h

/-- `bool` fails with errors of the sections that its key is in. -/
theorem bool_failsWith (h : place <+: key) : FailsWith (·.IsIn place) (bool value key) := by
  cases value with
  | bool b => exact failsWith_ok _
  | _ => exact failsWith_error h

/-- `required` fails with errors of the sections that its key is in. -/
theorem required_failsWith (h : place <+: key) (name : Text) :
    FailsWith (·.IsIn place) (required fields key name) := by
  rw [required]
  split
  · exact failsWith_ok _
  · exact failsWith_error (h.trans (prefix_key key name))

/-- `requiredText` fails with errors of the sections that its key is in. -/
theorem requiredText_failsWith (h : place <+: key) (name : Text) :
    FailsWith (·.IsIn place) (requiredText fields key name) := by
  rw [requiredText]
  split
  · rename_i e he
    exact failsWith_error (required_failsWith h name e he)
  · exact text_failsWith (h.trans (prefix_key key name))

/-- `requiredBool` fails with errors of the sections that its key is in. -/
theorem requiredBool_failsWith (h : place <+: key) (name : Text) :
    FailsWith (·.IsIn place) (requiredBool fields key name) := by
  rw [requiredBool]
  split
  · rename_i e he
    exact failsWith_error (required_failsWith h name e he)
  · exact bool_failsWith (h.trans (prefix_key key name))

/-- `optionalText` fails with errors of its section. -/
theorem optionalText_failsWith (place name default : Text) :
    FailsWith (·.IsIn place) (optionalText fields place name default) :=
  text_failsWith (prefix_key place name)

/-- `optionalBool` fails with errors of its section. -/
theorem optionalBool_failsWith (place name : Text) :
    FailsWith (·.IsIn place) (optionalBool fields place name) :=
  bool_failsWith (prefix_key place name)

/-- `itemKey` is in the sections that the key of the list is in. -/
theorem prefix_itemKey (h : place <+: key) (index : Nat) : place <+: itemKey key index := by
  rw [itemKey, List.append_assoc, List.append_assoc]
  exact h.trans (List.prefix_append _ _)

/-- `items` fails with errors of its section when reading an item does. -/
theorem items_failsWith {read : Text → Value → Except ConfigError α} (h : place <+: key)
    (hread : ∀ key value, place <+: key → FailsWith (·.IsIn place) (read key value)) (index : Nat)
    (values : List Value) : FailsWith (·.IsIn place) (items read key index values) := by
  -- induction on the list, each item being read under a key of its own
  induction values generalizing index with
  | nil => exact failsWith_ok _
  | cons value values ih =>
    rw [items]
    split
    · rename_i e he
      exact failsWith_error (hread _ _ (prefix_itemKey h index) e he)
    · exact (ih _).map _

/-- `list` fails with errors of its section when reading an item does. -/
theorem list_failsWith {read : Text → Value → Except ConfigError α} (h : place <+: key)
    (hread : ∀ key value, place <+: key → FailsWith (·.IsIn place) (read key value)) :
    FailsWith (·.IsIn place) (list read value key) := by
  cases value with
  | list values => exact items_failsWith h hread 0 values
  | _ => exact failsWith_error h

/-- `optionalList` fails with errors of its section when reading an item does. -/
theorem optionalList_failsWith {read : Text → Value → Except ConfigError α} (place name : Text)
    (hread : ∀ key value, place <+: key → FailsWith (·.IsIn place) (read key value)) :
    FailsWith (·.IsIn place) (optionalList read fields place name) :=
  list_failsWith (prefix_key place name) hread

/-- `loadPreset` fails with errors of the sections that its key is in. -/
theorem loadPreset_failsWith (h : place <+: key) :
    FailsWith (·.IsIn place) (loadPreset key value) := by
  cases value with
  | object fields =>
    exact (requiredText_failsWith h _).bind fun _ => (requiredText_failsWith h _).bind fun _ =>
      failsWith_ok _
  | _ => exact failsWith_error h

/-- `optionalSection` fails with errors of its section. -/
theorem optionalSection_failsWith : FailsWith (·.IsIn key) (optionalSection fields key) :=
  FailsWith.map section?_failsWith _

/-- `loadDisplay` fails with errors of the display section. -/
theorem loadDisplay_failsWith : FailsWith (·.IsIn "display") (loadDisplay fields) :=
  optionalSection_failsWith.bind fun _ => (optionalBool_failsWith _ _).bind fun _ =>
    (optionalBool_failsWith _ _).bind fun _ => (optionalBool_failsWith _ _).bind fun _ =>
      (optionalList_failsWith _ _ fun _ _ => text_failsWith).bind fun _ =>
        (optionalBool_failsWith _ _).bind fun _ => (optionalText_failsWith _ _ _).bind fun _ =>
          failsWith_ok _

/-- `loadQuery` fails with errors of the section of its input. -/
theorem loadQuery_failsWith (channel : Channel) :
    FailsWith (·.IsIn channel.sectionName) (loadQuery fields channel) :=
  optionalSection_failsWith.bind fun _ => (optionalText_failsWith _ _ _).bind fun _ =>
    (optionalList_failsWith _ _ fun _ _ => loadPreset_failsWith).bind fun _ => failsWith_ok _

/-- `checkDisplay` fails with errors of the display section. -/
theorem checkDisplay_failsWith (d : DisplayOptions) :
    FailsWith (·.IsIn "display") (checkDisplay d) := by
  rw [checkDisplay]
  split
  · exact failsWith_error (prefix_itemKey (prefix_key "display" "edge_labels") _)
  · split
    · exact failsWith_error (prefix_key "display" "layout")
    · exact failsWith_ok _

/-- `checkQuery` fails with errors of the section of its input. -/
theorem checkQuery_failsWith (q : QueryConfig) (channel : Channel) :
    FailsWith (·.IsIn channel.sectionName) (checkQuery q channel) := by
  rw [checkQuery]
  split
  · exact failsWith_error ((prefix_itemKey (List.prefix_append _ _) _).trans (List.prefix_append _ _))
  · exact failsWith_ok _

/-- `loadRuntime` fails with errors of the two sections that it reads. -/
theorem loadRuntime_failsWith (env : Environment) :
    FailsWith (fun e => e.IsIn "log" ∨ e.IsIn "graph") (loadRuntime fields env) := by
  have hlog : ∀ {α : Type} {reading : Except ConfigError α}, FailsWith (·.IsIn "log") reading →
      FailsWith (fun e => e.IsIn "log" ∨ e.IsIn "graph") reading := fun h => h.mono fun _ => .inl
  have hgraph : ∀ {α : Type} {reading : Except ConfigError α}, FailsWith (·.IsIn "graph") reading →
      FailsWith (fun e => e.IsIn "log" ∨ e.IsIn "graph") reading := fun h => h.mono fun _ => .inr
  exact (hlog requiredSection_failsWith).bind fun _ => (hgraph optionalSection_failsWith).bind fun _ =>
    (hlog (requiredText_failsWith (List.prefix_refl _) _)).bind fun _ =>
      (hgraph (optionalText_failsWith _ _ _)).bind fun _ =>
        (hlog (requiredBool_failsWith (List.prefix_refl _) _)).bind fun _ =>
          (hlog (requiredText_failsWith (List.prefix_refl _) _)).bind fun _ => failsWith_ok _

/-- `checkRuntime` fails with errors of the two sections that it checks. -/
theorem checkRuntime_failsWith (r : RawRuntime) :
    FailsWith (fun e => e.IsIn "log" ∨ e.IsIn "graph") (checkRuntime r) := by
  rw [checkRuntime]
  split
  · exact failsWith_error (.inl rfl)
  · split
    · exact failsWith_error (.inl (prefix_key "log" "dir"))
    · split
      · exact failsWith_error (.inr rfl)
      · exact failsWith_ok _

/-- The sections of a configuration. -/
def sections : List Text :=
  ["log", "graph", "display", "find", "hide"]

/-- `ofFields` fails with errors that name one of the sections. -/
theorem ofFields_failsWith (raw : Entries Value) (env : Environment) :
    FailsWith (fun e => ∃ place ∈ sections, e.IsIn place) (ofFields raw env) := by
  have hruntime : ∀ {α : Type} {reading : Except ConfigError α},
      FailsWith (fun e => e.IsIn "log" ∨ e.IsIn "graph") reading →
      FailsWith (fun e => ∃ place ∈ sections, e.IsIn place) reading := by
    intro α reading h
    refine h.mono fun e he => ?_
    rcases he with he | he
    · exact ⟨"log", by simp [sections], he⟩
    · exact ⟨"graph", by simp [sections], he⟩
  have hplace : ∀ {α : Type} {reading : Except ConfigError α} {place : Text}, place ∈ sections →
      FailsWith (·.IsIn place) reading →
      FailsWith (fun e => ∃ place ∈ sections, e.IsIn place) reading :=
    fun hplace h => h.mono fun e he => ⟨_, hplace, he⟩
  have hdisplay : ("display" : Text) ∈ sections := by simp [sections]
  have hchannel : ∀ channel : Channel, channel.sectionName ∈ sections := by
    intro channel
    cases channel <;> simp [sections, Channel.sectionName]
  -- the steps of the reading, in their order
  exact (hruntime (loadRuntime_failsWith env)).bind fun _ =>
    (hplace hdisplay loadDisplay_failsWith).bind fun _ =>
      (hplace (hchannel .find) (loadQuery_failsWith _)).bind fun _ =>
        (hplace (hchannel .hide) (loadQuery_failsWith _)).bind fun _ =>
          (hruntime (checkRuntime_failsWith _)).bind fun _ =>
            (hplace hdisplay (checkDisplay_failsWith _)).bind fun _ =>
              (hplace (hchannel .find) (checkQuery_failsWith _ _)).bind fun _ =>
                (hplace (hchannel .hide) (checkQuery_failsWith _ _)).bind fun _ => failsWith_ok _

end Failing

end Config

end MeshLens
