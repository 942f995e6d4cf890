import Mathlib.Data.List.Forall2
import MeshLens.Config.Reader
import MeshLens.Proofs.Config.Merge
import MeshLens.Proofs.Config.ErrorSections
import MeshLens.Proofs.ForStd
import MeshLens.Proofs.Text.Split

/-!
# Which configurations are accepted

A configuration is accepted when each of its sections and settings is what it has to be, and what comes of
it is what is written there, with the defaults for what is left out and the settings of the environment
before those of the files. Nothing else can go wrong than a check of what is written.

## Key results

- `loadRuntime_eq_ok`, `loadDisplay_eq_ok`, `loadQuery_eq_ok`: what the first pass takes out
- `checkRuntime_eq_ok`, `checkDisplay_eq_ok`, `checkQuery_eq_ok`: what the second pass lets through
- `ofFields_eq_ok`: what a configuration that is read says
- `ofFields_accepts`: which configurations are accepted, and how the others are refused
-/

namespace MeshLens

/-- `Text.endsWith` is the test for a suffix. -/
theorem Text.endsWith_iff {post s : Text} : Text.endsWith post s = true ↔ post <:+ s := by
  rw [endsWith, isSome_after?_iff, List.reverse_prefix]

/-- `Threshold.ofName?` finds the threshold of a name in letters of any size. -/
theorem Threshold.ofName?_eq_some {name : Text} {t : Threshold} :
    ofName? name = some t ↔ t.name = name.map capital := by
  constructor
  · intro h
    simpa using List.find?_some h
  · intro h
    rw [ofName?, ← h]
    cases t <;> rfl

namespace Config

/-! ## What is written -/

section Written

variable (raw : Entries Value) (place key : Text)

/-- Whether a section is an object or left out; one that is null counts as left out. -/
def IsSection : Prop :=
  raw.get? key = none ∨ raw.get? key = some .null ∨ ∃ fields, raw.get? key = some (.object fields)

/-- The fields of a section. -/
def sectionFields : Entries Value :=
  match raw.get? key with
  | some (.object fields) => fields
  | _ => []

/-- The value of a setting, or a default where it is left out. -/
def setting (default : Value) : Value :=
  ((Value.object raw).at? [place, key]).getD default

/-- Whether a setting has a property unless it is left out. -/
def WherePresent (P : Value → Prop) : Prop :=
  ∀ value, (Value.object raw).at? [place, key] = some value → P value

variable {raw place key}

/-- `sectionFields` hold what stands at the path of the section and the key. -/
theorem get?_sectionFields :
    (sectionFields raw place).get? key = (Value.object raw).at? [place, key] := by
  rw [Value.at?_object_cons, sectionFields]
  cases raw.get? place with
  | none => rfl
  | some value =>
    cases value with
    | object fields => simp [Value.at?_object_cons]
    | _ => rfl

/-- `sectionFields` in which something is found are those of an object that is there. -/
theorem get?_of_sectionFields {value : Value} (h : (sectionFields raw place).get? key = some value) :
    raw.get? place = some (.object (sectionFields raw place)) := by
  rw [sectionFields] at h ⊢
  split at h
  · rename_i hfields
    rw [hfields]
  · cases h

/-- `WherePresent` holds when the setting has the property, as the default does. -/
theorem wherePresent_iff {P : Value → Prop} {default : Value} (hdefault : P default) :
    WherePresent raw place key P ↔ P (setting raw place key default) := by
  rw [WherePresent, setting]
  cases (Value.object raw).at? [place, key] with
  | none => simpa using hdefault
  | some value => simp

end Written

/-! ## Values of a type -/

section Readers

variable {raw fields : Entries Value} {place key s : Text} {value : Value} {b : Bool}

/-- `optionalSection` accepts an object, null and what is left out. -/
theorem optionalSection_eq_ok :
    optionalSection raw key = .ok fields ↔ IsSection raw key ∧ fields = sectionFields raw key := by
  rw [optionalSection, section?, IsSection, sectionFields]
  cases raw.get? key with
  | none => simp [Except.map, eq_comm]
  | some value => cases value <;> simp [Except.map, eq_comm]

/-- `requiredSection` accepts an object only. -/
theorem requiredSection_eq_ok :
    requiredSection raw key = .ok fields ↔ raw.get? key = some (.object fields) := by
  rw [requiredSection, section?]
  cases raw.get? key with
  | none => simp
  | some value => cases value <;> simp

/-- `required` accepts any value that is there. -/
theorem required_eq_ok (place : Text) :
    required fields place key = .ok value ↔ fields.get? key = some value := by
  rw [required]
  cases fields.get? key <;> simp

/-- `text` accepts the texts. -/
theorem text_eq_ok : text value key = .ok s ↔ value = .text s := by
  cases value <;> simp [text]

/-- `bool` accepts the truth values. -/
theorem bool_eq_ok : bool value key = .ok b ↔ value = .bool b := by
  cases value <;> simp [bool]

/-- `requiredText` accepts a text that is there. -/
theorem requiredText_eq_ok :
    requiredText fields place key = .ok s ↔ fields.get? key = some (.text s) := by
  rw [← required_eq_ok place, requiredText]
  cases required fields place key <;> simp [text_eq_ok]

/-- `requiredBool` accepts a truth value that is there. -/
theorem requiredBool_eq_ok :
    requiredBool fields place key = .ok b ↔ fields.get? key = some (.bool b) := by
  rw [← required_eq_ok place, requiredBool]
  cases required fields place key <;> simp [bool_eq_ok]

variable {α : Type} {read : Text → Value → Except ConfigError α} {R : Value → α → Prop}

/-- `items` accepts the values that are read one by one. -/
theorem items_eq_ok (hread : ∀ key value a, read key value = .ok a ↔ R value a)
    {values : List Value} {index : Nat} {as : List α} :
    items read key index values = .ok as ↔ List.Forall₂ R values as := by
  induction values generalizing index as with
  | nil => simp [items, eq_comm]
  | cons value values ih =>
    rw [List.forall₂_cons_left_iff, items]
    simp only [← hread (itemKey key index)]
    cases read (itemKey key index) value with
    | error e => simp
    | ok a => simp [Except.map_eq_ok_iff, ih, eq_comm (a := as)]

/-- `list` accepts the lists whose items are read. -/
theorem list_eq_ok (hread : ∀ key value a, read key value = .ok a ↔ R value a) {as : List α} :
    list read value key = .ok as ↔ ∃ values, value = .list values ∧ List.Forall₂ R values as := by
  cases value <;> simp [list, items_eq_ok hread]

/-- `optionalBool` accepts the settings that are truth values or left out. -/
theorem optionalBool_section :
    optionalBool (sectionFields raw place) place key = .ok b ↔
      setting raw place key (.bool false) = .bool b := by
  rw [optionalBool, bool_eq_ok, get?_sectionFields, setting]

/-- `optionalText` accepts the settings that are texts or left out. -/
theorem optionalText_section {default : Text} :
    optionalText (sectionFields raw place) place key default = .ok s ↔
      setting raw place key (.text default) = .text s := by
  rw [optionalText, text_eq_ok, get?_sectionFields, setting]

/-- `optionalList` accepts the settings that are lists whose items are read, or left out. -/
theorem optionalList_section (hread : ∀ key value a, read key value = .ok a ↔ R value a)
    {as : List α} :
    optionalList read (sectionFields raw place) place key = .ok as ↔
      ∃ values, setting raw place key (.list []) = .list values ∧ List.Forall₂ R values as := by
  rw [optionalList, list_eq_ok hread, get?_sectionFields, setting]

/-- `optionalList` of texts accepts the settings that are lists of texts, or left out. -/
theorem optionalList_text {texts : List Text} :
    optionalList (fun key value => text value key) (sectionFields raw place) place key = .ok texts ↔
      setting raw place key (.list []) = .list (texts.map .text) := by
  have hread : ∀ (key : Text) value s, text value key = .ok s ↔ value = .text s :=
    fun _ _ _ => text_eq_ok
  have htexts : ∀ values, List.Forall₂ (fun value s => value = .text s) values texts ↔
      values = texts.map Value.text := by
    intro values
    rw [← List.forall₂_eq_eq_eq, List.forall₂_map_right_iff]
  rw [optionalList_section hread]
  simp [htexts]

end Readers

/-! ## What is taken out -/

/-- Whether an item is what a preset is written as. -/
structure IsPreset (item : Value) (preset : Preset) : Prop where
  description : item.at? ["description"] = some (.text preset.description)
  expression : item.at? ["expression"] = some (.text preset.expression)

section Written

variable (raw : Entries Value) (env : Environment)

/-- Whether these are the runtime settings that are written, those of the environment before those of the
object. -/
structure WrittenRuntime (c : RuntimeConfig) : Prop where
  graph : IsSection raw "graph"
  level : ∃ level, (Value.object raw).at? ["log", "level"] = some (.text level) ∧
    c.threshold.name = (orElse env.level level).map Threshold.capital
  toFile : (Value.object raw).at? ["log", "to_file"] = some (.bool c.toFile)
  directory : (Value.object raw).at? ["log", "dir"] = some (.text c.directory)
  graphPath : ∃ path, setting raw "graph" "path" (.text []) = .text path ∧
    c.graphPath = orElse env.graphPath (Text.trim path)

/-- Whether these are the display settings that are written. -/
structure WrittenDisplay (d : DisplayOptions) : Prop where
  display : IsSection raw "display"
  showRank : setting raw "display" "show_rank" (.bool false) = .bool d.showRank
  showSecurity : setting raw "display" "show_security" (.bool false) = .bool d.showSecurity
  showIdleNodes : setting raw "display" "show_idle_nodes" (.bool false) = .bool d.showIdleNodes
  edgeLabels : setting raw "display" "edge_labels" (.list []) = .list (d.edgeLabels.map .text)
  compressOnHide : setting raw "display" "compress_on_hide" (.bool false) = .bool d.compressOnHide
  layout : setting raw "display" "layout" (.text "dagre") = .text d.layout
  named : d.unnamedLayout = false

/-- Whether these are the settings of an input that are written. -/
structure WrittenQuery (channel : Channel) (q : QueryConfig) : Prop where
  query : IsSection raw channel.sectionName
  value : ∃ s, setting raw channel.sectionName "value" (.text []) = .text s ∧ q.value = Text.trim s
  presets : ∃ items, setting raw channel.sectionName "options" (.list []) = .list items ∧
    List.Forall₂ IsPreset items q.presets

end Written

section FirstPass

variable {raw : Entries Value} {env : Environment}

/-- `loadPreset` reads a preset from an item that `IsPreset`. -/
theorem loadPreset_eq_ok (key : Text) (item : Value) (preset : Preset) :
    loadPreset key item = .ok preset ↔ IsPreset item preset := by
  cases item with
  | object fields =>
    simp only [loadPreset, Except.bind_eq_ok_iff, requiredText_eq_ok]
    constructor
    · rintro ⟨description, hdescription, expression, hexpression, h⟩
      obtain rfl := Except.ok.inj h
      exact ⟨by simpa [Value.at?_object_cons] using hdescription,
        by simpa [Value.at?_object_cons] using hexpression⟩
    · rintro ⟨hdescription, hexpression⟩
      exact ⟨_, by simpa [Value.at?_object_cons] using hdescription,
        _, by simpa [Value.at?_object_cons] using hexpression, rfl⟩
  | _ => exact ⟨(nomatch ·), fun h => nomatch h.description⟩

/-- `loadDisplay` reads the display settings that are written. -/
theorem loadDisplay_eq_ok {d : DisplayOptions} :
    loadDisplay raw = .ok d ↔ WrittenDisplay raw d := by
  simp only [loadDisplay, Except.bind_eq_ok_iff, optionalSection_eq_ok, and_assoc, exists_and_left,
    exists_eq_left, optionalBool_section, optionalText_section, optionalList_text]
  constructor
  · -- the fields are read in the order of the code, and each equation gives its setting
    rintro ⟨hsection, showRank, hrank, showSecurity, hsecurity, showIdleNodes, hidle, labels, hlabels,
      compressOnHide, hcompress, layout, hlayout, h⟩
    obtain rfl := Except.ok.inj h
    exact ⟨hsection, hrank, hsecurity, hidle, hlabels, hcompress, hlayout, rfl⟩
  · rintro ⟨hsection, hrank, hsecurity, hidle, hlabels, hcompress, hlayout, hnamed⟩
    exact ⟨hsection, _, hrank, _, hsecurity, _, hidle, _, hlabels, _, hcompress, _, hlayout,
      by rw [← hnamed]; rfl⟩

/-- `loadQuery` reads the settings of an input that are written. -/
theorem loadQuery_eq_ok {channel : Channel} {q : QueryConfig} :
    loadQuery raw channel = .ok q ↔ WrittenQuery raw channel q := by
  simp only [loadQuery, Except.bind_eq_ok_iff, optionalSection_eq_ok, and_assoc, exists_and_left,
    exists_eq_left, optionalText_section, optionalList_section loadPreset_eq_ok]
  constructor
  · rintro ⟨hquery, s, hvalue, presets, hpresets, h⟩
    obtain rfl := Except.ok.inj h
    exact ⟨hquery, ⟨s, hvalue, rfl⟩, hpresets⟩
  · rintro ⟨hquery, ⟨s, hvalue, htrim⟩, hpresets⟩
    refine ⟨hquery, s, hvalue, q.presets, hpresets, ?_⟩
    rw [trimmed, ← htrim]
    rfl

/-- `loadRuntime` reads the settings of the log section, which has to be there, and of the graph
section. -/
theorem loadRuntime_eq_ok {r : RawRuntime} :
    loadRuntime raw env = .ok r ↔
      IsSection raw "graph" ∧
      (∃ level, (Value.object raw).at? ["log", "level"] = some (.text level) ∧
        r.level = orElse env.level level) ∧
      (Value.object raw).at? ["log", "to_file"] = some (.bool r.toFile) ∧
      (Value.object raw).at? ["log", "dir"] = some (.text r.directory) ∧
      ∃ path, setting raw "graph" "path" (.text []) = .text path ∧
        r.graphPath = orElse env.graphPath (Text.trim path) := by
  simp only [loadRuntime, Except.bind_eq_ok_iff, optionalSection_eq_ok, requiredSection_eq_ok,
    and_assoc, exists_and_left, exists_eq_left, optionalText_section, requiredText_eq_ok,
    requiredBool_eq_ok, ← get?_sectionFields]
  constructor
  · rintro ⟨log, hlog, hgraph, level, hlevel, path, hpath, toFile, hfile, directory, hdirectory, h⟩
    obtain rfl := Except.ok.inj h
    -- the log section is read as an object, so its settings stand at the paths into it
    have hfields : sectionFields raw "log" = log := by rw [sectionFields, hlog]
    rw [hfields]
    exact ⟨hgraph, ⟨level, hlevel, rfl⟩, hfile, hdirectory, path, hpath, rfl⟩
  · rintro ⟨hgraph, ⟨level, hlevel, heq⟩, hfile, hdirectory, path, hpath, hpathEq⟩
    exact ⟨_, get?_of_sectionFields hlevel, hgraph, level, hlevel, path, hpath, _, hfile, _, hdirectory,
      by rw [trimmed, ← heq, ← hpathEq]; rfl⟩

end FirstPass

/-! ## What is let through -/

end Config

/-- Whether a path is that of a snapshot, or none. -/
def IsGraphPath (path : Text) : Prop :=
  path = [] ∨ (".json" : Text) <:+ Text.lower path

/-- What is true of all runtime settings that are accepted. -/
structure RuntimeConfig.Sound (c : RuntimeConfig) : Prop where
  directory : Text.isBlankText c.directory = false
  graphPath : IsGraphPath c.graphPath

/-- What is true of all display settings that are accepted. -/
structure DisplayOptions.Sound (d : DisplayOptions) : Prop where
  edgeLabels : ∀ label ∈ d.edgeLabels, label ∈ Query.edgeLabelModes
  layout : Text.isBlankText d.layout = false

/-- What is true of all settings of an input that are accepted. -/
def QueryConfig.Sound (q : QueryConfig) : Prop :=
  ∀ preset ∈ q.presets, Text.isBlankText preset.expression = false

namespace Config

/-- `firstBad?` finds nothing when all items are good. -/
theorem firstBad?_eq_none {α : Type} {good : α → Bool} {index : Nat} {as : List α} :
    firstBad? good index as = none ↔ ∀ a ∈ as, good a = true := by
  induction as generalizing index with
  | nil => simp [firstBad?]
  | cons a as ih =>
    rw [firstBad?, List.forall_mem_cons]
    cases good a <;> simp [ih]

/-- `IsGraphPath` holds of the paths that the check lets through. -/
theorem isGraphPath_iff {path : Text} :
    IsGraphPath path ↔ ¬(path ≠ [] ∧ (!isJsonPath path) = true) := by
  rw [IsGraphPath, ← Text.endsWith_iff, ← isJsonPath, Bool.not_eq_true', ← Bool.not_eq_true, ← not_or,
    not_not]

/-- `checkRuntime` lets sound settings through, and reads the level. -/
theorem checkRuntime_eq_ok {r : RawRuntime} {c : RuntimeConfig} :
    checkRuntime r = .ok c ↔
      c.threshold.name = r.level.map Threshold.capital ∧ c.toFile = r.toFile ∧
      c.directory = r.directory ∧ c.graphPath = r.graphPath ∧ c.Sound := by
  constructor
  · -- one check after the other: the level, the directory, the path
    intro h
    rw [checkRuntime] at h
    split at h
    · cases h
    · rename_i threshold hthreshold
      split at h
      · cases h
      · rename_i hdirectory
        split at h
        · cases h
        · rename_i hpath
          obtain rfl := Except.ok.inj h
          exact ⟨Threshold.ofName?_eq_some.1 hthreshold, rfl, rfl, rfl,
            Bool.eq_false_iff.2 hdirectory, isGraphPath_iff.2 hpath⟩
  · obtain ⟨threshold, toFile, directory, graphPath⟩ := c
    rintro ⟨hthreshold, rfl, rfl, rfl, hdirectory, hpath⟩
    have hnotBlank : ¬isBlank r.directory = true := Bool.eq_false_iff.1 hdirectory
    have hjson : ¬(r.graphPath ≠ [] ∧ (!isJsonPath r.graphPath) = true) := isGraphPath_iff.1 hpath
    rw [checkRuntime, Threshold.ofName?_eq_some.2 hthreshold]
    exact (if_neg hnotBlank).trans (if_neg hjson)

/-- `checkDisplay` lets sound settings through. -/
theorem checkDisplay_eq_ok {d : DisplayOptions} : checkDisplay d = .ok () ↔ d.Sound := by
  have hknown : firstBad? (· ∈ Query.edgeLabelModes) 0 d.edgeLabels = none ↔
      ∀ label ∈ d.edgeLabels, label ∈ Query.edgeLabelModes := by
    simp [firstBad?_eq_none]
  rw [checkDisplay, isBlank]
  -- the labels are checked first
  cases hbad : firstBad? (· ∈ Query.edgeLabelModes) 0 d.edgeLabels with
  | none =>
    have hlabels := hknown.1 hbad
    cases hlayout : Text.isBlankText d.layout with
    | true => simpa using fun hsound => by simpa [hlayout] using hsound.layout
    | false => exact iff_of_true rfl ⟨hlabels, hlayout⟩
  | some index =>
    refine iff_of_false (by simp) fun hsound => ?_
    simp [hknown.2 hsound.edgeLabels] at hbad

/-- `checkQuery` lets sound settings through. -/
theorem checkQuery_eq_ok {q : QueryConfig} {channel : Channel} :
    checkQuery q channel = .ok () ↔ q.Sound := by
  have hblank : q.Sound ↔ firstBad? (fun p : Preset => !isBlank p.expression) 0 q.presets = none := by
    simp [QueryConfig.Sound, firstBad?_eq_none, isBlank]
  rw [hblank, checkQuery]
  cases firstBad? (fun p : Preset => !isBlank p.expression) 0 q.presets <;> simp

/-- Whether a configuration is the one that is written. -/
structure Written (raw : Entries Value) (env : Environment) (c : Config) : Prop where
  runtime : WrittenRuntime raw env c.runtime
  display : WrittenDisplay raw c.display
  find : WrittenQuery raw .find c.find
  hide : WrittenQuery raw .hide c.hide

/-- What is true of all configurations that are accepted. -/
structure Sound (c : Config) : Prop where
  runtime : c.runtime.Sound
  display : c.display.Sound
  find : c.find.Sound
  hide : c.hide.Sound

variable {raw : Entries Value} {env : Environment}

/-- `loadRuntime` and `checkRuntime` together accept settings that are written and sound. -/
theorem exists_runtime_iff {c : RuntimeConfig} :
    (∃ r, loadRuntime raw env = .ok r ∧ checkRuntime r = .ok c) ↔
      WrittenRuntime raw env c ∧ c.Sound := by
  simp only [loadRuntime_eq_ok, checkRuntime_eq_ok]
  constructor
  · rintro ⟨r, ⟨hgraph, ⟨level, hlevel, heffect⟩, hfile, hdirectory, path, hpath, hpathEffect⟩,
      hthreshold, hfileEq, hdirectoryEq, hpathEq, hsound⟩
    exact ⟨⟨hgraph, ⟨level, hlevel, heffect ▸ hthreshold⟩, hfileEq ▸ hfile, hdirectoryEq ▸ hdirectory,
      path, hpath, hpathEq.trans hpathEffect⟩, hsound⟩
  · rintro ⟨⟨hgraph, ⟨level, hlevel, hthreshold⟩, hfile, hdirectory, path, hpath, hpathEffect⟩, hsound⟩
    exact ⟨⟨orElse env.level level, c.toFile, c.directory, c.graphPath⟩,
      ⟨hgraph, ⟨level, hlevel, rfl⟩, hfile, hdirectory, path, hpath, hpathEffect⟩,
      hthreshold, rfl, rfl, rfl, hsound⟩

/-- `ofFields` accepts what is written and sound: all sections are read, and then all are checked.
-/
theorem ofFields_eq_ok {c : Config} :
    ofFields raw env = .ok c ↔ Written raw env c ∧ c.Sound := by
  simp only [ofFields, Except.bind_eq_ok_iff, loadDisplay_eq_ok, loadQuery_eq_ok]
  constructor
  · rintro ⟨r, hload, display, hdisplay, find, hfind, hide, hhide, runtime, hcheck, _, hlabels, _, hfinds,
      _, hhides, h⟩
    obtain rfl := Except.ok.inj h
    obtain ⟨hruntime, hsound⟩ := exists_runtime_iff.1 ⟨r, hload, hcheck⟩
    exact ⟨⟨hruntime, hdisplay, hfind, hhide⟩,
      ⟨hsound, checkDisplay_eq_ok.1 hlabels, checkQuery_eq_ok.1 hfinds, checkQuery_eq_ok.1 hhides⟩⟩
  · rintro ⟨hwritten, hsound⟩
    obtain ⟨r, hload, hcheck⟩ := exists_runtime_iff.2 ⟨hwritten.runtime, hsound.runtime⟩
    exact ⟨r, hload, _, hwritten.display, _, hwritten.find, _, hwritten.hide, _, hcheck,
      (), checkDisplay_eq_ok.2 hsound.display, (), checkQuery_eq_ok.2 hsound.find,
      (), checkQuery_eq_ok.2 hsound.hide, rfl⟩

/-! ## Which are accepted -/

section Valid

variable (raw : Entries Value) (env : Environment)

/-- Whether the runtime settings are what they have to be, the level and the path being those of the
environment where it has them. -/
structure ValidRuntime : Prop where
  level : ∃ level, (Value.object raw).at? ["log", "level"] = some (.text level) ∧
    ∃ threshold : Threshold, threshold.name = (orElse env.level level).map Threshold.capital
  toFile : ∃ toFile, (Value.object raw).at? ["log", "to_file"] = some (.bool toFile)
  directory : ∃ directory, (Value.object raw).at? ["log", "dir"] = some (.text directory) ∧
    Text.isBlankText directory = false
  graph : IsSection raw "graph"
  graphPath : ∃ path, setting raw "graph" "path" (.text []) = .text path ∧
    IsGraphPath (orElse env.graphPath (Text.trim path))

/-- Whether the display settings are what they have to be. -/
structure ValidDisplay : Prop where
  display : IsSection raw "display"
  switches : ∀ key ∈ ["show_rank", "show_security", "show_idle_nodes", "compress_on_hide"],
    WherePresent raw "display" key fun value => ∃ b, value = .bool b
  edgeLabels : WherePresent raw "display" "edge_labels" fun value =>
    ∃ labels : List Text, value = .list (labels.map .text) ∧
      ∀ label ∈ labels, label ∈ Query.edgeLabelModes
  layout : WherePresent raw "display" "layout" fun value =>
    ∃ layout, value = .text layout ∧ Text.isBlankText layout = false

/-- Whether the settings of an input are what they have to be. -/
structure ValidQuery (channel : Channel) : Prop where
  query : IsSection raw channel.sectionName
  value : WherePresent raw channel.sectionName "value" fun value => ∃ s, value = .text s
  options : WherePresent raw channel.sectionName "options" fun value =>
    ∃ items, value = .list items ∧ ∀ item ∈ items, ∃ description expression,
      item.at? ["description"] = some (.text description) ∧
      item.at? ["expression"] = some (.text expression) ∧ Text.isBlankText expression = false

/-- Whether all sections are what they have to be. -/
structure Valid : Prop where
  runtime : ValidRuntime raw env
  display : ValidDisplay raw
  find : ValidQuery raw .find
  hide : ValidQuery raw .hide

end Valid

/-- `ValidRuntime` holds when some settings are written that are sound. -/
theorem validRuntime_iff :
    ValidRuntime raw env ↔ ∃ c : RuntimeConfig, WrittenRuntime raw env c ∧ c.Sound := by
  constructor
  · rintro ⟨⟨level, hlevel, threshold, hthreshold⟩, ⟨toFile, hfile⟩, ⟨directory, hdirectory, hnotBlank⟩,
      hgraph, path, hpath, hjson⟩
    exact ⟨⟨threshold, toFile, directory, _⟩,
      ⟨hgraph, ⟨level, hlevel, hthreshold⟩, hfile, hdirectory, path, hpath, rfl⟩, hnotBlank, hjson⟩
  · rintro ⟨c, ⟨hgraph, ⟨level, hlevel, hthreshold⟩, hfile, hdirectory, path, hpath, hpathEq⟩,
      hnotBlank, hjson⟩
    exact ⟨⟨level, hlevel, _, hthreshold⟩, ⟨_, hfile⟩, ⟨_, hdirectory, hnotBlank⟩, hgraph,
      path, hpath, hpathEq ▸ hjson⟩

/-- `ValidDisplay` holds when some settings are written that are sound. -/
theorem validDisplay_iff : ValidDisplay raw ↔ ∃ d : DisplayOptions, WrittenDisplay raw d ∧ d.Sound := by
  have hswitch : ∀ key, WherePresent raw "display" key (fun value => ∃ b, value = .bool b) ↔
      ∃ b, setting raw "display" key (.bool false) = .bool b :=
    fun key => wherePresent_iff ⟨false, rfl⟩
  -- a setting that is left out has its default, which is sound
  constructor
  · rintro ⟨hdisplay, hswitches, hlabels, hlayout⟩
    simp only [List.forall_mem_cons, hswitch] at hswitches
    obtain ⟨⟨_, hrank⟩, ⟨_, hsecurity⟩, ⟨_, hidle⟩, ⟨_, hcompress⟩, -⟩ := hswitches
    obtain ⟨_, hlabels, hknown⟩ := (wherePresent_iff ⟨[], rfl, List.forall_mem_nil _⟩).1 hlabels
    obtain ⟨_, hlayout, hnotBlank⟩ := (wherePresent_iff ⟨"dagre", rfl, by decide⟩).1 hlayout
    exact ⟨⟨_, _, _, _, _, _, false⟩,
      ⟨hdisplay, hrank, hsecurity, hidle, hlabels, hcompress, hlayout, rfl⟩, hknown, hnotBlank⟩
  · rintro ⟨d, ⟨hdisplay, hrank, hsecurity, hidle, hlabels, hcompress, hlayout, -⟩, hknown, hnotBlank⟩
    refine ⟨hdisplay, ?_, (wherePresent_iff ⟨[], rfl, List.forall_mem_nil _⟩).2 ⟨_, hlabels, hknown⟩,
      (wherePresent_iff ⟨"dagre", rfl, by decide⟩).2 ⟨_, hlayout, hnotBlank⟩⟩
    simp only [List.forall_mem_cons, hswitch]
    exact ⟨⟨_, hrank⟩, ⟨_, hsecurity⟩, ⟨_, hidle⟩, ⟨_, hcompress⟩, List.forall_mem_nil _⟩

/-- `IsPreset` holds of the items of a list with some presets when each item has what a preset
needs. -/
theorem exists_presets_iff {items : List Value} :
    (∃ presets, List.Forall₂ IsPreset items presets ∧
      ∀ preset ∈ presets, Text.isBlankText preset.expression = false) ↔
      ∀ item ∈ items, ∃ description expression,
        item.at? ["description"] = some (.text description) ∧
        item.at? ["expression"] = some (.text expression) ∧
        Text.isBlankText expression = false := by
  -- the induction is on the items, each of which is written for one preset
  induction items with
  | nil => exact iff_of_true ⟨[], .nil, List.forall_mem_nil _⟩ (List.forall_mem_nil _)
  | cons item items ih =>
    rw [List.forall_mem_cons, ← ih]
    constructor
    · rintro ⟨_, hpresets, hnotBlank⟩
      cases hpresets with
      | cons hpreset hpresets =>
        obtain ⟨hfirst, hrest⟩ := List.forall_mem_cons.1 hnotBlank
        exact ⟨⟨_, _, hpreset.description, hpreset.expression, hfirst⟩, _, hpresets, hrest⟩
    · rintro ⟨⟨description, expression, hdescription, hexpression, hfirst⟩, presets, hpresets, hrest⟩
      exact ⟨⟨description, expression⟩ :: presets, .cons ⟨hdescription, hexpression⟩ hpresets,
        List.forall_mem_cons.2 ⟨hfirst, hrest⟩⟩

/-- `ValidQuery` holds when some settings are written that are sound. -/
theorem validQuery_iff {channel : Channel} :
    ValidQuery raw channel ↔ ∃ q : QueryConfig, WrittenQuery raw channel q ∧ q.Sound := by
  constructor
  · rintro ⟨hquery, hvalue, hoptions⟩
    obtain ⟨s, hvalue⟩ := (wherePresent_iff ⟨[], rfl⟩).1 hvalue
    obtain ⟨items, hitems, hpresets⟩ := (wherePresent_iff ⟨[], rfl, List.forall_mem_nil _⟩).1 hoptions
    obtain ⟨presets, hpresets, hsound⟩ := exists_presets_iff.2 hpresets
    exact ⟨⟨Text.trim s, presets⟩, ⟨hquery, ⟨s, hvalue, rfl⟩, items, hitems, hpresets⟩, hsound⟩
  · rintro ⟨q, ⟨hquery, ⟨s, hvalue, -⟩, items, hitems, hpresets⟩, hsound⟩
    exact ⟨hquery, (wherePresent_iff ⟨[], rfl⟩).2 ⟨s, hvalue⟩,
      (wherePresent_iff ⟨[], rfl, List.forall_mem_nil _⟩).2
        ⟨items, hitems, exists_presets_iff.1 ⟨_, hpresets, hsound⟩⟩⟩

/-- `Valid` holds when some configuration is written that is sound. -/
theorem valid_iff : Valid raw env ↔ ∃ c : Config, Written raw env c ∧ c.Sound := by
  constructor
  · rintro ⟨hruntime, hdisplay, hfind, hhide⟩
    obtain ⟨runtime, hruntime, hruntimeSound⟩ := validRuntime_iff.1 hruntime
    obtain ⟨display, hdisplay, hdisplaySound⟩ := validDisplay_iff.1 hdisplay
    obtain ⟨find, hfind, hfindSound⟩ := validQuery_iff.1 hfind
    obtain ⟨hide, hhide, hhideSound⟩ := validQuery_iff.1 hhide
    exact ⟨⟨runtime, display, find, hide⟩, ⟨hruntime, hdisplay, hfind, hhide⟩,
      ⟨hruntimeSound, hdisplaySound, hfindSound, hhideSound⟩⟩
  · rintro ⟨c, hwritten, hsound⟩
    exact ⟨validRuntime_iff.2 ⟨_, hwritten.runtime, hsound.runtime⟩,
      validDisplay_iff.2 ⟨_, hwritten.display, hsound.display⟩,
      validQuery_iff.2 ⟨_, hwritten.find, hsound.find⟩,
      validQuery_iff.2 ⟨_, hwritten.hide, hsound.hide⟩⟩

/-- An object is accepted as a configuration exactly when its sections are what they have to be. What comes
of it is what is written in them, and is sound; and when it is refused, then by a check of what is written
in one of the sections, or of what the environment has in its place. -/
theorem ofFields_accepts (raw : Entries Value) (env : Environment) :
    ((∃ c, ofFields raw env = .ok c) ↔ Valid raw env) ∧
    (∀ c, ofFields raw env = .ok c ↔ Written raw env c ∧ c.Sound) ∧
    ∀ e, ofFields raw env = .error e → ∃ place ∈ sections, e.IsIn place := by
  refine ⟨?_, fun c => ofFields_eq_ok, ofFields_failsWith raw env⟩
  simp only [ofFields_eq_ok, valid_iff]

end Config

end MeshLens
