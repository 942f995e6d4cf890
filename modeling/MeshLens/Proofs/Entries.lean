import MeshLens.Entries

/-!
# Names and order of entries

Setting an entry writes a new name at the end and leaves all other entries where they are, and erasing one
takes it out of the row. So names stay apart, and what is kept of other names is kept in its order. Of pairs
in which a name comes twice the entries hold one, so that they hold just these pairs when no name does.

## Key results

- `nodup_names_set`, `nodup_names_erase`, `nodup_names_ofPairs`: names stay apart
- `filter_set`, `filter_erase`: the entries of other names stay as they are
- `filter_ofPairs`: the entries of some names of the pairs
- `ofPairs_eq_self_iff`: when no pair is lost
-/

namespace MeshLens.Entries

variable {α : Type} {entries : Entries α} {name : Text}

/-- `get?` finds nothing just at a name that no entry has. -/
theorem get?_eq_none_iff : get? entries name = none ↔ name ∉ names entries := by
  rw [get?, List.lookup_eq_none_iff, names, List.mem_map]
  constructor
  · rintro h ⟨entry, hentry, rfl⟩
    simpa using h entry hentry
  · intro h entry hentry
    simpa using fun heq => h ⟨entry, hentry, heq.symm⟩

/-- An entry that `get?` finds is among the entries. -/
theorem mem_of_get? {value : α} (h : get? entries name = some value) : (name, value) ∈ entries := by
  -- induction on the entries: the first one has the name, or the rest is searched
  induction entries with
  | nil => cases h
  | cons entry entries ih =>
    rw [get?_cons] at h
    split at h
    · rename_i hname
      cases h
      subst hname
      exact List.mem_cons_self
    · exact List.mem_cons_of_mem _ (ih h)

/-- A value that `get?` finds is that of some entry. -/
theorem exists_mem_of_get? {value : α} (h : get? entries name = some value) :
    ∃ entry ∈ entries, entry.2 = value :=
  ⟨_, mem_of_get? h, rfl⟩

/-- `get?` finds each entry by its name when names are apart. -/
theorem get?_of_mem (h : (names entries).Nodup) {entry : Text × α} (hentry : entry ∈ entries) :
    get? entries entry.1 = some entry.2 := by
  induction entries with
  | nil => cases hentry
  | cons first entries ih =>
    obtain ⟨hnew, hrest⟩ : first.1 ∉ names entries ∧ (names entries).Nodup := List.nodup_cons.1 h
    rw [get?_cons]
    -- the entry is the first one, or it stands behind a first one of another name
    rcases List.mem_cons.1 hentry with rfl | hentry
    · rw [if_pos rfl]
    · have hne : first.1 ≠ entry.1 := fun heq => hnew (heq ▸ List.mem_map_of_mem hentry)
      rw [if_neg hne, ih hrest hentry]

/-! ## Setting and erasing -/

/-- `set` changes nothing where the value is there already. -/
theorem set_eq_self {value : α} (h : get? entries name = some value) :
    set entries name value = entries := by
  induction entries with
  | nil => cases h
  | cons entry entries ih =>
    rw [get?_cons] at h
    rw [set]
    -- the two searches take the same turns, so the cases are those of `get?`
    split at h
    · rename_i hname
      cases h
      rw [if_pos hname]
    · rename_i hne
      rw [if_neg hne, ih h]

/-- `set` puts a new name at the end. -/
theorem set_of_notMem (h : name ∉ names entries) (value : α) :
    set entries name value = entries ++ [(name, value)] := by
  induction entries with
  | nil => rfl
  | cons entry entries ih =>
    obtain ⟨hne, hrest⟩ := not_or.1 (mt List.mem_cons.2 h)
    rw [set, if_neg (Ne.symm hne), ih hrest, List.cons_append]

/-- `set` leaves the names as they are when the name is among them. -/
theorem names_set_of_mem (h : name ∈ names entries) (value : α) :
    names (set entries name value) = names entries := by
  induction entries with
  | nil => cases h
  | cons entry entries ih =>
    rw [set]
    split
    · rfl
    · rename_i hne
      exact congrArg (entry.1 :: ·) (ih ((List.mem_cons.1 h).resolve_left (Ne.symm hne)))

/-- `set` leaves names apart. -/
theorem nodup_names_set (h : (names entries).Nodup) (name : Text) (value : α) :
    (names (set entries name value)).Nodup := by
  -- cases: the name is there and stays in its place, or it comes to the end
  by_cases hmem : name ∈ names entries
  · rwa [names_set_of_mem hmem]
  · rw [set_of_notMem hmem, names, List.map_append]
    refine List.nodup_append.2 ⟨h, List.pairwise_singleton _ _, fun a ha b hb hab => hmem ?_⟩
    obtain rfl : b = name := List.mem_singleton.1 hb
    exact hab ▸ ha

/-- `erase` leaves names apart. -/
theorem nodup_names_erase (h : (names entries).Nodup) (name : Text) :
    (names (erase entries name)).Nodup :=
  h.sublist (List.filter_sublist.map _)

/-- An entry after `set` was there before, or is the one that was set. -/
theorem mem_set {value : α} {entry : Text × α} (h : entry ∈ set entries name value) :
    entry ∈ entries ∨ entry = (name, value) := by
  induction entries with
  | nil => exact .inr (List.mem_singleton.1 h)
  | cons first entries ih =>
    rw [set] at h
    split at h
    · rename_i hname
      rcases List.mem_cons.1 h with h | h
      · exact .inr (hname ▸ h)
      · exact .inl (List.mem_cons_of_mem _ h)
    · rcases List.mem_cons.1 h with h | h
      · exact .inl (h ▸ List.mem_cons_self)
      · exact (ih h).imp_left (List.mem_cons_of_mem _)

/-! ## Entries of some names -/

section
variable (p : Text → Bool)

/-- `set` acts among the entries of some names as it does on all of them, or leaves these alone. -/
theorem filter_set (entries : Entries α) (name : Text) (value : α) :
    (set entries name value).filter (fun entry => p entry.1) =
      if p name then set (entries.filter fun entry => p entry.1) name value
      else entries.filter fun entry => p entry.1 := by
  induction entries with
  | nil => cases hp : p name <;> simp [set, hp]
  | cons entry entries ih =>
    obtain ⟨key, old⟩ := entry
    rw [set]
    -- the first entry is the one to be set, or the search goes on behind it
    split
    · rename_i hname
      subst hname
      cases hp : p key <;> simp [set, hp]
    · rename_i hne
      rw [List.filter_cons, ih]
      cases hp : p name <;> cases hkey : p key <;> simp [set, hkey, hne]

/-- `erase` commutes with leaving out the entries of other names. -/
theorem filter_erase (entries : Entries α) (name : Text) :
    (erase entries name).filter (fun entry => p entry.1) =
      erase (entries.filter fun entry => p entry.1) name := by
  rw [erase, erase, List.filter_filter, List.filter_filter]
  exact List.filter_congr fun entry _ => Bool.and_comm _ _

/-- `erase` changes nothing at a name that is not there. -/
theorem erase_of_notMem (h : name ∉ names entries) : erase entries name = entries := by
  refine List.filter_eq_self.2 fun entry hentry => ?_
  have hne : entry.1 ≠ name := fun heq => h (heq ▸ List.mem_map_of_mem hentry)
  simpa using hne

end

/-! ## Entries of pairs -/

/-- The entries that are there when `set` enters pairs one after the other. -/
def enterPairs (entries : Entries α) (pairs : List (Text × α)) : Entries α :=
  pairs.foldl (fun entries (name, value) => set entries name value) entries

/-- `enterPairs` enters the first pair and then the others. -/
theorem enterPairs_cons (entries : Entries α) (pair : Text × α) (pairs : List (Text × α)) :
    enterPairs entries (pair :: pairs) = enterPairs (set entries pair.1 pair.2) pairs :=
  rfl

/-- `enterPairs` leaves names apart. -/
theorem nodup_names_enterPairs {pairs : List (Text × α)} (h : (names entries).Nodup) :
    (names (enterPairs entries pairs)).Nodup := by
  induction pairs generalizing entries with
  | nil => exact h
  | cons pair pairs ih => exact ih (nodup_names_set h pair.1 pair.2)

/-- An entry after `enterPairs` was there before, or is one of the pairs. -/
theorem mem_enterPairs {pairs : List (Text × α)} {entry : Text × α}
    (h : entry ∈ enterPairs entries pairs) : entry ∈ entries ∨ entry ∈ pairs := by
  induction pairs generalizing entries with
  | nil => exact .inl h
  | cons pair pairs ih =>
    rcases ih h with h | h
    · exact (mem_set h).imp_right fun h => List.mem_cons.2 (.inl h)
    · exact .inr (List.mem_cons_of_mem _ h)

/-- `enterPairs` acts among the entries of some names as it does on all of them, with the pairs of
these names. -/
theorem filter_enterPairs (p : Text → Bool) (entries : Entries α) (pairs : List (Text × α)) :
    (enterPairs entries pairs).filter (fun entry => p entry.1) =
      enterPairs (entries.filter fun entry => p entry.1) (pairs.filter fun pair => p pair.1) := by
  induction pairs generalizing entries with
  | nil => rfl
  | cons pair pairs ih =>
    rw [enterPairs_cons, ih, filter_set, List.filter_cons]
    split
    · rfl
    · rfl

/-- `enterPairs` puts pairs whose names are all new behind the entries that are there. -/
theorem enterPairs_eq_append {pairs : List (Text × α)} (h : (names (entries ++ pairs)).Nodup) :
    enterPairs entries pairs = entries ++ pairs := by
  induction pairs generalizing entries with
  | nil => exact (List.append_nil entries).symm
  | cons pair pairs ih =>
    -- the first name is new to the entries, since names are apart over both rows
    have hnew : pair.1 ∉ names entries := by
      intro hmem
      rw [names, List.map_append, List.nodup_append] at h
      exact h.2.2 _ hmem _ List.mem_cons_self rfl
    have hsplit : entries ++ [(pair.1, pair.2)] ++ pairs = entries ++ pair :: pairs := by simp
    rw [enterPairs_cons, set_of_notMem hnew, ih (hsplit ▸ h), hsplit]

/-- `ofPairs` gives names that are apart. -/
theorem nodup_names_ofPairs (pairs : List (Text × α)) : (names (ofPairs pairs)).Nodup :=
  nodup_names_enterPairs List.nodup_nil

/-- An entry of `ofPairs` is one of the pairs. -/
theorem mem_of_mem_ofPairs {pairs : List (Text × α)} {entry : Text × α}
    (h : entry ∈ ofPairs pairs) : entry ∈ pairs :=
  (mem_enterPairs h).resolve_left List.not_mem_nil

/-- `ofPairs` gives, of some names, the entries of the pairs with these names. -/
theorem filter_ofPairs (p : Text → Bool) (pairs : List (Text × α)) :
    (ofPairs pairs).filter (fun entry => p entry.1) =
      ofPairs (pairs.filter fun pair => p pair.1) :=
  filter_enterPairs p [] pairs

/-- `ofPairs` keeps pairs as they are just when no name comes twice. -/
theorem ofPairs_eq_self_iff {pairs : List (Text × α)} :
    ofPairs pairs = pairs ↔ (names pairs).Nodup :=
  ⟨fun h => h ▸ nodup_names_ofPairs pairs, fun h => enterPairs_eq_append h⟩

end MeshLens.Entries
