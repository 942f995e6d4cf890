import MeshLens.Text.CodePoint

/-!
# Named entries in insertion order

Objects, parameters and collections of named things are lists of pairs. A name is written once:
setting it again replaces its value in place, and a new name goes to the end.
-/

namespace MeshLens

/-- Named values in insertion order. -/
abbrev Entries (α : Type) := List (Text × α)

namespace Entries

variable {α : Type}

/-- The value of a name. -/
def get? (entries : Entries α) (name : Text) : Option α :=
  List.lookup name entries

/-- Sets the value of a name, in place where the name is already there. -/
def set (entries : Entries α) (name : Text) (value : α) : Entries α :=
  match entries with
  | [] => [(name, value)]
  | (key, old) :: rest =>
    if key = name then (key, value) :: rest else (key, old) :: set rest name value

/-- Takes a name out. -/
def erase (entries : Entries α) (name : Text) : Entries α :=
  entries.filter fun entry => entry.1 ≠ name

/-- The names, in order. -/
def names (entries : Entries α) : List Text :=
  entries.map (·.1)

/-- The entries of a list of pairs in which a name may come more than once: its last value, at the
place of its first. -/
def ofPairs (pairs : List (Text × α)) : Entries α :=
  pairs.foldl (fun entries (name, value) => set entries name value) []

@[simp] theorem get?_nil (name : Text) : get? ([] : Entries α) name = none := rfl

theorem get?_cons (key : Text) (value : α) (rest : Entries α) (name : Text) :
    get? ((key, value) :: rest) name = if key = name then some value else get? rest name := by
  simp only [get?, List.lookup_cons]
  by_cases h : key = name
  · subst h; simp
  · have : (name == key) = false := by simpa using fun e => h e.symm
    simp [this, h]

/-- What is set is found, and nothing else changes. -/
theorem get?_set (entries : Entries α) (name : Text) (value : α) (other : Text) :
    get? (set entries name value) other =
      if name = other then some value else get? entries other := by
  induction entries with
  | nil => simp [set, get?_cons]
  | cons entry rest ih =>
    obtain ⟨key, old⟩ := entry
    simp only [set]
    by_cases hk : key = name
    · subst hk; by_cases ho : key = other <;> simp [get?_cons, ho]
    · rw [if_neg hk, get?_cons, ih, get?_cons]
      by_cases ho : name = other
      · subst ho; simp [hk]
      · simp [ho]

/-- What is erased is not found, and nothing else changes. -/
theorem get?_erase (entries : Entries α) (name other : Text) :
    get? (erase entries name) other = if name = other then none else get? entries other := by
  induction entries with
  | nil => simp [erase]
  | cons entry rest ih =>
    obtain ⟨key, old⟩ := entry
    simp only [erase, List.filter_cons] at ih ⊢
    by_cases hk : key = name
    · subst hk
      by_cases ho : key = other
      · simpa [get?_cons, ho] using ih
      · simpa [get?_cons, ho] using ih
    · by_cases ho : name = other
      · subst ho; simpa [get?_cons, hk] using ih
      · simp only [ho, if_false] at ih
        simp only [hk, ne_eq, not_false_eq_true, decide_true, if_true, get?_cons, ho, if_false]
        rw [ih]

end Entries

end MeshLens
