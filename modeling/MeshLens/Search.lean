/-!
# Searching a finite graph

A search visits what can be reached from a list of starting points. It keeps a stack, takes the
top, and puts the successors of what it visits on the stack in order, so that the last successor
is looked at first. Points outside a finite universe are passed over, which bounds the search.
-/

namespace MeshLens.Search

variable {α : Type} [DecidableEq α]

/-- How many successors the points that are not seen yet can still put on the stack. -/
def toCome (next : α → List α) (seen : List α) : List α → Nat
  | [] => 0
  | a :: space => (if a ∈ seen then 0 else (next a).length) + toCome next seen space

theorem toCome_cons_le (next : α → List α) (seen : List α) (a : α) (space : List α) :
    toCome next (a :: seen) space ≤ toCome next seen space := by
  induction space with
  | nil => simp [toCome]
  | cons b space ih =>
    have : (if b ∈ a :: seen then 0 else (next b).length) ≤
        if b ∈ seen then 0 else (next b).length := by
      by_cases hb : b ∈ seen <;> simp [hb]
      split <;> omega
    simp only [toCome]
    omega

/-- A visit puts no more on the stack than was to come. -/
theorem length_add_toCome_le (next : α → List α) {space seen : List α} {a : α}
    (ha : a ∈ space) (hs : a ∉ seen) :
    (next a).length + toCome next (a :: seen) space ≤ toCome next seen space := by
  induction space with
  | nil => simp at ha
  | cons b space ih =>
    by_cases hb : b = a
    · subst hb
      have := toCome_cons_le next seen b space
      simp [toCome, hs]
      omega
    · have ih := ih (by simpa [Ne.symm hb] using ha)
      by_cases hbs : b ∈ seen <;> simp [toCome, hb, hbs] <;> omega

/-- The points visited, latest first, from a stack of points to look at and those seen already. -/
def visit (space : List α) (next : α → List α) (stack seen : List α) : List α :=
  match stack with
  | [] => seen
  | a :: stack =>
    if _fresh : a ∈ space ∧ a ∉ seen then
      visit space next ((next a).reverse ++ stack) (a :: seen)
    else visit space next stack seen
termination_by stack.length + toCome next seen space
decreasing_by
  · have := length_add_toCome_le next _fresh.1 _fresh.2
    simp only [List.length_append, List.length_reverse, List.length_cons]
    omega
  · simp

/-- The points reached from some starting points, in the order in which they are visited. -/
def reach (space : List α) (next : α → List α) (starts : List α) : List α :=
  (visit space next starts.reverse []).reverse

theorem mem_visit_of_mem_seen {space : List α} {next : α → List α} {stack seen : List α} {a : α}
    (h : a ∈ seen) : a ∈ visit space next stack seen := by
  fun_induction visit space next stack seen with
  | case1 => exact h
  | case2 _ _ _ _ ih => exact ih (List.mem_cons_of_mem _ h)
  | case3 _ _ _ _ ih => exact ih h

theorem mem_visit_of_mem_stack {space : List α} {next : α → List α} {stack seen : List α} {a : α}
    (h : a ∈ stack) (hs : a ∈ space) : a ∈ visit space next stack seen := by
  fun_induction visit space next stack seen with
  | case1 => simp at h
  | case2 seen b stack hb ih =>
    rcases List.mem_cons.1 h with rfl | h
    · exact mem_visit_of_mem_seen (List.mem_cons_self)
    · exact ih (List.mem_append_right _ h)
  | case3 seen b stack hb ih =>
    rcases List.mem_cons.1 h with rfl | h
    · exact mem_visit_of_mem_seen (by simpa [hs] using hb)
    · exact ih h

/-- A starting point in the universe is reached. -/
theorem mem_reach_of_mem {space : List α} {next : α → List α} {starts : List α} {a : α}
    (h : a ∈ starts) (hs : a ∈ space) : a ∈ reach space next starts := by
  simp only [reach, List.mem_reverse]
  exact mem_visit_of_mem_stack (List.mem_reverse.2 h) hs

end MeshLens.Search
