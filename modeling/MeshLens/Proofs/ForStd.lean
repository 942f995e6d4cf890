/-!
# Lemmas about `Except` and `List`

How a computation in steps came to its value, used wherever a reader is taken apart, and what becomes of
a list with one more at its end.
-/

namespace Except

/-- A value of `map` comes from a value of the computation. -/
theorem map_eq_ok {ε α β : Type} {f : α → β} {x : Except ε α} {b : β} (h : x.map f = .ok b) :
    ∃ a, x = .ok a ∧ f a = b := by
  cases x with
  | error e => cases h
  | ok a => exact ⟨a, rfl, Except.ok.inj h⟩

/-- An error of `map` is that of the computation. -/
theorem map_eq_error {ε α β : Type} {f : α → β} {x : Except ε α} {e : ε} (h : x.map f = .error e) :
    x = .error e := by
  cases x with
  | error e' => exact congrArg Except.error (Except.error.inj h)
  | ok a => cases h

/-- A value of `bind` comes from a value of the first step, given to the second one. -/
theorem bind_eq_ok {ε α β : Type} {x : Except ε α} {f : α → Except ε β} {b : β}
    (h : x.bind f = .ok b) : ∃ a, x = .ok a ∧ f a = .ok b := by
  cases x with
  | error e => cases h
  | ok a => exact ⟨a, rfl, h⟩

/-- `map` gives a value just when the computation gives one that is sent to it. -/
theorem map_eq_ok_iff {ε α β : Type} {f : α → β} {x : Except ε α} {b : β} :
    x.map f = .ok b ↔ ∃ a, x = .ok a ∧ f a = b :=
  ⟨map_eq_ok, fun ⟨_, hx, hf⟩ => hx ▸ congrArg Except.ok hf⟩

/-- `bind` gives a value just when both steps do. -/
theorem bind_eq_ok_iff {ε α β : Type} {x : Except ε α} {f : α → Except ε β} {b : β} :
    x >>= f = .ok b ↔ ∃ a, x = .ok a ∧ f a = .ok b :=
  ⟨bind_eq_ok, fun ⟨_, hx, hf⟩ => hx ▸ hf⟩

/-- `mapError` leaves values as they are. -/
theorem mapError_eq_ok {ε δ α : Type} {f : ε → δ} {x : Except ε α} {a : α}
    (h : x.mapError f = .ok a) : x = .ok a := by
  cases x with
  | error e => cases h
  | ok b => cases h; rfl

/-- A computation whose `toOption` holds something gave a value. -/
theorem exists_eq_ok_of_isSome {ε α : Type} {x : Except ε α} (h : x.toOption.isSome = true) :
    ∃ a, x = .ok a := by
  cases x with
  | error e => cases h
  | ok a => exact ⟨a, rfl⟩

end Except

namespace List

/-- What stands in a row with one more behind it is that one, or stands in the row. -/
theorem eq_or_exists_of_append_singleton {α : Type} {xs before after : List α} {x y : α}
    (h : xs ++ [x] = before ++ y :: after) :
    (xs = before ∧ x = y ∧ after = []) ∨ ∃ rest, xs = before ++ y :: rest := by
  rcases eq_nil_or_concat after with rfl | ⟨rest, z, rfl⟩
  · exact .inl ⟨(append_inj' h rfl).1, by simpa using (append_inj' h rfl).2, rfl⟩
  · rw [concat_eq_append, ← cons_append, ← append_assoc] at h
    exact .inr ⟨rest, (append_inj' h rfl).1⟩

/-- `filterMap` of a row with one more behind it has the image of that one behind, if there is one.
-/
theorem filterMap_append_singleton {α β : Type} (f : α → Option β) (xs : List α) (x : α) :
    (xs ++ [x]).filterMap f = xs.filterMap f ++ (f x).toList := by
  rw [filterMap_append]
  cases h : f x with
  | none => simp [h]
  | some y => simp [h]

/-- What does not hold a member is a part of a row around it when it is a part of what stands on one
of its sides. -/
theorem infix_append_cons_iff {α : Type} {part xs ys : List α} {x : α} (h : x ∉ part) :
    part <:+: xs ++ x :: ys ↔ part <:+: xs ∨ part <:+: ys := by
  constructor
  · rintro ⟨before, after, heq⟩
    -- the part ends in front of the member, or reaches up to it
    rcases append_eq_append_iff.1 heq with ⟨more, rfl, -⟩ | ⟨more, hfront, hback⟩
    · exact .inl ⟨before, more, rfl⟩
    · cases more with
      | nil => exact .inl ⟨before, [], by rw [append_nil, hfront, append_nil]⟩
      | cons y more =>
        obtain ⟨rfl, rfl⟩ := cons.inj hback
        -- the member stands behind the part or in front of it
        rcases append_eq_append_iff.1 hfront with ⟨middle, -, rfl⟩ | ⟨middle, -, hmiddle⟩
        · exact absurd (mem_append_right middle mem_cons_self) h
        · cases middle with
          | nil =>
            rw [nil_append] at hmiddle
            exact absurd (hmiddle ▸ mem_cons_self) h
          | cons z middle =>
            obtain ⟨-, rfl⟩ := cons.inj hmiddle
            exact .inr ⟨middle, after, rfl⟩
  · rintro (hpart | hpart)
    · exact hpart.trans (prefix_append xs (x :: ys)).isInfix
    · exact hpart.trans ((suffix_cons x ys).trans (suffix_append xs (x :: ys))).isInfix

/-- `eraseDups` leaves no member twice. -/
theorem nodup_eraseDups {α : Type} [BEq α] [LawfulBEq α] : ∀ xs : List α, xs.eraseDups.Nodup
  | [] => nodup_nil
  | x :: xs => by
    have hshorter := length_filter_le (fun y => !y == x) xs
    rw [eraseDups_cons, nodup_cons]
    refine ⟨fun hmem => ?_, nodup_eraseDups _⟩
    have hne := (mem_filter.1 (mem_eraseDups.1 hmem)).2
    rw [beq_self_eq_true] at hne
    cases hne
termination_by xs => xs.length

/-- `filter` and `eraseDups` may be exchanged. -/
theorem filter_eraseDups {α : Type} [BEq α] [LawfulBEq α] (p : α → Bool) :
    ∀ xs : List α, xs.eraseDups.filter p = (xs.filter p).eraseDups
  | [] => rfl
  | x :: xs => by
    have hshorter := length_filter_le (fun y => !y == x) xs
    have hrest := filter_eraseDups p (xs.filter fun y => !y == x)
    rw [eraseDups_cons, filter_cons, filter_cons, hrest]
    split
    · rw [eraseDups_cons, filter_filter, filter_filter]
      simp only [Bool.and_comm]
    · -- of the others only those equal to a member that is left out are missing
      rename_i hx
      have hne : ∀ y ∈ xs, (p y && !y == x) = p y := by
        intro y _
        by_cases hyx : y = x
        · subst hyx; simp [hx]
        · simp [hyx]
      rw [filter_filter, filter_congr hne]
termination_by xs => xs.length

end List
