import Mathlib.Data.List.Basic

/-! Lists addressed by position: what a position of a changed list holds. -/

namespace Indexed

variable {α : Type*} {xs : List α} {x y : α} {f : α → α} {i j : ℕ}

/-- A position of a list with one more item is one of the list, or the last. -/
theorem of_snoc (h : (xs ++ [x])[i]? = some y) : xs[i]? = some y ∨ i = xs.length ∧ y = x := by
  rcases Nat.lt_trichotomy i xs.length with hlt | rfl | hgt
  · rw [List.getElem?_append_left hlt] at h
    exact .inl h
  · rw [List.getElem?_concat_length] at h
    exact .inr ⟨rfl, (Option.some.inj h).symm⟩
  · rw [List.getElem?_eq_none (by rw [List.length_append, List.length_singleton]; omega)] at h
    cases h

theorem of_modify (h : (xs.modify j f)[i]? = some y) :
    ∃ old, xs[i]? = some old ∧ (j = i ∧ y = f old ∨ j ≠ i ∧ y = old) := by
  rw [List.getElem?_modify] at h
  obtain ⟨old, hold, rfl⟩ := Option.map_eq_some_iff.mp h
  refine ⟨old, hold, ?_⟩
  by_cases hji : j = i
  · exact .inl ⟨hji, if_pos hji⟩
  · exact .inr ⟨hji, if_neg hji⟩

theorem of_set (h : (xs.set j x)[i]? = some y) : i = j ∧ y = x ∨ i ≠ j ∧ xs[i]? = some y := by
  rw [List.getElem?_set] at h
  by_cases hji : j = i
  · rw [if_pos hji] at h
    split_ifs at h
    exact .inl ⟨hji.symm, (Option.some.inj h).symm⟩
  · rw [if_neg hji] at h
    exact .inr ⟨Ne.symm hji, h⟩

/-- What every item keeps when changed, the changed list has as well. -/
theorem forall_modify {P : α → Prop} (h : ∀ a ∈ xs, P a) (hf : ∀ a, P a → P (f a)) : ∀ a ∈ xs.modify j f, P a := by
  intro a ha
  obtain ⟨i, hi⟩ := List.mem_iff_getElem?.mp ha
  obtain ⟨old, hold, ⟨-, rfl⟩ | ⟨-, rfl⟩⟩ := of_modify hi
  · exact hf old (h old (List.mem_of_getElem? hold))
  · exact h _ (List.mem_of_getElem? hold)

end Indexed
