import Mathlib.Order.MinMax
import Mathlib.Data.List.Basic

/-! A log with values in some of its entries and, in some, what is said to be the
highest so far. The newest entry comes first. -/

namespace HighWater

variable {ρ K : Type*} [LinearOrder K] (value shown : ρ → Option K)

def highest (log : List ρ) : Option K := (log.filterMap value).max?

/-- Whatever an entry shows is the highest value up to it. -/
def Shows (log : List ρ) : Prop :=
  ∀ post r pre, log = post ++ r :: pre → ∀ k, shown r = some k → highest value (r :: pre) = some k

variable {value shown} {log : List ρ} {r : ρ} {k : K}

theorem highest_cons (h : value r = some k) :
    highest value (r :: log) = some (max ((highest value log).getD k) k) := by
  unfold highest
  rw [List.filterMap_cons_some h, List.max?_cons]
  cases (log.filterMap value).max? with
  | none => simp
  | some j => simp [max_comm]

theorem highest_skip (h : value r = none) : highest value (r :: log) = highest value log := by
  unfold highest
  rw [List.filterMap_cons_none h]

theorem le_highest (h : k ∈ log.filterMap value) : ∃ j, highest value log = some j ∧ k ≤ j := by
  cases hmax : (log.filterMap value).max? with
  | none =>
    rw [List.max?_eq_none_iff.mp hmax] at h
    cases h
  | some j => exact ⟨j, hmax, (List.max?_eq_some_iff.mp hmax).2 k h⟩

theorem highest_mem (h : highest value log = some k) : k ∈ log.filterMap value :=
  List.max?_mem h

theorem shows_nil : Shows value shown [] := by
  intro post r pre h
  simp at h

theorem Shows.cons (h : Shows value shown log)
    (hr : ∀ k, shown r = some k → highest value (r :: log) = some k) :
    Shows value shown (r :: log) := by
  intro post r' pre heq k hk
  cases post with
  | nil =>
    obtain ⟨rfl, rfl⟩ := List.cons.inj heq
    exact hr k hk
  | cons p post =>
    obtain ⟨-, rfl⟩ := List.cons.inj heq
    exact h post r' pre rfl k hk

/-- An entry that shows nothing. -/
theorem Shows.skip (h : Shows value shown log) (hr : shown r = none) :
    Shows value shown (r :: log) := by
  refine h.cons fun k hk => ?_
  rw [hr] at hk
  cases hk

theorem Shows.tail (h : Shows value shown (r :: log)) : Shows value shown log := by
  intro post r' pre heq
  exact h (r :: post) r' pre (by rw [heq, List.cons_append])

/-- What is shown never goes down. -/
theorem Shows.pairwise (h : Shows value shown log) :
    (log.filterMap shown).Pairwise fun later earlier => earlier ≤ later := by
  have hmem : ∀ log, Shows value shown log → ∀ k ∈ log.filterMap shown, k ∈ log.filterMap value := by
    intro log h k hk
    obtain ⟨r, hr, hshown⟩ := List.mem_filterMap.mp hk
    obtain ⟨post, pre, rfl⟩ := List.append_of_mem hr
    have hhigh := highest_mem (h post r pre rfl k hshown)
    rw [List.filterMap_append]
    exact List.mem_append_right _ hhigh
  induction log with
  | nil => exact List.Pairwise.nil
  | cons r log ih =>
    cases hr : shown r with
    | none =>
      rw [List.filterMap_cons_none hr]
      exact ih h.tail
    | some k =>
      rw [List.filterMap_cons_some hr]
      refine List.pairwise_cons.mpr ⟨fun j hj => ?_, ih h.tail⟩
      have htop := h [] r log rfl k hr
      have hlow : j ∈ (r :: log).filterMap value := by
        obtain hj := hmem log h.tail j hj
        cases hv : value r with
        | none => rwa [List.filterMap_cons_none hv]
        | some v =>
          rw [List.filterMap_cons_some hv]
          exact List.mem_cons_of_mem v hj
      obtain ⟨i, hi, hle⟩ := le_highest hlow
      obtain rfl : i = k := Option.some.inj (hi.symm.trans htop)
      exact hle

end HighWater
