import Mathlib.Algebra.BigOperators.Group.List.Basic
import Mathlib.Algebra.Ring.Nat
import Mathlib.Algebra.BigOperators.Group.Finset.Piecewise
import Mathlib.Data.List.Induction

/-! One accumulator per key, filled in a single pass over a list. -/

namespace Tally

variable {α τ : Type*} (key : α → Option ℕ) (add : τ → α → τ)

/-- An item goes to the accumulator of its key, if it has one. -/
def step (ts : List τ) (a : α) : List τ :=
  match key a with
  | some i => ts.modify i fun t => add t a
  | none => ts

def members (i : ℕ) (xs : List α) : List α := xs.filter fun a => key a = some i

/-- The pass leaves each accumulator what its own items alone make of it. -/
theorem foldl_step (zero : τ) (n : ℕ) (xs : List α) :
    xs.foldl (step key add) (List.replicate n zero) =
      (List.range n).map fun i => (members key i xs).foldl add zero := by
  induction xs using List.reverseRecOn with
  | nil => simp [members, List.map_const']
  | append_singleton xs a ih =>
    rw [List.foldl_append, List.foldl_cons, List.foldl_nil, ih]
    unfold step members
    cases hkey : key a with
    | none =>
      refine List.map_congr_left fun i _ => ?_
      simp [List.filter_append, hkey]
    | some k =>
      refine List.ext_getElem (by simp) fun i hi _ => ?_
      by_cases heq : k = i
      · simp [List.filter_append, hkey, heq]
      · simp [List.filter_append, hkey, heq]

/-- The items of all the keys together are those that have one. -/
theorem sum_length_members {n : ℕ} (h : ∀ a i, key a = some i → i < n) (xs : List α) :
    ((List.range n).map fun i => (members key i xs).length).sum = (xs.filter fun a => (key a).isSome).length := by
  induction xs with
  | nil => simp [members]
  | cons a xs ih =>
    cases hkey : key a with
    | none => simpa [members, hkey] using ih
    | some k =>
      have hk := h a k hkey
      have hsplit : ∀ i, (members key i (a :: xs)).length = (members key i xs).length + if i = k then 1 else 0 := by
        intro i
        by_cases heq : i = k
        · simp [members, hkey, heq]
        · simp [members, hkey, heq, Ne.symm heq]
      simp only [hsplit, List.sum_map_add, ih]
      rw [List.filter_cons_of_pos (by simp [hkey]), List.length_cons]
      congr 1
      calc ((List.range n).map fun i => if i = k then 1 else 0).sum
          = ∑ i ∈ Finset.range n, if i = k then 1 else 0 := rfl
        _ = 1 := by simp [hk]

end Tally
