import Mathlib.Algebra.Order.Group.Abs
import Mathlib.Data.List.Basic
import Mathlib.Order.Lattice

/-! The largest of a list up to a slack, and the running maximum that ignores
rises within the slack. -/

namespace Largest

variable {α : Type*} [AddCommGroup α] [LinearOrder α]

/-- `x` is in the list and nothing in it exceeds `x` by more than `ε`. -/
def IsLargest (ε : α) (l : List α) (x : α) : Prop := x ∈ l ∧ ∀ b ∈ l, b ≤ x + ε

variable {ε a x y : α} {l l' : List α}

theorem IsLargest.perm (h : IsLargest ε l x) (hp : l.Perm l') : IsLargest ε l' x :=
  ⟨hp.subset h.1, fun b hb => h.2 b (hp.symm.subset hb)⟩

/-- A list's maximum, where it has one, is the largest with no slack. -/
theorem isLargest_max? (h : l.max? = some x) : IsLargest 0 l x := by
  obtain ⟨hmem, hle⟩ := List.max?_eq_some_iff.mp h
  exact ⟨hmem, fun b hb => by simpa using hle b hb⟩

/-- The running maximum, a rise of at most `ε` being ignored. -/
def raise (ε a b : α) : α := if b ≤ a + ε then a else max a b

theorem le_raise (ε a b : α) : a ≤ raise ε a b := by
  unfold raise
  split_ifs
  · exact le_rfl
  · exact le_max_left a b

theorem le_foldl_raise (ε a : α) (l : List α) : a ≤ l.foldl (raise ε) a := by
  induction l generalizing a with
  | nil => exact le_rfl
  | cons b l ih => exact (le_raise ε a b).trans (ih _)

variable [IsOrderedAddMonoid α]

/-- Two of them differ by no more than the slack. -/
theorem IsLargest.abs_sub_le (hx : IsLargest ε l x) (hy : IsLargest ε l y) : |x - y| ≤ ε := by
  rw [abs_sub_le_iff, sub_le_iff_le_add', sub_le_iff_le_add']
  exact ⟨hy.2 x hx.1, hx.2 y hy.1⟩

theorem le_raise_add (hε : 0 ≤ ε) (a b : α) : b ≤ raise ε a b + ε := by
  unfold raise
  split_ifs with h
  · exact h
  · exact le_add_of_le_of_nonneg (le_max_right a b) hε

theorem raise_eq_or (hε : 0 ≤ ε) (a b : α) : raise ε a b = a ∨ raise ε a b = b := by
  unfold raise
  split_ifs with h
  · exact .inl rfl
  · have hab : a ≤ b := (le_add_of_nonneg_right hε).trans (not_le.mp h).le
    exact .inr (max_eq_right hab)

/-- The running maximum of a list is the largest of it, up to the slack. -/
theorem isLargest_foldl (hε : 0 ≤ ε) (a : α) (l : List α) :
    IsLargest ε (a :: l) (l.foldl (raise ε) a) := by
  induction l generalizing a with
  | nil =>
    refine ⟨List.mem_cons_self, fun b hb => ?_⟩
    rw [List.mem_singleton.mp hb]
    exact le_add_of_nonneg_right hε
  | cons b l ih =>
    obtain ⟨hmem, hle⟩ := ih (raise ε a b)
    refine ⟨?_, fun c hc => ?_⟩
    · rcases List.mem_cons.mp hmem with heq | hmem
      · rw [List.foldl_cons, heq]
        rcases raise_eq_or hε a b with h | h
        · rw [h]; exact List.mem_cons_self
        · rw [h]; exact List.mem_cons_of_mem _ List.mem_cons_self
      · exact List.mem_cons_of_mem _ (List.mem_cons_of_mem _ hmem)
    · have hacc : raise ε a b ≤ l.foldl (raise ε) (raise ε a b) := le_foldl_raise ε _ l
      rcases List.mem_cons.mp hc with rfl | hc
      · exact ((le_raise ε c b).trans hacc).trans (le_add_of_nonneg_right hε)
      · rcases List.mem_cons.mp hc with rfl | hc
        · exact (le_raise_add hε a c).trans (add_le_add_left hacc ε)
        · exact hle c (List.mem_cons_of_mem _ hc)

end Largest
