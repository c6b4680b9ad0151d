import Mathlib.Data.List.Sort

/-! The first entry of a stable sort: what a query with an order and a limit of one answers. -/

namespace Earliest

variable {α : Type*} (r : α → α → Prop) [DecidableRel r]

def first (l : List α) : Option α := (l.insertionSort r).head?

variable {r}

theorem first_cons (a : α) (l : List α) :
    first r (a :: l) = some ((first r l).elim a fun b => if r a b then a else b) := by
  unfold first
  rw [List.insertionSort_cons]
  cases l.insertionSort r with
  | nil => rfl
  | cons b t =>
    rw [List.orderedInsert]
    by_cases h : r a b
    · simp [h]
    · simp [h]

theorem first_eq_none {l : List α} : first r l = none ↔ l = [] := by
  unfold first
  rw [List.head?_eq_none_iff]
  constructor
  · intro h
    have hlength := List.length_insertionSort r l
    rw [h] at hlength
    exact List.length_eq_zero_iff.mp hlength.symm
  · rintro rfl
    rfl

theorem first_mem {l : List α} {a : α} (h : first r l = some a) : a ∈ l :=
  (List.mem_insertionSort r).mp (List.mem_of_mem_head? h)

/-- What is listed later, and comes no earlier, leaves the first as it is. -/
theorem first_append {l m : List α} {a : α} (h : first r l = some a) (hm : ∀ b ∈ m, ∀ c ∈ l, r c b) :
    first r (l ++ m) = some a := by
  induction l generalizing a with
  | nil => cases h
  | cons c l ih =>
    have hm' : ∀ b ∈ m, ∀ d ∈ l, r d b := fun b hb d hd => hm b hb d (List.mem_cons_of_mem _ hd)
    rw [first_cons] at h
    rw [List.cons_append, first_cons]
    cases hl : first r l with
    | some b =>
      rw [hl] at h
      rw [ih hl hm']
      exact h
    | none =>
      rw [hl] at h
      rw [first_eq_none.mp hl, List.nil_append]
      cases hfirst : first r m with
      | none => exact h
      | some b =>
        rw [Option.elim_some, if_pos (hm b (first_mem hfirst) c List.mem_cons_self)]
        exact h

end Earliest
