import Mathlib.Data.List.DropRight

/-! A bounded list that forgets its oldest item when a new one does not fit. -/

namespace Ring

variable {α : Type*} {n : ℕ} {xs : List α}

/-- `x` is put at the end, and of what is then there the last `n` stay. -/
def push (n : ℕ) (xs : List α) (x : α) : List α := (xs ++ [x]).rtake n

theorem rtake_rtake_snoc (xs : List α) (x : α) (n : ℕ) :
    (xs.rtake n ++ [x]).rtake n = (xs ++ [x]).rtake n := by
  cases n with
  | zero => simp
  | succ n =>
    rw [List.rtake_concat_succ, List.rtake_concat_succ]
    congr 1
    simp only [List.rtake, List.length_drop, List.drop_drop]
    congr 1
    omega

end Ring
