import Mathlib.Data.List.Perm.Basic

/-! A list whose elements move from one class to another in place: which of them
are in a class before and after one has moved. -/

namespace Tagged

variable {α β : Type*} {p : α → Bool} {l : List α} {i : ℕ} {a b : α}

/-- An element that stays in or out of the class, with what is read off it. -/
theorem map_filter_set (f : α → β) (h : l[i]? = some a) (hp : p b = p a)
    (hf : p a = true → f b = f a) : ((l.set i b).filter p).map f = (l.filter p).map f := by
  induction l generalizing i with
  | nil => simp at h
  | cons x l ih =>
    cases i with
    | zero =>
      obtain rfl : x = a := by simpa using h
      cases hx : p x with
      | false => simp [hp, hx]
      | true => simp [hp, hx, hf hx]
    | succ i =>
      have hrest := ih (by simpa using h)
      cases hx : p x <;> simp [hx, hrest]

/-- An element that enters the class. -/
theorem filter_set_perm (h : l[i]? = some a) (ha : p a = false) (hb : p b = true) :
    ((l.set i b).filter p).Perm (b :: l.filter p) := by
  induction l generalizing i with
  | nil => simp at h
  | cons x l ih =>
    cases i with
    | zero =>
      obtain rfl : x = a := by simpa using h
      simp [ha, hb]
    | succ i =>
      have hrest := ih (by simpa using h)
      cases hx : p x with
      | false => simpa [hx] using hrest
      | true => simpa [hx] using (hrest.cons x).trans (List.Perm.swap b x _)

/-- A list is what is in the class and what is not. -/
theorem flatMap_partition (p : α → Bool) (f : α → List β) (l : List α) :
    (l.flatMap f).Perm ((l.filter p).flatMap f ++ (l.filter fun x => !p x).flatMap f) := by
  have hperm := (List.filter_append_perm p l).flatMap_right f
  rw [List.flatMap_append] at hperm
  exact hperm.symm

end Tagged
