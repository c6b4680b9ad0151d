import Mathlib.Data.List.DropRight
import Mathlib.Data.List.TakeWhile

/-! Trimming a list at both ends, and cutting it at the first separator. -/

namespace Trim

variable {α β : Type*} {p : α → Bool} {l : List α}

/-- What is left of `l` between the elements that meet `p` at its ends. -/
def trim (p : α → Bool) (l : List α) : List α := (l.dropWhile p).rdropWhile p

theorem dropWhile_after_run {l' : List α} (h : l' <+: l.dropWhile p) : l'.dropWhile p = l' := by
  cases l' with
  | nil => rfl
  | cons a l' =>
    obtain ⟨rest, hrest⟩ := h
    have ha : p a = false := by
      have hhead := List.head_dropWhile_not p (by rw [← hrest]; simp)
      simpa [← hrest] using hhead
    rw [List.dropWhile_cons, ha]
    rfl

theorem trim_trim (p : α → Bool) (l : List α) : trim p (trim p l) = trim p l := by
  unfold trim
  rw [dropWhile_after_run (List.rdropWhile_prefix p _), List.rdropWhile_idempotent]

theorem trim_of_none (h : ∀ a ∈ l, p a = false) : trim p l = l := by
  have hdrop : l.dropWhile p = l := by
    rw [List.dropWhile_eq_self_iff]
    exact fun hl => by simp [h _ (List.getElem_mem hl)]
  unfold trim
  rw [hdrop, List.rdropWhile_eq_self_iff]
  exact fun hl => by simp [h _ (List.getLast_mem hl)]

theorem trim_map {f : α → β} {q : β → Bool} (h : ∀ a, q (f a) = p a) (l : List α) :
    trim q (l.map f) = (trim p l).map f := by
  have hsame : q ∘ f = p := funext h
  unfold trim List.rdropWhile
  rw [List.dropWhile_map, hsame, ← List.map_reverse, List.dropWhile_map, hsame, List.map_reverse]

theorem takeWhile_cut {sep : α} [DecidableEq α] {l' : List α} (h : ∀ a ∈ l, a ≠ sep) :
    (l ++ sep :: l').takeWhile (· ≠ sep) = l := by
  rw [List.takeWhile_append_of_pos (by simpa using h)]
  simp

theorem takeWhile_uncut {sep : α} [DecidableEq α] (h : ∀ a ∈ l, a ≠ sep) :
    l.takeWhile (· ≠ sep) = l :=
  List.takeWhile_eq_self_iff.mpr (by simpa using h)

theorem idxOf?_cut {sep : α} [DecidableEq α] {l' : List α} (h : ∀ a ∈ l, a ≠ sep) :
    (l ++ sep :: l').idxOf? sep = some l.length := by
  induction l with
  | nil => simp [List.idxOf?_cons]
  | cons a l ih =>
    have ha : a ≠ sep := h a List.mem_cons_self
    simp [List.idxOf?_cons, ha, ih fun b hb => h b (List.mem_cons_of_mem a hb)]

/-- Either there is no separator, or what is before the first one has none. -/
theorem cut_cases (sep : α) [DecidableEq α] (l : List α) :
    (l.takeWhile (· ≠ sep) = l ∧ ∀ a ∈ l, a ≠ sep) ∨
      ∃ rest, l = l.takeWhile (· ≠ sep) ++ sep :: rest := by
  cases hrest : l.dropWhile (fun a => decide (a ≠ sep)) with
  | nil =>
    have hnone : ∀ a ∈ l, a ≠ sep := fun a ha => by simpa using List.dropWhile_eq_nil_iff.mp hrest a ha
    exact .inl ⟨takeWhile_uncut hnone, hnone⟩
  | cons a rest =>
    have ha : a = sep := by
      have hhead := List.head_dropWhile_not (fun a => decide (a ≠ sep)) (by rw [hrest]; simp)
      simp only [hrest, List.head_cons] at hhead
      simpa using hhead
    subst ha
    exact .inr ⟨rest, by rw [← hrest, List.takeWhile_append_dropWhile]⟩

end Trim
