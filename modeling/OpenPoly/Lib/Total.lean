import Mathlib.Data.List.Basic

/-! Monadic list functions in `Option` over an encoded list, where the function succeeds on
every element: they are the plain functions over the list encoded. -/

namespace Total

variable {α β γ : Type} {e : α → β} {l : List α}

theorem mapM_eq {f : β → Option γ} {g : α → γ} (h : ∀ a ∈ l, f (e a) = some (g a)) :
    (l.map e).mapM f = some (l.map g) := by
  induction l with
  | nil => rfl
  | cons a l ih =>
    rw [List.map_cons, List.mapM_cons, h a List.mem_cons_self, ih fun b hb => h b (List.mem_cons_of_mem _ hb)]
    rfl

theorem findM?_eq {p : β → Option Bool} {q : α → Bool} (h : ∀ a ∈ l, p (e a) = some (q a)) :
    (l.map e).findM? p = some ((l.find? q).map e) := by
  induction l with
  | nil => rfl
  | cons a l ih =>
    have ha := h a List.mem_cons_self
    have hrest := ih fun b hb => h b (List.mem_cons_of_mem _ hb)
    cases hq : q a with
    | true => simp [List.findM?, ha, hq]
    | false => simp [List.findM?, ha, hq, hrest]

theorem anyM_eq {p : β → Option Bool} {q : α → Bool} (h : ∀ a ∈ l, p (e a) = some (q a)) :
    (l.map e).anyM p = some (l.any q) := by
  induction l with
  | nil => rfl
  | cons a l ih =>
    have ha := h a List.mem_cons_self
    have hrest := ih fun b hb => h b (List.mem_cons_of_mem _ hb)
    cases hq : q a with
    | true => simp [ha, hq]
    | false => simp [ha, hq, hrest]

theorem allM_eq {p : β → Option Bool} {q : α → Bool} (h : ∀ a ∈ l, p (e a) = some (q a)) :
    (l.map e).allM p = some (l.all q) := by
  induction l with
  | nil => rfl
  | cons a l ih =>
    have ha := h a List.mem_cons_self
    have hrest := ih fun b hb => h b (List.mem_cons_of_mem _ hb)
    cases hq : q a with
    | true => simp [ha, hq, hrest]
    | false => simp [ha, hq]

end Total
