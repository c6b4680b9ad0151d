import Mathlib.Data.List.Basic

/-! Effects taken one by one, which may stop anywhere: what holds of each where it is
taken, and what a prefix inherits. -/

namespace Effects

variable {σ ε : Type*} (exec : σ → ε → σ)

/-- Every effect meets `Q` in the state it is taken in. -/
def Each (Q : σ → ε → Prop) : σ → List ε → Prop
  | _, [] => True
  | s, e :: es => Q s e ∧ Each Q (exec s e) es

variable {exec} {Q Q' : σ → ε → Prop} {P : σ → Prop} {s : σ} {es fs : List ε}

theorem each_append : Each exec Q s (es ++ fs) ↔ Each exec Q s es ∧ Each exec Q (es.foldl exec s) fs := by
  induction es generalizing s with
  | nil => simp [Each]
  | cons e es ih => simp only [List.cons_append, Each, ih, List.foldl_cons, and_assoc]

theorem Each.take (h : Each exec Q s es) (n : ℕ) : Each exec Q s (es.take n) := by
  rw [← List.take_append_drop n es, each_append] at h
  exact h.1

/-- What every effect keeps where it meets `Q`, a list of them keeps. -/
theorem Each.preserves (h : Each exec Q s es) (hstep : ∀ s e, Q s e → P s → P (exec s e)) (hs : P s) :
    P (es.foldl exec s) := by
  induction es generalizing s with
  | nil => exact hs
  | cons e es ih => exact ih h.2 (hstep s e h.1 hs)

/-- What one effect brings about and the others keep is there at the end. -/
theorem Each.brings (h : Each exec Q s es) {e : ε} (he : e ∈ es) (hbring : ∀ s, Q s e → P (exec s e))
    (hkeep : ∀ s e, P s → P (exec s e)) : P (es.foldl exec s) := by
  obtain ⟨before, after, rfl⟩ := List.append_of_mem he
  rw [each_append] at h
  rw [List.foldl_append, List.foldl_cons]
  exact h.2.2.preserves (fun s e _ => hkeep s e) (hbring _ h.2.1)

/-- Effects that meet `Q` wherever an invariant holds that they keep. -/
theorem each_of_inv (hs : P s) (h : ∀ e ∈ es, ∀ s, P s → Q s e ∧ P (exec s e)) : Each exec Q s es := by
  induction es generalizing s with
  | nil => trivial
  | cons e es ih =>
    obtain ⟨hQ, hP⟩ := h e (List.mem_cons_self ..) s hs
    exact ⟨hQ, ih hP fun e' he' => h e' (List.mem_cons_of_mem _ he')⟩

end Effects
