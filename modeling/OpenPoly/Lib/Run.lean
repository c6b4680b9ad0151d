import Mathlib.Logic.Basic
import Mathlib.Data.List.Basic

/-! Finite runs of a labelled transition relation: invariants, runs whose every
step meets a guard, and what has happened along a run. -/

namespace Transition

variable {σ ε : Type*}

/-- The events `es`, in order, take `s` to the state named last. -/
inductive Run (step : σ → ε → σ → Prop) (s : σ) : List ε → σ → Prop
  | nil : Run step s [] s
  | snoc {es : List ε} {t : σ} {e : ε} {u : σ} :
      Run step s es t → step t e u → Run step s (es ++ [e]) u

variable {step step' : σ → ε → σ → Prop} {s t u : σ} {es fs : List ε} {e : ε}

theorem Run.single (h : step s e t) : Run step s [e] t := by
  simpa using Run.snoc Run.nil h

theorem Run.append (h : Run step s es t) (h' : Run step t fs u) : Run step s (es ++ fs) u := by
  induction h' with
  | nil => simpa using h
  | snoc _ hstep ih =>
    rw [← List.append_assoc]
    exact ih.snoc hstep

theorem Run.cons (h : step s e t) (h' : Run step t es u) : Run step s (e :: es) u := by
  simpa using (Run.single h).append h'

theorem Run.mono (hsub : ∀ s e t, step s e t → step' s e t) (h : Run step s es t) :
    Run step' s es t := by
  induction h with
  | nil => exact .nil
  | snoc _ hstep ih => exact ih.snoc (hsub _ _ _ hstep)

/-- What holds at the start and survives every step holds at the end. -/
theorem Run.invariant {Inv : σ → Prop} (hstep : ∀ s e t, Inv s → step s e t → Inv t)
    (h : Run step s es t) (h0 : Inv s) : Inv t := by
  induction h with
  | nil => exact h0
  | snoc _ hs ih => exact hstep _ _ _ ih hs

/-- A run of a system whose steps are a function of state and event is a fold. -/
theorem Run.eq_foldl {f : σ → ε → σ} (h : Run (fun s e t => t = f s e) s es t) :
    t = es.foldl f s := by
  induction h with
  | nil => rfl
  | snoc _ hs ih => rw [hs, ih, List.foldl_append]; rfl

theorem run_foldl (f : σ → ε → σ) (s : σ) (es : List ε) :
    Run (fun s e t => t = f s e) s es (es.foldl f s) := by
  induction es generalizing s with
  | nil => exact .nil
  | cons e es ih => exact Run.cons rfl (ih (f s e))

/-- The same for a step that may be disabled. -/
theorem run_foldlM (f : σ → ε → Option σ) {s t : σ} {es : List ε} (h : es.foldlM f s = some t) :
    Run (fun s e t => f s e = some t) s es t := by
  induction es generalizing s with
  | nil =>
    obtain rfl : s = t := by simpa using h
    exact .nil
  | cons e es ih =>
    rw [List.foldlM_cons] at h
    obtain ⟨u, hu, hrest⟩ := Option.bind_eq_some_iff.mp h
    exact Run.cons hu (ih hrest)

def guarded (G : σ → ε → Prop) (step : σ → ε → σ → Prop) : σ → ε → σ → Prop :=
  fun s e t => G s e ∧ step s e t

/-- Events the guard allows in every state make a run a guarded one. -/
theorem Run.guard {G : σ → ε → Prop} (h : Run step s es t) (hG : ∀ e ∈ es, ∀ s, G s e) :
    Run (guarded G step) s es t := by
  induction h with
  | nil => exact .nil
  | @snoc es t e u _ hstep ih =>
    have he : G t e := hG e (List.mem_append_right _ (List.mem_singleton_self e)) t
    exact (ih fun x hx => hG x (List.mem_append_left _ hx)).snoc ⟨he, hstep⟩

/-- A run computed with its guard checked at every step. -/
theorem run_checkedM {f : σ → ε → Option σ} {G : σ → ε → Bool}
    (h : es.foldlM (fun s e => if G s e then f s e else none) s = some t) :
    Run (guarded (fun s e => G s e = true) fun s e t => f s e = some t) s es t := by
  refine (run_foldlM _ h).mono fun u e v hstep => ?_
  by_cases hG : G u e = true
  · rw [if_pos hG] at hstep
    exact ⟨hG, hstep⟩
  · rw [if_neg hG] at hstep
    cases hstep

/-- Somewhere along the run from `s` over `es`, an event met `P` in the state it
was taken in. -/
def Happened (step : σ → ε → σ → Prop) (P : σ → ε → Prop) (s : σ) (es : List ε) : Prop :=
  ∃ pre e post t, es = pre ++ e :: post ∧ Run step s pre t ∧ P t e

theorem not_happened_nil {P : σ → ε → Prop} : ¬ Happened step P s [] := by
  rintro ⟨pre, e, post, t, hes, -, -⟩
  simp at hes

/-- In a system whose steps are a function, the last event either is the one
that happened or comes after it. -/
theorem happened_snoc {f : σ → ε → σ} {P : σ → ε → Prop} :
    Happened (fun s e t => t = f s e) P s (es ++ [e]) ↔
      Happened (fun s e t => t = f s e) P s es ∨ P (es.foldl f s) e := by
  constructor
  · rintro ⟨pre, e', post, t, hes, hrun, hP⟩
    rcases List.eq_nil_or_concat' post with rfl | ⟨post, b, rfl⟩
    · obtain ⟨rfl, he⟩ := List.append_inj' hes rfl
      cases he
      exact .inr (hrun.eq_foldl ▸ hP)
    · have hes' : es ++ [e] = (pre ++ e' :: post) ++ [b] := by simpa using hes
      obtain ⟨rfl, -⟩ := List.append_inj' hes' rfl
      exact .inl ⟨pre, e', post, t, rfl, hrun, hP⟩
  · rintro (⟨pre, e', post, t, rfl, hrun, hP⟩ | hP)
    · exact ⟨pre, e', post ++ [e], t, by simp, hrun, hP⟩
    · exact ⟨es, e, [], _, rfl, run_foldl f s es, hP⟩

end Transition
