import Mathlib.Init

/-! Results that may be errors: what a computation that returned went through,
and where one that did not has failed. -/

namespace Results

variable {ε α β : Type}

theorem except_bind_ok {x : Except ε α} {f : α → Except ε β} {b : β}
    (h : x >>= f = .ok b) : ∃ a, x = .ok a ∧ f a = .ok b := by
  cases x with
  | error e => cases h
  | ok a => exact ⟨a, rfl, h⟩

theorem except_map_ok {x : Except ε α} {f : α → β} {b : β} (h : x.map f = .ok b) :
    ∃ a, x = .ok a ∧ f a = b := by
  cases x with
  | error e => cases h
  | ok a => exact ⟨a, rfl, Except.ok.inj h⟩

theorem toOption_eq_some {x : Except ε α} {a : α} : x.toOption = some a ↔ x = .ok a := by
  cases x <;> simp [Except.toOption]

def Fails (x : Except ε α) : Prop := ∃ e, x = .error e

theorem not_fails {x : Except ε α} : ¬ Fails x ↔ ∃ a, x = .ok a := by
  cases x <;> simp [Fails]

@[simp] theorem fails_ok {a : α} : ¬ Fails (.ok a : Except ε α) := not_fails.mpr ⟨a, rfl⟩

@[simp] theorem fails_pure {a : α} : ¬ Fails (pure a : Except ε α) := not_fails.mpr ⟨a, rfl⟩

@[simp] theorem fails_error {e : ε} : Fails (.error e : Except ε α) := ⟨e, rfl⟩

@[simp] theorem fails_map {x : Except ε α} {f : α → β} : Fails (x.map f) ↔ Fails x := by
  cases x <;> simp [Fails, Except.map]

theorem fails_bind {x : Except ε α} {f : α → Except ε β} :
    Fails (x >>= f) ↔ Fails x ∨ ∃ a, x = .ok a ∧ Fails (f a) := by
  cases x <;> simp [Fails, bind, Except.bind]

/-- What comes after a computation that may fail, where it fails or not whatever
the computation returned. -/
theorem fails_bind_const {x : Except ε α} {f : α → Except ε β} {q : Prop}
    (h : ∀ a, Fails (f a) ↔ q) : Fails (x >>= f) ↔ Fails x ∨ q := by
  cases x with
  | error e => simp [fails_bind]
  | ok a => simp [fails_bind, h]

theorem fails_bind_congr {x : Except ε α} {f : α → Except ε β} {p q : Prop} (hx : Fails x ↔ p)
    (h : ∀ a, Fails (f a) ↔ q) : Fails (x >>= f) ↔ p ∨ q :=
  (fails_bind_const h).trans (or_congr_left hx)

/-- A computation that may return nothing, and what is done then. -/
theorem fails_bind_option {x : Except ε (Option α)} {f : Option α → Except ε β} {p q : Prop}
    (hsome : ∀ a, Fails (f (some a)) ↔ q) (hnone : Fails (f none) ↔ p ∨ q) :
    Fails (x >>= f) ↔ Fails x ∨ (x = .ok none ∧ p) ∨ q := by
  cases x with
  | error e => simp [fails_bind]
  | ok r =>
    cases r with
    | none => simp [fails_bind, hnone]
    | some a => simp [fails_bind, hsome]

theorem fails_mapM {f : α → Except ε β} {xs : List α} : Fails (xs.mapM f) ↔ ∃ x ∈ xs, Fails (f x) := by
  induction xs with
  | nil => simp
  | cons x xs ih =>
    rw [List.mapM_cons, fails_bind_const (q := ∃ y ∈ xs, Fails (f y))]
    · simp
    · intro b
      rw [fails_bind_const (q := False) fun bs => by simp, ih, or_false]

theorem fails_foldlM {f : β → α → Except ε β} {q : α → Prop} (h : ∀ b x, Fails (f b x) ↔ q x)
    {xs : List α} {b : β} : Fails (xs.foldlM f b) ↔ ∃ x ∈ xs, q x := by
  induction xs generalizing b with
  | nil => simp
  | cons x xs ih =>
    rw [List.foldlM_cons, fails_bind_const fun b => ih, h]
    simp

/-- What a traversal keeps is what its elements give one by one. -/
theorem filterMap_of_mapM {f : α → Except ε (Option β)} {xs : List α} {ys : List (Option β)}
    (h : xs.mapM f = .ok ys) : ys.filterMap id = xs.filterMap fun x => (f x).toOption.join := by
  induction xs generalizing ys with
  | nil =>
    obtain rfl : [] = ys := Except.ok.inj h
    rfl
  | cons x xs ih =>
    rw [List.mapM_cons] at h
    obtain ⟨y, hy, hrest⟩ := except_bind_ok h
    obtain ⟨zs, hzs, hys⟩ := except_bind_ok hrest
    obtain rfl : y :: zs = ys := Except.ok.inj hys
    rw [List.filterMap_cons, List.filterMap_cons, ih hzs, hy]
    rfl

end Results
