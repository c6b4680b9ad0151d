import Mathlib.Logic.Function.Basic

/-! Custody: items opened and closed over time, each on record under the owner
that opened it. Opening under an accepted owner, closing, and accepting other
owners while nothing is open keep every open item under an accepted owner. -/

namespace Custody

variable {ι α : Type*} {isOpen isOpen' : ι → Prop} {owner : ι → Option α} {who who' : α → Prop}

/-- Every open item is on record under an owner that `who` accepts. -/
def InCustody (isOpen : ι → Prop) (owner : ι → Option α) (who : α → Prop) : Prop :=
  ∀ i, isOpen i → ∃ a, owner i = some a ∧ who a

theorem InCustody.of_none (h : ∀ i, ¬ isOpen i) : InCustody isOpen owner who :=
  fun i hi => (h i hi).elim

theorem InCustody.closed (h : InCustody isOpen owner who) (hsub : ∀ i, isOpen' i → isOpen i) :
    InCustody isOpen' owner who :=
  fun i hi => h i (hsub i hi)

/-- One item more, put on record. -/
theorem InCustody.opened [DecidableEq ι] (h : InCustody isOpen owner who) {j : ι} {a : α}
    (hsub : ∀ i, isOpen' i → isOpen i ∨ i = j) (ha : who a) :
    InCustody isOpen' (Function.update owner j (some a)) who := by
  intro i hi
  by_cases hij : i = j
  · subst hij
    exact ⟨a, Function.update_self .., ha⟩
  · obtain ⟨b, hb, hwho⟩ := h i ((hsub i hi).resolve_right hij)
    exact ⟨b, by rw [Function.update_of_ne hij, hb], hwho⟩

end Custody
