import Mathlib.Algebra.Order.Field.Basic
import Mathlib.Algebra.BigOperators.Group.List.Basic
import Mathlib.Data.List.Induction
import Mathlib.Tactic.Ring
import Mathlib.Tactic.Linarith

/-! A holding bought once and sold in parts: the account kept while it is sold is
the fold of its sales, over any ordered field. A sale that leaves less than the
smallest sellable quantity closes the account. -/

namespace Holding

variable {K : Type*} [Field K] [LinearOrder K]

/-- The terms a holding was bought on: unit price, buy fee per unit, and the
smallest quantity that can be sold. -/
@[ext] structure Terms (K : Type*) where
  entry : K
  feePerUnit : K
  minQty : K

structure Sale (K : Type*) where
  price : K
  qty : K
  fee : K

/-- What is kept of a holding: the quantity left (of a closed one, its last
sale), what its sales have gained, and whether it is open. -/
@[ext] structure Account (K : Type*) where
  qty : K
  realized : K
  isOpen : Bool

/-- What one sale gains, net of its fee and of the buy fee on the units sold. -/
def Sale.gain (t : Terms K) (s : Sale K) : K :=
  (s.price - t.entry) * s.qty - s.fee - t.feePerUnit * s.qty

def Account.opened (qty : K) : Account K := ⟨qty, 0, true⟩

def Account.sell (t : Terms K) (acc : Account K) (s : Sale K) : Account K :=
  if acc.qty - s.qty < t.minQty then ⟨s.qty, acc.realized + s.gain t, false⟩
  else ⟨acc.qty - s.qty, acc.realized + s.gain t, acc.isOpen⟩

def Account.fold (t : Terms K) (qty : K) (sales : List (Sale K)) : Account K :=
  sales.foldl (Account.sell t) (Account.opened qty)

variable (t : Terms K) (qty : K) (sales : List (Sale K)) (s : Sale K)

@[simp] theorem Account.fold_nil : Account.fold t qty [] = Account.opened qty := rfl

@[simp] theorem Account.fold_snoc :
    Account.fold t qty (sales ++ [s]) = (Account.fold t qty sales).sell t s := by
  simp [Account.fold, List.foldl_append]

@[simp] theorem Account.sell_realized (acc : Account K) :
    (acc.sell t s).realized = acc.realized + s.gain t := by
  unfold Account.sell
  split_ifs <;> rfl

theorem Account.sell_isOpen (acc : Account K) :
    (acc.sell t s).isOpen = true ↔ acc.isOpen = true ∧ t.minQty ≤ acc.qty - s.qty := by
  unfold Account.sell
  split_ifs with h
  · simp [not_le.mpr h]
  · simp [not_lt.mp h]

/-- The realized gain is the sum over the sales. -/
theorem Account.fold_realized :
    (Account.fold t qty sales).realized = (sales.map (Sale.gain t)).sum := by
  induction sales using List.reverseRecOn with
  | nil => rfl
  | append_singleton sales s ih => simp [ih]

/-- While it is open, what is left is what was bought less what was sold. -/
theorem Account.fold_qty (h : (Account.fold t qty sales).isOpen = true) :
    (Account.fold t qty sales).qty = qty - (sales.map Sale.qty).sum := by
  induction sales using List.reverseRecOn with
  | nil => simp [Account.opened]
  | append_singleton sales s ih =>
    rw [Account.fold_snoc] at h ⊢
    obtain ⟨hopen, hleft⟩ := (Account.sell_isOpen t s _).mp h
    rw [Account.sell, if_neg (not_lt.mpr hleft), ih hopen]
    simp [sub_sub]

/-- A sale of no more than what is left keeps the quantity sold within the
quantity bought. -/
theorem Account.sold_snoc_le [IsStrictOrderedRing K]
    (h : (Account.fold t qty sales).isOpen = true) (hs : s.qty ≤ (Account.fold t qty sales).qty) :
    ((sales ++ [s]).map Sale.qty).sum ≤ qty := by
  rw [Account.fold_qty t qty sales h] at hs
  simp only [List.map_append, List.sum_append, List.map_cons, List.map_nil, List.sum_cons,
    List.sum_nil, add_zero]
  linarith

end Holding
