import Mathlib.Algebra.Order.Floor.Ring
import Mathlib.Tactic.Linarith
import OpenPoly.Spec.Sizing

/-! The two-decimal size: monotone in the quantity, and within a hundredth of it. -/

namespace OpenPoly

theorem roundHalfEven_floor (x : ℚ) : ⌊x⌋ ≤ roundHalfEven x ∧ roundHalfEven x ≤ ⌊x⌋ + 1 := by
  unfold roundHalfEven
  dsimp only
  split_ifs <;> constructor <;> omega

theorem roundHalfEven_mono {x y : ℚ} (h : x ≤ y) : roundHalfEven x ≤ roundHalfEven y := by
  rcases (Int.floor_mono h).lt_or_eq with hlt | heq
  · calc roundHalfEven x ≤ ⌊x⌋ + 1 := (roundHalfEven_floor x).2
      _ ≤ ⌊y⌋ := hlt
      _ ≤ roundHalfEven y := (roundHalfEven_floor y).1
  · unfold roundHalfEven
    dsimp only
    rw [heq]
    -- on one integer only the fractions count
    split_ifs <;> first | omega | (exfalso; linarith)

theorem roundHalfEven_near (x : ℚ) : |(roundHalfEven x : ℚ) - x| ≤ 1 / 2 := by
  have hlo := Int.floor_le x
  have hhi := Int.lt_floor_add_one x
  unfold roundHalfEven
  dsimp only
  rw [abs_le]
  split_ifs <;> constructor <;> push_cast <;> linarith

theorem roundHalfEven_intCast (n : ℤ) : roundHalfEven n = n := by
  simp [roundHalfEven]

theorem round6_mono {x y : ℚ} (h : x ≤ y) : round6 x ≤ round6 y := by
  have hr := @roundHalfEven_mono (x * 10 ^ 6) (y * 10 ^ 6) (by linarith)
  have hc : (roundHalfEven (x * 10 ^ 6) : ℚ) ≤ roundHalfEven (y * 10 ^ 6) := by exact_mod_cast hr
  exact div_le_div_of_nonneg_right hc (by norm_num)

theorem round6_intCast (n : ℤ) : round6 n = n := by
  have h : (n : ℚ) * 10 ^ 6 = ((n * 10 ^ 6 : ℤ) : ℚ) := by push_cast; ring
  rw [round6, h, roundHalfEven_intCast]
  push_cast
  ring

theorem isDustQty_iff (qty : ℚ) : isDustQty qty = true ↔ qty < 1 := by
  unfold isDustQty minSellShares
  exact decide_eq_true_iff

theorem quantizeSize_dust {qty : ℚ} (h : qty < 1) (price : ℚ) : quantizeSize qty price = 0 := by
  rw [quantizeSize, if_pos ((isDustQty_iff qty).mpr h)]

theorem quantizeSize_eq {qty : ℚ} (h : 1 ≤ qty) (price : ℚ) :
    quantizeSize qty price = ⌊round6 (qty * 100)⌋ / 100 := by
  rw [quantizeSize, if_neg (by rw [isDustQty_iff]; exact not_lt.mpr h)]
  norm_num [sizeDecimals]

/-- A quantity the venue takes at all is sized to at least one share. -/
theorem one_le_quantizeSize {qty : ℚ} (h : 1 ≤ qty) (price : ℚ) : 1 ≤ quantizeSize qty price := by
  rw [quantizeSize_eq h]
  have hround : (100 : ℚ) ≤ round6 (qty * 100) := by
    have := @round6_mono ((100 : ℤ) : ℚ) (qty * 100) (by push_cast; linarith)
    rw [round6_intCast] at this
    exact_mod_cast this
  have hfloor : (100 : ℤ) ≤ ⌊round6 (qty * 100)⌋ := Int.le_floor.mpr (by exact_mod_cast hround)
  have hcast : (100 : ℚ) ≤ ⌊round6 (qty * 100)⌋ := by exact_mod_cast hfloor
  linarith

theorem quantizeSize_nonneg (qty price : ℚ) : 0 ≤ quantizeSize qty price := by
  rcases lt_or_ge qty 1 with h | h
  · rw [quantizeSize_dust h]
  · linarith [one_le_quantizeSize h price]

/-- The size is less than a hundredth below the quantity. -/
theorem lt_quantizeSize_add {qty : ℚ} (h : 1 ≤ qty) (price : ℚ) :
    qty < quantizeSize qty price + 1 / 100 := by
  rw [quantizeSize_eq h]
  set n := roundHalfEven (qty * 100 * 10 ^ 6) with hn
  have hnear := (abs_le.mp (roundHalfEven_near (qty * 100 * 10 ^ 6))).1
  rw [← hn] at hnear
  have hz : round6 (qty * 100) = (n : ℚ) / 10 ^ 6 := rfl
  set m := ⌊round6 (qty * 100)⌋ with hm
  have hlt : (n : ℚ) / 10 ^ 6 < m + 1 := hz ▸ Int.lt_floor_add_one _
  rw [div_lt_iff₀ (by norm_num)] at hlt
  -- six decimals below the next hundredth is at least a millionth below it
  have hint : n + 1 ≤ (m + 1) * 10 ^ 6 := by
    have : n < (m + 1) * 10 ^ 6 := by exact_mod_cast hlt
    omega
  have hcast : (n : ℚ) + 1 ≤ (m + 1) * 10 ^ 6 := by exact_mod_cast hint
  linarith

theorem quantizeSize_pos_iff (qty price : ℚ) : 0 < quantizeSize qty price ↔ 1 ≤ qty := by
  constructor
  · intro h
    by_contra hlt
    rw [quantizeSize_dust (not_le.mp hlt)] at h
    exact lt_irrefl _ h
  · intro h
    linarith [one_le_quantizeSize h price]

theorem quantizeSize_mono {x y : ℚ} (h : x ≤ y) (price price' : ℚ) :
    quantizeSize x price ≤ quantizeSize y price' := by
  rcases lt_or_ge x 1 with hx | hx
  · rw [quantizeSize_dust hx]
    exact quantizeSize_nonneg _ _
  · rw [quantizeSize_eq hx, quantizeSize_eq (hx.trans h)]
    have hfloor := Int.floor_mono (@round6_mono (x * 100) (y * 100) (by linarith))
    have hcast : (⌊round6 (x * 100)⌋ : ℚ) ≤ ⌊round6 (y * 100)⌋ := by exact_mod_cast hfloor
    linarith

/-- A book as the venue's payload is parsed: best first on both sides, prices
strictly between 0 and 1, positive sizes. -/
structure OrderBook.WellFormed (book : OrderBook) : Prop where
  bids : book.bids.Pairwise fun a b => b.1 ≤ a.1
  asks : book.asks.Pairwise fun a b => a.1 ≤ b.1
  price : ∀ l ∈ book.bids ++ book.asks, 0 < l.1 ∧ l.1 < 1
  size : ∀ l ∈ book.bids ++ book.asks, 0 < l.2

theorem inPriceBand_iff (price : ℚ) :
    inPriceBand (some price) = true ↔ minTokenPrice ≤ price ∧ price ≤ maxTokenPrice := by
  simp [inPriceBand]

theorem inPriceBand_pos {price : ℚ} (h : inPriceBand (some price) = true) : 0 < price :=
  lt_of_lt_of_le (by norm_num [minTokenPrice]) ((inPriceBand_iff price).mp h).1

end OpenPoly
