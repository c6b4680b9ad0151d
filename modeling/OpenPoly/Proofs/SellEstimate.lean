import OpenPoly.Proofs.FillPrice
import OpenPoly.Proofs.PaperSell

/-! The sweep of a book side, and the price it gives a sell the venue has lost. -/

namespace OpenPoly

open Matching

variable {levels : List Level} {qty : ℚ}

/-- What the sweep leaves is what is not taken. -/
theorem sweepFrom_remaining (levels : List Level) (paid : ℚ) (h : 0 < qty) :
    (sweepFrom levels paid qty).2 = qty - volume (takeBest levels qty) := by
  induction levels generalizing paid qty with
  | nil => simp [sweepFrom, takeBest]
  | cons l levels ih =>
    obtain ⟨price, size⟩ := l
    rw [sweepFrom, takeBest_cons price size levels h, volume_cons]
    dsimp only
    split_ifs with hdone
    · rw [takeBest_nonpos levels hdone, volume_nil, add_zero]
    · rw [ih _ (not_le.mp hdone), sub_sub]

/-- What a sweep takes, leaves and costs. -/
structure Swept (levels : List Level) (qty : ℚ) : Prop where
  taken : qty - max (sweep levels qty).2 0 = min qty (volume levels)
  /-- The levels in turn make up exactly that amount, and the notional is their cost. -/
  amount : volume (takeBest levels qty) = min qty (volume levels)
  cost : (sweep levels qty).1 = notional (takeBest levels qty)
  monotone : (∀ l ∈ levels, 0 ≤ l.1) → ∀ more, qty ≤ more → (sweep levels qty).1 ≤ (sweep levels more).1

theorem sweep_cost (hpos : ∀ l ∈ levels, 0 < l.2) (h : 0 < qty) :
    (sweep levels qty).1 = notional (takeBest levels qty) := by
  rw [sweep, sweepFrom_notional hpos 0 h, zero_add]

theorem sweep_remaining (hpos : ∀ l ∈ levels, 0 < l.2) (h : 0 < qty) :
    (sweep levels qty).2 = qty - min qty (volume levels) := by
  rw [sweep, sweepFrom_remaining levels 0 h, volume_takeBest hpos h.le]

theorem sweep_swept (hpos : ∀ l ∈ levels, 0 < l.2) (h : 0 < qty) : Swept levels qty where
  taken := by
    have hle : 0 ≤ qty - min qty (volume levels) := sub_nonneg.mpr (min_le_left _ _)
    rw [sweep_remaining hpos h, max_eq_left hle, sub_sub_cancel]
  amount := volume_takeBest hpos h.le
  cost := sweep_cost hpos h
  monotone := by
    intro hprice more hmore
    rw [sweep_cost hpos h, sweep_cost hpos (h.trans_le hmore)]
    exact notional_takeBest_mono hpos hprice hmore

/-- Into bids kept best first, no other way to sell the same amount brings more. -/
theorem sweep_best (hpos : ∀ l ∈ levels, 0 < l.2) (hbest : levels.Pairwise fun a b => b.1 ≤ a.1) (h : 0 < qty)
    {parts : List ℚ} (htakes : Takes levels parts) (hsum : parts.sum = min qty (volume levels)) :
    worth levels parts ≤ (sweep levels qty).1 := by
  have hworth := worth_le_takeBest hpos hbest htakes
  rw [hsum] at hworth
  rw [sweep_cost hpos h]
  rcases le_total qty (volume levels) with hle | hle
  · rwa [min_eq_left hle] at hworth
  · rw [min_eq_right hle, takeBest_all hpos le_rfl] at hworth
    rwa [takeBest_all hpos hle]

def crossedBids (bids : List Level) (limit : ℚ) : List Level := bids.filter fun l => limit ≤ l.1 ∧ 0 < l.2

theorem mem_crossedBids {bids : List Level} {limit : ℚ} {l : Level} :
    l ∈ crossedBids bids limit ↔ l ∈ bids ∧ limit ≤ l.1 ∧ 0 < l.2 := by
  simp [crossedBids]

/-- Where the estimate of a sell lies. -/
structure Estimated (bids : List Level) (limit : ℚ) (best : Option ℚ) (estimate : ℚ) : Prop where
  floor : limit ≤ estimate
  crossed : ∀ top, (∃ l ∈ crossedBids bids limit, l.1 = top) → (∀ l ∈ crossedBids bids limit, l.1 ≤ top) →
    estimate ≤ max limit top
  uncrossed : crossedBids bids limit = [] → estimate ≤ max limit (best.getD limit)

/-- What the crossed bids do not cover is priced at the limit, below them all. -/
theorem sweep_le_top {limit top : ℚ} (hpos : ∀ l ∈ levels, 0 < l.2) (htop : ∀ l ∈ levels, l.1 ≤ top)
    (hlimit : limit ≤ top) (h : 0 < qty) :
    (sweep levels qty).1 + max (sweep levels qty).2 0 * limit ≤ top * qty := by
  have htaken : ∀ e ∈ takeBest levels qty, 0 < e.2 := fun e he => takeBest_pos hpos he
  have hprice : ∀ e ∈ takeBest levels qty, e.1 ≤ top := by
    intro e he
    obtain ⟨l, hl, heq⟩ := List.mem_map.mp (price_mem_takeBest he)
    exact heq ▸ htop l hl
  have hrest : max (sweep levels qty).2 0 = qty - volume (takeBest levels qty) := by
    rw [sweep_remaining hpos h, volume_takeBest hpos h.le]
    exact max_eq_left (sub_nonneg.mpr (min_le_left _ _))
  have hrest0 : 0 ≤ qty - volume (takeBest levels qty) := hrest ▸ le_max_right _ _
  rw [sweep_cost hpos h, hrest]
  calc notional (takeBest levels qty) + (qty - volume (takeBest levels qty)) * limit
      ≤ top * volume (takeBest levels qty) + (qty - volume (takeBest levels qty)) * top :=
        add_le_add (notional_le hprice htaken) (mul_le_mul_of_nonneg_left hlimit hrest0)
    _ = top * qty := by ring

variable {bids : List Level} {limit top : ℚ} {best : Option ℚ}

theorem sellPriceEstimate_swept (hne : crossedBids bids limit ≠ []) (hqty : 0 < qty) :
    sellPriceEstimate bids limit qty best =
      max limit
        (((sweep (crossedBids bids limit) qty).1 + max (sweep (crossedBids bids limit) qty).2 0 * limit) / qty) := by
  have hempty : ¬ (crossedBids bids limit).isEmpty = true := by simpa using hne
  unfold sellPriceEstimate
  dsimp only
  refine (if_neg hempty).trans ((if_pos hqty).trans ?_)
  by_cases hleft : 0 < (sweep (crossedBids bids limit) qty).2
  · rw [max_eq_left hleft.le]
    exact congrArg (fun x => max limit (x / qty)) (if_pos hleft)
  · rw [max_eq_right (not_lt.mp hleft), zero_mul, add_zero]
    exact congrArg (fun x => max limit (x / qty)) (if_neg hleft)

theorem sellPriceEstimate_le_top (hqty : 0 < qty) (hmem : ∃ l ∈ crossedBids bids limit, l.1 = top)
    (htop : ∀ l ∈ crossedBids bids limit, l.1 ≤ top) : sellPriceEstimate bids limit qty best ≤ max limit top := by
  obtain ⟨l, hl, rfl⟩ := hmem
  have hlimit : limit ≤ l.1 := (mem_crossedBids.mp hl).2.1
  have hpos : ∀ m ∈ crossedBids bids limit, 0 < m.2 := fun m hm => (mem_crossedBids.mp hm).2.2
  rw [sellPriceEstimate_swept (List.ne_nil_of_mem hl) hqty]
  refine max_le_max le_rfl ?_
  rw [div_le_iff₀ hqty]
  exact sweep_le_top hpos htop hlimit hqty

theorem sellPriceEstimate_uncrossed (h : crossedBids bids limit = []) :
    sellPriceEstimate bids limit qty best ≤ max limit (best.getD limit) := by
  have hempty : (crossedBids bids limit).isEmpty = true := by rw [h]; rfl
  unfold sellPriceEstimate
  dsimp only
  refine (if_pos hempty).trans_le ?_
  cases best with
  | none => exact le_max_left _ _
  | some best =>
    dsimp only
    split_ifs
    · exact le_rfl
    · exact le_max_left _ _

theorem sell_estimated (bids : List Level) (limit : ℚ) (best : Option ℚ) (hqty : 0 < qty) :
    Estimated bids limit best (sellPriceEstimate bids limit qty best) where
  floor := le_sellPriceEstimate bids limit qty best
  crossed := fun _ hmem htop => sellPriceEstimate_le_top hqty hmem htop
  uncrossed := sellPriceEstimate_uncrossed

theorem sweep_and_estimate (hpos : ∀ l ∈ levels, 0 < l.2) (hqty : 0 < qty) :
    Swept levels qty ∧ ∀ limit best, Estimated levels limit best (sellPriceEstimate levels limit qty best) :=
  ⟨sweep_swept hpos hqty, fun limit best => sell_estimated levels limit best hqty⟩

theorem sweep_and_estimate_sample :
    Swept [(3 / 5, 2), (1 / 2, 4)] 5 ∧
      ∀ limit best, Estimated [(3 / 5, 2), (1 / 2, 4)] limit best
        (sellPriceEstimate [(3 / 5, 2), (1 / 2, 4)] limit 5 best) := by
  refine sweep_and_estimate ?_ (by norm_num)
  intro l hl
  fin_cases hl <;> norm_num

/-- A level below zero makes a larger quantity cost less. -/
theorem below_zero_costs_less :
    ¬ ∀ levels : List Level, (∀ l ∈ levels, 0 < l.2) → ∀ qty more : ℚ, 0 < qty → qty ≤ more →
      (sweep levels qty).1 ≤ (sweep levels more).1 := by
  intro h
  have hpos : ∀ l ∈ ([(-1, 2)] : List Level), 0 < l.2 := by
    intro l hl
    rw [List.mem_singleton.mp hl]
    norm_num
  have hcost := h [(-1, 2)] hpos 1 2 (by norm_num) (by norm_num)
  norm_num [sweep, sweepFrom] at hcost

end OpenPoly
