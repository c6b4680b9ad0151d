import OpenPoly.Lib.Except
import OpenPoly.Lib.Matching
import OpenPoly.Proofs.Sizing
import OpenPoly.Proofs.Ledger
import OpenPoly.Spec.PaperExecutor

/-! The paper sell of an open position: what it books, up to the millionths of a
hundredth a size may round up by. -/

namespace OpenPoly

open Matching Results

/-- A size is a number of hundredths. -/
theorem quantizeSize_hundredths (qty price : ℚ) : ∃ n : ℤ, quantizeSize qty price = n / 100 := by
  rcases lt_or_ge qty 1 with h | h
  · exact ⟨0, by rw [quantizeSize_dust h]; norm_num⟩
  · exact ⟨_, quantizeSize_eq h price⟩

/-- Rounding to six decimals lifts a size by no more than this. -/
theorem quantizeSize_le {qty : ℚ} (h : 1 ≤ qty) (price : ℚ) :
    quantizeSize qty price ≤ qty + 1 / 10 ^ 8 := by
  rw [quantizeSize_eq h]
  have hnear := (abs_le.mp (roundHalfEven_near (qty * 100 * 10 ^ 6))).2
  have hround : round6 (qty * 100) = (roundHalfEven (qty * 100 * 10 ^ 6) : ℚ) / 10 ^ 6 := rfl
  have hfloor := Int.floor_le (round6 (qty * 100))
  have hup : round6 (qty * 100) ≤ qty * 100 + 1 / 10 ^ 6 := by
    rw [hround, div_le_iff₀ (by norm_num)]
    linarith
  linarith

/-- The sweep pays for what is taken best first. -/
theorem sweepFrom_notional {levels : List Level} (hpos : ∀ l ∈ levels, 0 < l.2) (paid : ℚ) {qty : ℚ}
    (h : 0 < qty) : (sweepFrom levels paid qty).1 = paid + notional (takeBest levels qty) := by
  induction levels generalizing paid qty with
  | nil => simp [sweepFrom, takeBest]
  | cons l levels ih =>
    obtain ⟨price, size⟩ := l
    have hrest := fun l hl => hpos l (List.mem_cons_of_mem _ hl)
    rw [sweepFrom, takeBest_cons price size levels h, notional_cons]
    dsimp only
    split_ifs with hdone
    · rw [takeBest_nonpos levels hdone, notional_nil, add_zero, mul_comm]
    · rw [ih hrest _ (not_le.mp hdone), mul_comm, add_assoc]

/-- The levels a sell sweeps: those at or above the floor, itself never above
the best bid. -/
def sweptLevels (bids : List Level) (floorPrice : Option ℚ) (best : ℚ) : List Level :=
  bids.filter fun l => sellFloor floorPrice best ≤ l.1

/-- The average price of taking up to a little more than the levels hold. -/
theorem sweep_price {levels : List Level} {qty low best slack : ℚ}
    (hpos : ∀ l ∈ levels, 0 < l.2) (hlow : ∀ l ∈ levels, low ≤ l.1) (hbest : ∀ l ∈ levels, l.1 ≤ best)
    (hqty : 1 ≤ qty) (hdepth : qty ≤ volume levels + slack) (hslack : 0 ≤ slack) (h0 : 0 ≤ low)
    (h1 : low ≤ 1) (hbest0 : 0 ≤ best) :
    low - slack ≤ (sweep levels qty).1 / qty ∧ (sweep levels qty).1 / qty ≤ best := by
  have hqty0 : 0 < qty := lt_of_lt_of_le one_pos hqty
  have htaken := fun e he => @takeBest_pos _ _ _ _ levels hpos qty e he
  have hprice : ∀ e ∈ takeBest levels qty, low ≤ e.1 ∧ e.1 ≤ best := by
    intro e he
    obtain ⟨l, hl, heq⟩ := List.mem_map.mp (price_mem_takeBest he)
    exact heq ▸ ⟨hlow l hl, hbest l hl⟩
  have hvolume := volume_takeBest hpos hqty0.le
  have hsum : (sweep levels qty).1 = notional (takeBest levels qty) := by
    rw [sweep, sweepFrom_notional hpos 0 hqty0, zero_add]
  rw [hsum, le_div_iff₀ hqty0, div_le_iff₀ hqty0]
  constructor
  · -- what the levels do not cover is less than the slack, and a share costs at most 1
    have hcovered : qty - slack ≤ volume (takeBest levels qty) := by
      rw [hvolume]
      exact le_min (sub_le_self _ hslack) (sub_le_iff_le_add.mpr hdepth)
    calc (low - slack) * qty
        ≤ low * (qty - slack) := by nlinarith
      _ ≤ low * volume (takeBest levels qty) := mul_le_mul_of_nonneg_left hcovered h0
      _ ≤ notional (takeBest levels qty) := le_notional (fun e he => (hprice e he).1) htaken
  · calc notional (takeBest levels qty)
        ≤ best * volume (takeBest levels qty) := notional_le (fun e he => (hprice e he).2) htaken
      _ ≤ best * qty := by
          rw [hvolume]
          exact mul_le_mul_of_nonneg_left (min_le_left _ _) hbest0

/-- A paper sell that passes every check. -/
structure PaperSold (c : PaperSellCall) (a : SellArgs) (book : OrderBook) (best : ℚ) : Prop where
  found : c.catalog.books c.position.tokenId = some book
  head : book.bids.head?.map Prod.fst = some best
  band : ∀ l ∈ sweptLevels book.bids c.floorPrice best, inPriceBand (some l.1) = true
  qty : a.soldQty = quantizeSize
    (min c.position.qty (volume (sweptLevels book.bids c.floorPrice best)))
    (((sweptLevels book.bids c.floorPrice best).getLast?.map Prod.fst).getD 0)
  placed : 0 < a.soldQty
  price : a.sellPrice = (sweep (sweptLevels book.bids c.floorPrice best) a.soldQty).1 / a.soldQty

theorem paperSellFill_ok {c : PaperSellCall} {a : SellArgs} (h : paperSellFill c = .ok a) :
    ∃ book best, PaperSold c a book best := by
  unfold paperSellFill at h
  dsimp only at h
  split at h
  · cases h
  · split at h
    · cases h
    · rename_i book hbook
      split at h
      · cases h
      · split at h
        · cases h
        · rename_i best size rest hbids
          split at h
          · cases h
          · rename_i hband
            split at h
            · split at h <;> cases h
            · rename_i hqty
              cases h
              refine ⟨book, best, hbook, by rw [hbids]; rfl, ?_, rfl, not_le.mp hqty, rfl⟩
              simpa [sweptLevels] using hband

theorem paperSellFill_skip {c : PaperSellCall} {skip : ExecResult}
    (h : paperSellFill c = .error skip) : skip.filled = false := by
  unfold paperSellFill at h
  dsimp only at h
  split at h
  · cases h
    rfl
  · split at h
    · cases h
      rfl
    · split at h
      · cases h
        rfl
      · split at h
        · cases h
          rfl
        · split at h
          · cases h
            rfl
          · split at h
            · split at h <;> cases h <;> rfl
            · cases h

/-- What a paper sell of `row` into `levels` has done: what it returned and the
fill it booked. -/
structure SellsInto (db : Db) (row : PositionRow) (levels : List Level) (best : ℚ) (out : Outcome)
    (price qty fee : ℚ) (f : FillRow) : Prop where
  result : out.result = .ok (.ok price qty row.id none fee)
  booked : out.db.fills = db.fills ++ [f] ∧ f.positionId = row.id ∧ f.action = .sell
  agrees : f.price = price ∧ f.fee = fee ∧ |qty - f.qty| ≤ 1 / 10 ^ 8
  hundredths : ∃ n : ℤ, qty = n / 100
  share : 1 ≤ qty ∧ 1 ≤ f.qty
  held : qty ≤ row.qty + 1 / 10 ^ 8 ∧ f.qty ≤ row.qty
  depth : qty ≤ volume levels + 1 / 10 ^ 8
  average : price * qty = notional (takeBest levels qty)
  lowest : ∃ l ∈ levels, (∀ l' ∈ levels, l.1 ≤ l'.1) ∧ l.1 - 1 / 10 ^ 8 ≤ price
  atBest : price ≤ best
  remainder : 1 / 100 ≤ row.qty - f.qty → ∃ row', out.db.get row.id = some row' ∧
    row'.status = .open ∧ row'.qty = row.qty - f.qty ∧ row'.avgEntryPrice = row.avgEntryPrice

/-- A book as it is kept: levels of positive size, best first. -/
structure BidsUsable (bids : List Level) : Prop where
  size : ∀ l ∈ bids, 0 < l.2
  sorted : bids.Pairwise fun a b => b.1 ≤ a.1

theorem BidsUsable.le_best {bids : List Level} {best : ℚ} (h : BidsUsable bids)
    (hbest : bids.head?.map Prod.fst = some best) : ∀ l ∈ bids, l.1 ≤ best := by
  cases bids with
  | nil => simp at hbest
  | cons level bids =>
    obtain rfl : level.1 = best := by simpa using hbest
    intro l hl
    rcases List.mem_cons.mp hl with rfl | hl
    · exact le_rfl
    · exact (List.pairwise_cons.mp h.sorted).1 l hl

theorem exists_lowest {levels : List Level} (h : levels ≠ []) :
    ∃ l ∈ levels, ∀ l' ∈ levels, l.1 ≤ l'.1 := by
  cases hmin : levels.argmin Prod.fst with
  | none => exact absurd (List.argmin_eq_none.mp hmin) h
  | some l => exact ⟨l, List.argmin_mem hmin, fun l' hl' => List.le_of_mem_argmin hl' hmin⟩

/-- What the numbers of a paper sell are, before it is booked. -/
theorem PaperSold.numbers {c : PaperSellCall} {a : SellArgs} {book : OrderBook} {best : ℚ}
    (h : PaperSold c a book best) (hbids : BidsUsable book.bids) :
    let levels := sweptLevels book.bids c.floorPrice best
    1 ≤ a.soldQty ∧ 1 ≤ c.position.qty ∧ a.soldQty ≤ c.position.qty + 1 / 10 ^ 8 ∧
      a.soldQty ≤ volume levels + 1 / 10 ^ 8 ∧
      a.sellPrice * a.soldQty = notional (takeBest levels a.soldQty) ∧
      (∃ l ∈ levels, (∀ l' ∈ levels, l.1 ≤ l'.1) ∧ l.1 - 1 / 10 ^ 8 ≤ a.sellPrice) ∧
      a.sellPrice ≤ best := by
  intro levels
  have hwanted : 1 ≤ min c.position.qty (volume levels) :=
    (quantizeSize_pos_iff _ _).mp (h.qty ▸ h.placed)
  have hone : 1 ≤ a.soldQty := h.qty ▸ one_le_quantizeSize hwanted _
  have hle : a.soldQty ≤ min c.position.qty (volume levels) + 1 / 10 ^ 8 :=
    h.qty ▸ quantizeSize_le hwanted _
  have hpos : ∀ l ∈ levels, 0 < l.2 := fun l hl => hbids.size l (List.mem_of_mem_filter hl)
  have hbest : ∀ l ∈ levels, l.1 ≤ best := fun l hl =>
    hbids.le_best h.head l (List.mem_of_mem_filter hl)
  have hdepth : a.soldQty ≤ volume levels + 1 / 10 ^ 8 :=
    hle.trans (add_le_add_left (min_le_right _ _) _)
  have hne : levels ≠ [] := by
    intro hnil
    have hvolume := hwanted.trans (min_le_right _ _)
    rw [hnil, volume_nil] at hvolume
    norm_num at hvolume
  obtain ⟨l, hl, hlow⟩ := exists_lowest hne
  obtain ⟨hmin, hmax⟩ := (inPriceBand_iff l.1).mp (h.band l hl)
  have hl0 : 0 ≤ l.1 := (inPriceBand_pos (h.band l hl)).le
  have hl1 : l.1 ≤ 1 := hmax.trans (by norm_num [maxTokenPrice, minTokenPrice])
  have hprice := sweep_price hpos hlow hbest hone hdepth (by norm_num) hl0 hl1 (hl0.trans (hbest l hl))
  have hsum : (sweep levels a.soldQty).1 = notional (takeBest levels a.soldQty) := by
    rw [sweep, sweepFrom_notional hpos 0 h.placed, zero_add]
  refine ⟨hone, hwanted.trans (min_le_left _ _), hle.trans (add_le_add_left (min_le_left _ _) _),
    hdepth, ?_, ⟨l, hl, hlow, ?_⟩, ?_⟩
  · rw [h.price, ← hsum]
    exact div_mul_cancel₀ _ h.placed.ne'
  · rw [h.price]
    exact hprice.1
  · rw [h.price]
    exact hprice.2

/-- A sell recorded for an open row: the fill it books and the row it leaves. -/
theorem recordSell_open {db : Db} {row : PositionRow} (hrow : db.get row.id = some row)
    (hopen : row.status = .open) (a : SellArgs) :
    ∃ db', db.recordSell row.id a = .ok (db.soldRow row a, db') ∧
      Disposal db row.id row (db.soldRow row a)
        (sellFill row a.sellPrice (min a.soldQty row.qty) a.fee a.ts a.trigger a.orderId a.txHash)
        db' := by
  refine ⟨_, ?_, ⟨hrow, hopen, rfl⟩⟩
  rw [Db.recordSell, requireOpen_of_get hrow hopen]
  rfl

/-- The paper sell of an open position, at a usable book: a skip that leaves the
tables, a write the database failed, or a sell of what the bids at the floor or
better hold. -/
theorem paper_sell_sound {db : Db} {c : PaperSellCall} {row : PositionRow}
    (hrow : db.get row.id = some row) (hopen : row.status = .open) (hsnapshot : c.position = row.toHeld)
    (hbook : ∀ book, c.catalog.books row.tokenId = some book → BidsUsable book.bids) :
    (∃ skip, (paperSell db c).result = .ok skip ∧ skip.filled = false ∧ (paperSell db c).db = db) ∨
    (∃ exc, c.outage = some exc ∧ (paperSell db c).result = .error exc ∧ (paperSell db c).db = db) ∨
    ∃ book best price qty fee f, c.catalog.books row.tokenId = some book ∧
      book.bids.head?.map Prod.fst = some best ∧
      SellsInto db row (sweptLevels book.bids c.floorPrice best) best (paperSell db c) price qty fee f := by
  unfold paperSell
  cases hfill : paperSellFill c with
  | error skip => exact .inl ⟨skip, rfl, paperSellFill_skip hfill, rfl⟩
  | ok a =>
    dsimp only
    cases hout : c.outage with
    | some exc => exact .inr (.inl ⟨exc, rfl, rfl, rfl⟩)
    | none =>
      refine .inr (.inr ?_)
      obtain ⟨book, best, hsold⟩ := paperSellFill_ok hfill
      have htoken : c.position.tokenId = row.tokenId := by rw [hsnapshot]; rfl
      have hqty : c.position.qty = row.qty := by rw [hsnapshot]; rfl
      have hid : c.position.positionId = row.id := by rw [hsnapshot]; rfl
      have hfound := htoken ▸ hsold.found
      obtain ⟨hone, hrow1, hheld, hdepth, haverage, hlowest, hbest⟩ :=
        hsold.numbers (hbook book hfound)
      rw [hqty] at hrow1 hheld
      obtain ⟨db', hrecord, hd⟩ := recordSell_open hrow hopen a
      have hclamp : |a.soldQty - min a.soldQty row.qty| ≤ 1 / 10 ^ 8 := by
        rcases le_total a.soldQty row.qty with hle | hle
        · rw [min_eq_left hle, sub_self, abs_zero]
          norm_num
        · rw [min_eq_right hle, abs_of_nonneg (sub_nonneg.mpr hle)]
          linarith
      rw [writeOnce, hid, hrecord]
      refine ⟨book, best, a.sellPrice, a.soldQty, a.fee, { sellFill row a.sellPrice
        (min a.soldQty row.qty) a.fee a.ts a.trigger a.orderId a.txHash with
          id := nextId (db.fills.map FillRow.id) }, hfound, hsold.head, ?_⟩
      refine ⟨rfl, ⟨by rw [hd.after]; rfl, rfl, rfl⟩, ⟨rfl, rfl, hclamp⟩, ?_, ⟨hone, le_min hone hrow1⟩,
        ⟨hheld, min_le_right _ _⟩, hdepth, haverage, hlowest, hbest, fun hleft => ?_⟩
      · rw [hsold.qty]
        exact quantizeSize_hundredths _ _
      · -- what is left is a size the venue takes, so the row stays open
        have hkept : ¬ row.qty - min a.soldQty row.qty < minSellableQty := not_lt.mpr hleft
        have hget := hd.get (soldRow_id _ _ _) hrow
        rw [if_pos rfl] at hget
        refine ⟨_, hget, ?_⟩
        rw [Db.soldRow, if_neg hkept]
        exact ⟨hopen, rfl, rfl⟩

/-- The ten shares of the sample position, and bids for 4 at 0.40 and 8 at 0.30. -/
def sweptCall : PaperSellCall where
  catalog := {
    markets := fun _ => none
    books := fun _ => some ⟨"t1", 0, [(2 / 5, 4), (3 / 10, 8)], []⟩ }
  gone _ := false
  usable _ := true
  position := (openRow 1 sampleOpen).toHeld
  closeReason := .stopLoss
  ts := 1
  floorPrice := some (3 / 10)

theorem paper_sell_sound_sample :
    ∃ price qty fee f, SellsInto (Db.empty.opened sampleOpen) (openRow 1 sampleOpen)
      [(2 / 5, 4), (3 / 10, 8)] (2 / 5) (paperSell (Db.empty.opened sampleOpen) sweptCall)
      price qty fee f := by
  have hrow : (Db.empty.opened sampleOpen).get (openRow 1 sampleOpen).id =
      some (openRow 1 sampleOpen) := by decide +kernel
  have hbook : ∀ book, sweptCall.catalog.books (openRow 1 sampleOpen).tokenId = some book →
      BidsUsable book.bids := by
    intro book h
    obtain rfl := Option.some.inj h
    exact ⟨by decide +kernel, by decide +kernel⟩
  rcases paper_sell_sound hrow rfl rfl hbook with ⟨skip, hskip, hfilled, -⟩ | ⟨exc, hexc, -⟩ |
    ⟨book, best, price, qty, fee, f, hfound, hbest, hsold⟩
  · have hsells : (match (paperSell (Db.empty.opened sampleOpen) sweptCall).result with
        | .ok r => r.filled
        | .error _ => false) = true := by decide +kernel
    rw [hskip] at hsells
    exact absurd (hfilled.symm.trans hsells) (by simp)
  · cases hexc
  · obtain rfl := Option.some.inj hfound
    obtain rfl := Option.some.inj hbest
    have hswept : sweptLevels [(2 / 5, 4), (3 / 10, 8)] sweptCall.floorPrice (2 / 5) =
        [(2 / 5, 4), (3 / 10, 8)] := by decide +kernel
    rw [show (⟨"t1", 0, [(2 / 5, 4), (3 / 10, 8)], []⟩ : OrderBook).bids =
      [(2 / 5, 4), (3 / 10, 8)] from rfl] at hsold
    exact ⟨price, qty, fee, f, hswept ▸ hsold⟩

end OpenPoly
