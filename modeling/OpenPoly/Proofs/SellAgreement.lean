import OpenPoly.Lib.Matching
import OpenPoly.Proofs.Booked

/-! Paper and live sells of one position on one book, where the venue matches the
live order best first and cancels what is left of it: when the two sell the same
up to the two decimals of a size. -/

namespace OpenPoly

open Matching Largest

def PaperSellCall.sold (c : PaperSellCall) : ℚ :=
  match paperSellFill c with
  | .ok a => a.soldQty
  | .error _ => 0

def SellCall.sold (c : SellCall) : ℚ :=
  match c.placement with
  | .error _ => 0
  | .ok p =>
    match orderFill p c.venue (some (c.estimate p.order.price)) with
    | .ok (.ok fill) => fill.qty
    | _ => 0

/-- The executions of a SELL on these bids: best first, at prices down to its limit. -/
def OrderArgs.sellsInto (order : OrderArgs) (bids : List Level) : List Level :=
  takeBest (bids.filter fun l => order.price ≤ l.1) order.size

/-- The venue matches a SELL against these bids, says so, and cancels the rest. -/
structure Matches (bids : List Level) (order : OrderArgs) (v : VenueAnswers) : Prop where
  posted : ∃ resp orderId, v.post = .ok (.obj resp) ∧ orderWasRejected resp = false ∧
    (postBody resp .sell).orderId = some orderId ∧
    (postBody resp .sell).shares = some (volume (order.sellsInto bids)) ∧
    cancelAcked orderId (v.rounds 0).cancel = true
  read : readOrder v.final = some (some (volume (order.sellsInto bids)), .str "CANCELED")

/-- The loop ends on a cancel acknowledged at once. -/
theorem seen_acked {a : SettleAnswers} {orderId : String} {size : ℚ}
    (h : cancelAcked orderId (a.rounds 0).cancel = true) : a.seen orderId size = [a.rounds 0] := by
  have hrange : (List.range settleAttempts).map a.rounds =
      a.rounds 0 :: ((List.range (settleAttempts - 1)).map Nat.succ).map a.rounds := by
    rw [settleAttempts, List.range_succ_eq_map]
    rfl
  have hends : (a.rounds 0).ends orderId size = true := by
    simp [Round.ends, Round.acks, h]
  rw [SettleAnswers.seen, hrange, visited, if_pos hends]

theorem settleAnswered_cancelled {resp : Dict} {side : FillAction} {size m : ℚ} {orderId : String}
    {a : SettleAnswers} (hm : 0 ≤ m ∧ m ≤ size)
    (hid : (postBody resp side).orderId = some orderId)
    (hshares : (postBody resp side).shares = some m)
    (hack : cancelAcked orderId (a.rounds 0).cancel = true)
    (hread : readOrder a.final = some (some m, .str "CANCELED")) :
    (settleAnswered resp side size a).1 = some m := by
  set body := postBody resp side with hbody
  have hplaus : plausibleQty (some m) size = some m :=
    plausibleQty_eq_some.mpr ⟨rfl, hm.1, by linarith [fillTol_pos, hm.2]⟩
  have hrep : body.reported size = m := by
    rw [OrderResponse.reported, hshares, hplaus, Option.getD_some]
  cases hcov : body.covers size with
  | true => rw [settleAnswered_covers a hcov, ← hbody, hrep]
  | false =>
    have hreadings : readings orderId (a.seen orderId size) = [] := by
      simp [seen_acked hack, readings, Round.acks, hack]
    have hreads : readsOf body size a = [(some m, .str "CANCELED")] := by
      simp [readsOf, hid, SettleAnswers.reads, hreadings, SettleAnswers.finalReading, hread]
    have hterminal : Reading.terminal size (some m, .str "CANCELED") = true := by
      have hdone : orderDone (.str "CANCELED") = true := by decide
      simp [Reading.terminal, readTerminal, hdone]
    have hcounts : finalCounts size (readsOf body size a) = [m] := by
      simp [hreads, finalCounts, hterminal, Reading.count, hplaus]
    have hknown : knownOff body size a = true := @knownOff_of_count body size a m (by rw [hcounts]; rfl)
    have hconcluded := (concluded_settleAnswered a (hm.1.trans hm.2)).mpr
      (show blankRefusal (postBody resp side) size a = false by simp [blankRefusal, ← hbody, hknown])
    rw [← hbody, Concluded, if_neg (by simp [hcov]), hcounts] at hconcluded
    obtain ⟨q, hq, hmem, -⟩ := hconcluded
    rw [hq]
    -- the only lasting bound there can be is the body's own count
    have hbounds : ∀ b ∈ lastingBounds body size a, b = m := by
      intro b hb
      rcases List.mem_append.mp hb with hb | hb
      · split_ifs at hb
        · unfold OrderResponse.cross at hb
          split_ifs at hb
          · rw [List.mem_singleton.mp hb, hrep]
          · simp at hb
        · simp at hb
      · simp [hreads, readBounds, hterminal] at hb
    rcases List.mem_cons.mp hmem with rfl | hmem
    · rfl
    · rw [hbounds q hmem]

theorem orderFill_matched {bids : List Level} {p : Placement} {v : VenueAnswers}
    {estimatePrice : Option (ℚ → ℚ)} (hside : p.order.side = .sell) (hsize : 0 ≤ p.order.size)
    (hpos : ∀ l ∈ bids, 0 < l.2) (h : Matches bids p.order v) :
    (match orderFill p v estimatePrice with
      | .ok (.ok fill) => fill.qty
      | _ => 0) = volume (p.order.sellsInto bids) := by
  obtain ⟨resp, orderId, hpost, hrej, hid, hshares, hack⟩ := h.posted
  have hlevels : ∀ l ∈ bids.filter (fun l => p.order.price ≤ l.1), 0 < l.2 :=
    fun l hl => hpos l (List.mem_of_mem_filter hl)
  have hm : 0 ≤ volume (p.order.sellsInto bids) ∧ volume (p.order.sellsInto bids) ≤ p.order.size := by
    rw [OrderArgs.sellsInto, volume_takeBest hlevels hsize]
    exact ⟨le_min hsize (volume_nonneg hlevels), min_le_left _ _⟩
  have hsettled := @settleAnswered_cancelled resp .sell p.order.size _ orderId
    ⟨v.rounds, v.final, confirmLostOrderQty p.order.side p.preRaw v.after⟩ hm hid hshares hack h.read
  have hresp : postOrder v.post = .ok resp := by rw [hpost]; rfl
  unfold orderFill
  rw [hresp]
  simp only [hrej, Bool.false_eq_true, if_false, hside]
  rw [hside] at hsettled
  cases hf : resolveFill resp .sell p.order.size p.order.price
      ⟨v.rounds, v.final, confirmLostOrderQty .sell p.preRaw v.after⟩ estimatePrice with
  | ok fill =>
    obtain ⟨hqty, -, -⟩ := resolveFill_ok hf
    exact Option.some.inj (hqty.symm.trans hsettled)
  | error skip =>
    -- nothing was booked, so nothing was matched
    unfold resolveFill resolveFillIn at hf
    simp only at hf
    rw [hsettled] at hf
    by_contra hne
    rw [if_neg (by simpa using Ne.symm hne)] at hf
    cases hf

def bidDepth (bids : List Level) (price : ℚ) : ℚ := volume (bids.filter fun l => price ≤ l.1)

theorem bidDepth_nonneg {bids : List Level} (hpos : ∀ l ∈ bids, 0 < l.2) (price : ℚ) :
    0 ≤ bidDepth bids price :=
  volume_nonneg fun l hl => hpos l (List.mem_of_mem_filter hl)

/-- A lower price reaches at least as many shares. -/
theorem bidDepth_anti {bids : List Level} (hpos : ∀ l ∈ bids, 0 < l.2) {price price' : ℚ}
    (hle : price ≤ price') : bidDepth bids price' ≤ bidDepth bids price := by
  unfold bidDepth
  induction bids with
  | nil => exact le_rfl
  | cons l bids ih =>
    have hrest := ih fun l hl => hpos l (List.mem_cons_of_mem _ hl)
    have hl : 0 < l.2 := hpos l List.mem_cons_self
    by_cases h' : price' ≤ l.1
    · simpa [List.filter_cons, h', hle.trans h'] using hrest
    · by_cases h : price ≤ l.1
      · simp only [List.filter_cons, h', h, decide_true, decide_false, if_true, Bool.false_eq_true,
          if_false, volume_cons]
        linarith
      · simpa [List.filter_cons, h', h] using hrest

def floorOn (bids : List Level) (floorPrice : Option ℚ) : ℚ :=
  sellFloor floorPrice ((bids.head?.map Prod.fst).getD 0)

def limitOn (bids : List Level) (market : Market) (floorPrice : Option ℚ) : ℚ :=
  max (floorOn bids floorPrice) (marketTick market)

/-- Every bid the paper sell sweeps is a price the venue takes. -/
def SweepInBand (bids : List Level) (floorPrice : Option ℚ) : Prop :=
  ∀ l ∈ bids, floorOn bids floorPrice ≤ l.1 → inPriceBand (some l.1) = true

instance (bids : List Level) (floorPrice : Option ℚ) : Decidable (SweepInBand bids floorPrice) :=
  inferInstanceAs (Decidable (∀ l ∈ bids, floorOn bids floorPrice ≤ l.1 →
    inPriceBand (some l.1) = true))

theorem paper_sold_eq {c : PaperSellCall} {book : OrderBook}
    (hgone : c.gone c.position.tokenId = false)
    (hb : c.catalog.books c.position.tokenId = some book)
    (husable : c.usable c.position.tokenId = true) :
    c.sold = if SweepInBand book.bids c.floorPrice then
      quantizeSize (min c.position.qty (bidDepth book.bids (floorOn book.bids c.floorPrice))) 1
    else 0 := by
  unfold PaperSellCall.sold paperSellFill
  simp only [hgone, hb, husable, Bool.false_eq_true, if_false, Bool.not_true]
  cases hbids : book.bids with
  | nil =>
    have hdust : quantizeSize (min c.position.qty 0) 1 = 0 :=
      quantizeSize_dust (lt_of_le_of_lt (min_le_right _ _) one_pos) _
    simp [bidDepth, hdust]
  | cons level rest =>
    obtain ⟨best, size⟩ := level
    have hfloor : floorOn ((best, size) :: rest) c.floorPrice = sellFloor c.floorPrice best := rfl
    have hband : (((best, size) :: rest).filter fun l =>
        decide (sellFloor c.floorPrice best ≤ l.1)).all (fun l => inPriceBand (some l.1)) = true ↔
        SweepInBand ((best, size) :: rest) c.floorPrice := by
      unfold SweepInBand
      rw [hfloor, List.all_eq_true]
      constructor
      · intro h l hl hle
        exact h l (List.mem_filter.mpr ⟨hl, by simpa using hle⟩)
      · intro h l hl
        obtain ⟨hl, hle⟩ := List.mem_filter.mp hl
        exact h l hl (by simpa using hle)
    dsimp only
    by_cases hsweep : SweepInBand ((best, size) :: rest) c.floorPrice
    · rw [if_pos hsweep, hband.mpr hsweep, hfloor]
      simp only [Bool.not_true, Bool.false_eq_true, if_false]
      -- the size does not depend on the price it is asked for
      change (match (if quantizeSize (min c.position.qty (bidDepth ((best, size) :: rest)
          (sellFloor c.floorPrice best))) 1 ≤ 0 then _ else _ : Except ExecResult SellArgs) with
        | .ok a => a.soldQty
        | .error _ => 0) = _
      by_cases h0 : quantizeSize (min c.position.qty (bidDepth ((best, size) :: rest)
          (sellFloor c.floorPrice best))) 1 ≤ 0
      · rw [if_pos h0, le_antisymm h0 (quantizeSize_nonneg _ _)]
        by_cases hdust : quantizeSize c.position.qty best ≤ 0
        · rw [if_pos hdust]
        · rw [if_neg hdust]
      · rw [if_neg h0]
        rfl
    · have hnot := mt hband.mp hsweep
      rw [if_neg hsweep, Bool.eq_false_iff.mpr hnot]
      rfl

theorem sellLimit_eq (market : Market) (bid : ℚ) (floorPrice : Option ℚ) :
    sellLimit market bid floorPrice = max (sellFloor floorPrice bid) (marketTick market) := by
  unfold sellLimit sellFloor
  cases floorPrice with
  | none => rfl
  | some floor =>
    dsimp only
    rcases lt_or_ge floor bid with h | h
    · rw [if_pos h, min_eq_left h.le]
    · rw [if_neg (not_lt.mpr h), min_eq_right h]

theorem live_sold_none {c : SellCall} (hm : c.catalog.markets c.position.marketId = none) :
    c.sold = 0 := by
  unfold SellCall.sold SellCall.placement sellPlacement
  rw [hm]

/-- The order a live sell places: the size does not depend on the price it is
asked for. -/
theorem placement_eq {c : SellCall} {market : Market} {best : ℚ}
    (hm : c.catalog.markets c.position.marketId = some market)
    (hbest : (c.catalog.books c.position.tokenId).bind OrderBook.bestBid = some best) :
    c.placement =
      if !inPriceBand (some (sellLimit market best c.floorPrice)) then .error (.skip .priceOutOfBand)
      else if quantizeSize c.position.qty 1 ≤ 0 then .error (.skip .dustRemainder)
      else
        match ctfSynced ⌊quantizeSize c.position.qty 1 * 10 ^ ctfDecimals⌋ c.venue.before with
        | none => .error (.skip .ctfCacheNotSynced)
        | some preRaw => .ok ⟨⟨c.position.tokenId, sellLimit market best c.floorPrice,
            quantizeSize c.position.qty 1, .sell, market.negRisk⟩, market.conditionId, preRaw⟩ := by
  unfold SellCall.placement sellPlacement
  simp only [hm, hbest]
  rfl

theorem live_sold_eq {c : SellCall} {market : Market} {book : OrderBook}
    (hm : c.catalog.markets c.position.marketId = some market)
    (hb : c.catalog.books c.position.tokenId = some book) (hpos : ∀ l ∈ book.bids, 0 < l.2)
    (hsync : ctfSynced ⌊quantizeSize c.position.qty 1 * 10 ^ ctfDecimals⌋ c.venue.before ≠ none)
    (hvenue : ∀ p, c.placement = .ok p → Matches book.bids p.order c.venue) :
    c.sold = if inPriceBand (some (limitOn book.bids market c.floorPrice)) then
      min (quantizeSize c.position.qty 1) (bidDepth book.bids (limitOn book.bids market c.floorPrice))
    else 0 := by
  have hsize := quantizeSize_nonneg c.position.qty 1
  cases hbids : book.bids with
  | nil =>
    have hzero : c.sold = 0 := by
      unfold SellCall.sold SellCall.placement sellPlacement
      simp [hm, hb, OrderBook.bestBid, hbids]
    rw [hzero]
    split_ifs
    · simp [bidDepth, hsize]
    · rfl
  | cons level rest =>
    obtain ⟨best, size⟩ := level
    have hbest : (c.catalog.books c.position.tokenId).bind OrderBook.bestBid = some best := by
      simp [hb, OrderBook.bestBid, hbids]
    have hlimit : sellLimit market best c.floorPrice =
        limitOn ((best, size) :: rest) market c.floorPrice := sellLimit_eq _ _ _
    set limit := limitOn ((best, size) :: rest) market c.floorPrice with hlim
    have hplace := placement_eq hm hbest
    rw [hlimit] at hplace
    by_cases hband : inPriceBand (some limit) = true
    · rw [if_pos hband]
      by_cases hdust : quantizeSize c.position.qty 1 ≤ 0
      · rw [le_antisymm hdust hsize, min_eq_left (bidDepth_nonneg (hbids ▸ hpos) _)]
        unfold SellCall.sold
        rw [hplace]
        simp [hband, hdust]
      · obtain ⟨preRaw, hraw⟩ := Option.ne_none_iff_exists'.mp hsync
        rw [hraw] at hplace
        simp only [hband, Bool.not_true, Bool.false_eq_true, if_false, hdust] at hplace
        obtain ⟨p, hp, hside, hplaced, hprice⟩ : ∃ p, c.placement = .ok p ∧ p.order.side = .sell ∧
            p.order.size = quantizeSize c.position.qty 1 ∧ p.order.price = limit :=
          ⟨_, hplace, rfl, rfl, rfl⟩
        have hpsize : 0 ≤ p.order.size := hplaced ▸ hsize
        unfold SellCall.sold
        rw [hp]
        dsimp only
        rw [orderFill_matched hside hpsize hpos (hvenue p hp), OrderArgs.sellsInto, hbids,
          volume_takeBest _ hpsize, hplaced, hprice]
        · rfl
        · exact fun l hl => hpos l (hbids ▸ List.mem_of_mem_filter hl)
    · rw [if_neg hband]
      unfold SellCall.sold
      rw [hplace, if_pos (by simpa using hband)]

/-- Neither sells, or both do, the same up to the two decimals of a size. -/
structure SellsAgree (paper live : ℚ) : Prop where
  both : live ≠ 0 ↔ paper ≠ 0
  close : |live - paper| < 1 / 100

/-- The paper sell finds a share to sell, at prices the venue takes. -/
def PaperReaches (bids : List Level) (floorPrice : Option ℚ) : Prop :=
  SweepInBand bids floorPrice ∧ 1 ≤ bidDepth bids (floorOn bids floorPrice)

/-- The live sell of a catalogued market finds a bid at its limit, a price the
venue takes. -/
def LiveReaches (bids : List Level) (market : Option Market) (floorPrice : Option ℚ) : Prop :=
  ∃ m, market = some m ∧ inPriceBand (some (limitOn bids m floorPrice)) = true ∧
    0 < bidDepth bids (limitOn bids m floorPrice)

/-- Nothing to place, neither finds anything, or both do and the bids the floor
reaches below one tick hold no hundredth of a share the paper sell would take. -/
def SellsMeet (qty : ℚ) (bids : List Level) (market : Option Market) (floorPrice : Option ℚ) : Prop :=
  qty < 1 ∨ (¬ PaperReaches bids floorPrice ∧ ¬ LiveReaches bids market floorPrice) ∨
    (PaperReaches bids floorPrice ∧ LiveReaches bids market floorPrice ∧
      ∀ m, market = some m →
        quantizeSize (min qty (bidDepth bids (floorOn bids floorPrice))) 1 <
          bidDepth bids (limitOn bids m floorPrice) + 1 / 100)

/-- The two quantities, on bids of which the live limit reaches at most what the
floor does. -/
theorem sold_close {qty depth reached : ℚ} (hdepth : 1 ≤ depth)
    (hle : reached ≤ depth) :
    |min (quantizeSize qty 1) reached - quantizeSize (min qty depth) 1| < 1 / 100 ↔
      quantizeSize (min qty depth) 1 < reached + 1 / 100 := by
  rw [abs_lt]
  constructor
  · rintro ⟨hlo, -⟩
    linarith [min_le_right (quantizeSize qty 1) reached]
  · intro h
    constructor
    · rcases min_cases (quantizeSize qty 1) reached with ⟨heq, -⟩ | ⟨heq, -⟩
      · have := quantizeSize_mono (min_le_left qty depth) 1 1
        rw [heq]
        linarith
      · rw [heq]
        linarith
    · rcases min_cases qty depth with ⟨heq, -⟩ | ⟨heq, -⟩
      · rw [heq]
        linarith [min_le_left (quantizeSize qty 1) reached]
      · rw [heq]
        linarith [lt_quantizeSize_add hdepth 1, min_le_right (quantizeSize qty 1) reached]

theorem sells_agree_iff {qty : ℚ} {bids : List Level} {market : Option Market}
    {floorPrice : Option ℚ} {paper live : ℚ} (hpos : ∀ l ∈ bids, 0 < l.2)
    (hpaper : paper = if SweepInBand bids floorPrice then
      quantizeSize (min qty (bidDepth bids (floorOn bids floorPrice))) 1 else 0)
    (hnone : market = none → live = 0)
    (hlive : ∀ m, market = some m → live = if inPriceBand (some (limitOn bids m floorPrice)) then
      min (quantizeSize qty 1) (bidDepth bids (limitOn bids m floorPrice)) else 0) :
    SellsAgree paper live ↔ SellsMeet qty bids market floorPrice := by
  rcases lt_or_ge qty 1 with hdust | hqty
  · -- neither places anything
    have hp : paper = 0 := by
      rw [hpaper, quantizeSize_dust (lt_of_le_of_lt (min_le_left _ _) hdust), ite_self]
    have hl : live = 0 := by
      cases hm : market with
      | none => exact hnone hm
      | some m =>
        rw [hlive m hm, quantizeSize_dust hdust, min_eq_left (bidDepth_nonneg hpos _), ite_self]
    rw [hp, hl]
    exact ⟨fun _ => .inl hdust, fun _ => ⟨Iff.rfl, by norm_num⟩⟩
  have hp : paper ≠ 0 ↔ PaperReaches bids floorPrice := by
    rw [hpaper, PaperReaches]
    split_ifs with hs
    · have hq := quantizeSize_nonneg (min qty (bidDepth bids (floorOn bids floorPrice))) 1
      rw [← hq.lt_iff_ne', quantizeSize_pos_iff, le_min_iff]
      exact ⟨fun h => ⟨hs, h.2⟩, fun h => ⟨hqty, h.2⟩⟩
    · exact ⟨fun h => absurd rfl h, fun h => absurd h.1 hs⟩
  have hl : live ≠ 0 ↔ LiveReaches bids market floorPrice := by
    cases hm : market with
    | none =>
      rw [hnone hm]
      refine ⟨fun h => absurd rfl h, ?_⟩
      rintro ⟨m, h, -⟩
      cases h
    | some m =>
      rw [hlive m hm]
      unfold LiveReaches
      simp only [Option.some.injEq, exists_eq_left']
      split_ifs with hband
      · have hsize : 0 < quantizeSize qty 1 := (quantizeSize_pos_iff _ _).mpr hqty
        have hd := bidDepth_nonneg hpos (limitOn bids m floorPrice)
        rw [← (le_min hsize.le hd).lt_iff_ne', lt_min_iff]
        exact ⟨fun h => ⟨hband, h.2⟩, fun h => ⟨hsize, h.2⟩⟩
      · exact ⟨fun h => absurd rfl h, fun h => absurd h.1 hband⟩
  have hclose : ∀ m, market = some m → PaperReaches bids floorPrice →
      LiveReaches bids market floorPrice → (|live - paper| < 1 / 100 ↔
        quantizeSize (min qty (bidDepth bids (floorOn bids floorPrice))) 1 <
          bidDepth bids (limitOn bids m floorPrice) + 1 / 100) := by
    rintro m hm hpr ⟨m', hm', hband, -⟩
    obtain rfl : m = m' := Option.some.inj (hm.symm.trans hm')
    rw [hlive m hm, if_pos hband, hpaper, if_pos hpr.1]
    exact sold_close hpr.2 (bidDepth_anti hpos (le_max_left _ _))
  constructor
  · intro h
    by_cases hreach : PaperReaches bids floorPrice
    · have hlr := hl.mp (h.both.mpr (hp.mpr hreach))
      exact .inr (.inr ⟨hreach, hlr, fun m hm => (hclose m hm hreach hlr).mp h.close⟩)
    · exact .inr (.inl ⟨hreach, fun hlr => hreach (hp.mp (h.both.mp (hl.mpr hlr)))⟩)
  · rintro (h | ⟨hnp, hnl⟩ | ⟨hpr, hlr, h⟩)
    · exact absurd h (not_lt.mpr hqty)
    · have hp0 : paper = 0 := not_not.mp (mt hp.mp hnp)
      have hl0 : live = 0 := not_not.mp (mt hl.mp hnl)
      rw [hp0, hl0]
      exact ⟨Iff.rfl, by norm_num⟩
    · refine ⟨by rw [hl, hp]; exact ⟨fun _ => hpr, fun _ => hlr⟩, ?_⟩
      obtain ⟨m, hm, -⟩ := id hlr
      exact (hclose m hm hpr hlr).mpr (h m hm)

/-- A paper and a live sell of one position on one usable book, with the balance
synced and a venue that matches best first and cancels the rest. -/
structure SameSell (paper : PaperSellCall) (live : SellCall) (book : OrderBook) : Prop where
  catalog : live.catalog = paper.catalog
  position : live.position = paper.position
  floorPrice : live.floorPrice = paper.floorPrice
  kept : paper.gone paper.position.tokenId = false
  usable : paper.usable paper.position.tokenId = true
  cached : paper.catalog.books paper.position.tokenId = some book
  wellFormed : book.WellFormed
  synced : ctfSynced ⌊quantizeSize live.position.qty 1 * 10 ^ ctfDecimals⌋ live.venue.before ≠ none
  venue : ∀ p, live.placement = .ok p → Matches book.bids p.order live.venue

/-- The two sell the same exactly where `SellsMeet` holds of the position's
quantity, the bids, the market and the floor. -/
theorem paper_live_sells_agree_iff {paper : PaperSellCall} {live : SellCall} {book : OrderBook}
    (h : SameSell paper live book) :
    SellsAgree paper.sold live.sold ↔ SellsMeet paper.position.qty book.bids
      (paper.catalog.markets paper.position.marketId) paper.floorPrice := by
  have hpos : ∀ l ∈ book.bids, 0 < l.2 :=
    fun l hl => h.wellFormed.size l (List.mem_append_left _ hl)
  refine sells_agree_iff hpos (paper_sold_eq h.kept h.cached h.usable) (fun hm => ?_)
    (fun m hm => ?_)
  · exact live_sold_none (by rw [h.catalog, h.position]; exact hm)
  · have hlive := live_sold_eq (by rw [h.catalog, h.position]; exact hm)
      (by rw [h.catalog, h.position]; exact h.cached) hpos h.synced h.venue
    rwa [h.floorPrice, h.position] at hlive

def heldShares : HeldPosition where
  positionId := 1
  marketId := "m1"
  side := .yes
  tokenId := "t1"
  conditionId := "0xc1"
  qty := 100
  avgEntryPrice := 1 / 2
  openedAt := 0

def bidMarket : Market where
  marketId := "m1"
  conditionId := "0xc1"
  yesTokenId := "t1"
  noTokenId := none

/-- A catalog with this book for the position; its market may be missing. -/
def bidCatalog (market : Option Market) (bids : List Level) : Catalog where
  markets _ := market
  books _ := some ⟨"t1", 1, bids, []⟩

def paperExit (market : Option Market) (bids : List Level) (floorPrice : Option ℚ) :
    PaperSellCall where
  catalog := bidCatalog market bids
  gone _ := false
  usable _ := true
  position := heldShares
  closeReason := .stopLoss
  ts := 2
  floorPrice := floorPrice

/-- A venue that reports this much matched, and the rest cancelled. -/
def reports (matched : ℚ) : VenueAnswers where
  before _ := .ok (.obj [("balance", .int 100000000)])
  post := .ok (.obj [("success", .bool true), ("orderID", .str "0xb1"),
    ("makingAmount", .float (.fin matched)), ("takingAmount", .float (.fin (matched / 2)))])
  rounds _ := ⟨.ok (.obj [("canceled", .arr [.str "0xb1"])]), .ok .null, true⟩
  final := .ok (.obj [("status", .str "CANCELED"), ("size_matched", .float (.fin matched))])
  after _ := .ok .null

def liveExit (market : Option Market) (bids : List Level) (floorPrice : Option ℚ) (matched : ℚ) :
    SellCall where
  catalog := bidCatalog market bids
  position := heldShares
  closeReason := .stopLoss
  ts := 2
  floorPrice := floorPrice
  venue := reports matched

theorem matches_reports {bids : List Level} {order : OrderArgs} {matched : ℚ}
    (h : volume (order.sellsInto bids) = matched) : Matches bids order (reports matched) where
  posted := ⟨_, "0xb1", rfl, rfl, rfl, by rw [h]; rfl, rfl⟩
  read := by rw [h]; rfl

theorem sameSell_exit {market : Option Market} {bids : List Level} {floorPrice : Option ℚ}
    {matched : ℚ} (hwf : (⟨"t1", 1, bids, []⟩ : OrderBook).WellFormed)
    (hvol : (liveExit market bids floorPrice matched).placement.toOption.all
      (fun p => volume (p.order.sellsInto bids) = matched) = true) :
    SameSell (paperExit market bids floorPrice) (liveExit market bids floorPrice matched)
      ⟨"t1", 1, bids, []⟩ where
  catalog := rfl
  position := rfl
  floorPrice := rfl
  kept := rfl
  usable := rfl
  cached := rfl
  wellFormed := hwf
  synced := by
    have hsize : ⌊quantizeSize heldShares.qty 1 * 10 ^ ctfDecimals⌋ = 100000000 := by decide +kernel
    show ctfSynced ⌊quantizeSize heldShares.qty 1 * 10 ^ ctfDecimals⌋ _ ≠ none
    rw [hsize]
    exact (by decide +kernel : ctfSynced 100000000 (reports 0).before ≠ none)
  venue p hp := by
    rw [hp] at hvol
    exact matches_reports (by simpa [Except.toOption] using hvol)

/-- One level. -/
theorem oneBid_wellFormed {price size : ℚ} (hprice : 0 < price ∧ price < 1) (hsize : 0 < size) :
    (⟨"t1", 1, [(price, size)], []⟩ : OrderBook).WellFormed := by
  constructor <;> simp [hprice, hsize]

/-- Two levels at or above a floor of 0.49. -/
def deepBids : List Level := [(1 / 2, 60), (49 / 100, 50)]

theorem deepBids_wellFormed : (⟨"t1", 1, deepBids, []⟩ : OrderBook).WellFormed := by
  constructor
  · norm_num [deepBids]
  · simp
  · norm_num [deepBids]
  · norm_num [deepBids]

theorem paper_live_sells_agree_iff_sample :
    (paperExit (some bidMarket) deepBids (some (49 / 100))).sold = 100 ∧
    SellsAgree (paperExit (some bidMarket) deepBids (some (49 / 100))).sold
      (liveExit (some bidMarket) deepBids (some (49 / 100)) 100).sold := by
  have hsame : SameSell (paperExit (some bidMarket) deepBids (some (49 / 100)))
      (liveExit (some bidMarket) deepBids (some (49 / 100)) 100) ⟨"t1", 1, deepBids, []⟩ :=
    sameSell_exit deepBids_wellFormed (by decide +kernel)
  refine ⟨by decide +kernel, (paper_live_sells_agree_iff hsame).mpr ?_⟩
  refine .inr (.inr ⟨⟨by decide +kernel, by decide +kernel⟩,
    ⟨bidMarket, rfl, by decide +kernel, by decide +kernel⟩, fun m hm => ?_⟩)
  obtain rfl := Option.some.inj hm
  decide +kernel

theorem SellsAgree.not {paper live : ℚ} (h : (live = 0 ∧ paper ≠ 0) ∨ (live ≠ 0 ∧ paper = 0)) :
    ¬ SellsAgree paper live := by
  rintro ⟨hboth, -⟩
  tauto

/-- The two sells disagree although they are of one position on one book. -/
def SellsPart (paper : PaperSellCall) (live : SellCall) (book : OrderBook) : Prop :=
  SameSell paper live book ∧ ¬ SellsAgree paper.sold live.sold

/-- Paper sells the 100 shares into a bid of half a cent, which the live limit of
one tick does not reach; into a bid for half a share, only live sells; with the
market out of the catalog only paper does. -/
theorem sells_part :
    SellsPart (paperExit (some bidMarket) [(1 / 200, 1000)] none)
      (liveExit (some bidMarket) [(1 / 200, 1000)] none 0) ⟨"t1", 1, [(1 / 200, 1000)], []⟩ ∧
    SellsPart (paperExit (some bidMarket) [(1 / 2, 1 / 2)] none)
      (liveExit (some bidMarket) [(1 / 2, 1 / 2)] none (1 / 2)) ⟨"t1", 1, [(1 / 2, 1 / 2)], []⟩ ∧
    SellsPart (paperExit none deepBids none) (liveExit none deepBids none 0)
      ⟨"t1", 1, deepBids, []⟩ := by
  refine ⟨⟨sameSell_exit (oneBid_wellFormed (by norm_num) (by norm_num)) (by decide +kernel), ?_⟩,
    ⟨sameSell_exit (oneBid_wellFormed (by norm_num) (by norm_num)) (by decide +kernel), ?_⟩,
    ⟨sameSell_exit deepBids_wellFormed (by decide +kernel), ?_⟩⟩
  · exact SellsAgree.not (.inl ⟨by decide +kernel, by decide +kernel⟩)
  · exact SellsAgree.not (.inr ⟨by decide +kernel, by decide +kernel⟩)
  · exact SellsAgree.not (.inl ⟨by decide +kernel, by decide +kernel⟩)

end OpenPoly
