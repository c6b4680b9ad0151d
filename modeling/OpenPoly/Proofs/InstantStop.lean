import Mathlib.Tactic.Linarith
import OpenPoly.Proofs.EntryV1
import OpenPoly.Proofs.ExitSlot
import OpenPoly.Proofs.ThinStreak

/-! No instant stop-out: the mark of a book is no lower than the bid entry v1 took
its spread to, so on the very book a position was entered on neither stop of
exit v1 is reached. -/

namespace OpenPoly

open Results

/-- The best level comes first, on either side. -/
structure OrderBook.BestFirst (book : OrderBook) : Prop where
  bids : book.bids.Pairwise fun l l' => l'.1 ≤ l.1
  asks : book.asks.Pairwise fun l l' => l.1 ≤ l'.1

/-- A guarded mark is the first level of real size: the guard only stops short. -/
theorem guardedFrom_first {best minSize price : ℚ} {levels : List Level} {n : ℕ}
    (h : guardedFrom best minSize (levels.take n) = some price) :
    firstLevelWithSize levels minSize = some price := by
  induction levels generalizing n with
  | nil => simp [guardedFrom] at h
  | cons level levels ih =>
    cases n with
    | zero => simp [guardedFrom] at h
    | succ n =>
      rw [List.take_succ_cons, guardedFrom] at h
      split_ifs at h with hgap hsize
      · simpa [firstLevelWithSize, hsize] using h
      · have hrest := ih h
        unfold firstLevelWithSize at hrest ⊢
        rwa [List.find?_cons_of_neg (by simpa using hsize)]

theorem guardedMark_first {bids : List Level} {price : ℚ} (h : guardedMark bids = some price) :
    firstLevelWithSize bids = some price := by
  cases bids with
  | nil => simp [guardedMark] at h
  | cons level bids => exact guardedFrom_first h

/-- No mark is below the bid entry v1 takes its spread to. -/
theorem mark_ge_bid {exit : ExitSection} {book : OrderBook} {price bid : ℚ} {thin : Bool}
    (h : exit.mark book = some (price, thin)) (hbook : book.BestFirst)
    (hbid : firstLevelWithSize book.bids = some bid) : bid ≤ price := by
  rcases mark_eq h with ⟨-, hmark⟩ | ⟨-, -, -, hbest⟩
  · rw [guardedMark_first hmark] at hbid
    exact (Option.some.inj hbid).ge
  · unfold firstLevelWithSize at hbid
    obtain ⟨level, hlevel, rfl⟩ := Option.map_eq_some_iff.mp hbid
    have hmem := List.mem_of_find?_eq_some hlevel
    have hsorted := hbook.bids
    cases hbids : book.bids with
    | nil => simp [hbids] at hmem
    | cons first rest =>
      rw [hbids] at hmem hsorted
      obtain rfl : first.1 = price := by simpa [OrderBook.bestBid, hbids] using hbest
      rcases List.mem_cons.mp hmem with rfl | hrest
      · exact le_rfl
      · exact (List.pairwise_cons.mp hsorted).1 _ hrest

/-- A stop-loss on a thin mark has the bid at the hard stop. -/
theorem thinMarkDecision_closes {config : ThresholdExitConfigV1} {pos : MarkedPosition}
    {intent : CloseIntent} (h : (thinMarkDecision config pos).payload = some intent) :
    pos.returnPct ≤ -config.hardStopLossPct := by
  unfold thinMarkDecision at h
  by_contra hlt
  simp [not_le.mp hlt] at h

theorem maxHoldDecision_closes {config : ThresholdExitConfigV1} {pos : MarkedPosition}
    {out : ExitOutput} {intent : CloseIntent} (hout : out.payload = none)
    (h : (maxHoldDecision config pos out).payload = some intent) : intent.trigger = .maxHold := by
  unfold maxHoldDecision at h
  split at h
  · simp [hout] at h
  · split_ifs at h
    · simp [hout] at h
    · cases h
      rfl

/-- The price rules fire a stop-loss on the stop return or on the bid's. -/
theorem exitSteps_stop {config : ThresholdExitConfigV1} {pos : MarkedPosition}
    {intent : CloseIntent}
    (h : ((exitStepsV1 config).run config.toThresholdExitConfig (some pos)).payload = some intent)
    (hstop : intent.trigger = .stopLoss) :
    stopReturnPct pos ≤ -config.stopLossPct ∨ pos.returnPct ≤ -config.hardStopLossPct := by
  unfold ExitSteps.run at h
  dsimp only at h
  split_ifs at h
  split at h
  · cases h
  · rename_i trigger htrigger
    cases h
    obtain rfl : trigger = .stopLoss := hstop
    unfold ExitSteps.trigger at htrigger
    split_ifs at htrigger with hfired
    · simpa [exitStepsV1] using hfired
    · cases htrigger
    · cases htrigger

/-- Why v1 fires a stop-loss: the hard stop on the mark, or, where the mark is
not thin, the stop on the mid. -/
theorem exitRunV1_stop {config : ThresholdExitConfigV1} {pos : MarkedPosition}
    {intent : CloseIntent} (h : (exitRunV1 config (some pos)).payload = some intent)
    (hpos : 0 < pos.avgEntryPrice) (hstop : intent.trigger = .stopLoss) :
    pos.returnPct ≤ -config.hardStopLossPct ∨
      (pos.thin = false ∧ stopReturnPct pos ≤ -config.stopLossPct) := by
  unfold exitRunV1 at h
  dsimp only at h
  split_ifs at h with hthin hnone
  · exact .inl (thinMarkDecision_closes h)
  · have hmax := maxHoldDecision_closes (by simpa using hnone) h
    rw [hstop] at hmax
    cases hmax
  · have hthin : pos.thin = false := by simpa [hpos] using hthin
    rcases exitSteps_stop h hstop with hmid | hhard
    · exact .inr ⟨hthin, hmid⟩
    · exact .inl hhard

theorem return_gt {entry price pct stop : ℚ} (hentry : 0 < entry) (h : entry - price ≤ pct * entry)
    (hlt : pct < stop) : -stop < (price - entry) / entry := by
  have hscaled : pct * entry < stop * entry := mul_lt_mul_of_pos_right hlt hentry
  rw [lt_div_iff₀ hentry]
  linarith

/-- Half the spread is all an unmoved book costs at the mid. -/
theorem stopReturn_gt {pos : MarkedPosition} {pct stop : ℚ} (hentry : 0 < pos.avgEntryPrice)
    (hask : pos.ask = some pos.avgEntryPrice)
    (h : pos.avgEntryPrice - pos.currentPrice ≤ pct * pos.avgEntryPrice) (hpct : 0 ≤ pct)
    (hlt : pct / 2 < stop) : -stop < stopReturnPct pos := by
  refine return_gt hentry ?_ hlt
  simp only [stopMark, hask]
  split_ifs with hcrossed
  · linarith
  · have hnonneg : 0 ≤ pct / 2 * pos.avgEntryPrice := by positivity
    linarith

/-- The quote an intent of entry v1 is priced from: the level-1 ask of the side's
book, and its first bid of real size, within the spread. -/
theorem runV1_quote {config : EdgeThresholdConfigV1} {ctx : EntryContext}
    {fresh : Option (List String)} {res : AnalysisResult} {intent : OrderIntent}
    (h : runV1 config ctx fresh res = .ok intent) :
    ∃ market, ∃ quote : Quote, ∃ book, ctx.catalog.markets res.marketId = some market ∧
      market.tokenFor intent.side = some quote.tokenId ∧
      ctx.catalog.books quote.tokenId = some book ∧ 0 < quote.ask ∧ intent.price = quote.ask ∧
      book.asks.head?.map Prod.fst = some quote.ask ∧
      firstLevelWithSize book.bids = some quote.bid ∧
      quote.ask - quote.bid ≤ config.maxSpreadPct * quote.ask := by
  obtain ⟨side, chosen, openCost, quote, hside, -, hquote, hprice, rfl⟩ := EntrySteps.run_ok h
  change chooseSideV1 config ctx.catalog fresh res = _ at hside
  unfold chooseSideV1 at hside
  cases hm : ctx.catalog.markets res.marketId with
  | none => simp [hm] at hside
  | some market =>
    simp only [hm] at hside
    split at hside
    · cases hside
    · rename_i s q hbest
      split at hside
      · cases hside
      · cases hside
        obtain rfl : q = quote := Except.ok.inj hquote
        have hmem := List.argmax_mem (Option.mem_def.mpr hbest)
        obtain ⟨s, -, hs⟩ := List.mem_filterMap.mp hmem
        obtain ⟨q', hq', hpair⟩ := Option.map_eq_some_iff.mp hs
        cases hpair
        have hread : readQuoteV1 ctx.catalog res.marketId side = .ok q := by
          have hok := toOption_eq_some.mp hq'
          unfold sideQuote at hok
          split at hok
          · split_ifs at hok
            exact hok
          · exact hok
        have hread : readQuote ctx.catalog firstLevelWithSize res.marketId side = .ok q := by
          simp only [readQuoteV1, hm] at hread
          split_ifs at hread
          exact hread
        obtain ⟨htoken, hpos, book, hb, hask, hbid⟩ := (readQuote_ok_iff hm rfl).mp hread
        exact ⟨market, q, book, rfl, htoken, hb, hpos, rfl, hask, hbid,
          (priceGatesV1_none hpos hprice).2.2⟩

/-- The evaluation is not on its way to sell for a stop-loss. -/
def Next.Spares : Next → Prop
  | .done _ => True
  | .refetch d _ => ∀ close, d.out.payload = some close → close.trigger ≠ .stopLoss
  | .sell order => order.trigger ≠ .stopLoss

theorem conclude_spares {s : Slot} {held : HeldPosition} {ts : ℚ} {g : Grounds}
    {d : MarkDecision} (h : ∀ close, d.out.payload = some close → close.trigger ≠ .stopLoss) :
    (s.conclude held ts g (some d)).1.Spares := by
  unfold Slot.conclude
  dsimp only
  split
  · split_ifs <;> trivial
  · rename_i close hclose
    split_ifs
    · trivial
    · trivial
    · exact h close hclose

theorem act_spares {s : Slot} {held : HeldPosition} {ts : ℚ} {g : Grounds} {d : MarkDecision}
    (h : ∀ close, d.out.payload = some close → close.trigger ≠ .stopLoss) :
    (s.act held ts g d).1.Spares := by
  unfold Slot.act
  split_ifs
  · trivial
  · exact conclude_spares h

variable {entry : EdgeThresholdConfigV1} {exit : ThresholdExitConfigV1} {ctx : EntryContext}
  {fresh : Option (List String)} {res : AnalysisResult} {intent : OrderIntent} {market : Market}
  {token : String} {book : OrderBook} {held : HeldPosition}

/-- On the book a position was entered on, no decision is a stop-loss. -/
theorem decide_spares (h : runV1 entry ctx fresh res = .ok intent)
    (hm : ctx.catalog.markets res.marketId = some market)
    (ht : market.tokenFor intent.side = some token) (hb : ctx.catalog.books token = some book)
    (hbook : book.BestFirst) (hhard : entry.maxSpreadPct < exit.hardStopLossPct)
    (hstop : entry.maxSpreadPct / 2 < exit.stopLossPct)
    (hheld : held.avgEntryPrice = intent.price) {s s' : Slot} {stamp : Option ℚ} {now : ℚ}
    {d : MarkDecision} (hd : s.decide (.v1 exit) held book stamp now = (some d, s')) :
    ∀ close, d.out.payload = some close → close.trigger ≠ .stopLoss := by
  obtain ⟨market', quote, book', hm', ht', hb', hpos, hprice, hask, hbid, hspread⟩ := runV1_quote h
  obtain rfl : market = market' := Option.some.inj (hm.symm.trans hm')
  obtain rfl : token = quote.tokenId := Option.some.inj (ht.symm.trans ht')
  obtain rfl : book = book' := Option.some.inj (hb.symm.trans hb')
  obtain ⟨price, thin, hmark, hout, -⟩ := decide_some hd
  have hentry : held.avgEntryPrice = quote.ask := hheld.trans hprice
  have hge := mark_ge_bid hmark hbook hbid
  -- whatever mark it is, it costs no more than the spread entry v1 let through
  have hcost : held.avgEntryPrice - price ≤ entry.maxSpreadPct * held.avgEntryPrice := by
    rw [hentry]
    linarith
  intro close hclose htrigger
  rw [hout] at hclose
  rw [← hentry] at hpos
  rcases exitRunV1_stop hclose hpos htrigger with hfired | ⟨hthin, hfired⟩
  · exact absurd hfired (not_le.mpr (return_gt hpos hcost hhard))
  · obtain rfl : thin = false := hthin
    refine absurd hfired (not_le.mpr (stopReturn_gt hpos ?_ hcost entry.maxSpreadPct_range.1 hstop))
    show markAsk book false = some held.avgEntryPrice
    rw [hentry]
    exact hask

def defaultExit : ThresholdExitConfigV1 := defaultStop

/-- The NO side of the quoted market, bought at its ask. -/
def boughtNo : HeldPosition where
  positionId := 1
  marketId := "m1"
  side := .no
  tokenId := "t2"
  conditionId := "0xc1"
  qty := 50
  avgEntryPrice := 1 / 5
  openedAt := 0

def noBook : OrderBook := ⟨"t2", 0, [(19 / 100, 10)], [(1 / 5, 10)]⟩

def noSight : Sight := ⟨10, some ⟨⟨noBook, 9⟩, 9⟩, false, 10⟩

theorem noBook_bestFirst : noBook.BestFirst := ⟨by simp [noBook], by simp [noBook]⟩

end OpenPoly
