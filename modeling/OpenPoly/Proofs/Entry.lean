import OpenPoly.Lib.Except
import OpenPoly.Spec.Entry

/-! What an entry decision rests on: which sides are priced and from what, which
of them is chosen, and the gates an intent has passed. -/

namespace OpenPoly

open Results

/-- A side entry v1 can price: its book is fresh, has a positive ask and a bid
level of real size, and the market's fee rate is known. -/
structure Priced (catalog : Catalog) (fresh : List String) (market : Market) (side : Side)
    (quote : Quote) : Prop where
  token : market.tokenFor side = some quote.tokenId
  fresh : quote.tokenId ∈ fresh
  rate : market.takerFeeRate ≠ none
  book : ∃ book, catalog.books quote.tokenId = some book ∧
    book.asks.head?.map Prod.fst = some quote.ask ∧ firstLevelWithSize book.bids = some quote.bid
  ask : 0 < quote.ask

theorem bookQuote_ok_iff {quoteBid : List Level → Option ℚ} (hbid : quoteBid [] = none)
    {tokenId : String} {book : OrderBook} {quote : Quote} :
    bookQuote quoteBid tokenId book = .ok quote ↔
      tokenId = quote.tokenId ∧ 0 < quote.ask ∧
        book.asks.head?.map Prod.fst = some quote.ask ∧ quoteBid book.bids = some quote.bid := by
  obtain ⟨token, ask, bid⟩ := quote
  unfold bookQuote
  cases hasks : book.asks with
  | nil => simp
  | cons level asks =>
    cases hbids : book.bids with
    | nil => simp [hbid]
    | cons level' bids =>
      by_cases hpos : level.1 ≤ 0
      · have : ¬ (0 < ask ∧ level.1 = ask) := fun h => absurd (h.2 ▸ h.1) (not_lt.mpr hpos)
        simp only [hpos, if_true, reduceCtorEq, List.head?_cons, Option.map_some,
          Option.some.injEq, false_iff]
        tauto
      · cases hq : quoteBid (level' :: bids) with
        | none => simp [hpos]
        | some bid' =>
          simp only [hpos, if_false, Except.ok.injEq, Quote.mk.injEq, List.head?_cons,
            Option.map_some, Option.some.injEq]
          constructor
          · rintro ⟨rfl, rfl, rfl⟩
            exact ⟨rfl, not_le.mp hpos, rfl, rfl⟩
          · rintro ⟨rfl, -, rfl, rfl⟩
            exact ⟨rfl, rfl, rfl⟩

theorem readQuote_ok_iff {catalog : Catalog} {quoteBid : List Level → Option ℚ}
    {marketId : String} {market : Market} (hm : catalog.markets marketId = some market)
    (hbid : quoteBid [] = none) {side : Side} {quote : Quote} :
    readQuote catalog quoteBid marketId side = .ok quote ↔
      market.tokenFor side = some quote.tokenId ∧ 0 < quote.ask ∧
        ∃ book, catalog.books quote.tokenId = some book ∧
          book.asks.head?.map Prod.fst = some quote.ask ∧ quoteBid book.bids = some quote.bid := by
  simp only [readQuote, hm]
  cases ht : market.tokenFor side with
  | none => simp
  | some tokenId =>
    dsimp only
    cases hb : catalog.books tokenId with
    | none =>
      simp only [reduceCtorEq, Option.some.injEq, false_iff]
      rintro ⟨rfl, -, book, hbook, -⟩
      simp [hb] at hbook
    | some book =>
      simp only [bookQuote_ok_iff hbid, Option.some.injEq]
      constructor
      · rintro ⟨rfl, hpos, hask, hq⟩
        exact ⟨rfl, hpos, book, hb, hask, hq⟩
      · rintro ⟨rfl, hpos, book', hbook, hask, hq⟩
        obtain rfl : book = book' := by simpa [hb] using hbook
        exact ⟨rfl, hpos, hask, hq⟩

theorem sideQuote_ok_iff {catalog : Catalog} {fresh : List String} {marketId : String}
    {market : Market} (hm : catalog.markets marketId = some market) {side : Side} {quote : Quote} :
    sideQuote catalog (some fresh) market marketId side = .ok quote ↔
      Priced catalog fresh market side quote := by
  have hread := @readQuote_ok_iff catalog (fun bids => firstLevelWithSize bids) _ _ hm rfl side quote
  have hv1 : readQuoteV1 catalog marketId side = .ok quote ↔
      market.takerFeeRate ≠ none ∧ readQuote catalog firstLevelWithSize marketId side = .ok quote := by
    unfold readQuoteV1
    rw [hm]
    by_cases hr : market.takerFeeRate = none <;> simp [hr]
  unfold sideQuote
  cases ht : market.tokenFor side with
  | none =>
    rw [hv1, hread]
    constructor
    · rintro ⟨-, h, -⟩
      simp [ht] at h
    · intro h
      exact absurd (ht.symm.trans h.token) (by simp)
  | some token =>
    by_cases hf : token ∈ fresh
    · simp only [hf, not_true_eq_false, if_false]
      rw [hv1, hread]
      constructor
      · rintro ⟨hr, htoken, hpos, hbook⟩
        have : token = quote.tokenId := Option.some.inj (ht.symm.trans htoken)
        exact ⟨htoken, this ▸ hf, hr, hbook, hpos⟩
      · intro h
        exact ⟨h.rate, h.token, h.ask, h.book⟩
    · simp only [hf, not_false_eq_true, if_true, reduceCtorEq, false_iff]
      intro h
      have : token = quote.tokenId := Option.some.inj (ht.symm.trans h.token)
      exact hf (this ▸ h.fresh)

def candidateQuote (quoteOf : Side → Option Quote) (sideLock : Bool) (side : Side) : Option Quote :=
  if side ∈ candidateSides sideLock then quoteOf side else none

/-- The choice between two quotes: YES unless NO's edge is larger. -/
theorem argmax_sides (f : Side × Quote → ℚ) (quoteOf : Side → Option Quote) (sideLock : Bool)
    (side : Side) (quote : Quote) :
    ((candidateSides sideLock).filterMap fun s => (quoteOf s).map fun q => (s, q)).argmax f =
        some (side, quote) ↔
      candidateQuote quoteOf sideLock side = some quote ∧
        ∀ q, candidateQuote quoteOf sideLock side.opposite = some q →
          f (side.opposite, q) ≤ f (side, quote) ∧
            (side = .no → f (side.opposite, q) < f (side, quote)) := by
  cases sideLock <;> cases side <;> cases hy : quoteOf .yes <;> cases hn : quoteOf .no <;>
    simp [candidateSides, candidateQuote, Side.opposite, hy, hn, List.argmax_cons]
  · split_ifs with h
    · simp only [Option.some.injEq, Prod.mk.injEq, reduceCtorEq, false_and, false_iff, not_and,
        not_le]
      rintro rfl
      exact h
    · simp only [Option.some.injEq, Prod.mk.injEq, true_and]
      exact ⟨fun hq => ⟨hq, hq ▸ not_lt.mp h⟩, fun hq => hq.1⟩
  · split_ifs with h
    · simp only [Option.some.injEq, Prod.mk.injEq, true_and]
      exact ⟨fun hq => ⟨hq, hq ▸ h.le, hq ▸ h⟩, fun hq => hq.1⟩
    · simp only [Option.some.injEq, Prod.mk.injEq, reduceCtorEq, false_and, false_iff, not_and]
      rintro rfl
      exact fun _ h' => absurd h' h

theorem portfolioGates_ok {config : EdgeThresholdConfig} {extra : Option String} {db : Db}
    {marketId : String} {side : Side} {now : ℚ} {openCost : Option ℚ}
    (h : portfolioGates config extra db marketId side now = .ok openCost) :
    (0 < config.heatCapUsd → db.openCost < config.heatCapUsd) ∧ extra = none ∧
      openCost = if 0 < config.heatCapUsd then some db.openCost else none := by
  unfold portfolioGates at h
  by_cases hheat : 0 < config.heatCapUsd ∧ config.heatCapUsd ≤ db.openCost
  · simp [hheat] at h
  rw [if_neg hheat] at h
  dsimp only at h
  split at h
  · cases h
  · rename_i hnone
    simp only [Option.or_eq_none_iff] at hnone
    exact ⟨fun hcap => not_le.mp fun hle => hheat ⟨hcap, hle⟩, hnone.2.1, (Except.ok.inj h).symm⟩

theorem priceGatesV0_none {config : EdgeThresholdConfig} {edge spread : ℚ}
    (h : priceGatesV0 config edge spread = none) :
    config.minEdge ≤ edge ∧ spread ≤ config.maxSpread := by
  unfold priceGatesV0 at h
  split_ifs at h with h1 h2
  exact ⟨not_lt.mp h1, not_lt.mp h2⟩

theorem priceGatesV1_none {config : EdgeThresholdConfigV1} {edge spread heldPrice : ℚ}
    (hpos : 0 < heldPrice) (h : priceGatesV1 config edge spread heldPrice = none) :
    config.minEdge ≤ edge ∧ spread ≤ config.maxSpread ∧
      spread ≤ config.maxSpreadPct * heldPrice := by
  unfold priceGatesV1 at h
  split at h
  · cases h
  · rename_i h0
    split_ifs at h with hpct
    obtain ⟨hedge, hspread⟩ := priceGatesV0_none h0
    exact ⟨hedge, hspread, (div_le_iff₀ hpos).mp (not_lt.mp hpct)⟩

theorem oppositeGate_none {config : EdgeThresholdConfigV1} {db : Db} {marketId : String}
    {side : Side} (h : oppositeGate config db marketId side = none)
    (hblock : config.blockOppositeSide = true) :
    ∀ held ∈ db.getOpenPositions, held.marketId = marketId → held.side = side.opposite →
      held.qty < minSellShares := by
  unfold oppositeGate at h
  split_ifs at h with hany
  intro held hmem hm hs
  by_contra hqty
  refine hany ⟨hblock, List.any_eq_true.mpr ⟨held, hmem, ?_⟩⟩
  simpa [hm, hs, isDustQty] using hqty

theorem newsGate_none {config : EdgeThresholdConfigV1} {res : AnalysisResult} {chosen : Side}
    (h : newsGate config res chosen = none) (hreq : config.requireNewsDirection = true) :
    newsSide res.newsDirection = some chosen := by
  unfold newsGate at h
  split_ifs at h with hnews
  by_contra hne
  exact hnews ⟨hreq, hne⟩

/-- An intent has passed every step. -/
theorem EntrySteps.run_ok {steps : EntrySteps} {config : EdgeThresholdConfig} {ctx : EntryContext}
    {res : AnalysisResult} {intent : OrderIntent} (h : steps.run config ctx res = .ok intent) :
    ∃ side chosen openCost quote, steps.chooseSide = .ok (side, chosen) ∧
      steps.gates config ctx res side = .ok openCost ∧ steps.quoteOf side chosen = .ok quote ∧
      steps.priceGates (steps.edge side quote.ask) (quote.ask - quote.bid) quote.ask = none ∧
      intent = entryIntent res side quote.ask
        (scaledNotional config (steps.edge side quote.ask) openCost) (steps.edge side quote.ask) := by
  obtain ⟨⟨side, chosen⟩, hside, h⟩ := except_bind_ok h
  obtain ⟨openCost, hgates, h⟩ := except_bind_ok h
  obtain ⟨quote, hquote, h⟩ := except_bind_ok h
  refine ⟨side, chosen, openCost, quote, hside, hgates, hquote, ?_⟩
  dsimp only at h
  split at h
  · cases h
  · rename_i hprice
    split_ifs at h with hveto
    exact ⟨hprice, (Except.ok.inj h).symm⟩

end OpenPoly
