import OpenPoly.Proofs.Entry

/-! Entry v1: an intent is for the best of the sides it may buy whose book is
fresh and can be priced, at the ask the edge was computed from, and a stale book
plays no part in the decision. -/

namespace OpenPoly

open Results

/-- The side of the largest net edge among the priced ones of `sides`, YES on a tie. -/
structure BestPriced (catalog : Catalog) (fresh : List String) (market : Market) (pModel : ℚ)
    (sides : List Side) (side : Side) (quote : Quote) : Prop where
  side_mem : side ∈ sides
  priced : Priced catalog fresh market side quote
  largest : ∀ s ∈ sides, ∀ q, Priced catalog fresh market s q →
    netEdge pModel market.takerFeeRate s q.ask ≤ netEdge pModel market.takerFeeRate side quote.ask
  tie : side = .no → ∀ q, .yes ∈ sides → Priced catalog fresh market .yes q →
    netEdge pModel market.takerFeeRate .yes q.ask < netEdge pModel market.takerFeeRate .no quote.ask

/-- The intent is for the best priced of `sides`, at the ask its edge was
computed from, and within every gate. -/
structure WellChosen (config : EdgeThresholdConfigV1) (ctx : EntryContext) (fresh : List String)
    (res : AnalysisResult) (sides : List Side) (intent : OrderIntent) : Prop where
  choice : ∃ market quote, ctx.catalog.markets res.marketId = some market ∧
    BestPriced ctx.catalog fresh market res.pModel sides intent.side quote ∧
    intent.marketId = res.marketId ∧ intent.price = quote.ask ∧
    intent.edge = some (netEdge res.pModel market.takerFeeRate intent.side quote.ask) ∧
    config.minEdge ≤ netEdge res.pModel market.takerFeeRate intent.side quote.ask ∧
    quote.ask - quote.bid ≤ config.maxSpread ∧
    quote.ask - quote.bid ≤ config.maxSpreadPct * quote.ask
  opposite : config.blockOppositeSide = true → ∀ db, ctx.portfolio = some db →
    ∀ held ∈ db.getOpenPositions, held.marketId = res.marketId →
      held.side = intent.side.opposite → held.qty < minSellShares
  news : config.requireNewsDirection = true → newsSide res.newsDirection = some intent.side

variable {catalog : Catalog} {fresh : List String} {market : Market} {marketId : String}

theorem mem_sides (sideLock : Bool) (s side : Side) (h : s ∈ candidateSides sideLock)
    (hside : side ∈ candidateSides sideLock) : s = side ∨ s = side.opposite := by
  cases s <;> cases side <;> simp [Side.opposite]

theorem largestEdge_iff (hm : catalog.markets marketId = some market) (pModel : ℚ)
    (sideLock : Bool) (side : Side) (quote : Quote) :
    largestEdge pModel market.takerFeeRate
        (pricedSides catalog (some fresh) market marketId sideLock) = some (side, quote) ↔
      BestPriced catalog fresh market pModel (candidateSides sideLock) side quote := by
  have hquote : ∀ s q, candidateQuote
      (fun s => (sideQuote catalog (some fresh) market marketId s).toOption) sideLock s = some q ↔
      s ∈ candidateSides sideLock ∧ Priced catalog fresh market s q := by
    intro s q
    unfold candidateQuote
    split_ifs with hs
    · rw [← sideQuote_ok_iff hm, toOption_eq_some]
      exact (and_iff_right hs).symm
    · simp [hs]
  unfold largestEdge pricedSides
  rw [argmax_sides, hquote]
  simp only [hquote]
  constructor
  · rintro ⟨⟨hs, hp⟩, hother⟩
    refine ⟨hs, hp, fun s hmem q hq => ?_, ?_⟩
    · rcases mem_sides sideLock s side hmem hs with rfl | rfl
      · obtain rfl : q = quote := by
          have h1 := (sideQuote_ok_iff hm).mpr hq
          rw [(sideQuote_ok_iff hm).mpr hp] at h1
          exact (Except.ok.inj h1).symm
        exact le_rfl
      · exact (hother q ⟨hmem, hq⟩).1
    · rintro rfl q hmem hq
      exact (hother q ⟨hmem, hq⟩).2 rfl
  · intro h
    refine ⟨⟨h.side_mem, h.priced⟩, fun q hq => ⟨h.largest _ hq.1 q hq.2, ?_⟩⟩
    rintro rfl
    exact h.tie rfl q hq.1 hq.2

theorem chooseSideV1_ok {config : EdgeThresholdConfigV1} {res : AnalysisResult} {side : Side}
    {chosen : Option Quote} (h : chooseSideV1 config catalog (some fresh) res = .ok (side, chosen)) :
    ∃ market quote, catalog.markets res.marketId = some market ∧ chosen = some quote ∧
      BestPriced catalog fresh market res.pModel (candidateSides config.sideLock) side quote ∧
      newsGate config res side = none := by
  unfold chooseSideV1 at h
  cases hm : catalog.markets res.marketId with
  | none => simp [hm] at h
  | some market =>
    simp only [hm] at h
    cases hbest : largestEdge res.pModel market.takerFeeRate
        (pricedSides catalog (some fresh) market res.marketId config.sideLock) with
    | none => simp [hbest] at h
    | some best =>
      obtain ⟨s, quote⟩ := best
      simp only [hbest] at h
      cases hnews : newsGate config res s with
      | some reason => simp [hnews] at h
      | none =>
        simp only [hnews, Except.ok.injEq, Prod.mk.injEq] at h
        obtain ⟨rfl, rfl⟩ := h
        exact ⟨market, quote, rfl, rfl, (largestEdge_iff hm _ _ _ _).mp hbest, hnews⟩

theorem runV1_wellChosen {config : EdgeThresholdConfigV1} {ctx : EntryContext}
    {res : AnalysisResult} {intent : OrderIntent}
    (h : runV1 config ctx (some fresh) res = .ok intent) :
    WellChosen config ctx fresh res (candidateSides config.sideLock) intent := by
  obtain ⟨side, chosen, openCost, quote, hside, hgates, hquote, hprice, rfl⟩ := EntrySteps.run_ok h
  obtain ⟨market, quote', hm, rfl, hbest, hnews⟩ := chooseSideV1_ok hside
  obtain rfl : quote' = quote := Except.ok.inj hquote
  have hedge : (stepsV1 config ctx (some fresh) res).edge side quote'.ask =
      netEdge res.pModel market.takerFeeRate side quote'.ask := by
    simp [stepsV1, hm]
  rw [hedge] at hprice ⊢
  obtain ⟨hmin, hspread, hpct⟩ := priceGatesV1_none hbest.priced.ask hprice
  refine ⟨⟨market, quote', hm, hbest, rfl, rfl, rfl, hmin, hspread, hpct⟩, ?_, newsGate_none hnews⟩
  intro hblock db hdb
  have hneeds : (stepsV1 config ctx (some fresh) res).needsPortfolio = true := by
    simp [stepsV1, hblock]
  unfold EntrySteps.gates at hgates
  rw [if_pos hneeds, hdb] at hgates
  exact oppositeGate_none (portfolioGates_ok hgates).2.1 hblock

theorem sideQuote_congr {books : String → Option OrderBook}
    (hm : catalog.markets marketId = some market) (h : ∀ t ∈ fresh, catalog.books t = books t)
    (side : Side) :
    sideQuote ⟨catalog.markets, books⟩ (some fresh) market marketId side =
      sideQuote catalog (some fresh) market marketId side := by
  unfold sideQuote
  cases ht : market.tokenFor side with
  | none => simp [readQuoteV1, readQuote, hm, ht]
  | some token =>
    by_cases hf : token ∈ fresh
    · simp [hf, readQuoteV1, readQuote, hm, ht, h token hf]
    · simp [hf]

theorem chooseSideV1_congr {books : String → Option OrderBook}
    (h : ∀ t ∈ fresh, catalog.books t = books t) (config : EdgeThresholdConfigV1)
    (res : AnalysisResult) :
    chooseSideV1 config ⟨catalog.markets, books⟩ (some fresh) res =
      chooseSideV1 config catalog (some fresh) res := by
  unfold chooseSideV1
  cases hm : catalog.markets res.marketId with
  | none => rfl
  | some market => simp only [pricedSides, sideQuote_congr hm h]

/-- The decision is the same whatever the books of the tokens that are not fresh. -/
theorem runV1_stale {ctx : EntryContext} {books : String → Option OrderBook}
    (h : ∀ t ∈ fresh, ctx.catalog.books t = books t) (config : EdgeThresholdConfigV1)
    (res : AnalysisResult) :
    runV1 config { ctx with catalog := ⟨ctx.catalog.markets, books⟩ } (some fresh) res =
      runV1 config ctx (some fresh) res := by
  unfold runV1 EntrySteps.run
  have hside := chooseSideV1_congr h config res
  simp only [stepsV1]
  rw [hside]
  cases hc : chooseSideV1 config ctx.catalog (some fresh) res with
  | error reason => rfl
  | ok choice =>
    obtain ⟨side, chosen⟩ := choice
    obtain ⟨market, quote, hm, rfl, -, -⟩ := chooseSideV1_ok hc
    rfl

/-- A side that is priced, where the other's book is stale, is chosen, unless the
news points elsewhere. -/
theorem chooseSideV1_other_stale {res : AnalysisResult} {side : Side} {quote : Quote}
    (hm : catalog.markets res.marketId = some market) (config : EdgeThresholdConfigV1)
    (hside : side ∈ candidateSides config.sideLock) (hp : Priced catalog fresh market side quote)
    (hstale : ∀ t, market.tokenFor side.opposite = some t → t ∉ fresh) :
    chooseSideV1 config catalog (some fresh) res =
      match newsGate config res side with
      | some reason => .error reason
      | none => .ok (side, some quote) := by
  have hother : ∀ q, ¬ Priced catalog fresh market side.opposite q :=
    fun q hq => hstale _ hq.token hq.fresh
  have hbest : BestPriced catalog fresh market res.pModel (candidateSides config.sideLock) side
      quote := by
    refine ⟨hside, hp, fun s hs q hq => ?_, ?_⟩
    · rcases mem_sides config.sideLock s side hs hside with rfl | rfl
      · have h1 := (sideQuote_ok_iff hm).mpr hq
        rw [(sideQuote_ok_iff hm).mpr hp] at h1
        rw [Except.ok.inj h1]
      · exact (hother q hq).elim
    · rintro rfl q - hq
      exact (hother q hq).elim
  have hlargest := (largestEdge_iff hm _ _ _ _).mpr hbest
  cases hnews : newsGate config res side <;> simp only [chooseSideV1, hm, hlargest, hnews]

/-- Entry v1 emits an intent only for the best priced of the sides it may buy,
YES alone under `side_lock`; a stale book has no influence on the decision, and
where one side's book is stale the other, fresh and priced, is the one chosen. -/
theorem entry_best_fresh_side (config : EdgeThresholdConfigV1) (ctx : EntryContext)
    (fresh : List String) (res : AnalysisResult) :
    (∀ intent, runV1 config ctx (some fresh) res = .ok intent →
      WellChosen config ctx fresh res (candidateSides config.sideLock) intent) ∧
    (∀ books : String → Option OrderBook, (∀ t ∈ fresh, ctx.catalog.books t = books t) →
      runV1 config { ctx with catalog := ⟨ctx.catalog.markets, books⟩ } (some fresh) res =
        runV1 config ctx (some fresh) res) ∧
    ∀ market side quote, ctx.catalog.markets res.marketId = some market →
      side ∈ candidateSides config.sideLock → Priced ctx.catalog fresh market side quote →
      (∀ t, market.tokenFor side.opposite = some t → t ∉ fresh) →
      chooseSideV1 config ctx.catalog (some fresh) res =
        match newsGate config res side with
        | some reason => .error reason
        | none => .ok (side, some quote) :=
  ⟨fun _ h => runV1_wellChosen h, fun _ h => runV1_stale h config res,
    fun _ _ _ hm hside hp hstale => chooseSideV1_other_stale hm config hside hp hstale⟩

def quotedMarket : Market where
  marketId := "m1"
  conditionId := "0xc1"
  yesTokenId := "t1"
  noTokenId := some "t2"
  takerFeeRate := some 0

/-- YES at 0.40 and NO at 0.20, both with a bid of real size a cent below. -/
def quotedCatalog : Catalog where
  markets id := if id = "m1" then some quotedMarket else none
  books token :=
    if token = "t1" then some ⟨"t1", 0, [(39 / 100, 10)], [(2 / 5, 10)]⟩
    else if token = "t2" then some ⟨"t2", 0, [(19 / 100, 10)], [(1 / 5, 10)]⟩
    else none

def evenAnalysis : AnalysisResult := { marketId := "m1", pModel := 1 / 2, confidence := .high }

def quotedContext : EntryContext := { catalog := quotedCatalog, portfolio := some .empty, now := 0 }

def defaultThresholds : EdgeThresholdConfigV1 := {}

def lockedThresholds : EdgeThresholdConfigV1 := { sideLock := true }

theorem entry_best_fresh_side_sample :
    (runV1 defaultThresholds quotedContext (some ["t1", "t2"]) evenAnalysis).toOption.map (fun i => (i.side, i.edge)) =
      some (.no, some (3 / 10)) ∧
    ∀ intent, runV1 defaultThresholds quotedContext (some ["t1", "t2"]) evenAnalysis = .ok intent →
      WellChosen defaultThresholds quotedContext ["t1", "t2"] evenAnalysis [.yes, .no] intent :=
  ⟨by decide +kernel, (entry_best_fresh_side defaultThresholds quotedContext ["t1", "t2"] evenAnalysis).1⟩

/-- Under `side_lock` YES is bought although NO, fresh and priced as well, has
the larger edge. -/
theorem locked_side_smaller_edge :
    ∃ intent, runV1 lockedThresholds quotedContext (some ["t1", "t2"]) evenAnalysis = .ok intent ∧
      ¬ WellChosen lockedThresholds quotedContext ["t1", "t2"] evenAnalysis [.yes, .no] intent := by
  refine ⟨entryIntent evenAnalysis .yes (2 / 5) 10 (1 / 10), by decide +kernel, fun h => ?_⟩
  obtain ⟨market, quote, hm, hbest, -, hprice, -⟩ := h.choice
  obtain rfl : quotedMarket = market := Option.some.inj hm
  have hfound : quotedCatalog.markets "m1" = some quotedMarket := rfl
  have hno : Priced quotedCatalog ["t1", "t2"] quotedMarket .no ⟨"t2", 1 / 5, 19 / 100⟩ :=
    (sideQuote_ok_iff hfound).mp (by decide +kernel)
  have hle := hbest.largest .no (by simp) _ hno
  rw [← hprice] at hle
  norm_num [netEdge, heldSideProbability, takerFeePerShare, quotedMarket, entryIntent,
    evenAnalysis] at hle

end OpenPoly
