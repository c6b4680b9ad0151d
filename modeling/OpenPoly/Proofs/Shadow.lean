import OpenPoly.Proofs.EntryV1
import OpenPoly.Spec.Shadow

/-! The shadow pick against entry v1's side choice on the same books: the two
agree wherever the market's fee rate is known. -/

namespace OpenPoly

open Results

/-- The quote of a token's book, by the entry's own reading of it. -/
def quotedBy (side : Option String × Option OrderBook) : Option Quote :=
  match side with
  | (some token, some book) => (bookQuote (fun bids => firstLevelWithSize bids) token book).toOption
  | _ => none

def Quote.shadow (quote : Quote) (side : Side) (pModel : ℚ) (feeRate : Option ℚ) : ShadowQuote :=
  ⟨some side, some quote.tokenId, some quote.ask, some quote.bid,
    some (netEdge pModel feeRate side quote.ask), feeRate⟩

/-- A pass keeps the best so far where the side is not quoted or its edge is no
larger, and records the side otherwise. -/
theorem shadowStep_eq (feeRate : Option ℚ) (best : Option ShadowQuote) (side : Side)
    (book : Option String × Option OrderBook) (pModel : ℚ) :
    shadowStep feeRate best side book.1 book.2 (heldSideProbability pModel side) =
      match quotedBy book with
      | none => best
      | some quote =>
        if (best.bind ShadowQuote.edge).all
            (fun e => e < netEdge pModel feeRate side quote.ask) then
          some (quote.shadow side pModel feeRate)
        else best := by
  obtain ⟨_ | token, _ | ⟨t, ts, bids, asks⟩⟩ := book
  · rfl
  · rfl
  · rfl
  · cases asks with
    | nil => rfl
    | cons level asks =>
      cases bids with
      | nil => rfl
      | cons level' bids =>
        by_cases hpos : level.1 ≤ 0
        · simp only [shadowStep, quotedBy, bookQuote, hpos, if_true, Except.toOption]
          cases firstLevelWithSize (level' :: bids) <;> rfl
        · simp only [shadowStep, quotedBy, bookQuote, hpos, if_false]
          cases firstLevelWithSize (level' :: bids) <;> rfl

/-- The pick: the quoted side of the larger edge, YES on a tie. -/
theorem chooseShadowSide_eq (pModel : ℚ) (books : Side → Option String × Option OrderBook)
    (feeRate : Option ℚ) :
    chooseShadowSide pModel (books .yes) (books .no) feeRate =
      match largestEdge pModel feeRate ((candidateSides false).filterMap fun side =>
          (quotedBy (books side)).map fun quote => (side, quote)) with
      | none => {}
      | some (side, quote) => quote.shadow side pModel feeRate := by
  have hyes := shadowStep_eq feeRate none .yes (books .yes) pModel
  have hno := fun best => shadowStep_eq feeRate best .no (books .no) pModel
  simp only [heldSideProbability] at hyes hno
  unfold chooseShadowSide
  simp only [hyes, hno]
  cases hy : quotedBy (books .yes) with
  | none =>
    cases hn : quotedBy (books .no) with
    | none => simp [candidateSides, largestEdge, hy, hn]
    | some quote => simp [candidateSides, largestEdge, hy, hn]
  | some quote =>
    cases hn : quotedBy (books .no) with
    | none => simp [candidateSides, largestEdge, hy, hn]
    | some quote' =>
      simp only [candidateSides, largestEdge, hy, hn, Option.bind_none, Option.all_none, if_true,
        Quote.shadow, Option.bind_some, Option.all_some, decide_eq_true_eq, Bool.false_eq_true,
        if_false, List.filterMap_cons, List.filterMap_nil, Option.map_some, List.argmax_cons,
        List.argmax_nil]
      split_ifs <;> simp

/-- A side whose book can be priced, whatever the market's fee rate: a positive
ask and a bid level of real size. -/
structure Quoted (catalog : Catalog) (market : Market) (side : Side) (quote : Quote) : Prop where
  token : market.tokenFor side = some quote.tokenId
  book : ∃ book, catalog.books quote.tokenId = some book ∧
    book.asks.head?.map Prod.fst = some quote.ask ∧ firstLevelWithSize book.bids = some quote.bid
  ask : 0 < quote.ask

/-- The pick is of the side entry v1 chooses, at its ask, bid and edge, and of
no side exactly where v1 can price neither. -/
structure Mirrors (catalog : Catalog) (fresh : List String) (market : Market) (pModel : ℚ)
    (pick : ShadowQuote) (choice : Except String (Side × Option Quote)) : Prop where
  side : ∀ side, pick.side = some side ↔ ∃ chosen, choice = .ok (side, chosen)
  quote : ∀ side chosen, choice = .ok (side, chosen) → ∃ quote, chosen = some quote ∧
    pick.ask = some quote.ask ∧ pick.bid = some quote.bid ∧
    pick.edge = some (netEdge pModel market.takerFeeRate side quote.ask)
  none : pick.side = none ↔ ∀ side quote, ¬ Priced catalog fresh market side quote

section

variable {catalog : Catalog} {fresh : List String} {market : Market}

theorem Priced.quoted {side : Side} {quote : Quote} (h : Priced catalog fresh market side quote) :
    Quoted catalog market side quote :=
  ⟨h.token, h.book, h.ask⟩

theorem quotedBy_sideBook (hempty : ∀ side, market.tokenFor side ≠ some "") (side : Side)
    (quote : Quote) :
    quotedBy (catalog.sideBook market side) = some quote ↔ Quoted catalog market side quote := by
  unfold Catalog.sideBook
  cases ht : market.tokenFor side with
  | none =>
    refine ⟨fun h => (by cases h), fun h => ?_⟩
    exact absurd (ht.symm.trans h.token) (by simp)
  | some token =>
    have hne : token ≠ "" := fun he => hempty side (he ▸ ht)
    simp only [Option.bind_some, hne, if_false]
    cases hb : catalog.books token with
    | none =>
      refine ⟨fun h => (by cases h), fun h => ?_⟩
      obtain ⟨book, hbook, -⟩ := h.book
      obtain rfl : token = quote.tokenId := Option.some.inj (ht.symm.trans h.token)
      exact absurd (hb.symm.trans hbook) (by simp)
    | some book =>
      simp only [quotedBy]
      rw [toOption_eq_some, bookQuote_ok_iff rfl]
      constructor
      · rintro ⟨rfl, hpos, hask, hbid⟩
        exact ⟨ht, ⟨book, hb, hask, hbid⟩, hpos⟩
      · intro h
        obtain rfl : token = quote.tokenId := Option.some.inj (ht.symm.trans h.token)
        obtain ⟨book', hbook, hask, hbid⟩ := h.book
        obtain rfl : book = book' := Option.some.inj (hb.symm.trans hbook)
        exact ⟨rfl, h.ask, hask, hbid⟩

/-- With the fee rate known and every book fresh, the sides v1 prices are the
ones the shadow quotes. -/
theorem sideQuote_eq_quotedBy {marketId : String} (hm : catalog.markets marketId = some market)
    (hempty : ∀ side, market.tokenFor side ≠ some "")
    (hfresh : ∀ side token, market.tokenFor side = some token → token ∈ fresh)
    (hrate : market.takerFeeRate ≠ none) (side : Side) :
    (sideQuote catalog (some fresh) market marketId side).toOption =
      quotedBy (catalog.sideBook market side) := by
  refine Option.ext fun quote => ?_
  rw [quotedBy_sideBook hempty, toOption_eq_some, sideQuote_ok_iff hm]
  exact ⟨Priced.quoted, fun h => ⟨h.token, hfresh _ _ h.token, hrate, h.book, h.ask⟩⟩

/-- The shadow picks no side exactly where neither is quoted. -/
theorem chooseShadowSide_none (hempty : ∀ side, market.tokenFor side ≠ some "") (pModel : ℚ)
    (feeRate : Option ℚ) :
    (chooseShadowSide pModel (catalog.sideBook market .yes) (catalog.sideBook market .no)
        feeRate).side = none ↔ ∀ side quote, ¬ Quoted catalog market side quote := by
  rw [chooseShadowSide_eq pModel (catalog.sideBook market) feeRate]
  cases hbest : largestEdge pModel feeRate ((candidateSides false).filterMap fun side =>
      (quotedBy (catalog.sideBook market side)).map fun quote => (side, quote)) with
  | none =>
    simp only [true_iff]
    intro side quote h
    have hnil := List.argmax_eq_none.mp hbest
    have hmem : side ∈ candidateSides false := by cases side <;> simp [candidateSides]
    have := List.filterMap_eq_nil_iff.mp hnil side hmem
    simp [(quotedBy_sideBook hempty side quote).mpr h] at this
  | some best =>
    obtain ⟨side, quote⟩ := best
    simp only [Quote.shadow, reduceCtorEq, false_iff, not_forall, not_not]
    have hmem := List.mem_filterMap.mp (List.argmax_mem hbest)
    obtain ⟨side', -, hq⟩ := hmem
    obtain ⟨quote', hquote, heq⟩ := Option.map_eq_some_iff.mp hq
    exact ⟨side', quote', (quotedBy_sideBook hempty _ _).mp hquote⟩

/-- v1's choice with no lock and no news gate, as the sides it can price. -/
theorem chooseSideV1_unlocked {config : EdgeThresholdConfigV1} {res : AnalysisResult}
    (hm : catalog.markets res.marketId = some market) (hlock : config.sideLock = false)
    (hnews : config.requireNewsDirection = false) :
    (chooseSideV1 config catalog (some fresh) res).toOption =
      (largestEdge res.pModel market.takerFeeRate
        (pricedSides catalog (some fresh) market res.marketId false)).map
          fun best => (best.1, some best.2) := by
  unfold chooseSideV1
  simp only [hm, hlock]
  cases largestEdge res.pModel market.takerFeeRate
    (pricedSides catalog (some fresh) market res.marketId false) with
  | none => rfl
  | some best =>
    obtain ⟨side, quote⟩ := best
    simp [newsGate, hnews, Except.toOption]

/-- Where the fee rate is unknown v1 prices no side, so the two agree only where
the shadow quotes none. -/
theorem mirrors_unknown_rate {config : EdgeThresholdConfigV1} {res : AnalysisResult}
    (hm : catalog.markets res.marketId = some market) (hlock : config.sideLock = false)
    (hnews : config.requireNewsDirection = false)
    (hempty : ∀ side, market.tokenFor side ≠ some "") (hrate : market.takerFeeRate = none) :
    Mirrors catalog fresh market res.pModel
        (chooseShadowSide res.pModel (catalog.sideBook market .yes) (catalog.sideBook market .no)
          market.takerFeeRate)
        (chooseSideV1 config catalog (some fresh) res) ↔
      ∀ side quote, ¬ Quoted catalog market side quote := by
  have hnone := @chooseShadowSide_none catalog market hempty res.pModel market.takerFeeRate
  have hunpriced : ∀ side quote, ¬ Priced catalog fresh market side quote :=
    fun side quote h => h.rate hrate
  have hnil : pricedSides catalog (some fresh) market res.marketId false = [] := by
    refine List.filterMap_eq_nil_iff.mpr fun side _ => ?_
    cases hq : (sideQuote catalog (some fresh) market res.marketId side).toOption with
    | none => rfl
    | some quote =>
      exact absurd ((sideQuote_ok_iff hm).mp (toOption_eq_some.mp hq)) (hunpriced _ _)
  have herr : ∀ choice, chooseSideV1 config catalog (some fresh) res ≠ .ok choice := by
    intro choice hc
    have h := @chooseSideV1_unlocked catalog fresh market config res hm hlock hnews
    rw [hnil, hc] at h
    simp [largestEdge, Except.toOption] at h
  constructor
  · intro h
    exact hnone.mp (h.none.mpr hunpriced)
  · intro h
    have hside := hnone.mpr h
    refine ⟨fun side => ?_, fun side chosen hc => absurd hc (herr _), ?_⟩
    · rw [hside]
      constructor
      · intro h
        cases h
      · rintro ⟨chosen, hc⟩
        exact absurd hc (herr _)
    · exact ⟨fun _ => hunpriced, fun _ => hside⟩

theorem mirrors_known_rate {config : EdgeThresholdConfigV1} {res : AnalysisResult}
    (hm : catalog.markets res.marketId = some market) (hlock : config.sideLock = false)
    (hnews : config.requireNewsDirection = false)
    (hempty : ∀ side, market.tokenFor side ≠ some "")
    (hfresh : ∀ side token, market.tokenFor side = some token → token ∈ fresh)
    (hrate : market.takerFeeRate ≠ none) :
    Mirrors catalog fresh market res.pModel
      (chooseShadowSide res.pModel (catalog.sideBook market .yes) (catalog.sideBook market .no)
        market.takerFeeRate)
      (chooseSideV1 config catalog (some fresh) res) := by
  have hsides : pricedSides catalog (some fresh) market res.marketId false =
      (candidateSides false).filterMap fun side =>
        (quotedBy (catalog.sideBook market side)).map fun quote => (side, quote) := by
    unfold pricedSides
    simp only [sideQuote_eq_quotedBy hm hempty hfresh hrate]
  have hnone := @chooseShadowSide_none catalog market hempty res.pModel market.takerFeeRate
  have hpriced : (∀ side quote, ¬ Quoted catalog market side quote) ↔
      ∀ side quote, ¬ Priced catalog fresh market side quote :=
    ⟨fun h side quote hp => h side quote hp.quoted,
      fun h side quote hq => h side quote ⟨hq.token, hfresh _ _ hq.token, hrate, hq.book, hq.ask⟩⟩
  rw [hpriced] at hnone
  rw [chooseShadowSide_eq res.pModel (catalog.sideBook market)] at hnone ⊢
  have hchoice := @chooseSideV1_unlocked catalog fresh market config res hm hlock hnews
  rw [hsides] at hchoice
  cases hbest : largestEdge res.pModel market.takerFeeRate ((candidateSides false).filterMap
      fun side => (quotedBy (catalog.sideBook market side)).map fun quote => (side, quote)) with
  | none =>
    rw [hbest] at hchoice hnone
    have herr : ∀ choice, chooseSideV1 config catalog (some fresh) res ≠ .ok choice := by
      intro choice hc
      simp [hc, Except.toOption] at hchoice
    refine ⟨fun side => ?_, fun side chosen hc => absurd hc (herr _), hnone⟩
    constructor
    · intro h
      cases h
    · rintro ⟨chosen, hc⟩
      exact absurd hc (herr _)
  | some best =>
    obtain ⟨side, quote⟩ := best
    rw [hbest] at hchoice hnone
    have hok : chooseSideV1 config catalog (some fresh) res = .ok (side, some quote) :=
      toOption_eq_some.mp hchoice
    refine ⟨fun s => ?_, ?_, hnone⟩
    · rw [hok]
      simp [Quote.shadow]
    · intro s chosen hc
      obtain ⟨rfl, rfl⟩ : side = s ∧ some quote = chosen := by
        simpa using Except.ok.inj (hok.symm.trans hc)
      exact ⟨quote, rfl, rfl, rfl, rfl⟩

/-- The shadow pick mirrors entry v1's side choice on the same books exactly
where the market's fee rate is known or neither side can be quoted. -/
theorem shadow_mirrors_iff (config : EdgeThresholdConfigV1) (catalog : Catalog)
    (fresh : List String) (market : Market) (res : AnalysisResult)
    (hm : catalog.markets res.marketId = some market) (hlock : config.sideLock = false)
    (hnews : config.requireNewsDirection = false)
    (hempty : ∀ side, market.tokenFor side ≠ some "")
    (hfresh : ∀ side token, market.tokenFor side = some token → token ∈ fresh) :
    Mirrors catalog fresh market res.pModel
        (chooseShadowSide res.pModel (catalog.sideBook market .yes) (catalog.sideBook market .no)
          market.takerFeeRate)
        (chooseSideV1 config catalog (some fresh) res) ↔
      market.takerFeeRate ≠ none ∨ ∀ side quote, ¬ Quoted catalog market side quote := by
  by_cases hrate : market.takerFeeRate = none
  · rw [mirrors_unknown_rate hm hlock hnews hempty hrate]
    simp [hrate]
  · simp only [mirrors_known_rate hm hlock hnews hempty hfresh hrate, true_iff]
    exact .inl hrate

end

/-- On the market quoted on both sides both pick NO. -/
theorem shadow_mirrors_iff_sample :
    Mirrors quotedCatalog ["t1", "t2"] quotedMarket (1 / 2)
      (chooseShadowSide (1 / 2) (quotedCatalog.sideBook quotedMarket .yes)
        (quotedCatalog.sideBook quotedMarket .no) (some 0))
      (chooseSideV1 defaultThresholds quotedCatalog (some ["t1", "t2"]) evenAnalysis) := by
  refine (shadow_mirrors_iff defaultThresholds quotedCatalog ["t1", "t2"] quotedMarket evenAnalysis rfl rfl rfl
    ?_ ?_).mpr (.inl (by decide))
  · intro side
    cases side <;> decide
  · intro side token h
    cases side <;> simp_all [quotedMarket, Market.tokenFor]

def unratedMarket : Market := { quotedMarket with takerFeeRate := none }

def unratedCatalog : Catalog :=
  { quotedCatalog with markets := fun id => if id = "m1" then some unratedMarket else none }

/-- The shadow picks NO, free of any fee; v1 prices neither side. -/
theorem unrated_market_picked :
    (chooseShadowSide (1 / 2) (unratedCatalog.sideBook unratedMarket .yes)
        (unratedCatalog.sideBook unratedMarket .no) unratedMarket.takerFeeRate).side = some .no ∧
    (∀ choice, chooseSideV1 defaultThresholds unratedCatalog (some ["t1", "t2"]) evenAnalysis ≠ .ok choice) ∧
    ¬ Mirrors unratedCatalog ["t1", "t2"] unratedMarket (1 / 2)
      (chooseShadowSide (1 / 2) (unratedCatalog.sideBook unratedMarket .yes)
        (unratedCatalog.sideBook unratedMarket .no) unratedMarket.takerFeeRate)
      (chooseSideV1 defaultThresholds unratedCatalog (some ["t1", "t2"]) evenAnalysis) := by
  have hpick : (chooseShadowSide (1 / 2) (unratedCatalog.sideBook unratedMarket .yes)
      (unratedCatalog.sideBook unratedMarket .no) unratedMarket.takerFeeRate).side = some .no := by
    decide +kernel
  have herr : (chooseSideV1 defaultThresholds unratedCatalog (some ["t1", "t2"]) evenAnalysis).toOption = none := by
    decide +kernel
  have hnot : ∀ choice, chooseSideV1 defaultThresholds unratedCatalog (some ["t1", "t2"]) evenAnalysis ≠ .ok choice := by
    intro choice hc
    rw [hc] at herr
    cases herr
  refine ⟨hpick, hnot, fun h => ?_⟩
  obtain ⟨chosen, hc⟩ := (h.side .no).mp hpick
  exact hnot _ hc

end OpenPoly
