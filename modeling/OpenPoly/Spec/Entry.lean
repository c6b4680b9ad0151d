import Mathlib.Data.List.MinMax
import OpenPoly.Spec.PortfolioGates

/-! The entry sections `edge_threshold_v0` and `edge_threshold_v1`: from an
analysis, the catalogued market and the cached books to an order intent, or the
reason there is none. v1 overrides steps of v0, so the sequence of steps is one
definition over a record of them. -/

namespace OpenPoly

inductive Confidence where
  | low
  | medium
  | high
  deriving DecidableEq, Repr

def Confidence.name : Confidence → String
  | .low => "low"
  | .medium => "medium"
  | .high => "high"

inductive NewsDirection where
  | raisesYes
  | lowersYes
  | unclear
  deriving DecidableEq, Repr

def NewsDirection.name : NewsDirection → String
  | .raisesYes => "raises_yes"
  | .lowersYes => "lowers_yes"
  | .unclear => "unclear"

structure AnalysisResult where
  marketId : String
  pModel : ℚ
  confidence : Confidence
  rationale : String := ""
  newsDirection : Option NewsDirection := none
  deriving DecidableEq, Repr

def minLevelSize : ℚ := 5

def firstLevelWithSize (levels : List Level) (minSize : ℚ := minLevelSize) : Option ℚ :=
  (levels.find? fun l => minSize ≤ l.2).map Prod.fst

/-- A side's quote: the token, its best ask, the bid its spread is taken to. -/
structure Quote where
  tokenId : String
  ask : ℚ
  bid : ℚ
  deriving DecidableEq, Repr

def heldSideProbability (pModel : ℚ) : Side → ℚ
  | .yes => pModel
  | .no => 1 - pModel

def candidateSides (sideLock : Bool) : List Side := if sideLock then [.yes] else [.yes, .no]

/-- The market store, the portfolio where there is one, the clock, and what
`recent_move` answers for a token and window. -/
structure EntryContext where
  catalog : Catalog
  portfolio : Option Db
  now : ℚ
  recentMove : String → ℕ → Option ℚ := fun _ _ => none

/-- The quote a book amounts to, its bid read by `quoteBid`. -/
def bookQuote (quoteBid : List Level → Option ℚ) (tokenId : String) (book : OrderBook) :
    Except String Quote :=
  match book.asks, book.bids with
  | (heldPrice, _) :: _, _ :: _ =>
    if heldPrice ≤ 0 then .error "invalid ask price"
    else
      match quoteBid book.bids with
      | none => .error "no executable bid"
      | some bid => .ok ⟨tokenId, heldPrice, bid⟩
  | _, _ => .error "no order book"

def readQuote (catalog : Catalog) (quoteBid : List Level → Option ℚ) (marketId : String)
    (side : Side) : Except String Quote :=
  match catalog.markets marketId with
  | none => .error "market not found"
  | some market =>
    match market.tokenFor side with
    | none => .error "no token for side"
    | some tokenId =>
      match catalog.books tokenId with
      | none => .error "no order book"
      | some book => bookQuote quoteBid tokenId book

/-- The decision steps a version may override. -/
structure EntrySteps where
  /-- The side, and the quote it was chosen from where it was chosen from one. -/
  chooseSide : Except String (Side × Option Quote)
  needsPortfolio : Bool
  extraPortfolioGates : Db → Side → Option String
  readQuote : Side → Except String Quote
  edge : Side → ℚ → ℚ
  /-- On edge, spread and held price. -/
  priceGates : ℚ → ℚ → ℚ → Option String

def scaledNotional (config : EdgeThresholdConfig) (edge : ℚ) (openCost : Option ℚ) : ℚ :=
  let base := config.orderSizeUsd
  let cap := config.sizeEdgeMultiplierMax
  if cap ≤ 1 ∨ config.minEdge ≤ 0 then base
  else
    match openCost with
    | none =>
      if 0 < config.heatCapUsd then base
      else base * max 1 (min (edge / config.minEdge) cap)
    | some openCost =>
      let multiplier := max 1 (min (edge / config.minEdge) cap)
      let headroom := config.heatCapUsd - openCost
      if 0 < config.heatCapUsd ∧ headroom < base * multiplier then base * max 1 (headroom / base)
      else base * multiplier

/-- The late-buy veto; a move that could not be read does not veto. -/
def lateBuy (config : EdgeThresholdConfig) (ctx : EntryContext) (tokenId : String) : Bool :=
  config.vetoEnabled &&
    (ctx.recentMove tokenId config.vetoWindowMin).any fun move => config.vetoMoveThreshold ≤ move

def entryIntent (res : AnalysisResult) (side : Side) (heldPrice notional edge : ℚ) : OrderIntent where
  marketId := res.marketId
  side := side
  price := heldPrice
  qty := notional / heldPrice
  pModel := some res.pModel
  confidence := some res.confidence.name
  edge := some edge
  rationale := if res.rationale = "" then none else some res.rationale
  newsDirection := res.newsDirection.map NewsDirection.name

/-- The open exposure the portfolio gates read, none where no portfolio is. -/
def EntrySteps.gates (steps : EntrySteps) (config : EdgeThresholdConfig) (ctx : EntryContext)
    (res : AnalysisResult) (side : Side) : Except String (Option ℚ) :=
  match if steps.needsPortfolio then ctx.portfolio else none with
  | none => .ok none
  | some db =>
    portfolioGates config (steps.extraPortfolioGates db side) db res.marketId side ctx.now

/-- The quote a side is priced from: the one it was chosen from, where there is one. -/
def EntrySteps.quoteOf (steps : EntrySteps) (side : Side) : Option Quote → Except String Quote
  | some quote => .ok quote
  | none => steps.readQuote side

def EntrySteps.run (steps : EntrySteps) (config : EdgeThresholdConfig) (ctx : EntryContext)
    (res : AnalysisResult) : Except String OrderIntent := do
  let (side, chosen) ← steps.chooseSide
  let openCost ← steps.gates config ctx res side
  let quote ← steps.quoteOf side chosen
  let edge := steps.edge side quote.ask
  match steps.priceGates edge (quote.ask - quote.bid) quote.ask with
  | some reason => .error reason
  | none =>
    if lateBuy config ctx quote.tokenId then .error "late buy"
    else .ok (entryIntent res side quote.ask (scaledNotional config edge openCost) edge)

/-- The `_price_gates` of v0: edge, then spread. -/
def priceGatesV0 (config : EdgeThresholdConfig) (edge spread : ℚ) : Option String :=
  if edge < config.minEdge then some "edge below min_edge"
  else if config.maxSpread < spread then some "spread above max_spread"
  else none

/-- The steps of `EdgeThresholdEntryV0`. -/
def stepsV0 (config : EdgeThresholdConfig) (ctx : EntryContext) (res : AnalysisResult) :
    EntrySteps where
  chooseSide :=
    let side : Side := if 1 / 2 ≤ res.pModel then .yes else .no
    if config.sideLock ∧ side ≠ .yes then .error "side_lock active" else .ok (side, none)
  needsPortfolio := config.needsPortfolio
  extraPortfolioGates _ _ := none
  readQuote := readQuote ctx.catalog (fun bids => bids.head?.map Prod.fst) res.marketId
  edge side heldPrice := heldSideProbability res.pModel side - heldPrice
  priceGates edge spread _ := priceGatesV0 config edge spread

def runV0 (config : EdgeThresholdConfig) (ctx : EntryContext) (res : AnalysisResult) :
    Except String OrderIntent :=
  (stepsV0 config ctx res).run config ctx res

structure EdgeThresholdConfigV1 extends EdgeThresholdConfig where
  sameMarketCooldownMinutes := 60
  maxSpreadPct : ℚ := 1 / 10
  blockOppositeSide : Bool := true
  requireNewsDirection : Bool := false
  maxSpreadPct_range : 0 ≤ maxSpreadPct ∧ maxSpreadPct ≤ 1 := by norm_num

def newsSide : Option NewsDirection → Option Side
  | some .raisesYes => some .yes
  | some .lowersYes => some .no
  | _ => none

def Side.opposite : Side → Side
  | .yes => .no
  | .no => .yes

/-- The `_edge` of v1: net of the taker fee on one share at the ask. -/
def netEdge (pModel : ℚ) (rate : Option ℚ) (side : Side) (ask : ℚ) : ℚ :=
  heldSideProbability pModel side - ask - takerFeePerShare rate ask

/-- The `_read_quote` of v1. -/
def readQuoteV1 (catalog : Catalog) (marketId : String) (side : Side) : Except String Quote :=
  match catalog.markets marketId with
  | some market =>
    if market.takerFeeRate = none then .error "unknown taker fee"
    else readQuote catalog firstLevelWithSize marketId side
  | none => readQuote catalog firstLevelWithSize marketId side

/-- The quote of one side of the choice; `fresh` is none where freshness is not
checked. -/
def sideQuote (catalog : Catalog) (fresh : Option (List String)) (market : Market)
    (marketId : String) (side : Side) : Except String Quote :=
  match fresh, market.tokenFor side with
  | some fresh, some token =>
    if token ∉ fresh then .error "stale_book" else readQuoteV1 catalog marketId side
  | _, _ => readQuoteV1 catalog marketId side

def pricedSides (catalog : Catalog) (fresh : Option (List String)) (market : Market)
    (marketId : String) (sideLock : Bool) : List (Side × Quote) :=
  (candidateSides sideLock).filterMap fun side =>
    (sideQuote catalog fresh market marketId side).toOption.map fun quote => (side, quote)

def skipReason (skipped : List (Side × String)) : String :=
  match (skipped.map Prod.snd).dedup with
  | [reason] => reason
  | _ => "; ".intercalate (skipped.map fun s => s.1.name ++ ": " ++ s.2)

/-- The side and quote of the largest edge, the first of equal ones. -/
def largestEdge (pModel : ℚ) (rate : Option ℚ) (priced : List (Side × Quote)) :
    Option (Side × Quote) :=
  priced.argmax fun s => netEdge pModel rate s.1 s.2.ask

/-- The news gate of `_choose_side`. -/
def newsGate (config : EdgeThresholdConfigV1) (res : AnalysisResult) (chosen : Side) :
    Option String :=
  if config.requireNewsDirection ∧ newsSide res.newsDirection ≠ some chosen then
    some (if newsSide res.newsDirection = none then "unclear news direction"
      else "against news direction")
  else none

/-- The `_choose_side` of v1. -/
def chooseSideV1 (config : EdgeThresholdConfigV1) (catalog : Catalog)
    (fresh : Option (List String)) (res : AnalysisResult) : Except String (Side × Option Quote) :=
  match catalog.markets res.marketId with
  | none => .error "market not found"
  | some market =>
    match largestEdge res.pModel market.takerFeeRate
        (pricedSides catalog fresh market res.marketId config.sideLock) with
    | none => .error (skipReason ((candidateSides config.sideLock).filterMap fun side =>
        match sideQuote catalog fresh market res.marketId side with
        | .error reason => some (side, reason)
        | .ok _ => none))
    | some (chosen, quote) =>
      match newsGate config res chosen with
      | some reason => .error reason
      | none => .ok (chosen, some quote)

/-- The `_extra_portfolio_gates` of v1: a holding of at least one share on the
other side. -/
def oppositeGate (config : EdgeThresholdConfigV1) (db : Db) (marketId : String) (side : Side) :
    Option String :=
  if config.blockOppositeSide ∧ db.getOpenPositions.any fun h =>
      h.marketId = marketId ∧ h.side = side.opposite ∧ !isDustQty h.qty
  then some "opposite_side_open"
  else none

/-- The `_price_gates` of v1. -/
def priceGatesV1 (config : EdgeThresholdConfigV1) (edge spread heldPrice : ℚ) : Option String :=
  match priceGatesV0 config.toEdgeThresholdConfig edge spread with
  | some reason => some reason
  | none =>
    if config.maxSpreadPct < spread / heldPrice then some "spread above max_spread_pct" else none

/-- The steps of `EdgeThresholdEntryV1`. -/
def stepsV1 (config : EdgeThresholdConfigV1) (ctx : EntryContext) (fresh : Option (List String))
    (res : AnalysisResult) : EntrySteps where
  chooseSide := chooseSideV1 config ctx.catalog fresh res
  needsPortfolio := config.needsPortfolio || config.blockOppositeSide
  extraPortfolioGates db side := oppositeGate config db res.marketId side
  readQuote := readQuoteV1 ctx.catalog res.marketId
  edge := netEdge res.pModel ((ctx.catalog.markets res.marketId).bind Market.takerFeeRate)
  priceGates := priceGatesV1 config

/-- `run` on an analysis wrapped in `FreshBooks`, or bare where `fresh` is none. -/
def runV1 (config : EdgeThresholdConfigV1) (ctx : EntryContext) (fresh : Option (List String))
    (res : AnalysisResult) : Except String OrderIntent :=
  (stepsV1 config ctx fresh res).run config.toEdgeThresholdConfig ctx res

end OpenPoly
