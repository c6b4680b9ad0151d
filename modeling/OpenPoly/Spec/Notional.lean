import OpenPoly.Spec.Exposure

/-! The divisions of an entry decision as Python makes them: one by zero raises. -/

namespace OpenPoly

/-- `a / b` on floats. -/
def trueDiv (a b : ℚ) : Except PyErr ℚ :=
  if b = 0 then .error (.other "ZeroDivisionError") else .ok (a / b)

/-- `_scaled_notional`, with divisions that raise. -/
def scaledNotionalRaising (config : EdgeThresholdConfig) (edge : ℚ) (openCost : Option ℚ) :
    Except PyErr ℚ :=
  let base := config.orderSizeUsd
  let cap := config.sizeEdgeMultiplierMax
  if cap ≤ 1 ∨ config.minEdge ≤ 0 then .ok base
  else if 0 < config.heatCapUsd ∧ openCost = none then .ok base
  else do
    let multiplier := max 1 (min (← trueDiv edge config.minEdge) cap)
    match openCost with
    | none => .ok (base * multiplier)
    | some openCost =>
      let headroom := config.heatCapUsd - openCost
      if 0 < config.heatCapUsd ∧ headroom < base * multiplier then
        .ok (base * max 1 (← trueDiv headroom base))
      else .ok (base * multiplier)

/-- The `_price_gates` of either version, with divisions that raise. -/
def EntryVersion.priceGatesRaising (version : EntryVersion) (edge spread heldPrice : ℚ) :
    Except PyErr (Option String) :=
  match version with
  | .v0 config => .ok (priceGatesV0 config edge spread)
  | .v1 config _ =>
    match priceGatesV0 config.toEdgeThresholdConfig edge spread with
    | some reason => .ok (some reason)
    | none => do
      let spreadPct ← trueDiv spread heldPrice
      .ok (if config.maxSpreadPct < spreadPct then some "spread above max_spread_pct" else none)

def EntryVersion.steps (version : EntryVersion) (ctx : EntryContext) (res : AnalysisResult) :
    EntrySteps :=
  match version with
  | .v0 config => stepsV0 config ctx res
  | .v1 config fresh => stepsV1 config ctx fresh res

/-- The steps of `run` up to the quote: the side, the open cost and the quote. -/
def EntrySteps.quoted (steps : EntrySteps) (config : EdgeThresholdConfig) (ctx : EntryContext)
    (res : AnalysisResult) : Except String (Side × Option ℚ × Quote) := do
  let (side, chosen) ← steps.chooseSide
  let openCost ← steps.gates config ctx res side
  let quote ← steps.quoteOf side chosen
  return (side, openCost, quote)

/-- `run`, with divisions that raise; the multiplier is a signal. -/
def EntryVersion.runRaising (version : EntryVersion) (ctx : EntryContext) (res : AnalysisResult) :
    Except PyErr (Except String OrderIntent) :=
  let steps := version.steps ctx res
  match steps.quoted version.config ctx res with
  | .error reason => .ok (.error reason)
  | .ok (side, openCost, quote) => do
    let edge := steps.edge side quote.ask
    match ← version.priceGatesRaising edge (quote.ask - quote.bid) quote.ask with
    | some reason => .ok (.error reason)
    | none =>
      if lateBuy version.config ctx quote.tokenId then .ok (.error "late buy")
      else do
        let notional ← scaledNotionalRaising version.config edge openCost
        let _multiplier ← trueDiv notional version.config.orderSizeUsd
        let qty ← trueDiv notional quote.ask
        .ok (.ok { entryIntent res side quote.ask notional edge with qty := qty })

/-- The open cost a decision sizes by: none where the cap is off or no portfolio
is read. -/
def EntryVersion.readCost (version : EntryVersion) (ctx : EntryContext) : Option ℚ :=
  if 0 < version.config.heatCapUsd then ctx.portfolio.map Db.openCost else none

end OpenPoly
