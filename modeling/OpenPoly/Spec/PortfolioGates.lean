import Mathlib.Data.List.Sort
import OpenPoly.Spec.Sizing

/-! The entry sections' configuration, and the gates that read the portfolio:
heat cap, kill switch, lockout and cooldown. A gate answers the reason it skips
the entry for. -/

namespace OpenPoly

/-- `EdgeThresholdConfig`, with the ranges its fields are validated to. -/
structure EdgeThresholdConfig where
  minEdge : ℚ := 1 / 20
  orderSizeUsd : ℚ := 10
  maxSpread : ℚ := 1 / 20
  sideLock : Bool := false
  vetoEnabled : Bool := false
  vetoWindowMin : ℕ := 60
  vetoMoveThreshold : ℚ := 1 / 10
  sameMarketCooldownMinutes : ℕ := 0
  sameMarketLifetimeLockout : Bool := false
  sizeEdgeMultiplierMax : ℚ := 1
  heatCapUsd : ℚ := 0
  killMaxConsecutiveLosses : ℕ := 0
  killDailyLossUsd : ℚ := 0
  killMaxDrawdownUsd : ℚ := 0
  minEdge_range : 0 ≤ minEdge ∧ minEdge ≤ 1 := by norm_num
  orderSizeUsd_range : 1 ≤ orderSizeUsd ∧ orderSizeUsd ≤ 100 := by norm_num
  maxSpread_range : 0 ≤ maxSpread ∧ maxSpread ≤ 1 / 2 := by norm_num
  vetoWindowMin_range : 1 ≤ vetoWindowMin ∧ vetoWindowMin ≤ 1440 := by norm_num
  vetoMoveThreshold_range : 0 ≤ vetoMoveThreshold ∧ vetoMoveThreshold ≤ 1 := by norm_num
  sameMarketCooldownMinutes_range : sameMarketCooldownMinutes ≤ 1440 := by norm_num
  sizeEdgeMultiplierMax_range : 1 ≤ sizeEdgeMultiplierMax ∧ sizeEdgeMultiplierMax ≤ 5 := by norm_num
  heatCapUsd_range : 0 ≤ heatCapUsd ∧ heatCapUsd ≤ 10000 := by norm_num
  killMaxConsecutiveLosses_range : killMaxConsecutiveLosses ≤ 100 := by norm_num
  killDailyLossUsd_range : 0 ≤ killDailyLossUsd ∧ killDailyLossUsd ≤ 10000 := by norm_num
  killMaxDrawdownUsd_range : 0 ≤ killMaxDrawdownUsd ∧ killMaxDrawdownUsd ≤ 10000 := by norm_num

def Db.listPositions (db : Db) (limit : ℕ) : List PositionRow :=
  (db.positions.insertionSort fun p q => q.id ≤ p.id).take limit

def gateLimit : ℕ := 500

def Db.openCost (db : Db) : ℚ := (db.getOpenPositions.map fun h => h.qty * h.avgEntryPrice).sum

structure ClosedOutcome where
  closedAt : ℚ
  realizedPnl : ℚ
  closeReason : Option CloseReason
  deriving DecidableEq, Repr

def PositionRow.outcome (p : PositionRow) : Option ClosedOutcome :=
  match p.closedAt, p.realizedPnl with
  | some closedAt, some realizedPnl => some ⟨closedAt, realizedPnl, p.closeReason⟩
  | _, _ => none

def closedOutcomes (positions : List PositionRow) : List ClosedOutcome :=
  (positions.filterMap PositionRow.outcome).insertionSort fun p q => q.closedAt ≤ p.closedAt

/-- The losses since the last close that was not one; a reconciled close that
is not a loss is passed over. -/
def lossStreak : List ClosedOutcome → ℕ
  | [] => 0
  | p :: rest =>
    if p.realizedPnl < 0 then lossStreak rest + 1
    else if p.closeReason = some .reconciled then lossStreak rest
    else 0

def dailyPnl (closed : List ClosedOutcome) (now : ℚ) : ℚ :=
  ((closed.filter fun p => now - 86400 ≤ p.closedAt).map ClosedOutcome.realizedPnl).sum

/-- The running total and its peak, over outcomes in close order. -/
def drawdownFrom : List ClosedOutcome → ℚ → ℚ → ℚ
  | [], cum, peak => peak - cum
  | p :: rest, cum, peak =>
    let cum := cum + p.realizedPnl
    drawdownFrom rest cum (if peak < cum then cum else peak)

def killSwitchCheck (config : EdgeThresholdConfig) (positions : List PositionRow) (now : ℚ) :
    Option String :=
  let closed := closedOutcomes positions
  if closed.isEmpty then none
  else if 0 < config.killMaxConsecutiveLosses ∧ config.killMaxConsecutiveLosses ≤ lossStreak closed
  then some "kill_consecutive_losses"
  else if 0 < config.killDailyLossUsd ∧ dailyPnl closed now ≤ -config.killDailyLossUsd
  then some "kill_daily_loss"
  else if 0 < config.killMaxDrawdownUsd ∧
    config.killMaxDrawdownUsd ≤ drawdownFrom closed.reverse 0 0
  then some "kill_drawdown"
  else none

def marketSideHasHistory (positions : List PositionRow) (marketId : String) (side : Side) : Bool :=
  positions.any fun p => p.marketId = marketId ∧ p.side = side

/-- `_in_cooldown`: judged by the newest position of the market and side. -/
def inCooldown (positions : List PositionRow) (marketId : String) (side : Side) (minutes : ℕ)
    (now : ℚ) : Bool :=
  match positions.find? fun p => p.marketId = marketId ∧ p.side = side with
  | none => false
  | some pos => now - minutes * 60 < pos.closedAt.getD pos.openedAt

def EdgeThresholdConfig.killSwitchEnabled (config : EdgeThresholdConfig) : Bool :=
  0 < config.killMaxConsecutiveLosses || 0 < config.killDailyLossUsd ||
    0 < config.killMaxDrawdownUsd

/-- `_needs_portfolio` of v0. -/
def EdgeThresholdConfig.needsPortfolio (config : EdgeThresholdConfig) : Bool :=
  0 < config.heatCapUsd || config.sameMarketLifetimeLockout ||
    0 < config.sameMarketCooldownMinutes || config.killSwitchEnabled

def lockoutGate (config : EdgeThresholdConfig) (db : Db) (marketId : String) (side : Side)
    (now : ℚ) : Option String :=
  if config.sameMarketLifetimeLockout then
    if marketSideHasHistory (db.listPositions gateLimit) marketId side then
      some "same_market_lockout"
    else none
  else if 0 < config.sameMarketCooldownMinutes ∧
    inCooldown (db.listPositions gateLimit) marketId side config.sameMarketCooldownMinutes now
  then some "same_market_cooldown"
  else none

/-- `_portfolio_gates` on a portfolio that was read, with a version's own gate
between the kill switch and the lockout: the open exposure, where the heat cap
is on. -/
def portfolioGates (config : EdgeThresholdConfig) (extra : Option String) (db : Db)
    (marketId : String) (side : Side) (now : ℚ) : Except String (Option ℚ) :=
  if 0 < config.heatCapUsd ∧ config.heatCapUsd ≤ db.openCost then .error "heat_cap"
  else
    let kill := if config.killSwitchEnabled then
      killSwitchCheck config (db.listPositions gateLimit) now else none
    match kill.or (extra.or (lockoutGate config db marketId side now)) with
    | some reason => .error reason
    | none => .ok (if 0 < config.heatCapUsd then some db.openCost else none)

end OpenPoly
