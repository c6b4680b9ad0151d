import OpenPoly.Spec.Sizing

/-! The exit sections `threshold_v0` and `threshold_v1`: whether a marked position
is closed, and on which trigger. v1 overrides steps of v0, so the rules are one
definition over a record of them; it adds the hard stop on a thin mark and the
longest holding time. -/

namespace OpenPoly

inductive Trigger where
  | takeProfit
  | stopLoss
  | peakDrawdown
  | maxHold
  deriving DecidableEq, Repr

def Trigger.name : Trigger → String
  | .takeProfit => "take_profit"
  | .stopLoss => "stop_loss"
  | .peakDrawdown => "peak_drawdown"
  | .maxHold => "max_hold"

structure MarkedPosition where
  marketId : String
  side : Side
  avgEntryPrice : ℚ
  qty : ℚ
  currentPrice : ℚ
  peakPrice : ℚ
  spread : Option ℚ := none
  tickSize : Option ℚ := none
  ask : Option ℚ := none
  thin : Bool := false
  thinStreak : ℕ := 0
  heldHours : Option ℚ := none
  deriving DecidableEq, Repr

structure CloseIntent where
  marketId : String
  side : Side
  price : ℚ
  qty : ℚ
  trigger : Trigger
  deriving DecidableEq, Repr

/-- The signals a decision carries; a key that is not set is none. -/
structure ExitSignals where
  returnPct : Option ℚ := none
  peakPrice : Option ℚ := none
  peakDd : Option ℚ := none
  peakMeaningful : Option Bool := none
  trailDistance : Option ℚ := none
  stopReturnPct : Option ℚ := none
  trigger : Option Trigger := none
  thin : Bool := false
  askReturnPct : Option ℚ := none
  thinStreak : Option ℕ := none
  thinStopPending : Bool := false
  floorPrice : Option ℚ := none
  heldHours : Option ℚ := none
  deriving DecidableEq, Repr

/-- What an exit section returns: its verdict is `ok` where it closes, else `skip`. -/
structure ExitOutput where
  payload : Option CloseIntent
  reason : String
  signals : ExitSignals := {}
  deriving DecidableEq, Repr

/-- `round(x, n)`. -/
def roundTo (n : ℕ) (x : ℚ) : ℚ := roundHalfEven (x * 10 ^ n) / 10 ^ n

structure ThresholdExitConfig where
  takeProfitPct : ℚ := 1 / 5
  takeProfitEnabled : Bool := false
  stopLossPct : ℚ := 3 / 20
  peakDrawdownPct : ℚ := 3 / 25
  minTrailTicks : ℕ := 2
  tickSize : ℚ := 1 / 100
  peakMeaningfulFloorUsd : ℚ := 1
  peakMeaningfulFloorPct : ℚ := 3 / 10
  takeProfitPct_range : 0 ≤ takeProfitPct ∧ takeProfitPct ≤ 10 := by norm_num
  stopLossPct_range : 0 ≤ stopLossPct ∧ stopLossPct ≤ 1 := by norm_num
  peakDrawdownPct_range : 0 ≤ peakDrawdownPct ∧ peakDrawdownPct ≤ 1 := by norm_num
  minTrailTicks_range : minTrailTicks ≤ 100 := by norm_num
  tickSize_range : 0 < tickSize ∧ tickSize ≤ 1 := by norm_num
  peakMeaningfulFloorUsd_range : 0 ≤ peakMeaningfulFloorUsd := by norm_num
  peakMeaningfulFloorPct_range : 0 ≤ peakMeaningfulFloorPct ∧ peakMeaningfulFloorPct ≤ 1 := by
    norm_num

def MarkedPosition.returnPct (pos : MarkedPosition) : ℚ :=
  (pos.currentPrice - pos.avgEntryPrice) / pos.avgEntryPrice

structure ExitSteps where
  /-- `_spread_floor`, of the spread, the percentage trail and the tick. -/
  spreadFloor : ℚ → ℚ → ℚ → ℚ
  /-- `_stop_triggered`, given the return of the mark. -/
  stopTriggered : MarkedPosition → ℚ → Bool

def ThresholdExitConfig.tickOf (config : ThresholdExitConfig) (pos : MarkedPosition) : ℚ :=
  match pos.tickSize with
  | some tick => if 0 < tick then tick else config.tickSize
  | none => config.tickSize

def ExitSteps.trailDistance (steps : ExitSteps) (config : ThresholdExitConfig)
    (pos : MarkedPosition) : ℚ :=
  let tick := config.tickOf pos
  let spread := match pos.spread with
    | some spread => if 0 < spread then spread else 0
    | none => 0
  let pctTrail := config.peakDrawdownPct * (pos.peakPrice - pos.avgEntryPrice)
  max (max (config.minTrailTicks * tick) (steps.spreadFloor spread pctTrail tick)) pctTrail

def ThresholdExitConfig.peakMeaningful (config : ThresholdExitConfig) (pos : MarkedPosition) :
    Bool :=
  let costBasis := pos.avgEntryPrice * pos.qty
  let peakGainUsd := (pos.peakPrice - pos.avgEntryPrice) * pos.qty
  let floor := max config.peakMeaningfulFloorUsd (config.peakMeaningfulFloorPct * costBasis)
  pos.avgEntryPrice < pos.peakPrice ∧ floor ≤ peakGainUsd

/-- The trigger that fires, in the order of precedence. -/
def ExitSteps.trigger (steps : ExitSteps) (config : ThresholdExitConfig) (pos : MarkedPosition) :
    Option Trigger :=
  if steps.stopTriggered pos pos.returnPct then some .stopLoss
  else if config.takeProfitEnabled ∧ config.takeProfitPct ≤ pos.returnPct then some .takeProfit
  else if config.peakMeaningful pos ∧
      steps.trailDistance config pos ≤ pos.peakPrice - pos.currentPrice then some .peakDrawdown
  else none

def ExitSteps.signals (steps : ExitSteps) (config : ThresholdExitConfig) (pos : MarkedPosition) :
    ExitSignals where
  returnPct := some (roundTo 4 pos.returnPct)
  peakPrice := some (roundTo 4 pos.peakPrice)
  peakDd :=
    if config.peakMeaningful pos then
      some (roundTo 4 ((pos.peakPrice - pos.currentPrice) / (pos.peakPrice - pos.avgEntryPrice)))
    else none
  peakMeaningful := some (config.peakMeaningful pos)
  trailDistance := some (roundTo 4 (steps.trailDistance config pos))
  trigger := steps.trigger config pos

/-- The intent to close the whole position at a price. -/
def MarkedPosition.closeAt (pos : MarkedPosition) (price : ℚ) (trigger : Trigger) : CloseIntent where
  marketId := pos.marketId
  side := pos.side
  price := price
  qty := pos.qty
  trigger := trigger

/-- `run`, on the position upstream where there is one. -/
def ExitSteps.run (steps : ExitSteps) (config : ThresholdExitConfig) :
    Option MarkedPosition → ExitOutput
  | none => { payload := none, reason := "no position upstream" }
  | some pos =>
    if pos.avgEntryPrice ≤ 0 then { payload := none, reason := "invalid avg_entry_price" }
    else
      let signals := steps.signals config pos
      match steps.trigger config pos with
      | none => { payload := none, reason := "within thresholds", signals := signals }
      | some trigger =>
        { payload := some (pos.closeAt pos.currentPrice trigger), reason := trigger.name,
          signals := signals }

/-- The steps of `ThresholdExitV0`. -/
def exitStepsV0 (config : ThresholdExitConfig) : ExitSteps where
  spreadFloor spread _ _ := spread
  stopTriggered _ returnPct := returnPct ≤ -config.stopLossPct

structure ThresholdExitConfigV1 extends ThresholdExitConfig where
  hardStopLossPct : ℚ := 3 / 10
  maxHoldHours : ℚ := 0
  hardStopLossPct_range : 0 ≤ hardStopLossPct ∧ hardStopLossPct ≤ 1 := by norm_num
  maxHoldHours_range : 0 ≤ maxHoldHours ∧ maxHoldHours ≤ 8760 := by norm_num

def spreadCapTicks : ℕ := 2

def thinNoAskConfirmTicks : ℕ := 3

def thinStopSweepMargin : ℚ := 1 / 10

/-- `_stop_mark`: the mid, where the ask is known and not crossed below the bid. -/
def stopMark (pos : MarkedPosition) : ℚ :=
  match pos.ask with
  | some ask => if pos.currentPrice ≤ ask then (pos.currentPrice + ask) / 2 else pos.currentPrice
  | none => pos.currentPrice

def stopReturnPct (pos : MarkedPosition) : ℚ :=
  (stopMark pos - pos.avgEntryPrice) / pos.avgEntryPrice

/-- The steps of `ThresholdExitV1`. -/
def exitStepsV1 (config : ThresholdExitConfigV1) : ExitSteps where
  spreadFloor spread pctTrail tick := min spread (max pctTrail 0 + spreadCapTicks * tick)
  stopTriggered pos returnPct :=
    stopReturnPct pos ≤ -config.stopLossPct ∨ returnPct ≤ -config.hardStopLossPct

/-- The lowest price a confirmed hard stop on a thin mark may sweep to. -/
def thinStopFloor (config : ThresholdExitConfigV1) (pos : MarkedPosition) : ℚ :=
  max (config.tickOf pos)
    (pos.avgEntryPrice * (1 - config.hardStopLossPct - thinStopSweepMargin))

def thinStop (config : ThresholdExitConfigV1) (pos : MarkedPosition) (signals : ExitSignals) :
    ExitOutput where
  payload := some (pos.closeAt (thinStopFloor config pos) .stopLoss)
  reason := Trigger.stopLoss.name
  signals := { signals with
    trigger := some .stopLoss
    floorPrice := some (roundTo 4 (thinStopFloor config pos)) }

def thinMarkDecision (config : ThresholdExitConfigV1) (pos : MarkedPosition) : ExitOutput :=
  let signals : ExitSignals := { returnPct := some (roundTo 4 pos.returnPct), thin := true }
  if -config.hardStopLossPct < pos.returnPct then
    { payload := none, reason := "thin book: hard stop only", signals := signals }
  else
    match pos.ask with
    | some ask =>
      let askReturn := (ask - pos.avgEntryPrice) / pos.avgEntryPrice
      let signals := { signals with askReturnPct := some (roundTo 4 askReturn) }
      if -config.hardStopLossPct < askReturn then
        { payload := none, reason := "thin book: bid collapse not confirmed by the ask",
          signals := signals }
      else thinStop config pos signals
    | none =>
      let streak := pos.thinStreak + 1
      let signals := { signals with thinStreak := some streak }
      if streak < thinNoAskConfirmTicks then
        { payload := none, reason := "thin book: no ask, awaiting a persistent collapse",
          signals := { signals with thinStopPending := true } }
      else thinStop config pos signals

/-- `_max_hold_decision`: `held`, or a close at the longest holding time. -/
def maxHoldDecision (config : ThresholdExitConfigV1) (pos : MarkedPosition) (held : ExitOutput) :
    ExitOutput :=
  match pos.heldHours with
  | none => held
  | some hours =>
    if config.maxHoldHours ≤ 0 ∨ hours < config.maxHoldHours then held
    else
      { payload := some (pos.closeAt pos.currentPrice .maxHold)
        reason := Trigger.maxHold.name
        signals := { held.signals with
          trigger := some .maxHold
          heldHours := some (roundTo 2 hours) } }

def noteStopReturn (pos : MarkedPosition) (out : ExitOutput) : ExitOutput :=
  { out with signals := { out.signals with stopReturnPct := some (roundTo 4 (stopReturnPct pos)) } }

/-- The `run` of v1. -/
def exitRunV1 (config : ThresholdExitConfigV1) : Option MarkedPosition → ExitOutput
  | none => (exitStepsV1 config).run config.toThresholdExitConfig none
  | some pos =>
    if pos.thin ∧ 0 < pos.avgEntryPrice then thinMarkDecision config pos
    else
      let out := (exitStepsV1 config).run config.toThresholdExitConfig (some pos)
      if 0 < pos.avgEntryPrice then
        let out := noteStopReturn pos out
        if out.payload.isNone then maxHoldDecision config pos out else out
      else out

inductive ExitSection where
  | v0 (config : ThresholdExitConfig)
  | v1 (config : ThresholdExitConfigV1)

def ExitSection.run : ExitSection → Option MarkedPosition → ExitOutput
  | .v0 config => (exitStepsV0 config).run config
  | .v1 config => exitRunV1 config

def ExitSection.evaluatesThinMarks : ExitSection → Bool
  | .v0 _ => false
  | .v1 _ => true

end OpenPoly
