import OpenPoly.Spec.MarketData
import OpenPoly.Spec.Closing

/-! The settlement monitor: one tick closes the positions of resolved markets at
their final price of 0 or 1. -/

namespace OpenPoly

/-- The rows of a `/markets` document: a list, or one under `data`. -/
def marketRows (raw : Json) : List Dict :=
  let rows := match raw with
    | .arr rows => rows
    | .obj raw =>
      match Dict.get raw "data" with
      | .arr rows => rows
      | _ => []
    | _ => []
  rows.filterMap fun
    | .obj row => some row
    | _ => none

def fetchMarketsByConditionId (env : PyEnv) (first second : Json) : Except PyErr (List Dict) :=
  (getJson env first second).map marketRows

/-- `round(x, 4)`: the double nearest to the decimal `x` is rounded to. -/
def round4 (x : ℚ) : ℚ := nearestDouble (roundHalfEven (x * 10 ^ 4) / 10 ^ 4)

/-- `_settlement_price_for_side`: no price where the outcome is not a clean 0/1. -/
def settlementPriceForSide (outcomePrices : ℚ × ℚ) (side : Side) : Option ℚ :=
  let yes := round4 outcomePrices.1
  let no := round4 outcomePrices.2
  if (yes = 0 ∧ no = 1) ∨ (yes = 1 ∧ no = 0) then
    match side with
    | .yes => some outcomePrices.1
    | .no => some outcomePrices.2
  else none

inductive SettlementVerdict where
  | ok
  | skip
  | error
  deriving DecidableEq, Repr

structure SettlementDecision where
  ts : ℚ
  positionId : ℕ
  marketId : String
  side : Side
  verdict : SettlementVerdict
  finalPrice : Option ℚ := none
  realizedPnl : Option ℚ := none
  reason : Option String := none
  error : Option String := none
  deriving DecidableEq, Repr

/-- What a tick works on: the tables, the log, the clock's readings so far, and,
for the reader of it, the markets it has processed. -/
structure SettlementTick where
  db : Db
  log : List SettlementDecision
  reads : ℕ
  processed : List Dict
  fetchError : Option PyErr := none

/-- The entry `_log` starts from. -/
def settlementEntry (held : HeldPosition) (ts : ℚ) (verdict : SettlementVerdict) : SettlementDecision :=
  { ts, positionId := held.positionId, marketId := held.marketId, side := held.side, verdict }

def SettlementTick.record (t : SettlementTick) (d : SettlementDecision) : SettlementTick :=
  { t with log := t.log ++ [d] }

/-- What the monitor runs among: the interpreter, the texts of exceptions, the
positions with an exit in flight, and the clock's successive readings. -/
structure SettlementEnv extends PyEnv where
  excText : PyErr → String
  isClosing : ℕ → Bool
  clock : ℕ → ℚ

/-- One held position of a resolved market. A close that raises is logged; the
gain read back after a close that returns is not guarded. -/
def settlePosition (env : SettlementEnv) (outcomePrices : ℚ × ℚ) (ts : ℚ) (t : SettlementTick)
    (held : HeldPosition) : Except PyErr SettlementTick :=
  if env.isClosing held.positionId then
    .ok (t.record { settlementEntry held ts .skip with reason := some "exit_in_flight" })
  else
    match settlementPriceForSide outcomePrices held.side with
    | none => .ok (t.record { settlementEntry held ts .skip with reason := some "ambiguous_outcome" })
    | some finalPrice =>
      match t.db.closePosition held.positionId (settlementClose finalPrice ts) with
      | .error e =>
        .ok (t.record { settlementEntry held ts .error with
          finalPrice := some finalPrice
          error := some ("close_failed: " ++ e.name ++ ": " ++
            String.ofList ((env.excText e).toList.take 160)) })
      | .ok (_, db) => do
        let realized ← db.realizedGain held.positionId finalPrice held.qty 0
        return { t with db }.record { settlementEntry held ts .ok with
          finalPrice := some finalPrice
          realizedPnl := some realized
          reason := some "settlement" }

def processMarket (env : SettlementEnv) (t : SettlementTick) (raw : Dict) (held : List HeldPosition) :
    Except PyErr SettlementTick := do
  let ts := env.clock t.reads
  let t := { t with reads := t.reads + 1 }
  let market ← normalizeGammaMarket env.toPyEnv raw []
  let t ← match market with
    | none =>
      .ok (held.foldl (fun t h => t.record { settlementEntry h ts .error with
        error := some "market_normalize_failed" }) t)
    | some market =>
      if !market.closed then
        .ok (held.foldl (fun t h => t.record { settlementEntry h ts .skip with
          reason := some "still_trading" }) t)
      else
        match market.outcomePrices with
        | none =>
          .ok (held.foldl (fun t h => t.record { settlementEntry h ts .skip with
            reason := some "no_outcome_prices" }) t)
        | some outcomePrices => held.foldlM (settlePosition env outcomePrices ts) t
  return { t with processed := t.processed ++ [raw] }

def rowConditionId (env : PyEnv) (raw : Dict) : Option String :=
  ((raw.get "conditionId").orElse (raw.get "condition_id")).textIfTruthy env

/-- One returned row: one without a condition id is passed over. -/
def settleRow (env : SettlementEnv) (opens : List HeldPosition) (t : SettlementTick) (raw : Dict) :
    Except PyErr SettlementTick :=
  match rowConditionId env.toPyEnv raw with
  | none => .ok t
  | some cid => processMarket env t raw (opens.filter fun h => h.conditionId = cid)

def byConditionId (opens : List HeldPosition) : List (String × List HeldPosition) :=
  (opens.map HeldPosition.conditionId).eraseDups.map fun cid =>
    (cid, opens.filter fun h => h.conditionId = cid)

/-- `_tick_once` on the fetch's answer. -/
def settlementTickOnce (env : SettlementEnv) (db : Db) (first second : Json) :
    Except PyErr SettlementTick :=
  let start : SettlementTick := { db, log := [], reads := 0, processed := [] }
  let opens := db.getOpenPositions
  if opens = [] then .ok start
  else
    match fetchMarketsByConditionId env.toPyEnv first second with
    | .error e =>
      let ts := env.clock 0
      .ok { (byConditionId opens).foldl (fun t group =>
          group.2.foldl (fun t h => t.record { settlementEntry h ts .error with
            error := some ("gamma_fetch_failed: " ++ e.name) }) t) start with
        reads := 1
        fetchError := some e }
    | .ok rows => do
      let t ← rows.foldlM (settleRow env opens) start
      let returned := rows.filterMap (rowConditionId env.toPyEnv)
      let ts := env.clock t.reads
      return (byConditionId opens).foldl (fun t group =>
        if group.1 ∈ returned then t
        else group.2.foldl (fun t h => t.record { settlementEntry h ts .skip with
          reason := some "market_not_returned_by_gamma" }) t) { t with reads := t.reads + 1 }

end OpenPoly
