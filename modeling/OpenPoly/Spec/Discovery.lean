import OpenPoly.Spec.MarketData

/-! Discovery: the filter a normalized market must pass, the catalog, and one poll
of the source manager with its holding sync. -/

namespace OpenPoly

inductive RejectReason where
  | resolved
  | excludedTag
  | nullFee
  | feeNotZero
  | missingEndDate
  | nearExpiry
  | lowVolume
  | lowLiquidity
  | priceExtreme
  | highSpread
  deriving DecidableEq, Repr

def RejectReason.label : RejectReason → String
  | .resolved => "market_resolved"
  | .excludedTag => "excluded_tag"
  | .nullFee => "null_fee_rate"
  | .feeNotZero => "fee_not_zero"
  | .missingEndDate => "missing_end_date"
  | .nearExpiry => "near_expiry"
  | .lowVolume => "low_volume"
  | .lowLiquidity => "low_liquidity"
  | .priceExtreme => "price_extreme"
  | .highSpread => "high_spread"

/-- `MarketFilterConfig`, with the bounds its fields declare. -/
structure MarketFilterConfig where
  requireZeroFee : Bool := true
  minHoursToExpiry : ℚ := 24
  minVolume24h : ℚ := 1000
  minLiquidity : ℚ := 500
  minPrice : ℚ := 3 / 100
  maxSpread : ℚ := 15 / 100
  excludeEventTags : List String := ["sports"]
  minHoursToExpiry_range : 0 ≤ minHoursToExpiry := by norm_num
  minVolume24h_range : 0 ≤ minVolume24h := by norm_num
  minLiquidity_range : 0 ≤ minLiquidity := by norm_num
  minPrice_range : 0 ≤ minPrice ∧ minPrice ≤ 1 / 2 := by norm_num
  maxSpread_range : 0 ≤ maxSpread ∧ maxSpread ≤ 1 := by norm_num

inductive FilterDecision where
  | keep
  | reject (reason : RejectReason)
  deriving DecidableEq, Repr

def evaluateMarket (market : ListedMarket) (config : MarketFilterConfig) (now : ℚ) : FilterDecision :=
  if market.closed || !market.acceptingOrders || !market.enableOrderBook then .reject .resolved
  else if config.excludeEventTags.any (· ∈ market.eventTags) then .reject .excludedTag
  else if config.requireZeroFee ∧ market.takerFeeRate = none then .reject .nullFee
  else if config.requireZeroFee ∧ market.takerFeeRate.any (0 < ·) then .reject .feeNotZero
  else
    match market.endDate with
    | none => .reject .missingEndDate
    | some endDate =>
      if (endDate - now) / 3600 < config.minHoursToExpiry then .reject .nearExpiry
      else if market.volume24h < config.minVolume24h then .reject .lowVolume
      else if market.liquidity < config.minLiquidity then .reject .lowLiquidity
      else
        match market.referencePrice with
        | none => .reject .priceExtreme
        | some price =>
          if price < config.minPrice ∨ 1 - config.minPrice < price then .reject .priceExtreme
          else if market.spread.any (config.maxSpread < ·) then .reject .highSpread
          else .keep

structure FilterReport where
  kept : List ListedMarket
  rejected : List (ListedMarket × RejectReason)
  reasonCounts : List (String × ℕ)

/-- `counts[key] = counts.get(key, 0) + 1`. -/
def bumpCount : List (String × ℕ) → String → List (String × ℕ)
  | [], key => [(key, 1)]
  | (k, n) :: counts, key =>
    if k = key then (k, n + 1) :: counts else (k, n) :: bumpCount counts key

def FilterReport.add (config : MarketFilterConfig) (now : ℚ) (report : FilterReport)
    (market : ListedMarket) : FilterReport :=
  match evaluateMarket market config now with
  | .keep => { report with kept := report.kept ++ [market] }
  | .reject reason =>
    { report with
      rejected := report.rejected ++ [(market, reason)]
      reasonCounts := bumpCount report.reasonCounts reason.label }

def filterMarkets (markets : List ListedMarket) (config : MarketFilterConfig) (now : ℚ) : FilterReport :=
  markets.foldl (FilterReport.add config now) ⟨[], [], []⟩

structure PollSummary where
  ts : ℚ
  fetched : ℕ
  kept : ℕ
  reasonCounts : List (String × ℕ)
  holdingSynced : ℕ := 0
  holdingSyncFailed : ℕ := 0
  deriving DecidableEq, Repr

/-- The catalog of a `MarketStore` and its last poll. -/
structure MarketStore where
  catalog : String → Option ListedMarket
  lastPoll : Option PollSummary

/-- `replace`: of two markets with one id the later one counts. -/
def MarketStore.replace (_ : MarketStore) (markets : List ListedMarket) (summary : PollSummary) :
    MarketStore where
  catalog := fun id => markets.reverse.find? fun m => m.marketId = id
  lastPoll := some summary

def MarketStore.union (s : MarketStore) (markets : List ListedMarket) : MarketStore :=
  markets.foldl (fun s m =>
    if (s.catalog m.marketId).isSome then s
    else { s with catalog := Function.update s.catalog m.marketId (some m) }) s

abbrev EventMarketPair := Dict × Dict

/-- The pairs of an `/events` document: of every event that is an object, every
market that is one. -/
def eventPairs (events : Json) : List EventMarketPair :=
  match events with
  | .arr events => events.flatMap fun
    | .obj event =>
      match Dict.get event "markets" with
      | .arr markets => markets.filterMap fun
        | .obj market => some (market, event)
        | _ => none
      | _ => []
    | _ => []
  | _ => []

def discoverEvents (env : PyEnv) (first second : Json) : Except PyErr (List EventMarketPair) :=
  (getJson env first second).map eventPairs

def Json.firstRow : Json → Json
  | .arr (x :: _) => x
  | data => data

/-- `fetch_market_by_id`: whatever goes wrong, no market. -/
def fetchMarketById (env : PyEnv) (first second : Json) : Option ListedMarket :=
  match getJson env first second with
  | .error _ => none
  | .ok data =>
    if !data.truthy then none
    else
      match data.firstRow with
      | .obj raw => (normalizeGammaMarket env raw []).toOption.join
      | _ => none

/-- What one poll meets: the discovery fetch, the clock the filter and the summary
read, the open positions' market ids (none where there is no store or it fails)
and the lookups of single markets. -/
structure Poll where
  pairs : Except PyErr (List EventMarketPair)
  now : ℚ
  ts : ℚ
  positions : Option (List String)
  lookup : String → Except PyErr (Option ListedMarket)

/-- What came of it: the catalogs at its await points, the store it left, and
the exception it ended with. -/
structure PollRun where
  awaits : List (String → Option ListedMarket)
  store : MarketStore
  synced : ℕ := 0
  failed : ℕ := 0
  raised : Option PyErr := none

/-- The loop of `_sync_holdings_once` over the missing ids. -/
def syncMissing (lookup : String → Except PyErr (Option ListedMarket)) (s : MarketStore) :
    List String → PollRun
  | [] => { awaits := [], store := s }
  | id :: missing =>
    match lookup id with
    | .error e => { awaits := [s.catalog], store := s, raised := some e }
    | .ok none =>
      let run := syncMissing lookup s missing
      { run with awaits := s.catalog :: run.awaits, failed := run.failed + 1 }
    | .ok (some market) =>
      let run := syncMissing lookup (s.union [market]) missing
      { run with awaits := s.catalog :: run.awaits, synced := run.synced + 1 }

def missingIds (s : MarketStore) (positions : List String) : List String :=
  positions.eraseDups.filter fun id => (s.catalog id).isNone

def syncHoldingsOnce (p : Poll) (s : MarketStore) : PollRun :=
  match p.positions with
  | none => { awaits := [], store := s }
  | some positions => syncMissing p.lookup s (missingIds s positions)

/-- The markets of a discovery result, those that are unusable left out. -/
def normalizePairs (env : PyEnv) (pairs : List EventMarketPair) : Except PyErr (List ListedMarket) := do
  let markets ← pairs.mapM fun pair => normalizeGammaMarket env pair.1 pair.2
  return markets.filterMap id

def pollOnce (env : PyEnv) (config : MarketFilterConfig) (s : MarketStore) (p : Poll) : PollRun :=
  match p.pairs with
  | .error e => { awaits := [s.catalog], store := s, raised := some e }
  | .ok pairs =>
    match normalizePairs env pairs with
    | .error e => { awaits := [s.catalog], store := s, raised := some e }
    | .ok markets =>
      let report := filterMarkets markets config p.now
      let summary : PollSummary :=
        { ts := p.ts, fetched := pairs.length, kept := report.kept.length,
          reasonCounts := report.reasonCounts }
      let run := syncHoldingsOnce p (s.replace report.kept summary)
      let run := { run with awaits := s.catalog :: run.awaits }
      if run.raised = none ∧ (0 < run.synced ∨ 0 < run.failed) then
        { run with store := { run.store with
            lastPoll := some { summary with
              holdingSynced := run.synced, holdingSyncFailed := run.failed } } }
      else run

end OpenPoly
