import OpenPoly.Spec.Store

/-! Order sizing, prices and books: the venue's rules both executors obey, the
market and book records they read, and the result they return. -/

namespace OpenPoly

/-- $1.00 server minimum and a $0.10 buffer. -/
def minNotionalUsd : ℚ := 11 / 10

def minTokenPrice : ℚ := 1 / 10000

def maxTokenPrice : ℚ := 1 - minTokenPrice

def inPriceBand : Option ℚ → Bool
  | none => false
  | some price => minTokenPrice ≤ price ∧ price ≤ maxTokenPrice

def sizeDecimals : ℕ := 2

def minSellShares : ℚ := 1

def isDustQty (qty : ℚ) : Bool := qty < minSellShares

/-- `round(x, 6)`. -/
def round6 (x : ℚ) : ℚ := roundHalfEven (x * 10 ^ 6) / 10 ^ 6

/-- `quantize_size`: floored to two decimals, 0 below one share. The price is
not used. -/
def quantizeSize (qty _price : ℚ) : ℚ :=
  if isDustQty qty then 0
  else ⌊round6 (qty * 10 ^ sizeDecimals)⌋ / 10 ^ sizeDecimals

/-- The fields of a catalogued market the executors read. `Market` itself has no
`order_price_min_tick_size`; `getattr` finds none on it. -/
structure Market where
  marketId : String
  conditionId : String
  yesTokenId : String
  noTokenId : Option String
  takerFeeRate : Option ℚ := none
  negRisk : Bool := false
  orderPriceMinTickSize : Option ℚ := none
  deriving DecidableEq, Repr

def Market.tokenFor (m : Market) : Side → Option String
  | .yes => some m.yesTokenId
  | .no => m.noTokenId

abbrev Level := ℚ × ℚ

structure OrderBook where
  tokenId : String
  ts : ℚ
  bids : List Level
  asks : List Level
  deriving DecidableEq, Repr

def OrderBook.bestBid (b : OrderBook) : Option ℚ := b.bids.head?.map Prod.fst

/-- The market store: the catalog and the cached books. -/
structure Catalog where
  markets : String → Option Market
  books : String → Option OrderBook

def defaultTickSize : ℚ := 1 / 100

def marketTick (m : Market) : ℚ :=
  match m.orderPriceMinTickSize with
  | some tick => if 0 < tick ∧ tick < 1 then tick else defaultTickSize
  | none => defaultTickSize

def takerFeePerShare (rate : Option ℚ) (price : ℚ) : ℚ := rate.getD 0 * price * (1 - price)

/-- The loop of `sweep`: notional so far, and what of the quantity remains. -/
def sweepFrom : List Level → ℚ → ℚ → ℚ × ℚ
  | [], notional, remaining => (notional, remaining)
  | (price, size) :: levels, notional, remaining =>
    let take := min remaining size
    let notional := notional + take * price
    let remaining := remaining - take
    if remaining ≤ 0 then (notional, remaining) else sweepFrom levels notional remaining

def sweep (levels : List Level) (qty : ℚ) : ℚ × ℚ := sweepFrom levels 0 qty

structure OrderIntent where
  marketId : String
  side : Side
  price : ℚ
  qty : ℚ
  pModel : Option ℚ := none
  confidence : Option String := none
  edge : Option ℚ := none
  rationale : Option String := none
  newsDirection : Option String := none
  deriving DecidableEq, Repr

inductive SkipReason where
  | marketNotFound
  | noToken
  | positionExists
  | priceOutOfBand
  | minNotionalBelowFloor
  | ctfBalanceUnavailable
  | noBidLiquidity
  | dustRemainder
  | ctfCacheNotSynced
  | restingOrderPending
  /-- `live_rejected:`, with the value the venue's words are the `str()` of. -/
  | liveRejected (detail : Json)
  | liveNoMatch
  | liveUnparseable
  | liveCancelFailed
  | liveFillUnknown
  | liveError (name : String)
  | openPersistFailed (name : String)
  | closePersistFailed (name : String)
  | noOrderBook
  | noAskLiquidity
  | dust
  | liveNotReady
  | marketClosedAwaitSettlement
  | staleOrderBook
  | bidDepthBelowMinSize
  deriving DecidableEq

structure ExecResult where
  filled : Bool
  skipReason : Option SkipReason := none
  price : Option ℚ := none
  qty : Option ℚ := none
  positionId : Option ℕ := none
  restingOrderId : Option String := none
  fee : ℚ := 0

def ExecResult.skip (reason : SkipReason) (restingOrderId : Option String := none) : ExecResult where
  filled := false
  skipReason := some reason
  restingOrderId := restingOrderId

def ExecResult.ok (price qty : ℚ) (positionId : ℕ) (restingOrderId : Option String := none)
    (fee : ℚ := 0) : ExecResult where
  filled := true
  price := some price
  qty := some qty
  positionId := some positionId
  restingOrderId := restingOrderId
  fee := fee

example : quantizeSize (556 / 100) (1 / 2) = 556 / 100 := by decide +kernel
example : sweep [(1 / 2, 4), (2 / 5, 10)] 6 = (14 / 5, 0) := by decide +kernel

end OpenPoly
