import OpenPoly.Spec.Settle

/-! `LiveExecutor`: what is checked before an order is posted, what its answer
or its loss is taken for, how the fill is stored, and the guard that keeps a
second SELL off a position whose first may still rest. -/

namespace OpenPoly

def ctfDecimals : ℕ := 6

def ctfPollAttempts : ℕ := 5

def persistAttempts : ℕ := 5

/-- `_read_ctf_balance_raw`: unknown when a request failed or the field is not
a number. -/
def readCtfBalanceRaw : Except PyErr Json → Option ℤ
  | .ok (.obj ba) =>
    match pyInt (Dict.get ba "balance") with
    | .ok n => some n
    | .error _ => none
  | _ => none

/-- How far the balance moved the way the order moves it. -/
def ctfDelta (side : FillAction) (preRaw nowRaw : ℤ) : ℤ :=
  match side with
  | .buy => nowRaw - preRaw
  | .sell => preRaw - nowRaw

/-- The polls of `_confirm_lost_order_qty`. -/
def confirmPolls (side : FillAction) (preRaw : ℤ) : List (Except PyErr Json) → Except PyErr PyFloat
  | [] => .ok (.fin 0)
  | answer :: rest =>
    match readCtfBalanceRaw answer with
    | none => confirmPolls side preRaw rest
    | some nowRaw =>
      let delta := ctfDelta side preRaw nowRaw
      if 0 < delta then (intTrueDiv delta (10 ^ ctfDecimals)).map .fin
      else confirmPolls side preRaw rest

def confirmLostOrderQty (side : FillAction) (preRaw : ℤ) (answers : ℕ → Except PyErr Json) :
    Except PyErr PyFloat :=
  confirmPolls side preRaw ((List.range ctfPollAttempts).map answers)

def ctfSynced (needRaw : ℤ) (answers : ℕ → Except PyErr Json) : Option ℤ :=
  (((List.range ctfPollAttempts).map answers).filterMap readCtfBalanceRaw).find?
    fun haveRaw => needRaw ≤ haveRaw

structure OrderArgs where
  tokenId : String
  price : ℚ
  size : ℚ
  side : FillAction
  negRisk : Bool
  deriving DecidableEq, Repr

/-- An order that passed every check: its arguments, the market's condition and
the balance it is confirmed against should its answer be lost. -/
structure Placement where
  order : OrderArgs
  conditionId : String
  preRaw : ℤ
  deriving DecidableEq, Repr

/-- What the venue answers over one call. -/
structure VenueAnswers where
  /-- The balance reads before the order. -/
  before : ℕ → Except PyErr Json
  post : Except PyErr Json
  rounds : ℕ → Round
  final : Except PyErr Json
  /-- The balance reads that confirm a fill. -/
  after : ℕ → Except PyErr Json

/-- The checks of `execute_buy`, in order. -/
def buyPlacement (catalog : Catalog) (db : Db) (intent : OrderIntent) (v : VenueAnswers) :
    Except ExecResult Placement :=
  match catalog.markets intent.marketId with
  | none => .error (.skip .marketNotFound)
  | some market =>
    match market.tokenFor intent.side with
    | none => .error (.skip .noToken)
    | some tokenId =>
      let size := quantizeSize intent.qty intent.price
      if (db.getOpenPosition intent.marketId intent.side).isSome then
        .error (.skip .positionExists)
      else if !inPriceBand (some intent.price) then .error (.skip .priceOutOfBand)
      else if size * intent.price < minNotionalUsd then .error (.skip .minNotionalBelowFloor)
      else
        match readCtfBalanceRaw (v.before 0) with
        | none => .error (.skip .ctfBalanceUnavailable)
        | some preRaw => .ok {
            order := ⟨tokenId, intent.price, size, .buy, market.negRisk⟩
            conditionId := market.conditionId
            preRaw := preRaw }

/-- The price a SELL is signed at: the best bid, or the floor where lower, and
never below one tick. -/
def sellLimit (market : Market) (bid : ℚ) (floorPrice : Option ℚ) : ℚ :=
  let price := match floorPrice with
    | some floor => if floor < bid then floor else bid
    | none => bid
  max price (marketTick market)

/-- The checks of `_execute_sell`, in order. -/
def sellPlacement (catalog : Catalog) (position : HeldPosition) (floorPrice : Option ℚ)
    (v : VenueAnswers) : Except ExecResult Placement :=
  match catalog.markets position.marketId with
  | none => .error (.skip .marketNotFound)
  | some market =>
    match (catalog.books position.tokenId).bind OrderBook.bestBid with
    | none => .error (.skip .noBidLiquidity)
    | some bid =>
      let price := sellLimit market bid floorPrice
      let size := quantizeSize position.qty price
      if !inPriceBand (some price) then .error (.skip .priceOutOfBand)
      else if size ≤ 0 then .error (.skip .dustRemainder)
      else
        match ctfSynced ⌊size * 10 ^ ctfDecimals⌋ v.before with
        | none => .error (.skip .ctfCacheNotSynced)
        | some preRaw => .ok {
            order := ⟨position.tokenId, price, size, .sell, market.negRisk⟩
            conditionId := market.conditionId
            preRaw := preRaw }

/-- `_post_order`: a body that is no document is a lost answer. -/
def postOrder : Except PyErr Json → Except PyErr Dict
  | .error exc => .error exc
  | .ok (.obj resp) => .ok resp
  | .ok _ => .error .typeError

/-- `_is_price_validation_error`, with the message. -/
def priceValidationError : PyErr → Option String
  | .polyException msg =>
    if msg.startsWith "invalid price" || msg.startsWith "invalid tick size" then some msg else none
  | _ => none

/-- A 4xx: the venue refused the request, with its words. -/
def requestRefused : PyErr → Option String
  | .polyApiException (some code) errorMsg =>
    if 400 ≤ code ∧ code < 500 then some errorMsg else none
  | _ => none

def fillFromBalance (confirm : Except PyErr PyFloat) (side : FillAction) (size limitPrice : ℚ)
    (estimatePrice : Option (ℚ → ℚ)) : Except PyErr (Except ExecResult (Option Fill)) := do
  match ← walletDelta confirm size with
  | none => return .error (.skip .liveFillUnknown)
  | some qty =>
    if qty ≤ 0 then return .ok none
    else
      return .ok (some {
        qty := qty
        price := bookablePrice (estimatePrice.map fun estimate => estimate qty) limitPrice side
        txHash := none
        orderId := none
        resting := qty < size - fillTol })

/-- What the venue's answers to a posted order amount to: a fill, a skip, or an
exception that escapes. -/
def orderFill (p : Placement) (v : VenueAnswers) (estimatePrice : Option (ℚ → ℚ)) :
    Except PyErr (Except ExecResult Fill) :=
  let confirm := confirmLostOrderQty p.order.side p.preRaw v.after
  match postOrder v.post with
  | .error exc =>
    match (priceValidationError exc).or (requestRefused exc) with
    | some words => .ok (.error (.skip (.liveRejected (.str words))))
    | none =>
      match fillFromBalance confirm p.order.side p.order.size p.order.price estimatePrice with
      | .error exc => .error exc
      | .ok (.error skip) => .ok (.error skip)
      | .ok (.ok none) => .ok (.error (.skip (.liveError exc.name)))
      | .ok (.ok (some fill)) => .ok (.ok fill)
  | .ok resp =>
    if orderWasRejected resp then .ok (.error (.skip (.liveRejected (rejectionReason resp))))
    else
      .ok (resolveFill resp p.order.side p.order.size p.order.price ⟨v.rounds, v.final, confirm⟩
        estimatePrice)

def writeOnce {α : Type} (write : Except PyErr α) (outage : Option PyErr) : Except PyErr α :=
  match outage with
  | some exc => .error exc
  | none => write

def persistRetry {α : Type} (write : Except PyErr α) :
    List (Option PyErr) → Option PyErr → Except PyErr α
  | [], last => writeOnce write last
  | outage :: outages, last =>
    match writeOnce write outage with
    | .error .operationalError => persistRetry write outages last
    | result => result

/-- `_persist_irreversible`: a write that raises leaves the tables as they were,
so every attempt is the same write; only `OperationalError` is retried. -/
def persistIrreversible {α : Type} (write : Except PyErr α) (outage : ℕ → Option PyErr) :
    Except PyErr α :=
  persistRetry write ((List.range (persistAttempts - 1)).map outage) (outage (persistAttempts - 1))

/-- What `_persist_open` passes to `open_position`. -/
def Fill.openArgs (fill : Fill) (intent : OrderIntent) (p : Placement) (newsId : Option String)
    (ts : ℚ) : OpenArgs where
  marketId := intent.marketId
  side := intent.side
  tokenId := p.order.tokenId
  conditionId := p.conditionId
  price := fill.price
  qty := fill.qty
  ts := ts
  newsId := newsId
  orderId := fill.orderId
  txHash := fill.txHash
  entryPModel := intent.pModel
  entryConfidence := intent.confidence
  entryEdge := intent.edge
  entryRationale := intent.rationale
  entryNewsDirection := intent.newsDirection

def persistOpen (db : Db) (intent : OrderIntent) (fill : Fill) (p : Placement)
    (newsId : Option String) (ts : ℚ) (outage : ℕ → Option PyErr) : ExecResult × Db :=
  match persistIrreversible (db.openPosition (fill.openArgs intent p newsId ts)) outage with
  | .error exc => (.skip (.openPersistFailed exc.name), db)
  | .ok (held, db') =>
    (.ok fill.price fill.qty held.positionId (if fill.resting then fill.orderId else none), db')

/-- What `_persist_sell` passes to `record_sell`. -/
def Fill.sellArgs (fill : Fill) (closeReason : CloseReason) (ts : ℚ) (trigger : Option String) :
    SellArgs where
  soldQty := fill.qty
  sellPrice := fill.price
  ts := ts
  closeReason := closeReason
  trigger := trigger
  orderId := fill.orderId
  txHash := fill.txHash

def persistSell (db : Db) (position : HeldPosition) (fill : Fill) (closeReason : CloseReason)
    (ts : ℚ) (trigger : Option String) (outage : ℕ → Option PyErr) : ExecResult × Db :=
  match persistIrreversible
      (db.recordSell position.positionId (fill.sellArgs closeReason ts trigger)) outage with
  | .error exc => (.skip (.closePersistFailed exc.name), db)
  | .ok (_, db') =>
    (.ok fill.price fill.qty position.positionId (if fill.resting then fill.orderId else none), db')

/-- What a call did: the order it posted, what it returned or raised, and the
tables it left. -/
structure Outcome where
  posted : Option OrderArgs
  result : Except PyErr ExecResult
  db : Db

/-- The rest of a call once its order was placed. -/
def placed (db : Db) (p : Placement) (v : VenueAnswers) (estimatePrice : Option (ℚ → ℚ))
    (persist : Fill → ExecResult × Db) : Outcome :=
  match orderFill p v estimatePrice with
  | .error exc => ⟨some p.order, .error exc, db⟩
  | .ok (.error skip) => ⟨some p.order, .ok skip, db⟩
  | .ok (.ok fill) => ⟨some p.order, .ok (persist fill).1, (persist fill).2⟩

structure BuyCall where
  catalog : Catalog
  intent : OrderIntent
  newsId : Option String := none
  ts : ℚ
  venue : VenueAnswers
  /-- What each attempt to store the fill meets. -/
  outage : ℕ → Option PyErr := fun _ => none

def BuyCall.placement (c : BuyCall) (db : Db) : Except ExecResult Placement :=
  buyPlacement c.catalog db c.intent c.venue

def executeBuy (db : Db) (c : BuyCall) : Outcome :=
  match c.placement db with
  | .error skip => ⟨none, .ok skip, db⟩
  | .ok p =>
    placed db p c.venue none fun fill => persistOpen db c.intent fill p c.newsId c.ts c.outage

structure SellCall where
  catalog : Catalog
  position : HeldPosition
  closeReason : CloseReason
  ts : ℚ
  trigger : Option String := none
  floorPrice : Option ℚ := none
  venue : VenueAnswers
  /-- The book of the token after the order, for the price estimate. -/
  bookAfter : Option OrderBook := none
  outage : ℕ → Option PyErr := fun _ => none
  /-- The answers to the cancel and the read of an earlier SELL that may rest. -/
  checkCancel : Except PyErr Json := .ok .null
  checkRead : Except PyErr Json := .ok .null

def SellCall.placement (c : SellCall) : Except ExecResult Placement :=
  sellPlacement c.catalog c.position c.floorPrice c.venue

/-- The estimate a SELL is booked at when its amounts are lost. -/
def SellCall.estimate (c : SellCall) (limit qty : ℚ) : ℚ :=
  sellPriceEstimate (((c.catalog.books c.position.tokenId).map OrderBook.bids).getD []) limit qty
    (c.bookAfter.bind OrderBook.bestBid)

/-- `_execute_sell`. -/
def executeSellUnguarded (db : Db) (c : SellCall) : Outcome :=
  match c.placement with
  | .error skip => ⟨none, .ok skip, db⟩
  | .ok p =>
    placed db p c.venue (some (c.estimate p.order.price)) fun fill =>
      persistSell db c.position fill c.closeReason c.ts c.trigger c.outage

structure RestingOrder where
  orderId : String
  size : ℚ
  booked : ℚ
  deriving DecidableEq, Repr

/-- The tables, and the executor's map of SELLs that may still rest. -/
structure LiveState where
  db : Db
  resting : ℕ → Option RestingOrder

def restingOrderOffBook (order : RestingOrder) (cancel read : Except PyErr Json) : Bool :=
  cancelAcked order.orderId cancel ||
    (readOrder read).any fun r => orderDone r.2 || r.1.any fun m => order.size - fillTol ≤ m

/-- The entry `execute_sell` keeps of a result that names a resting order. -/
def restingEntry (c : SellCall) (r : ExecResult) : Option RestingOrder :=
  r.restingOrderId.map fun orderId => ⟨orderId, quantizeSize c.position.qty 1, r.qty.getD 0⟩

/-- The map after a call that got past the guard. -/
def LiveState.restingAfter (s : LiveState) (c : SellCall) (out : Outcome) :
    ℕ → Option RestingOrder :=
  match out.result with
  | .error _ => s.resting
  | .ok r =>
    match restingEntry c r with
    | none => s.resting
    | some entry => Function.update s.resting c.position.positionId (some entry)

/-- `execute_sell` past its guard. -/
def sellPast (s : LiveState) (c : SellCall) : LiveState × Outcome :=
  let out := executeSellUnguarded s.db c
  (⟨out.db, s.restingAfter c out⟩, out)

def LiveState.dropResting (s : LiveState) (positionId : ℕ) : LiveState :=
  { s with resting := Function.update s.resting positionId none }

def executeSell (s : LiveState) (c : SellCall) : LiveState × Outcome :=
  match s.resting c.position.positionId with
  | none => sellPast s c
  | some pending =>
    if !restingOrderOffBook pending c.checkCancel c.checkRead then
      (s, ⟨none, .ok (.skip .restingOrderPending (some pending.orderId)), s.db⟩)
    else sellPast (s.dropResting c.position.positionId) c

inductive LiveCall where
  | buy (c : BuyCall)
  | sell (c : SellCall)

/-- The guard of `execute_sell` lets a new SELL through. -/
def LiveState.clear (s : LiveState) (c : SellCall) : Bool :=
  (s.resting c.position.positionId).all fun pending =>
    restingOrderOffBook pending c.checkCancel c.checkRead

/-- The order a call posts, if it passes its guard and checks. -/
def LiveCall.placement (s : LiveState) : LiveCall → Option Placement
  | .buy c => (c.placement s.db).toOption
  | .sell c => if s.clear c then c.placement.toOption else none

def LiveCall.venue : LiveCall → VenueAnswers
  | .buy c => c.venue
  | .sell c => c.venue

def LiveCall.estimate (p : Placement) : LiveCall → Option (ℚ → ℚ)
  | .buy _ => none
  | .sell c => some (c.estimate p.order.price)

def liveCall (s : LiveState) : LiveCall → LiveState × Outcome
  | .buy c =>
    let out := executeBuy s.db c
    ({ s with db := out.db }, out)
  | .sell c => executeSell s c

end OpenPoly
