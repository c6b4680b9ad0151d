import OpenPoly.Spec.LiveExecutor
import OpenPoly.Spec.RuntimeState

/-! `PaperExecutor`, and the dispatcher that picks the executor of a buy by the
mode. -/

namespace OpenPoly

/-- The checks of the paper `execute_buy`, in order, and what it records: a fill
at the level-1 ask. -/
def paperFill (catalog : Catalog) (db : Db) (intent : OrderIntent) (newsId : Option String)
    (ts : ℚ) : Except ExecResult OpenArgs :=
  match catalog.markets intent.marketId with
  | none => .error (.skip .marketNotFound)
  | some market =>
    match market.tokenFor intent.side with
    | none => .error (.skip .noToken)
    | some tokenId =>
      match catalog.books tokenId with
      | none => .error (.skip .noOrderBook)
      | some book =>
        match book.asks with
        | [] => .error (.skip .noAskLiquidity)
        | (askPrice, askSize) :: _ =>
          let qty := quantizeSize (min intent.qty askSize) askPrice
          if (db.getOpenPosition intent.marketId intent.side).isSome then
            .error (.skip .positionExists)
          else if !inPriceBand (some askPrice) then .error (.skip .priceOutOfBand)
          else if qty * askPrice < minNotionalUsd then .error (.skip .dust)
          else .ok {
            marketId := intent.marketId
            side := intent.side
            tokenId := tokenId
            conditionId := market.conditionId
            price := askPrice
            qty := qty
            ts := ts
            newsId := newsId
            entryPModel := intent.pModel
            entryConfidence := intent.confidence
            entryEdge := intent.edge
            entryRationale := intent.rationale
            entryNewsDirection := intent.newsDirection
            fee := qty * takerFeePerShare market.takerFeeRate askPrice }

/-- The asks of the book the paper `execute_buy` would fill from. -/
def askLevels (catalog : Catalog) (intent : OrderIntent) : List Level :=
  ((((catalog.markets intent.marketId).bind fun m => m.tokenFor intent.side).bind
    catalog.books).map OrderBook.asks).getD []

def levelOneAsk (catalog : Catalog) (intent : OrderIntent) : Option Level :=
  (askLevels catalog intent).head?

/-- The paper `execute_buy`: nothing is posted, and the one ledger write is not
retried. -/
def paperBuy (db : Db) (c : BuyCall) : Outcome :=
  match paperFill c.catalog db c.intent c.newsId c.ts with
  | .error skip => ⟨none, .ok skip, db⟩
  | .ok a =>
    match writeOnce (db.openPosition a) (c.outage 0) with
    | .error exc => ⟨none, .error exc, db⟩
    | .ok (held, db') => ⟨none, .ok (.ok a.price a.qty held.positionId), db'⟩

structure PaperSellCall where
  catalog : Catalog
  /-- `is_book_gone`. -/
  gone : String → Bool
  /-- `is_order_book_usable`. -/
  usable : String → Bool
  position : HeldPosition
  closeReason : CloseReason
  ts : ℚ
  trigger : Option String := none
  floorPrice : Option ℚ := none
  outage : Option PyErr := none

/-- The floor a sell sweeps down to: never above the best bid. -/
def sellFloor (floorPrice : Option ℚ) (bestBid : ℚ) : ℚ :=
  match floorPrice with
  | none => bestBid
  | some floor => min floor bestBid

/-- The checks of the paper `execute_sell`, in order, and what it records: a sweep
of the levels at or above the floor. -/
def paperSellFill (c : PaperSellCall) : Except ExecResult SellArgs :=
  let position := c.position
  if c.gone position.tokenId then .error (.skip .marketClosedAwaitSettlement)
  else
    match c.catalog.books position.tokenId with
    | none => .error (.skip .noOrderBook)
    | some book =>
      if !c.usable position.tokenId then .error (.skip .staleOrderBook)
      else
        match book.bids with
        | [] => .error (.skip .noBidLiquidity)
        | (bestBid, _) :: _ =>
          let floor := sellFloor c.floorPrice bestBid
          let levels := book.bids.filter fun l => floor ≤ l.1
          if !levels.all fun l => inPriceBand (some l.1) then .error (.skip .priceOutOfBand)
          else
            let depth := (levels.map Prod.snd).sum
            let qty := quantizeSize (min position.qty depth) ((levels.getLast?.map Prod.fst).getD 0)
            if qty ≤ 0 then
              if quantizeSize position.qty bestBid ≤ 0 then .error (.skip .dustRemainder)
              else .error (.skip .bidDepthBelowMinSize)
            else
              let price := (sweep levels qty).1 / qty
              let rate := (c.catalog.markets position.marketId).bind Market.takerFeeRate
              .ok {
                soldQty := qty
                sellPrice := price
                ts := c.ts
                closeReason := c.closeReason
                trigger := c.trigger
                fee := qty * takerFeePerShare rate price }

/-- The paper `execute_sell`. -/
def paperSell (db : Db) (c : PaperSellCall) : Outcome :=
  match paperSellFill c with
  | .error skip => ⟨none, .ok skip, db⟩
  | .ok a =>
    match writeOnce (db.recordSell c.position.positionId a) c.outage with
    | .error exc => ⟨none, .error exc, db⟩
    | .ok (_, db') =>
      ⟨none, .ok (.ok a.sellPrice a.soldQty c.position.positionId none a.fee), db'⟩

/-- The executor of a call: paper, or the live one built for a wallet. -/
inductive Executor where
  | paper
  | live (wallet : WalletSpec)
  deriving DecidableEq, Repr

def Executor.mode : Executor → ExecMode
  | .paper => .paper
  | .live _ => .live

/-- The choice of `ExecutorDispatcher.execute_buy`. -/
def dispatchBuy (mode : ExecMode) (live : Option WalletSpec) : Except ExecResult Executor :=
  match mode, live with
  | .paper, _ => .ok .paper
  | .live, none => .error (.skip .liveNotReady)
  | .live, some wallet => .ok (.live wallet)

/-- What the executor of a buy records, if it comes to that: a skip or a raise
ends the call before. -/
def Executor.fill (executor : Executor) (db : Db) (c : BuyCall) : Option OpenArgs :=
  match executor with
  | .paper => (paperFill c.catalog db c.intent c.newsId c.ts).toOption
  | .live _ =>
    match c.placement db with
    | .error _ => none
    | .ok p =>
      match orderFill p c.venue none with
      | .ok (.ok fill) => some (fill.openArgs c.intent p c.newsId c.ts)
      | _ => none

def Executor.buy (executor : Executor) (db : Db) (c : BuyCall) : Outcome :=
  match executor with
  | .paper => paperBuy db c
  | .live _ => executeBuy db c

end OpenPoly
