import OpenPoly.Spec.Python

/-! The fill ledger and its position projection: the rows of the `fill` and
`position` tables and the transactions of the portfolio store over them. Each
call is one transaction, so a call that raises leaves the tables as they were. -/

namespace OpenPoly

inductive Side where
  | yes
  | no
  deriving DecidableEq, Repr

def Side.name : Side → String
  | .yes => "yes"
  | .no => "no"

inductive FillAction where
  | buy
  | sell
  deriving DecidableEq, Repr

inductive PositionStatus where
  | «open»
  | closed
  deriving DecidableEq, Repr

/-- The `close_reason` of a closed row. The store's own list has no
`peak_drawdown`; the exit monitor passes it all the same. -/
inductive CloseReason where
  | takeProfit
  | stopLoss
  | peakDrawdown
  | maxHold
  | settlement
  | killSwitch
  | manual
  | reconciled
  deriving DecidableEq, Repr

/-- One row of the append-only `fill` table. -/
structure FillRow where
  id : ℕ
  ts : ℚ
  marketId : String
  side : Side
  action : FillAction
  price : ℚ
  qty : ℚ
  fee : ℚ
  positionId : ℕ
  newsId : Option String
  trigger : Option String
  orderId : Option String
  txHash : Option String
  deriving DecidableEq, Repr

/-- One row of the `position` table. -/
structure PositionRow where
  id : ℕ
  marketId : String
  side : Side
  tokenId : String
  conditionId : String
  qty : ℚ
  avgEntryPrice : ℚ
  status : PositionStatus
  openedAt : ℚ
  closedAt : Option ℚ
  closeReason : Option CloseReason
  realizedPnl : Option ℚ
  entryPModel : Option ℚ
  entryConfidence : Option String
  entryEdge : Option ℚ
  entryRationale : Option String
  entryNewsDirection : Option String
  deriving DecidableEq, Repr

/-- The view of an open position handed to the executors. -/
structure HeldPosition where
  positionId : ℕ
  marketId : String
  side : Side
  tokenId : String
  conditionId : String
  qty : ℚ
  avgEntryPrice : ℚ
  openedAt : ℚ
  deriving DecidableEq, Repr

def PositionRow.toHeld (row : PositionRow) : HeldPosition where
  positionId := row.id
  marketId := row.marketId
  side := row.side
  tokenId := row.tokenId
  conditionId := row.conditionId
  qty := row.qty
  avgEntryPrice := row.avgEntryPrice
  openedAt := row.openedAt

structure Db where
  positions : List PositionRow
  fills : List FillRow
  deriving DecidableEq

def Db.empty : Db := ⟨[], []⟩

def minSellableQty : ℚ := 1 / 100

def nextId (ids : List ℕ) : ℕ := ids.foldr max 0 + 1

def Db.get (db : Db) (positionId : ℕ) : Option PositionRow :=
  db.positions.find? (fun p => p.id == positionId)

def Db.setRow (db : Db) (row : PositionRow) : Db :=
  { db with positions := db.positions.map fun p => if p.id = row.id then row else p }

def Db.addFill (db : Db) (fill : FillRow) : Db :=
  { db with fills := db.fills ++ [{ fill with id := nextId (db.fills.map FillRow.id) }] }

def Db.fillsOf (db : Db) (positionId : ℕ) (action : FillAction) : List FillRow :=
  db.fills.filter fun f => f.positionId = positionId ∧ f.action = action

/-- The taker fee paid per share bought, from the BUY fills; 0 without any. -/
def Db.buyFeePerShare (db : Db) (positionId : ℕ) : ℚ :=
  let fee := ((db.fillsOf positionId .buy).map FillRow.fee).sum
  let qty := ((db.fillsOf positionId .buy).map FillRow.qty).sum
  if fee ≠ 0 ∧ qty ≠ 0 then fee / qty else 0

/-- PnL of disposing of `qty` shares at `price`, net of the fee on the disposal
and of the buy fee on those shares. -/
def Db.realizedGainOf (db : Db) (pos : PositionRow) (price qty fee : ℚ) : ℚ :=
  let gross := (price - pos.avgEntryPrice) * qty
  gross - fee - db.buyFeePerShare pos.id * qty

structure OpenArgs where
  marketId : String
  side : Side
  tokenId : String
  conditionId : String
  price : ℚ
  qty : ℚ
  ts : ℚ
  newsId : Option String := none
  orderId : Option String := none
  txHash : Option String := none
  entryPModel : Option ℚ := none
  entryConfidence : Option String := none
  entryEdge : Option ℚ := none
  entryRationale : Option String := none
  entryNewsDirection : Option String := none
  fee : ℚ := 0
  deriving DecidableEq, Repr

structure CloseArgs where
  sellPrice : ℚ
  ts : ℚ
  closeReason : CloseReason
  trigger : Option String := none
  orderId : Option String := none
  txHash : Option String := none
  deriving DecidableEq, Repr

structure SellArgs where
  soldQty : ℚ
  sellPrice : ℚ
  ts : ℚ
  closeReason : CloseReason
  trigger : Option String := none
  orderId : Option String := none
  txHash : Option String := none
  fee : ℚ := 0
  deriving DecidableEq, Repr

/-- The position row `open_position` inserts. -/
def openRow (id : ℕ) (a : OpenArgs) : PositionRow where
  id := id
  marketId := a.marketId
  side := a.side
  tokenId := a.tokenId
  conditionId := a.conditionId
  qty := a.qty
  avgEntryPrice := a.price
  status := .open
  openedAt := a.ts
  closedAt := none
  closeReason := none
  realizedPnl := none
  entryPModel := a.entryPModel
  entryConfidence := a.entryConfidence
  entryEdge := a.entryEdge
  entryRationale := a.entryRationale
  entryNewsDirection := a.entryNewsDirection

/-- The buy fill `open_position` inserts; `addFill` gives it its id. -/
def buyFill (positionId : ℕ) (a : OpenArgs) : FillRow where
  id := 0
  ts := a.ts
  marketId := a.marketId
  side := a.side
  action := .buy
  price := a.price
  qty := a.qty
  fee := a.fee
  positionId := positionId
  newsId := a.newsId
  trigger := none
  orderId := a.orderId
  txHash := a.txHash

def Db.hasOpen (db : Db) (marketId : String) (side : Side) : Bool :=
  db.positions.any fun p => p.marketId = marketId ∧ p.side = side ∧ p.status = .open

/-- `open_position`: a position row and its buy fill, unless the unique index
already holds the market and side. -/
def Db.openPosition (db : Db) (a : OpenArgs) : Except PyErr (HeldPosition × Db) :=
  if db.hasOpen a.marketId a.side then .error .integrityError
  else
    let pos := openRow (nextId (db.positions.map PositionRow.id)) a
    .ok (pos.toHeld, { db with positions := db.positions ++ [pos] }.addFill (buyFill pos.id a))

/-- The sell fill of `qty` shares of `pos`. -/
def sellFill (pos : PositionRow) (price qty fee ts : ℚ) (trigger orderId txHash : Option String) :
    FillRow where
  id := 0
  ts := ts
  marketId := pos.marketId
  side := pos.side
  action := .sell
  price := price
  qty := qty
  fee := fee
  positionId := pos.id
  newsId := none
  trigger := trigger
  orderId := orderId
  txHash := txHash

/-- The open row of an id, or the `ValueError` both closing mutators raise. -/
def Db.requireOpen (db : Db) (positionId : ℕ) : Except PyErr PositionRow :=
  match db.get positionId with
  | none => .error .valueError
  | some pos => if pos.status ≠ .open then .error .valueError else .ok pos

/-- The row `close_position` leaves: flipped to closed, its PnL accrued. -/
def Db.closedRow (db : Db) (pos : PositionRow) (a : CloseArgs) : PositionRow :=
  { pos with
    status := .closed
    closedAt := some a.ts
    closeReason := some a.closeReason
    realizedPnl :=
      some (pos.realizedPnl.getD 0 + db.realizedGainOf pos a.sellPrice pos.qty 0) }

def Db.closePosition (db : Db) (positionId : ℕ) (a : CloseArgs) :
    Except PyErr (PositionRow × Db) := do
  let pos ← db.requireOpen positionId
  let row := db.closedRow pos a
  let fill := sellFill pos a.sellPrice pos.qty 0 a.ts a.trigger a.orderId a.txHash
  return (row, (db.addFill fill).setRow row)

/-- The row `record_sell` leaves: reduced, or closed where the residual is
below the venue's size precision. -/
def Db.soldRow (db : Db) (pos : PositionRow) (a : SellArgs) : PositionRow :=
  let sold := min a.soldQty pos.qty
  let realized := pos.realizedPnl.getD 0 + db.realizedGainOf pos a.sellPrice sold a.fee
  let residual := pos.qty - sold
  if residual < minSellableQty then
    { pos with
      realizedPnl := some realized
      qty := sold
      status := .closed
      closedAt := some a.ts
      closeReason := some a.closeReason }
  else { pos with realizedPnl := some realized, qty := residual }

/-- `record_sell`: a sell of at most the row's quantity. -/
def Db.recordSell (db : Db) (positionId : ℕ) (a : SellArgs) :
    Except PyErr (PositionRow × Db) := do
  let pos ← db.requireOpen positionId
  let row := db.soldRow pos a
  let fill := sellFill pos a.sellPrice (min a.soldQty pos.qty) a.fee a.ts a.trigger a.orderId
    a.txHash
  return (row, (db.addFill fill).setRow row)

def Db.realizedGain (db : Db) (positionId : ℕ) (price qty fee : ℚ) : Except PyErr ℚ :=
  match db.get positionId with
  | none => .error .valueError
  | some pos => .ok (db.realizedGainOf pos price qty fee)

def Db.getOpenPosition (db : Db) (marketId : String) (side : Side) : Option HeldPosition :=
  (db.positions.find? fun p => p.marketId = marketId ∧ p.side = side ∧ p.status = .open).map
    PositionRow.toHeld

def Db.getOpenPositions (db : Db) : List HeldPosition :=
  (db.positions.filter fun p => p.status = .open).map PositionRow.toHeld

inductive Call where
  | openPosition (a : OpenArgs)
  | closePosition (positionId : ℕ) (a : CloseArgs)
  | recordSell (positionId : ℕ) (a : SellArgs)
  deriving DecidableEq

def Db.call (db : Db) : Call → Except PyErr Db
  | .openPosition a => (db.openPosition a).map Prod.snd
  | .closePosition positionId a => (db.closePosition positionId a).map Prod.snd
  | .recordSell positionId a => (db.recordSell positionId a).map Prod.snd

/-- One call as it is made: the database may fail it (`outage`). -/
structure Attempt where
  call : Call
  outage : Option PyErr := none
  deriving DecidableEq

/-- The tables after an attempt: unchanged when it raised. -/
def Db.attempt (db : Db) (e : Attempt) : Db :=
  match e.outage with
  | some _ => db
  | none =>
    match db.call e.call with
    | .ok db' => db'
    | .error _ => db

end OpenPoly
