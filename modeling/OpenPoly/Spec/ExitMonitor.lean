import OpenPoly.Lib.Registry
import OpenPoly.Spec.BookFeed
import OpenPoly.Spec.Entry
import OpenPoly.Spec.Equity
import OpenPoly.Spec.Exit
import OpenPoly.Spec.PaperExecutor

/-! `ExitMonitor`: the sweep over the open positions, what is kept of each from
one sweep to the next, and the sell a decision ends in. An event is what runs
without yielding the loop, or what a worker thread does on its own; between two
events books are observed and other coroutines write the ledger. -/

namespace OpenPoly

def markMaxLevels : ℕ := 3

def markMaxGap : ℚ := 1 / 20 + 1 / 10 ^ 9

def maxBookAgeSeconds : ℚ := 5

/-- `DEFAULT_TICK_INTERVAL_SECONDS`. -/
def tickIntervalSeconds : ℚ := 10

def closeBackoffMaxSeconds : ℚ := 120

/-- The loop of `_guarded_mark` over the levels near the top. -/
def guardedFrom (best minSize : ℚ) : List Level → Option ℚ
  | [] => none
  | (price, size) :: levels =>
    if markMaxGap < best - price then none
    else if minSize ≤ size then some price
    else guardedFrom best minSize levels

def guardedMark (bids : List Level) (minSize : ℚ := minLevelSize) : Option ℚ :=
  match bids with
  | [] => none
  | (best, _) :: _ => guardedFrom best minSize (bids.take markMaxLevels)

inductive HoldReason where
  | marketClosedAwaitSettlement
  | noOrderBook
  | staleOrderBook
  | noExecutableBid
  deriving DecidableEq

/-- The key of a close that did not fill: an order of ours that may rest, or the
reason the sell was skipped for. -/
inductive CloseFailure where
  | restingOrderPending
  | notFilled (reason : Option SkipReason)
  deriving DecidableEq

structure Backoff where
  trigger : Trigger
  delay : ℚ
  until_ : ℚ
  floor : Option ℚ
  deriving DecidableEq

structure PositionState where
  peak : Option ℚ := none
  holdReason : Option HoldReason := none
  errorKey : Option CloseFailure := none
  backoff : Option Backoff := none
  thinStreak : ℕ := 0
  thinStamp : Option ℚ := none
  restingOrderId : Option String := none
  dust : Bool := false
  deriving DecidableEq

/-- `_Decision`. -/
structure MarkDecision where
  out : ExitOutput
  peakPrice : ℚ
  bestBid : ℚ
  thin : Bool
  stamp : Option ℚ

inductive ExitReason where
  | hold (reason : HoldReason)
  | dustRemainder
  | positionNoLongerOpen
  | exitInFlight
  | restingOrderPending
  | closed (trigger : Trigger)
  deriving DecidableEq

/-- The error of an exit-log row: `sell not filled:` with the skip reason, or
what a position's evaluation raised. -/
inductive ExitError where
  | notFilled (reason : Option SkipReason)
  | raised (exc : PyErr)
  deriving DecidableEq

inductive ExitVerdict where
  | ok
  | skip
  | error
  deriving DecidableEq

/-- One row of `exit_log`. -/
structure ExitDecision where
  ts : ℚ
  positionId : ℕ
  marketId : String
  side : Side
  verdict : ExitVerdict
  trigger : Option Trigger := none
  returnPct : Option ℚ := none
  peakPrice : Option ℚ := none
  fillPrice : Option ℚ := none
  realizedPnl : Option ℚ := none
  reason : Option ExitReason := none
  error : Option ExitError := none
  deriving DecidableEq

/-- What became of the books a position was to be marked against. It is a record
for the reader of it, which the code does not keep. -/
inductive MarkRecord where
  /-- `bootstrap_peaks` seeded the peak. -/
  | seeded (peak : ℚ)
  /-- A book of the token, delivered after a sweep had listed the position. -/
  | observed (mark : ℚ)
  /-- No book, or one without bids. -/
  | unseen
  /-- A book with bids, but no mark the section evaluates. -/
  | unmarkable
  /-- The section was run. -/
  | evaluated (exit : ExitSection) (marked : MarkedPosition) (stamp : Option ℚ)

/-- What one evaluation works on: the state kept of its position, the exit log,
and the records of the position, newest first. -/
structure Slot where
  state : Option PositionState
  log : List ExitDecision
  records : List MarkRecord

/-- `_position_state`. -/
def Slot.position (s : Slot) : PositionState := s.state.getD {}

def Slot.put (s : Slot) (p : PositionState) : Slot := { s with state := some p }

def Slot.record (s : Slot) (r : MarkRecord) : Slot := { s with records := r :: s.records }

/-- A row of the position, as `_log` fills it in. -/
def HeldPosition.row (held : HeldPosition) (ts : ℚ) (verdict : ExitVerdict) : ExitDecision where
  ts := ts
  positionId := held.positionId
  marketId := held.marketId
  side := held.side
  verdict := verdict

/-- `_log`. -/
def Slot.write (s : Slot) (row : ExitDecision) : Slot := { s with log := s.log ++ [row] }

def Slot.holdOnce (s : Slot) (held : HeldPosition) (ts : ℚ) (reason : HoldReason) : Slot :=
  if s.position.holdReason = some reason then s.put s.position
  else
    (s.put { s.position with holdReason := some reason }).write
      { held.row ts .skip with reason := some (.hold reason) }

/-- `_log_once` in the slot of close failures. -/
def Slot.failOnce (s : Slot) (key : CloseFailure) (row : ExitDecision) : Slot :=
  if s.position.errorKey = some key then s.put s.position
  else (s.put { s.position with errorKey := some key }).write row

def Slot.clearHolds (s : Slot) : Slot :=
  { s with state := s.state.map fun p => { p with holdReason := none } }

def Slot.clearBackoff (s : Slot) : Slot :=
  { s with state := s.state.map fun p => { p with backoff := none, errorKey := none } }

def floorMovedLower (floor prev : Option ℚ) : Bool :=
  match floor, prev with
  | some floor, some prev => floor < prev - 1 / 10 ^ 9
  | _, _ => false

def Slot.backingOff (s : Slot) (clock : ℚ) (trigger : Trigger) (floor : Option ℚ) : Bool :=
  match s.state.bind PositionState.backoff with
  | none => false
  | some b => b.trigger = trigger ∧ floorMovedLower floor b.floor = false ∧ clock < b.until_

def nextDelay (prev : Option Backoff) (trigger : Trigger) (floor : Option ℚ)
    (tick : ℚ := tickIntervalSeconds) : ℚ :=
  match prev with
  | some b =>
    if b.trigger = trigger ∧ floorMovedLower floor b.floor = false then
      min (b.delay * 2) closeBackoffMaxSeconds
    else min tick closeBackoffMaxSeconds
  | none => min tick closeBackoffMaxSeconds

def Slot.recordCloseFailure (s : Slot) (clock : ℚ) (trigger : Trigger) (floor : Option ℚ)
    (tick : ℚ := tickIntervalSeconds) : Slot :=
  let delay := nextDelay s.position.backoff trigger floor tick
  s.put { s.position with backoff := some ⟨trigger, delay, clock + delay, floor⟩ }

/-- The mark of a book: its price, and whether it is thin. -/
def ExitSection.mark (exit : ExitSection) (book : OrderBook) : Option (ℚ × Bool) :=
  match book.bids with
  | [] => none
  | (bestBid, _) :: _ =>
    match guardedMark book.bids with
    | some price => some (price, false)
    | none => if exit.evaluatesThinMarks then some (bestBid, true) else none

def priorThinStreak (p : PositionState) (stamp : Option ℚ) : ℕ :=
  if stamp.isSome ∧ stamp = p.thinStamp ∧ 0 < p.thinStreak then p.thinStreak - 1 else p.thinStreak

/-- The ask a mark is given: the depth-qualified one on a thin mark, else level 1. -/
def markAsk (book : OrderBook) (thin : Bool) : Option ℚ :=
  if thin then firstLevelWithSize book.asks else book.asks.head?.map Prod.fst

def PositionState.peakAt (p : PositionState) (price : ℚ) (thin : Bool) : ℚ :=
  if thin then p.peak.getD price else max (p.peak.getD price) price

def markedPosition (held : HeldPosition) (book : OrderBook) (p : PositionState)
    (stamp : Option ℚ) (now price : ℚ) (thin : Bool) : MarkedPosition where
  marketId := held.marketId
  side := held.side
  avgEntryPrice := held.avgEntryPrice
  qty := held.qty
  currentPrice := price
  peakPrice := p.peakAt price thin
  spread := (markAsk book thin).map fun ask => ask - price
  tickSize := none
  ask := markAsk book thin
  thin := thin
  thinStreak := if thin then priorThinStreak p stamp else 0
  heldHours := some ((now - held.openedAt) / 3600)

def Slot.decide (s : Slot) (exit : ExitSection) (held : HeldPosition) (book : OrderBook)
    (stamp : Option ℚ) (now : ℚ) : Option MarkDecision × Slot :=
  match exit.mark book with
  | none => (none, s.record (if book.bids = [] then .unseen else .unmarkable))
  | some (price, thin) =>
    let marked := markedPosition held book s.position stamp now price thin
    let s := s.put (if thin then s.position else { s.position with peak := some marked.peakPrice })
    (some {
      out := exit.run (some marked)
      peakPrice := marked.peakPrice
      bestBid := book.bestBid.getD 0
      thin := thin
      stamp := stamp }, s.record (.evaluated exit marked stamp))

def Slot.trackThinStreak (s : Slot) (decision : Option MarkDecision) : Slot :=
  match decision.filter fun d => d.thin ∧ d.out.signals.thinStopPending with
  | some d =>
    let p := s.position
    if d.stamp = none ∨ p.thinStamp = none ∨ p.thinStamp.getD 0 < d.stamp.getD 0 then
      s.put { p with thinStreak := p.thinStreak + 1, thinStamp := d.stamp }
    else s.put p
  | none => { s with state := s.state.map fun p => { p with thinStreak := 0, thinStamp := none } }

def MarkDecision.sellFloor (d : MarkDecision) (intent : CloseIntent) : ℚ :=
  if d.thin then intent.price else d.bestBid

structure SellOrder where
  trigger : Trigger
  returnPct : Option ℚ
  peakPrice : ℚ
  floor : ℚ

/-- Where `_evaluate` is when it next yields: through, waiting for a book to be
re-fetched, or with a sell to place. -/
inductive Next where
  | done (blocked : Bool)
  | refetch (decision : MarkDecision) (age : ℚ)
  | sell (order : SellOrder)

/-- What a decision that is about to be acted on is checked against: the row as
it is now, the closing registry and the monitor's clock. -/
structure Grounds where
  stillOpen : Bool
  closing : Bool
  clock : ℚ

/-- `_evaluate` from the tracking of the streak on. -/
def Slot.conclude (s : Slot) (held : HeldPosition) (ts : ℚ) (g : Grounds)
    (decision : Option MarkDecision) : Next × Slot :=
  let s := s.trackThinStreak decision
  match decision with
  | none => (.done true, s.holdOnce held ts .noExecutableBid)
  | some d =>
    match d.out.payload with
    | none =>
      if d.thin then (.done true, s.holdOnce held ts .noExecutableBid)
      else (.done false, s.clearHolds.clearBackoff)
    | some intent =>
      let s := s.clearHolds
      if !g.stillOpen then
        (.done false, s.write { held.row ts .skip with reason := some .positionNoLongerOpen })
      else if g.closing then
        (.done false, s.write { held.row ts .skip with reason := some .exitInFlight })
      else (.sell ⟨intent.trigger, d.out.signals.returnPct, d.peakPrice, d.sellFloor intent⟩, s)

def MarkDecision.heldBack (d : MarkDecision) (s : Slot) (clock : ℚ) : Bool :=
  d.out.payload.any fun intent => s.backingOff clock intent.trigger (some (d.sellFloor intent))

/-- `_evaluate` once its close is confirmed. -/
def Slot.act (s : Slot) (held : HeldPosition) (ts : ℚ) (g : Grounds) (d : MarkDecision) : Next × Slot :=
  if d.heldBack s g.clock then (.done true, s) else s.conclude held ts g (some d)

/-- What an evaluation reads of the market store: the token's book, its gone
mark and the book clock. -/
structure Sight where
  now : ℚ
  cached : Option CachedBook
  gone : Bool
  bookClock : ℚ

/-- A remainder that cannot be sold is logged once. -/
def Slot.noteDust (s : Slot) (held : HeldPosition) (ts : ℚ) : Slot :=
  if s.position.dust then s.put s.position
  else (s.put { s.position with dust := true }).write
    { held.row ts .skip with reason := some .dustRemainder }

def Sight.missing (sight : Sight) : HoldReason :=
  if sight.gone then .marketClosedAwaitSettlement else .noOrderBook

def Slot.evaluate (s : Slot) (exit : ExitSection) (held : HeldPosition) (ts : ℚ) (g : Grounds)
    (sight : Sight) : Next × Slot :=
  if isDustQty held.qty then (.done false, s.noteDust held ts)
  else
    match sight.cached with
    | none =>
      (.done true, (s.record .unseen).holdOnce held ts sight.missing)
    | some c =>
      if c.fetched.book.bids = [] then (.done true, s.record .unseen)
      else
        let (decision, s) := s.decide exit held c.fetched.book (some c.fetchedAt) sight.now
        match decision with
        | none => s.conclude held ts g none
        | some d =>
          let age := sight.bookClock - c.fetchedAt
          if d.out.payload.isNone then s.conclude held ts g (some d)
          else if age ≤ maxBookAgeSeconds then s.act held ts g d
          else (.refetch d age, s)

/-- What `ensure_fresh` came to: the age it reports, the cached book, the gone
mark, and whether the catalog shows the market closed or not accepting orders. -/
structure Refetched where
  now : ℚ
  age : Option ℚ
  cached : Option CachedBook
  gone : Bool
  marketOver : Bool

/-- What `_confirm_close` makes of it. -/
inductive Refetch where
  | asIs
  | held (reason : HoldReason)
  | fresh (c : CachedBook)

def Refetched.verdict (r : Refetched) : Refetch :=
  match r.cached.filter fun _ => r.age.any fun age => age ≤ maxBookAgeSeconds with
  | some c => .fresh c
  | none =>
    if r.gone || r.marketOver then .held .marketClosedAwaitSettlement
    else if r.age.any fun age => keptBookMaxAgeSeconds < age then .held .staleOrderBook
    else .asIs

/-- `_confirm_close` from the answer of the re-fetch on: the decision to act on,
or the reason to hold. -/
def Slot.confirmClose (s : Slot) (exit : ExitSection) (held : HeldPosition) (d : MarkDecision)
    (r : Refetched) : Except HoldReason MarkDecision × Slot :=
  match r.verdict with
  | .held reason => (.error reason, s)
  | .asIs => (.ok d, s)
  | .fresh c =>
    let (confirmed, s) := s.decide exit held c.fetched.book (some c.fetchedAt) r.now
    (.ok (confirmed.getD d), s)

/-- `_evaluate` from the answer of the re-fetch on. -/
def Slot.confirm (s : Slot) (exit : ExitSection) (held : HeldPosition) (ts : ℚ) (g : Grounds)
    (d : MarkDecision) (r : Refetched) : Next × Slot :=
  match s.confirmClose exit held d r with
  | (.error reason, s) => (.done true, s.holdOnce held ts reason)
  | (.ok d, s) => s.act held ts g d

def ExecResult.soldOf (r : ExecResult) (held : HeldPosition) : ℚ := r.qty.getD held.qty

def ExecResult.fillPrice (r : ExecResult) : Option ℚ := if r.filled then r.price else none

def Slot.dropPeak (s : Slot) : Slot :=
  { s with state := s.state.map fun p => { p with peak := none } }

/-- The bookkeeping of a fill: the peak is dropped where the position is closed. -/
def Slot.noteFill (s : Slot) (held : HeldPosition) (ts : ℚ) (order : SellOrder) (price : ℚ)
    (closed : Bool) (realized : ℚ) : Slot :=
  let s := s.clearBackoff
  (if closed then s.dropPeak else s).write { held.row ts .ok with
    trigger := some order.trigger
    returnPct := order.returnPct
    peakPrice := some order.peakPrice
    fillPrice := some price
    realizedPnl := some realized
    reason := some (.closed order.trigger) }

/-- The bookkeeping of a sell that did not fill. -/
def Slot.noteFailure (s : Slot) (held : HeldPosition) (ts clock : ℚ) (order : SellOrder)
    (r : ExecResult) (tick : ℚ := tickIntervalSeconds) : Slot :=
  let s := s.recordCloseFailure clock order.trigger (some order.floor) tick
  if r.restingOrderId.isSome then
    s.failOnce .restingOrderPending { held.row ts .skip with
      trigger := some order.trigger
      reason := some .restingOrderPending }
  else
    s.failOnce (.notFilled r.skipReason) { held.row ts .error with
      trigger := some order.trigger
      returnPct := order.returnPct
      peakPrice := some order.peakPrice
      error := some (.notFilled r.skipReason) }

/-- `_close` once the sell has returned. `closed` tells the position closed,
`realized` is what `_realized` reads. -/
def Slot.finishClose (s : Slot) (held : HeldPosition) (ts clock : ℚ) (order : SellOrder)
    (r : ExecResult) (closed : Bool) (realized : ℚ) (tick : ℚ := tickIntervalSeconds) : Slot :=
  let s := s.put { s.position with restingOrderId := r.restingOrderId }
  match r.fillPrice with
  | some price => s.noteFill held ts order price closed realized
  | none => s.noteFailure held ts clock order r tick

inductive TickPhase where
  | idle
  /-- The thread has read the open positions. -/
  | read (ts : ℚ) (opens : List HeldPosition)
  /-- Between two evaluations, with what is left of the list. -/
  | sweeping (ts : ℚ) (rest : List HeldPosition)
  | refetching (ts : ℚ) (held : HeldPosition) (d : MarkDecision) (rest : List HeldPosition)
  /-- `execute_sell` runs in its thread. -/
  | selling (ts : ℚ) (held : HeldPosition) (order : SellOrder) (rest : List HeldPosition)
  | sold (ts : ℚ) (held : HeldPosition) (order : SellOrder) (result : Except PyErr ExecResult)
      (rest : List HeldPosition)

/-- The monitor with the ledger, the closing registry and the live executor's
resting orders. `listed` is a record for the reader of it: the token of each
position a sweep has listed. -/
structure ExitMonitor where
  exit : ExitSection
  states : ℕ → Option PositionState
  watch : String → List ℕ
  log : List ExitDecision
  records : ℕ → List MarkRecord
  listed : ℕ → Option String
  phase : TickPhase
  /-- Positions the sweep could not evaluate or close. -/
  blocked : ℕ
  closing : List ℕ
  live : LiveState
  /-- `tick_interval_seconds`. -/
  tick : ℚ := tickIntervalSeconds

def ExitMonitor.start (exit : ExitSection) (live : LiveState) : ExitMonitor where
  exit := exit
  states := fun _ => none
  watch := fun _ => []
  log := []
  records := fun _ => []
  listed := fun _ => none
  phase := .idle
  blocked := 0
  closing := []
  live := live

/-- The peak `bootstrap_peaks` seeds a position with. -/
def bootstrapPeak (snapshots : List OrderBookSnapshot) (held : HeldPosition) : ℚ :=
  let rows := snapshots.filter fun row => row.tokenId = held.tokenId ∧ held.openedAt ≤ row.recordedAt
  (rows.filterMap fun row => guardedMark row.bids).foldl max held.avgEntryPrice

def ExitMonitor.bootstrapPeaks (m : ExitMonitor) (snapshots : List OrderBookSnapshot) :
    ExitMonitor :=
  let seed (id : ℕ) : Option ℚ :=
    (m.live.db.getOpenPositions.find? fun held => held.positionId = id).map
      (bootstrapPeak snapshots)
  { m with
    states := fun id =>
      match seed id with
      | some peak => some { (m.states id).getD {} with peak := some peak }
      | none => m.states id
    records := fun id =>
      match seed id with
      | some peak => .seeded peak :: m.records id
      | none => m.records id }

/-- The monitor as the process starts it, its peaks rebuilt where there is a
session to read snapshots with. -/
def ExitMonitor.boot (exit : ExitSection) (live : LiveState) :
    Option (List OrderBookSnapshot) → ExitMonitor
  | none => .start exit live
  | some snapshots => (ExitMonitor.start exit live).bootstrapPeaks snapshots

def ExitMonitor.slot (m : ExitMonitor) (positionId : ℕ) : Slot :=
  ⟨m.states positionId, m.log, m.records positionId⟩

def ExitMonitor.setSlot (m : ExitMonitor) (positionId : ℕ) (s : Slot) : ExitMonitor :=
  { m with
    states := Function.update m.states positionId s.state
    log := s.log
    records := Function.update m.records positionId s.records }

def ExitMonitor.stillOpen (m : ExitMonitor) (positionId : ℕ) : Bool :=
  (m.live.db.get positionId).any fun row => row.status = .open

def ExitMonitor.grounds (m : ExitMonitor) (positionId : ℕ) (clock : ℚ) : Grounds :=
  ⟨m.stillOpen positionId, m.closing.contains positionId, clock⟩

def watchOf (opens : List HeldPosition) (tokenId : String) : List ℕ :=
  (opens.filter fun held => held.tokenId = tokenId).map HeldPosition.positionId

/-- The sweep begins: the watch list is rebuilt, and what is kept of positions
that are not listed is dropped. -/
def ExitMonitor.beginSweep (m : ExitMonitor) (ts : ℚ) (opens : List HeldPosition) : ExitMonitor :=
  { m with
    watch := watchOf opens
    states := fun id => if id ∈ opens.map HeldPosition.positionId then m.states id else none
    listed := fun id =>
      ((opens.find? fun held => held.positionId = id).map HeldPosition.tokenId).or (m.listed id)
    phase := .sweeping ts opens
    blocked := 0 }

def ExitMonitor.advance (m : ExitMonitor) (ts : ℚ) (held : HeldPosition) (rest : List HeldPosition)
    (next : Next × Slot) : ExitMonitor :=
  let m := m.setSlot held.positionId next.2
  match next.1 with
  | .done blocked =>
    { m with phase := .sweeping ts rest, blocked := m.blocked + if blocked then 1 else 0 }
  | .refetch d _ => { m with phase := .refetching ts held d rest }
  | .sell order =>
    { m with
      phase := .selling ts held order rest
      closing := m.closing.insert held.positionId }

/-- `observe_price` for one watching position. -/
def raisePeak (p : PositionState) (bid : ℚ) : PositionState :=
  if p.peak.all fun peak => peak < bid then { p with peak := some bid } else p

def ExitMonitor.observeBook (m : ExitMonitor) (book : OrderBook) : ExitMonitor :=
  match guardedMark book.bids with
  | none => m
  | some mark =>
    { m with
      states := fun id =>
        if id ∈ m.watch book.tokenId then some (raisePeak ((m.states id).getD {}) mark)
        else m.states id
      records := fun id =>
        if m.listed id = some book.tokenId then .observed mark :: m.records id else m.records id }

def ExitMonitor.unwatch (m : ExitMonitor) (tokenId : String) (positionId : ℕ) : String → List ℕ :=
  Function.update m.watch tokenId ((m.watch tokenId).erase positionId)

/-- The `execute_sell` a mode dispatches to. -/
inductive SellRequest where
  | paper (c : PaperSellCall)
  | live (c : SellCall)

def SellRequest.position : SellRequest → HeldPosition
  | .paper c => c.position
  | .live c => c.position

def Trigger.closeReason : Trigger → CloseReason
  | .takeProfit => .takeProfit
  | .stopLoss => .stopLoss
  | .peakDrawdown => .peakDrawdown
  | .maxHold => .maxHold

/-- The request is the one `_close` makes for the order. -/
def SellRequest.isFor (ts : ℚ) (held : HeldPosition) (order : SellOrder) : SellRequest → Bool
  | .paper c =>
    c.position = held ∧ c.closeReason = order.trigger.closeReason ∧ c.ts = ts ∧
      c.trigger = some order.trigger.name ∧ c.floorPrice = some order.floor
  | .live c =>
    c.position = held ∧ c.closeReason = order.trigger.closeReason ∧ c.ts = ts ∧
      c.trigger = some order.trigger.name ∧ c.floorPrice = some order.floor

def SellRequest.execute (s : LiveState) : SellRequest → LiveState × Except PyErr ExecResult
  | .paper c => ({ s with db := (paperSell s.db c).db }, (paperSell s.db c).result)
  | .live c => ((executeSell s c).1, (executeSell s c).2.result)

/-- `_realized`: the store's figure, or the gross one where the read fails. -/
def ExitMonitor.realized (m : ExitMonitor) (held : HeldPosition) (r : ExecResult)
    (outage : Option PyErr) : ℚ :=
  let price := r.price.getD 0
  let sold := r.soldOf held
  match writeOnce (m.live.db.realizedGain held.positionId price sold r.fee) outage with
  | .ok gain => gain
  | .error _ => (price - held.avgEntryPrice) * sold

def ExitMonitor.soldOut (m : ExitMonitor) (held : HeldPosition) (r : ExecResult) : Bool :=
  !(r.soldOf held < held.qty && m.stillOpen held.positionId)

/-- `_close` and `_evaluate` once the sell has returned. -/
def ExitMonitor.finishSell (m : ExitMonitor) (ts : ℚ) (held : HeldPosition) (order : SellOrder)
    (rest : List HeldPosition) (clock : ℚ) (outage : Option PyErr) (r : ExecResult) : ExitMonitor :=
  let closed := m.soldOut held r
  let s := (m.slot held.positionId).finishClose held ts clock order r closed
    (m.realized held r outage) m.tick
  { m.setSlot held.positionId s with
    watch := if r.fillPrice.isSome && closed then m.unwatch held.tokenId held.positionId else m.watch
    phase := .sweeping ts rest
    blocked := m.blocked + if r.fillPrice.isSome then 0 else 1 }

inductive ExitEvent where
  /-- The tick starts and its thread reads the open positions. -/
  | readOpens (ts : ℚ)
  /-- Back on the loop with the list. -/
  | sweep
  /-- The next position is evaluated up to its first await. -/
  | evaluate (sight : Sight) (clock : ℚ)
  /-- `ensure_fresh` returns. -/
  | refetched (r : Refetched) (clock : ℚ)
  /-- `execute_sell` runs to its end in the thread. -/
  | execute (request : SellRequest)
  /-- Back on the loop with its result; the read of the realized gain may fail. -/
  | finish (clock : ℚ) (outage : Option PyErr)
  | tickDone
  /-- A book is delivered to the observer. -/
  | observe (book : OrderBook)
  /-- `replace_exit_section`. -/
  | replaceExit (exit : ExitSection)
  /-- Another coroutine writes the ledger. -/
  | ledger (e : Attempt)
  /-- Another coroutine calls the live executor. -/
  | trade (c : LiveCall)
  /-- Another coroutine claims an id. -/
  | mark (positionId : ℕ)
  | clear (positionId : ℕ)

def MarkRecord.stamp : MarkRecord → Option ℚ
  | .evaluated _ _ stamp => stamp
  | _ => none

/-- The store never goes back to an older fetch of a token. -/
def ExitMonitor.reads (m : ExitMonitor) (positionId : ℕ) (cached : Option CachedBook) : Bool :=
  cached.all fun c => ((m.records positionId).filterMap MarkRecord.stamp).all fun stamp =>
    stamp ≤ c.fetchedAt

/-- What one event makes of the monitor; `none` where it cannot occur. -/
def ExitMonitor.step (m : ExitMonitor) : ExitEvent → Option ExitMonitor
  | .readOpens ts =>
    match m.phase with
    | .idle => some { m with phase := .read ts m.live.db.getOpenPositions }
    | _ => none
  | .sweep =>
    match m.phase with
    | .read ts opens => some (m.beginSweep ts opens)
    | _ => none
  | .evaluate sight clock =>
    match m.phase with
    | .sweeping ts (held :: rest) =>
      if m.reads held.positionId sight.cached then
        some (m.advance ts held rest ((m.slot held.positionId).evaluate m.exit held ts
          (m.grounds held.positionId clock) sight))
      else none
    | _ => none
  | .refetched r clock =>
    match m.phase with
    | .refetching ts held d rest =>
      if m.reads held.positionId r.cached then
        some (m.advance ts held rest ((m.slot held.positionId).confirm m.exit held ts
          (m.grounds held.positionId clock) d r))
      else none
    | _ => none
  | .execute request =>
    match m.phase with
    | .selling ts held order rest =>
      if request.isFor ts held order then
        some { m with
          live := (request.execute m.live).1
          phase := .sold ts held order (request.execute m.live).2 rest }
      else none
    | _ => none
  | .finish clock outage =>
    match m.phase with
    | .sold ts held order result rest =>
      let m := { m with closing := Registry.discard held.positionId m.closing }
      match result with
      | .error exc =>
        some { m with
          phase := .sweeping ts rest
          log := m.log ++ [{ held.row ts .error with error := some (.raised exc) }] }
      | .ok r => some (m.finishSell ts held order rest clock outage r)
    | _ => none
  | .tickDone =>
    match m.phase with
    | .sweeping _ [] => some { m with phase := .idle }
    | _ => none
  | .observe book => some (m.observeBook book)
  | .replaceExit exit => some { m with exit := exit }
  | .ledger e => some { m with live := { m.live with db := m.live.db.attempt e } }
  | .trade c => some { m with live := (liveCall m.live c).1 }
  | .mark positionId => some { m with closing := m.closing.insert positionId }
  | .clear positionId => some { m with closing := Registry.discard positionId m.closing }

end OpenPoly
