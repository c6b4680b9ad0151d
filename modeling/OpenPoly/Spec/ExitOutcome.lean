import OpenPoly.Spec.ExitMonitor

/-! What each evaluation of a position came to, told apart for the reader of a run: the
monitor beside the history of every position. -/

namespace OpenPoly

inductive CloseStart where
  | backingOff
  | noLongerOpen
  | inFlight
  | placed
  deriving DecidableEq

inductive ExitOutcome where
  | dust
  | held (reason : HoldReason)
  /-- A book without bids. -/
  | noBids
  /-- Evaluable, and not a close. -/
  | within
  /-- A confirmed close, at a reading of the clock. -/
  | close (order : SellOrder) (clock : ℚ) (start : CloseStart)
  | filled
  /-- A sell that returned without a fill, at a reading of the clock. -/
  | failed (order : SellOrder) (clock : ℚ) (key : CloseFailure)
  | raised (exc : PyErr)

def MarkDecision.order (d : MarkDecision) (intent : CloseIntent) : SellOrder :=
  ⟨intent.trigger, d.out.signals.returnPct, d.peakPrice, d.sellFloor intent⟩

def Grounds.start (g : Grounds) : CloseStart :=
  if !g.stillOpen then .noLongerOpen else if g.closing then .inFlight else .placed

/-- The outcome of `conclude`. -/
def Grounds.outcome (g : Grounds) : Option MarkDecision → ExitOutcome
  | none => .held .noExecutableBid
  | some d =>
    match d.out.payload with
    | none => if d.thin then .held .noExecutableBid else .within
    | some intent => .close (d.order intent) g.clock g.start

/-- The outcome of `act`. -/
def Slot.actOutcome (s : Slot) (g : Grounds) (d : MarkDecision) : ExitOutcome :=
  match d.out.payload with
  | none => g.outcome (some d)
  | some intent =>
    if s.backingOff g.clock intent.trigger (some (d.sellFloor intent)) then
      .close (d.order intent) g.clock .backingOff
    else g.outcome (some d)

/-- The outcome of `evaluate`, unless a book is to be re-fetched first. -/
def Slot.evaluateOutcome (s : Slot) (exit : ExitSection) (held : HeldPosition) (g : Grounds)
    (sight : Sight) : Option ExitOutcome :=
  if isDustQty held.qty then some .dust
  else
    match sight.cached with
    | none => some (.held sight.missing)
    | some c =>
      if c.fetched.book.bids = [] then some .noBids
      else
        let (decision, s) := s.decide exit held c.fetched.book (some c.fetchedAt) sight.now
        match decision with
        | none => some (g.outcome none)
        | some d =>
          if d.out.payload.isNone then some (g.outcome (some d))
          else if sight.bookClock - c.fetchedAt ≤ maxBookAgeSeconds then some (s.actOutcome g d)
          else none

/-- The outcome of `confirm`. -/
def Slot.confirmOutcome (s : Slot) (exit : ExitSection) (held : HeldPosition) (g : Grounds)
    (d : MarkDecision) (r : Refetched) : ExitOutcome :=
  match s.confirmClose exit held d r with
  | (.error reason, _) => .held reason
  | (.ok d, s) => s.actOutcome g d

def ExecResult.outcome (r : ExecResult) (order : SellOrder) (clock : ℚ) : ExitOutcome :=
  if r.fillPrice.isSome then .filled
  else .failed order clock
    (if r.restingOrderId.isSome then .restingOrderPending else .notFilled r.skipReason)

/-- The position an event evaluates, and what it comes to. -/
def ExitMonitor.outcome (m : ExitMonitor) : ExitEvent → Option (HeldPosition × ExitOutcome)
  | .evaluate sight clock =>
    match m.phase with
    | .sweeping _ (held :: _) =>
      ((m.slot held.positionId).evaluateOutcome m.exit held (m.grounds held.positionId clock) sight).map
        (held, ·)
    | _ => none
  | .refetched r clock =>
    match m.phase with
    | .refetching _ held d _ =>
      some (held, (m.slot held.positionId).confirmOutcome m.exit held (m.grounds held.positionId clock) d r)
    | _ => none
  | .finish clock _ =>
    match m.phase with
    | .sold _ held order (.ok r) _ => some (held, r.outcome order clock)
    | .sold _ held _ (.error exc) _ => some (held, .raised exc)
    | _ => none
  | _ => none

def ExitOutcome.isPlaced : ExitOutcome → Bool
  | .close _ _ .placed => true
  | _ => false

/-- One evaluation that is over, with the rows it wrote. -/
structure Evaluation where
  outcome : ExitOutcome
  rows : List ExitDecision

/-- The monitor, and the evaluations of each position, newest first. -/
structure WatchedExits where
  monitor : ExitMonitor
  history : ℕ → List Evaluation

/-- The history after an event that takes the monitor to `m'`. -/
def WatchedExits.extended (w : WatchedExits) (e : ExitEvent) (m' : ExitMonitor) : ℕ → List Evaluation :=
  match w.monitor.outcome e with
  | some (held, o) =>
    if o.isPlaced then w.history
    else Function.update w.history held.positionId
      (⟨o, m'.log.drop w.monitor.log.length⟩ :: w.history held.positionId)
  | none => w.history

def WatchedExits.step (w : WatchedExits) (e : ExitEvent) : Option WatchedExits :=
  (w.monitor.step e).map fun m' => ⟨m', w.extended e m'⟩

def WatchedExits.boot (exit : ExitSection) (live : LiveState)
    (snapshots : Option (List OrderBookSnapshot)) (tick : ℚ) : WatchedExits :=
  ⟨{ ExitMonitor.boot exit live snapshots with tick := tick }, fun _ => []⟩

end OpenPoly
