import OpenPoly.Spec.ExitMonitor
import OpenPoly.Spec.SettlementMonitor

/-! The exit monitor and the settlement monitor over one ledger. Both log the PnL
of what they close; beside each such row stands what the ledger booked. -/

namespace OpenPoly

def Db.accrued (db : Db) (positionId : ℕ) : ℚ :=
  ((db.get positionId).bind PositionRow.realizedPnl).getD 0

def bookedOn (before after : Db) (positionId : ℕ) : ℚ := after.accrued positionId - before.accrued positionId

structure Reports where
  exit : ExitMonitor
  /-- The open positions a settlement tick has read, while it is under way. -/
  opens : Option (List HeldPosition)
  settlementLog : List SettlementDecision
  /-- For the reader: what the last sell of the exit monitor booked. -/
  lastSell : ℚ
  /-- For the reader: the `ok` rows of the two logs, each with what was booked. -/
  exitRows : List (ExitDecision × ℚ)
  settlementRows : List (SettlementDecision × ℚ)

def Reports.db (s : Reports) : Db := s.exit.live.db

def Reports.start (exit : ExitSection) (live : LiveState) (snapshots : Option (List OrderBookSnapshot)) :
    Reports where
  exit := ExitMonitor.boot exit live snapshots
  opens := none
  settlementLog := []
  lastSell := 0
  exitRows := []
  settlementRows := []

inductive ReportEvent where
  /-- The exit monitor, or a coroutine that writes the ledger beside it. -/
  | exit (e : ExitEvent)
  /-- A settlement tick reads the open positions and asks Gamma about them. -/
  | readOpens
  /-- Gamma has answered, and the tick comes to a position of a market with outcome prices. -/
  | settle (held : HeldPosition) (outcomePrices : ℚ × ℚ) (ts : ℚ)
  | settled

def newOk {α : Type} (isOk : α → Bool) (before after : List α) : List α :=
  (after.drop before.length).filter isOk

def ExitDecision.isOk (d : ExitDecision) : Bool := d.verdict = .ok

def SettlementDecision.isOk (d : SettlementDecision) : Bool := d.verdict = .ok

def Reports.sold (s : Reports) (exit : ExitMonitor) : ExitEvent → ℚ
  | .execute request => bookedOn s.db exit.live.db request.position.positionId
  | _ => s.lastSell

/-- The settlement monitor's surroundings, with the closing registry as it is. -/
def Reports.settlementEnv (s : Reports) (env : SettlementEnv) : SettlementEnv :=
  { env with isClosing := fun positionId => s.exit.closing.contains positionId }

def Reports.withDb (s : Reports) (db : Db) : Reports :=
  { s with exit := { s.exit with live := { s.exit.live with db := db } } }

def reportStep (env : SettlementEnv) (s : Reports) : ReportEvent → Option Reports
  | .exit e =>
    (s.exit.step e).map fun exit =>
      { s with
        exit := exit
        lastSell := s.sold exit e
        exitRows := s.exitRows ++
          (newOk ExitDecision.isOk s.exit.log exit.log).map fun d => (d, s.lastSell) }
  | .readOpens =>
    match s.opens with
    | none => some { s with opens := some s.db.getOpenPositions }
    | some _ => none
  | .settle held outcomePrices ts =>
    if held ∈ s.opens.getD [] then
      match settlePosition (s.settlementEnv env) outcomePrices ts
          { db := s.db, log := s.settlementLog, reads := 0, processed := [] } held with
      | .error _ => none
      | .ok t =>
        some { s.withDb t.db with
          settlementLog := t.log
          settlementRows := s.settlementRows ++
            (newOk SettlementDecision.isOk s.settlementLog t.log).map fun d =>
              (d, bookedOn s.db t.db held.positionId) }
    else none
  | .settled => if s.opens.isSome then some { s with opens := none } else none

end OpenPoly
