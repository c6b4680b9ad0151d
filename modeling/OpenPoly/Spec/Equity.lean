import OpenPoly.Spec.Sizing
import Mathlib.Data.List.Sort

/-! The equity curve: the position table folded against the sampled books into
realized and unrealized PnL over time. -/

namespace OpenPoly

structure OrderBookSnapshot where
  tokenId : String
  recordedAt : ℚ
  bids : List Level
  deriving DecidableEq

structure EquityPoint where
  ts : ℚ
  equity : ℚ
  realized : ℚ
  unrealized : ℚ
  deriving DecidableEq, Repr

structure EquityCurve where
  points : List EquityPoint
  realized : ℚ
  unrealized : ℚ
  total : ℚ
  openPositions : ℕ
  deriving DecidableEq, Repr

def maxPoints : ℕ := 500

def bisectLeft (xs : List ℚ) (t : ℚ) : ℕ := (xs.takeWhile (· < t)).length

def bisectRight (xs : List ℚ) (t : ℚ) : ℕ := (xs.takeWhile (· ≤ t)).length

/-- A token's level-1 bids, ascending by their stamps; a book without bids has
none. -/
abbrev Marks := List ℚ × List ℚ

def markAt (marks : Marks) (t : ℚ) : Option ℚ :=
  let i := bisectRight marks.1 t
  if i = 0 then none else marks.2[i - 1]?

/-- Every `step`-th entry, after the next `skip`. -/
def strided (step : ℕ) : ℕ → List ℚ → List ℚ
  | _, [] => []
  | 0, t :: ts => t :: strided step (step - 1) ts
  | skip + 1, _ :: ts => strided step skip ts

/-- `_thin`: at most `limit` strided entries, the last one kept. -/
def thin (timestamps : List ℚ) (limit : ℕ) : List ℚ :=
  if timestamps.length ≤ limit then timestamps
  else
    let step := (timestamps.length + limit - 1) / limit
    (strided step 0 timestamps).dropLast ++ timestamps.getLast?.toList

/-- The rows of one token that carry a bid, in the order the query returns them. -/
def bidRows (snapshots : List OrderBookSnapshot) (tokenId : String) : List (ℚ × ℚ) :=
  (snapshots.filterMap fun s =>
    if s.tokenId = tokenId then s.bids.head?.map fun level => (s.recordedAt, level.1) else none).insertionSort
      fun r r' => r.1 ≤ r'.1

def tokenMarks (snapshots : List OrderBookSnapshot) (tokenId : String) : Marks :=
  let rows := bidRows snapshots tokenId
  (rows.map Prod.fst, rows.map Prod.snd)

/-- `fee_per_share`: the buy fee per share of a position; 0 without a buy. -/
def Db.feePerShare (db : Db) (positionId : ℕ) : ℚ :=
  ((db.fillsOf positionId .buy).map FillRow.fee).sum /
    ((db.fillsOf positionId .buy).map FillRow.qty).sum

def holdingWindow (marks : Marks) (now : ℚ) (p : PositionRow) : List ℚ :=
  let last := p.closedAt.getD now
  (marks.1.take (bisectRight marks.1 last)).drop (bisectLeft marks.1 p.openedAt)

/-- The time axis: now, every open and close, and the thinned stamps. -/
def timeline (marks : String → Marks) (now : ℚ) (positions : List PositionRow) : List ℚ :=
  let perPosition := max 1 (maxPoints / positions.length)
  let events := now :: positions.flatMap fun p => p.openedAt :: p.closedAt.toList
  let inWindow := positions.flatMap fun p =>
    thin (holdingWindow (marks p.tokenId) now p) perPosition
  (events ++ inWindow).dedup.insertionSort (· ≤ ·)

/-- The loop over the positions at `t`: realized and unrealized so far. -/
def addPosition (db : Db) (marks : String → Marks) (t : ℚ) (acc : ℚ × ℚ) (p : PositionRow) : ℚ × ℚ :=
  if p.closedAt.any (· ≤ t) then (acc.1 + p.realizedPnl.getD 0, acc.2)
  else if p.openedAt ≤ t then
    let mark := (markAt (marks p.tokenId) t).getD p.avgEntryPrice
    let paid := db.feePerShare p.id
    (acc.1, acc.2 + (mark - p.avgEntryPrice - paid) * p.qty)
  else acc

def equityPoint (db : Db) (marks : String → Marks) (t : ℚ) : EquityPoint :=
  let (realized, unrealized) := db.positions.foldl (addPosition db marks t) (0, 0)
  ⟨t, realized + unrealized, realized, unrealized⟩

def buildEquityCurve (snapshots : List OrderBookSnapshot) (now : ℚ) (db : Db) : EquityCurve :=
  if db.positions = [] then ⟨[], 0, 0, 0, 0⟩
  else
    let marks := tokenMarks snapshots
    let points := (timeline marks now db.positions).map (equityPoint db marks)
    let last := points.getLast?.getD ⟨now, 0, 0, 0⟩
    { points
      realized := last.realized
      unrealized := last.unrealized
      total := last.equity
      openPositions := db.positions.countP fun p => p.status = .open }

end OpenPoly
