import OpenPoly.Lib.Earliest
import OpenPoly.Lib.Grouped
import OpenPoly.Spec.Calibration
import OpenPoly.Spec.Equity
import OpenPoly.Spec.Notional
import OpenPoly.Spec.Pipeline

/-! `shadow_report`, and the table of order books it reads: written batch by batch, and
pruned by `prune_order_books`. -/

namespace OpenPoly

/-- What the report reads off a row of `shadow_pick`. -/
structure ShadowPickRow where
  ts : ℚ
  confidence : String
  tokenId : Option String
  ask : Option ℚ
  takerFeeRate : Option ℚ
  deriving DecidableEq

/-- `ShadowStore.record`. -/
def ShadowRecord.row (r : ShadowRecord) : ShadowPickRow :=
  let q := r.quote.getD {}
  ⟨r.ts, r.confidence, q.tokenId, q.ask, q.feeRate⟩

def horizonsHours : List ℕ := [6, 24, 48]

inductive MarkKey where
  | hours (h : ℕ)
  | latest
  deriving DecidableEq

def markKeys : List MarkKey := horizonsHours.map .hours ++ [.latest]

def ShadowPickRow.dueAt (pick : ShadowPickRow) (h : ℕ) : ℚ := pick.ts + h * 3600

/-- The first snapshot of a token at or after `due`. -/
def snapshotAt (rows : List OrderBookSnapshot) (token : String) (due : ℚ) : Option OrderBookSnapshot :=
  Earliest.first (fun s s' => s.recordedAt ≤ s'.recordedAt)
    (rows.filter fun s => s.tokenId = token ∧ due ≤ s.recordedAt)

/-- `_mark_at` of the report, with `_bid_of`. -/
def shadowMarkAt (rows : List OrderBookSnapshot) (token : String) (due : ℚ) : Option ℚ :=
  (snapshotAt rows token due).bind fun s => firstLevelWithSize s.bids

def latestMark (rows : List OrderBookSnapshot) (token : String) (after : ℚ) : Option ℚ :=
  (Earliest.first (fun s s' => s'.recordedAt ≤ s.recordedAt)
    (rows.filter fun s => s.tokenId = token ∧ after < s.recordedAt)).bind fun s => firstLevelWithSize s.bids

def netReturn (ask mark : ℚ) (rate : Option ℚ) : Except PyErr ℚ :=
  let cost := ask + takerFeePerShare rate ask
  let proceeds := mark - takerFeePerShare rate mark
  trueDiv (proceeds - cost) cost

inductive PickOutcome where
  | returned (r : ℚ)
  | pending
  | noData
  deriving DecidableEq

def markedAs (ask : ℚ) (rate : Option ℚ) : Option ℚ → Except PyErr PickOutcome
  | none => .ok .noData
  | some mark => (netReturn ask mark rate).map .returned

def ShadowPickRow.outcome (rows : List OrderBookSnapshot) (now : ℚ) (pick : ShadowPickRow) (key : MarkKey) :
    Except PyErr PickOutcome :=
  match pick.tokenId, pick.ask with
  | some token, some ask =>
    if ask = 0 then .ok .noData
    else
      match key with
      | .hours h =>
        if now < pick.dueAt h then .ok .pending
        else markedAs ask pick.takerFeeRate (shadowMarkAt rows token (pick.dueAt h))
      | .latest => markedAs ask pick.takerFeeRate (latestMark rows token pick.ts)
  | _, _ => .ok .noData

/-- The `_r`, `_p` and `_n` of a group under one key. -/
structure KeyTally where
  returns : List ℚ := []
  pending : ℕ := 0
  noData : ℕ := 0
  deriving DecidableEq

def KeyTally.add (t : KeyTally) : PickOutcome → KeyTally
  | .returned r => { t with returns := t.returns ++ [r] }
  | .pending => { t with pending := t.pending + 1 }
  | .noData => { t with noData := t.noData + 1 }

/-- A group of picks of one confidence, a tally for each of `markKeys`. -/
structure PickGroup where
  picks : ℕ
  tallies : List KeyTally
  deriving DecidableEq

def PickGroup.empty : PickGroup := ⟨0, markKeys.map fun _ => {}⟩

def PickGroup.add (g : PickGroup) (outcomes : List PickOutcome) : PickGroup :=
  ⟨g.picks + 1, List.zipWith KeyTally.add g.tallies outcomes⟩

def shadowGroups (rows : List OrderBookSnapshot) (now : ℚ) (picks : List ShadowPickRow) :
    Except PyErr (List (String × PickGroup)) :=
  Grouped.groupM .empty PickGroup.add ShadowPickRow.confidence
    (fun pick => markKeys.mapM (pick.outcome rows now)) (picks.insertionSort fun p p' => p.ts ≤ p'.ts)

def median (xs : List ℚ) : Option ℚ :=
  let sorted := xs.insertionSort (· ≤ ·)
  let n := sorted.length
  if n % 2 = 1 then sorted[n / 2]?
  else sorted[n / 2]?.bind fun high => sorted[n / 2 - 1]?.map fun low => (low + high) / 2

structure ReturnSummary where
  count : ℕ
  meanReturn : Option ℚ
  medianReturn : Option ℚ
  winRate : Option ℚ
  deriving DecidableEq

/-- `_summary`. -/
def summaryOf (returns : List ℚ) : ReturnSummary :=
  ⟨returns.length, ratio returns.sum returns.length, median returns,
    ratio (returns.countP fun r => 0 < r) returns.length⟩

/-- One key of a confidence in the report. -/
structure HorizonReport where
  summary : ReturnSummary
  pending : ℕ
  noData : ℕ
  deriving DecidableEq

def KeyTally.report (t : KeyTally) : HorizonReport := ⟨summaryOf t.returns, t.pending, t.noData⟩

structure ConfidenceReport where
  picks : ℕ
  horizons : List (MarkKey × HorizonReport)
  deriving DecidableEq

def PickGroup.report (g : PickGroup) : ConfidenceReport :=
  ⟨g.picks, markKeys.zip (g.tallies.map KeyTally.report)⟩

structure ShadowReport where
  generatedAt : ℚ
  shadow : List (String × ConfidenceReport)
  real : List (String × ReturnSummary)
  deriving DecidableEq

/-- The return of a closed position on its cost, under its entry confidence. -/
def realReturn (costBasis : ℕ → Option ℚ) (p : PositionRow) : Option (String × ℚ) :=
  match p.status, p.realizedPnl, costBasis p.id with
  | .closed, some pnl, some cost =>
    if cost = 0 then none
    else some ((p.entryConfidence.filter fun c => c ≠ "").getD "unknown", pnl / cost)
  | _, _, _ => none

def realReturns (costBasis : ℕ → Option ℚ) (positions : List PositionRow) : List (String × List ℚ) :=
  Grouped.group [] (fun rs pr => rs ++ [pr.2]) Prod.fst (positions.filterMap (realReturn costBasis))

def shadowReport (picks : List ShadowPickRow) (rows : List OrderBookSnapshot) (positions : List PositionRow)
    (costBasis : ℕ → Option ℚ) (now : ℚ) : Except PyErr ShadowReport := do
  let groups ← shadowGroups rows now picks
  pure ⟨now, groups.map fun e => (e.1, e.2.report),
    (realReturns costBasis positions).map fun e => (e.1, summaryOf e.2)⟩

def pruneBatchRows : ℕ := 5000

def secondsPerDay : ℚ := 86400

/-- A call of `prune_order_books`, in its thread. -/
structure Sweep where
  cutoff : ℚ
  deleted : ℕ
  running : Bool
  deriving DecidableEq

/-- The two tables. `written` records every snapshot there ever was. -/
structure ShadowArchive where
  rows : List (ℕ × OrderBookSnapshot)
  picks : List ShadowPickRow
  sweeps : List Sweep
  written : List OrderBookSnapshot

def ShadowArchive.empty : ShadowArchive := ⟨[], [], [], []⟩

inductive ArchiveEvent where
  /-- The sink of the order books commits a batch. -/
  | persist (books : List OrderBookSnapshot)
  | record (r : ShadowRecord)
  | startPrune (now retentionDays : ℚ)
  /-- One `DELETE` of a sweep: `LIMIT` leaves open which of the old rows it takes. -/
  | pruneBatch (k : ℕ) (ids : List ℕ)
  /-- A sweep sees `_prune_stop`. -/
  | bail (k : ℕ)

def insertSnapshot (rows : List (ℕ × OrderBookSnapshot)) (b : OrderBookSnapshot) : List (ℕ × OrderBookSnapshot) :=
  rows ++ [(nextId (rows.map Prod.fst), b)]

/-- The `DELETE` may take these rows: they are old, and as many as it takes. -/
def ShadowArchive.takes (a : ShadowArchive) (cutoff : ℚ) (ids : List ℕ) : Bool :=
  (a.rows.all fun r => !ids.contains r.1 || decide (r.2.recordedAt < cutoff)) &&
    (a.rows.countP fun r => ids.contains r.1) =
      min pruneBatchRows (a.rows.countP fun r => decide (r.2.recordedAt < cutoff))

def ShadowArchive.delete (a : ShadowArchive) (k : ℕ) (sweep : Sweep) (ids : List ℕ) : ShadowArchive :=
  let removed := a.rows.countP fun r => ids.contains r.1
  { a with
    rows := a.rows.filter fun r => !ids.contains r.1
    sweeps := a.sweeps.set k ⟨sweep.cutoff, sweep.deleted + removed, removed = pruneBatchRows⟩ }

def ShadowArchive.step (a : ShadowArchive) : ArchiveEvent → Option ShadowArchive
  | .persist books => some { a with rows := books.foldl insertSnapshot a.rows, written := a.written ++ books }
  | .record r => some { a with picks := a.picks ++ [r.row] }
  | .startPrune now retentionDays =>
    if retentionDays ≤ 0 then some a
    else some { a with sweeps := a.sweeps ++ [⟨now - retentionDays * secondsPerDay, 0, true⟩] }
  | .pruneBatch k ids =>
    match a.sweeps[k]? with
    | some sweep => if sweep.running && a.takes sweep.cutoff ids then some (a.delete k sweep ids) else none
    | none => none
  | .bail k =>
    match a.sweeps[k]? with
    | some sweep => some { a with sweeps := a.sweeps.set k { sweep with running := false } }
    | none => none

def ShadowArchive.books (a : ShadowArchive) : List OrderBookSnapshot := a.rows.map Prod.snd

def calibrationLimit : ℕ := 5000

def Db.buyCostBasis (db : Db) (positionId : ℕ) : Option ℚ :=
  let buys := db.fillsOf positionId .buy
  if buys.isEmpty then none else some (buys.map fun f => f.price * f.qty + f.fee).sum

/-- `get_shadow_report`. -/
def ShadowArchive.report (a : ShadowArchive) (db : Db) (now : ℚ) : Except PyErr ShadowReport :=
  shadowReport a.picks a.books (db.listPositions calibrationLimit) db.buyCostBasis now

/-- `get_calibration`. -/
def Db.calibration (db : Db) : CalibrationReport :=
  calibrationSummary (db.listPositions calibrationLimit) db.buyCostBasis

end OpenPoly
