import OpenPoly.Spec.Entry
import OpenPoly.Spec.Exit

/-! `calibration_summary`: closed positions by the probability the model gave the side
that was bought, and how they came out. -/

namespace OpenPoly

/-- `BUCKET_EDGES`: tenths from 0 to 1. -/
def bucketEdge (i : ℕ) : ℚ := i / 10

def bucketCount : ℕ := 10

def bucketRoundDigits : ℕ := 9

def PositionRow.heldSideProbability (record : PositionRow) : Option ℚ :=
  match record.entryPModel with
  | none => none
  | some pModel =>
    let held := OpenPoly.heldSideProbability pModel record.side
    if bucketEdge 0 ≤ held ∧ held ≤ bucketEdge bucketCount then some held else none

/-- `_bucket_index`: the highest bucket whose lower edge the rounded value reaches. -/
def bucketIndex (probability : ℚ) : ℕ :=
  ((List.range bucketCount).reverse.find? fun i => bucketEdge i ≤ roundTo bucketRoundDigits probability).getD 0

def unmeasuredCloseReasons : List CloseReason := [.reconciled]

structure BucketTally where
  count : ℕ := 0
  wins : ℕ := 0
  returns : ℚ := 0
  measured : ℕ := 0

/-- `basis_by_id.get(record.id, record.avg_entry_price * record.qty)`. -/
def PositionRow.costBasis (basis : ℕ → Option ℚ) (record : PositionRow) : ℚ :=
  (basis record.id).getD (record.avgEntryPrice * record.qty)

def BucketTally.add (basis : ℕ → Option ℚ) (t : BucketTally) (record : PositionRow) : BucketTally :=
  let pnl := record.realizedPnl.getD 0
  let cost := record.costBasis basis
  { count := t.count + 1
    wins := t.wins + if 0 < pnl then 1 else 0
    returns := t.returns + if 0 < cost then pnl / cost else 0
    measured := t.measured + if 0 < cost then 1 else 0 }

structure CalibrationBucket where
  lower : ℚ
  upper : ℚ
  count : ℕ
  winRate : Option ℚ
  meanReturn : Option ℚ
  deriving DecidableEq, Repr

structure CalibrationReport where
  buckets : List CalibrationBucket
  excluded : ℕ
  deriving DecidableEq, Repr

structure CalibrationRun where
  tallies : List BucketTally
  excluded : ℕ

def CalibrationRun.visit (basis : ℕ → Option ℚ) (s : CalibrationRun) (record : PositionRow) : CalibrationRun :=
  if record.status ≠ .closed ∨ record.realizedPnl = none then s
  else if record.closeReason.any (fun reason => reason ∈ unmeasuredCloseReasons) then s
  else if record.entryPModel = none then s
  else
    match record.heldSideProbability with
    | none => { s with excluded := s.excluded + 1 }
    | some probability =>
      { s with tallies := s.tallies.modify (bucketIndex probability) fun t => t.add basis record }

def CalibrationRun.start : CalibrationRun := ⟨List.replicate bucketCount {}, 0⟩

/-- `total / count`, none where there is nothing to divide by. -/
def ratio (total : ℚ) (count : ℕ) : Option ℚ := if count = 0 then none else some (total / count)

def BucketTally.toBucket (t : BucketTally) (i : ℕ) : CalibrationBucket where
  lower := bucketEdge i
  upper := bucketEdge (i + 1)
  count := t.count
  winRate := ratio t.wins t.count
  meanReturn := ratio t.returns t.measured

def calibrationSummary (positions : List PositionRow) (basis : ℕ → Option ℚ) : CalibrationReport :=
  let run := positions.foldl (CalibrationRun.visit basis) .start
  ⟨run.tallies.mapIdx fun i t => t.toBucket i, run.excluded⟩

end OpenPoly
