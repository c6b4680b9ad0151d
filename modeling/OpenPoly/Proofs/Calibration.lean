import OpenPoly.Lib.Tally
import OpenPoly.Proofs.Ledger
import OpenPoly.Proofs.Sizing
import OpenPoly.Spec.Calibration

/-! The calibration report: every forecast is in one bucket or excluded, and a bucket says
what its own positions alone say. -/

namespace OpenPoly

/-- A closed position with a probability and a measured outcome. -/
def PositionRow.isForecast (record : PositionRow) : Bool :=
  record.status = .closed && record.realizedPnl.isSome &&
    !(record.closeReason.any fun reason => reason ∈ unmeasuredCloseReasons) && record.entryPModel.isSome

/-- The rounded probability is in the bucket: from its lower edge on, below the upper one,
which the last bucket includes. -/
def InBucket (i : ℕ) (rounded : ℚ) : Prop :=
  i < bucketCount ∧ bucketEdge i ≤ rounded ∧
    (rounded < bucketEdge (i + 1) ∨ i + 1 = bucketCount ∧ rounded = bucketEdge bucketCount)

instance (i : ℕ) (rounded : ℚ) : Decidable (InBucket i rounded) := inferInstanceAs (Decidable (_ ∧ _))

def ownPositions (i : ℕ) (positions : List PositionRow) : List PositionRow :=
  positions.filter fun record =>
    record.isForecast && record.heldSideProbability.any fun q => InBucket i (roundTo bucketRoundDigits q)

def PositionRow.isExcluded (record : PositionRow) : Bool := record.isForecast && record.heldSideProbability.isNone

def average (xs : List ℚ) : Option ℚ := ratio xs.sum xs.length

theorem roundTo_mono (n : ℕ) {x y : ℚ} (h : x ≤ y) : roundTo n x ≤ roundTo n y := by
  unfold roundTo
  gcongr
  exact_mod_cast roundHalfEven_mono (by gcongr)

theorem roundTo_natCast (n k : ℕ) : roundTo n (k : ℚ) = k := by
  unfold roundTo
  have hint : (k : ℚ) * 10 ^ n = ((k * 10 ^ n : ℤ) : ℚ) := by push_cast; ring
  rw [hint, roundHalfEven_intCast]
  push_cast
  field_simp

theorem bucketEdge_mono {i j : ℕ} (h : i ≤ j) : bucketEdge i ≤ bucketEdge j := by
  unfold bucketEdge
  gcongr

/-- The highest index that passes the test is the one found. -/
theorem find_topmost {p : ℕ → Bool} {n i : ℕ} (hi : i < n) (hp : p i = true)
    (htop : ∀ j, i < j → j < n → p j = false) : (List.range n).reverse.find? p = some i := by
  induction n with
  | zero => omega
  | succ n ih =>
    rw [List.range_succ, List.reverse_append, List.reverse_singleton, List.singleton_append]
    rcases Nat.lt_or_ge i n with hlt | hge
    · rw [List.find?_cons_of_neg (by simp [htop n hlt (Nat.lt_succ_self n)])]
      exact ih hlt fun j hij hjn => htop j hij (Nat.lt_succ_of_lt hjn)
    · obtain rfl : i = n := by omega
      exact List.find?_cons_of_pos hp

theorem bucketIndex_of_inBucket {i : ℕ} {q : ℚ} (h : InBucket i (roundTo bucketRoundDigits q)) :
    bucketIndex q = i := by
  obtain ⟨hi, hlower, hupper⟩ := h
  unfold bucketIndex
  rw [find_topmost hi (by simpa using hlower) fun j hij hj => ?_, Option.getD_some]
  rcases hupper with hupper | ⟨htop, -⟩
  · have hedge := bucketEdge_mono (Nat.succ_le_of_lt hij)
    simp only [decide_eq_false_iff_not, not_le]
    exact hupper.trans_le hedge
  · omega

theorem exists_inBucket {r : ℚ} (h0 : 0 ≤ r) (h1 : r ≤ 1) : ∃ i, InBucket i r := by
  rcases h1.lt_or_eq with hlt | rfl
  · have hpos : (0 : ℚ) ≤ r * 10 := by linarith
    have hfloor : ⌊r * 10⌋₊ < 10 := by
      rw [Nat.floor_lt hpos]
      push_cast
      linarith
    have hle := Nat.floor_le hpos
    have hgt := Nat.lt_floor_add_one (r * 10)
    refine ⟨⌊r * 10⌋₊, hfloor, ?_, .inl ?_⟩
    · unfold bucketEdge
      linarith
    · unfold bucketEdge
      push_cast
      linarith
  · exact ⟨9, by decide, by norm_num [bucketEdge], .inr ⟨rfl, by norm_num [bucketEdge, bucketCount]⟩⟩

theorem inBucket_iff {i : ℕ} {q : ℚ} (h0 : 0 ≤ q) (h1 : q ≤ 1) :
    InBucket i (roundTo bucketRoundDigits q) ↔ bucketIndex q = i := by
  refine ⟨bucketIndex_of_inBucket, ?_⟩
  rintro rfl
  have hr0 : 0 ≤ roundTo bucketRoundDigits q := by
    have h := roundTo_mono bucketRoundDigits h0
    rwa [show (0 : ℚ) = ((0 : ℕ) : ℚ) by norm_num, roundTo_natCast, Nat.cast_zero] at h
  have hr1 : roundTo bucketRoundDigits q ≤ 1 := by
    have h := roundTo_mono bucketRoundDigits h1
    rwa [show (1 : ℚ) = ((1 : ℕ) : ℚ) by norm_num, roundTo_natCast, Nat.cast_one] at h
  obtain ⟨i, hi⟩ := exists_inBucket hr0 hr1
  rwa [bucketIndex_of_inBucket hi]

theorem bounds_of_held {record : PositionRow} {q : ℚ} (h : record.heldSideProbability = some q) : 0 ≤ q ∧ q ≤ 1 := by
  unfold PositionRow.heldSideProbability at h
  cases hp : record.entryPModel with
  | none => simp [hp] at h
  | some pModel =>
    simp only [hp] at h
    split_ifs at h with hbounds
    obtain rfl := Option.some.inj h
    norm_num [bucketEdge, bucketCount] at hbounds
    exact hbounds

def PositionRow.bucket (record : PositionRow) : Option ℕ :=
  if record.isForecast then record.heldSideProbability.map bucketIndex else none

theorem bucket_eq_some {record : PositionRow} {i : ℕ} :
    record.bucket = some i ↔
      (record.isForecast && record.heldSideProbability.any fun q => InBucket i (roundTo bucketRoundDigits q)) = true := by
  unfold PositionRow.bucket
  cases hforecast : record.isForecast with
  | false => simp
  | true =>
    cases hq : record.heldSideProbability with
    | none => simp
    | some q =>
      obtain ⟨h0, h1⟩ := bounds_of_held hq
      simp [inBucket_iff h0 h1]

theorem ownPositions_eq (i : ℕ) (positions : List PositionRow) :
    ownPositions i positions = Tally.members PositionRow.bucket i positions := by
  refine List.filter_congr fun record _ => ?_
  rw [Bool.eq_iff_iff, decide_eq_true_iff]
  exact bucket_eq_some.symm

theorem bucket_lt (record : PositionRow) (i : ℕ) (h : record.bucket = some i) : i < bucketCount := by
  obtain ⟨-, hany⟩ := Bool.and_eq_true_iff.mp (bucket_eq_some.mp h)
  obtain ⟨q, -, hq⟩ := (Option.any_eq_true _ _).mp hany
  exact (of_decide_eq_true hq).1

variable {basis : ℕ → Option ℚ} {positions : List PositionRow} {record : PositionRow}

theorem visit_eq (s : CalibrationRun) (record : PositionRow) :
    s.visit basis record =
      ⟨Tally.step PositionRow.bucket (BucketTally.add basis) s.tallies record,
        s.excluded + if record.isExcluded then 1 else 0⟩ := by
  have hskip : record.isForecast = false → s =
      ⟨Tally.step PositionRow.bucket (BucketTally.add basis) s.tallies record,
        s.excluded + if record.isExcluded then 1 else 0⟩ := by
    intro h
    simp [Tally.step, PositionRow.bucket, PositionRow.isExcluded, h]
  unfold CalibrationRun.visit
  by_cases hclosed : record.status ≠ .closed ∨ record.realizedPnl = none
  · rw [if_pos hclosed]
    refine hskip ?_
    rcases hclosed with hstatus | hpnl
    · simp [PositionRow.isForecast, hstatus]
    · simp [PositionRow.isForecast, hpnl]
  rw [if_neg hclosed]
  by_cases hreason : (record.closeReason.any fun reason => reason ∈ unmeasuredCloseReasons) = true
  · rw [if_pos hreason]
    exact hskip (by simp [PositionRow.isForecast, hreason])
  rw [if_neg hreason]
  by_cases hmodel : record.entryPModel = none
  · rw [if_pos hmodel]
    exact hskip (by simp [PositionRow.isForecast, hmodel])
  rw [if_neg hmodel]
  obtain ⟨hstatus, hpnl⟩ := not_or.mp hclosed
  have hforecast : record.isForecast = true := by
    unfold PositionRow.isForecast
    rw [not_not.mp hstatus, Option.isSome_iff_ne_none.mpr hpnl, Bool.eq_false_of_not_eq_true hreason,
      Option.isSome_iff_ne_none.mpr hmodel]
    rfl
  cases hq : record.heldSideProbability with
  | none => simp [Tally.step, PositionRow.bucket, PositionRow.isExcluded, hforecast, hq]
  | some q => simp [Tally.step, PositionRow.bucket, PositionRow.isExcluded, hforecast, hq]

theorem run_eq (positions : List PositionRow) :
    positions.foldl (CalibrationRun.visit basis) .start =
      ⟨(List.range bucketCount).map fun i => (ownPositions i positions).foldl (BucketTally.add basis) {},
        (positions.filter PositionRow.isExcluded).length⟩ := by
  have hrun : ∀ (s : CalibrationRun), positions.foldl (CalibrationRun.visit basis) s =
      ⟨positions.foldl (Tally.step PositionRow.bucket (BucketTally.add basis)) s.tallies,
        s.excluded + (positions.filter PositionRow.isExcluded).length⟩ := by
    induction positions with
    | nil => intro s; rfl
    | cons record positions ih =>
      intro s
      rw [List.foldl_cons, ih, visit_eq]
      cases hexcluded : record.isExcluded with
      | false => simp [hexcluded]
      | true =>
        rw [List.filter_cons_of_pos hexcluded, List.length_cons, Nat.add_comm _ 1, ← Nat.add_assoc]
        rfl
  rw [hrun]
  simp only [CalibrationRun.start, Nat.zero_add, Tally.foldl_step, ownPositions_eq]

/-- The counters of a bucket, from its own positions. -/
theorem foldl_add (rs : List PositionRow) (t : BucketTally) :
    rs.foldl (BucketTally.add basis) t =
      { count := t.count + rs.length
        wins := t.wins + (rs.filter fun r => 0 < r.realizedPnl.getD 0).length
        returns := t.returns + ((rs.filter fun r => 0 < r.costBasis basis).map
          fun r => r.realizedPnl.getD 0 / r.costBasis basis).sum
        measured := t.measured + (rs.filter fun r => 0 < r.costBasis basis).length } := by
  induction rs generalizing t with
  | nil => simp
  | cons r rs ih =>
    rw [List.foldl_cons, ih]
    unfold BucketTally.add
    by_cases hwin : 0 < r.realizedPnl.getD 0 <;> by_cases hcost : 0 < r.costBasis basis
    · simp [hwin, hcost, add_assoc, add_comm 1]
    · simp [hwin, hcost, add_assoc, add_comm 1]
    · simp [hwin, hcost, add_assoc, add_comm 1]
    · simp [hwin, hcost, add_assoc, add_comm 1]

def bucketOf (basis : ℕ → Option ℚ) (i : ℕ) (own : List PositionRow) : CalibrationBucket where
  lower := bucketEdge i
  upper := bucketEdge (i + 1)
  count := own.length
  winRate := average (own.map fun r => if 0 < r.realizedPnl.getD 0 then 1 else 0)
  meanReturn := average ((own.filter fun r => 0 < r.costBasis basis).map
    fun r => r.realizedPnl.getD 0 / r.costBasis basis)

theorem toBucket_eq (own : List PositionRow) (i : ℕ) :
    (own.foldl (BucketTally.add basis) {}).toBucket i = bucketOf basis i own := by
  rw [foldl_add]
  have hwins : ((own.filter fun r => 0 < r.realizedPnl.getD 0).length : ℚ) =
      (own.map fun r => if 0 < r.realizedPnl.getD 0 then (1 : ℚ) else 0).sum := by
    induction own with
    | nil => rfl
    | cons r own ih =>
      by_cases hwin : 0 < r.realizedPnl.getD 0
      · simp [hwin, ← ih, add_comm]
      · simp [hwin, ← ih]
  unfold BucketTally.toBucket bucketOf average
  simp [hwins]

theorem report_eq (positions : List PositionRow) (basis : ℕ → Option ℚ) :
    calibrationSummary positions basis =
      ⟨(List.range bucketCount).map fun i => bucketOf basis i (ownPositions i positions),
        (positions.filter PositionRow.isExcluded).length⟩ := by
  unfold calibrationSummary
  simp only [run_eq, CalibrationReport.mk.injEq, and_true]
  refine List.ext_getElem (by simp) fun i hi _ => ?_
  simp [toBucket_eq]

/-- One permutation of the positions makes one report. -/
theorem average_perm {xs ys : List ℚ} (h : xs.Perm ys) : average xs = average ys := by
  unfold average
  rw [h.sum_eq, h.length_eq]

theorem bucketOf_perm {own own' : List PositionRow} (h : own.Perm own') (i : ℕ) :
    bucketOf basis i own = bucketOf basis i own' := by
  unfold bucketOf
  rw [h.length_eq, average_perm (h.map _), average_perm ((h.filter _).map _)]

structure Calibrated (positions : List PositionRow) (basis : ℕ → Option ℚ) : Prop where
  /-- Every forecast is counted once or excluded. -/
  total : ((calibrationSummary positions basis).buckets.map CalibrationBucket.count).sum +
    (calibrationSummary positions basis).excluded = (positions.filter PositionRow.isForecast).length
  /-- A bucket says what its own positions say. -/
  buckets : (calibrationSummary positions basis).buckets =
    (List.range bucketCount).map fun i => bucketOf basis i (ownPositions i positions)
  /-- A forecast from a probability is in one bucket. -/
  one : ∀ record ∈ positions, ∀ q, record.isForecast = true → record.heldSideProbability = some q →
    ∃! i, record ∈ ownPositions i positions
  /-- Any other forecast is excluded. -/
  excluded : (calibrationSummary positions basis).excluded =
    (positions.filter fun record => record.isForecast && record.heldSideProbability.isNone).length
  /-- What is no forecast contributes nothing. -/
  nothing : ∀ before record after, positions = before ++ record :: after → record.isForecast = false →
    calibrationSummary positions basis = calibrationSummary (before ++ after) basis
  order : ∀ positions', positions.Perm positions' →
    calibrationSummary positions basis = calibrationSummary positions' basis

theorem mem_ownPositions {i : ℕ} {q : ℚ} (hmem : record ∈ positions) (hforecast : record.isForecast = true)
    (hq : record.heldSideProbability = some q) : record ∈ ownPositions i positions ↔ bucketIndex q = i := by
  obtain ⟨h0, h1⟩ := bounds_of_held hq
  rw [← inBucket_iff h0 h1]
  simp [ownPositions, hmem, hforecast, hq]

/-- A forecast has a bucket or is excluded. -/
theorem length_forecasts (positions : List PositionRow) :
    (positions.filter fun record => record.bucket.isSome).length + (positions.filter PositionRow.isExcluded).length =
      (positions.filter PositionRow.isForecast).length := by
  induction positions with
  | nil => rfl
  | cons record positions ih =>
    cases hforecast : record.isForecast with
    | false => simpa [PositionRow.bucket, PositionRow.isExcluded, hforecast] using ih
    | true =>
      cases hq : record.heldSideProbability with
      | none =>
        have hbucket : ¬ record.bucket.isSome = true := by simp [PositionRow.bucket, hq]
        have hexcluded : record.isExcluded = true := by simp [PositionRow.isExcluded, hforecast, hq]
        rw [List.filter_cons_of_neg (p := fun r : PositionRow => r.bucket.isSome) hbucket, List.filter_cons_of_pos hexcluded, List.filter_cons_of_pos hforecast,
          List.length_cons, List.length_cons, ← ih]
        omega
      | some q =>
        have hbucket : record.bucket.isSome = true := by simp [PositionRow.bucket, hforecast, hq]
        have hexcluded : ¬ record.isExcluded = true := by simp [PositionRow.isExcluded, hq]
        rw [List.filter_cons_of_pos (p := fun r : PositionRow => r.bucket.isSome) hbucket, List.filter_cons_of_neg hexcluded, List.filter_cons_of_pos hforecast,
          List.length_cons, List.length_cons, ← ih]
        omega

theorem calibration_total (positions : List PositionRow) (basis : ℕ → Option ℚ) :
    ((calibrationSummary positions basis).buckets.map CalibrationBucket.count).sum +
      (calibrationSummary positions basis).excluded = (positions.filter PositionRow.isForecast).length := by
  rw [report_eq, ← length_forecasts, List.map_map, ← Tally.sum_length_members PositionRow.bucket bucket_lt]
  simp only [← ownPositions_eq]
  rfl

/-- The report of any positions. -/
theorem calibration_report (positions : List PositionRow) (basis : ℕ → Option ℚ) : Calibrated positions basis := by
  refine ⟨calibration_total positions basis, ?_, fun record hmem q hforecast hq => ?_, ?_,
    fun before record after heq hnot => ?_, fun positions' hperm => ?_⟩
  · rw [report_eq]
  · exact ⟨bucketIndex q, (mem_ownPositions hmem hforecast hq).mpr rfl,
      fun i hi => ((mem_ownPositions hmem hforecast hq).mp hi).symm⟩
  · rw [report_eq]
    rfl
  · rw [heq, report_eq, report_eq]
    have hown : ∀ i, ownPositions i (before ++ record :: after) = ownPositions i (before ++ after) := by
      intro i
      simp [ownPositions, hnot]
    simp [hown, PositionRow.isExcluded, hnot]
  · rw [report_eq, report_eq]
    congr 1
    · exact List.map_congr_left fun i _ => bucketOf_perm (hperm.filter _) i
    · exact (hperm.filter _).length_eq

/-- A position bought at 0.50 on a probability of 0.7, closed with a gain of 1. -/
def calibratedRow (id : ℕ) : PositionRow :=
  { openRow id sampleOpen with
    qty := 2
    avgEntryPrice := 1 / 2
    status := .closed
    closeReason := some .settlement
    realizedPnl := some 1
    entryPModel := some (7 / 10) }

/-- Of two returns, 1 and -1, only the first is averaged. -/
theorem mean_return_leaves_out :
    ((calibrationSummary [calibratedRow 1, calibratedRow 2] fun id => if id = 2 then some (-1) else none).buckets[7]?).map
        CalibrationBucket.meanReturn = some (some 1) ∧
      ownPositions 7 [calibratedRow 1, calibratedRow 2] = [calibratedRow 1, calibratedRow 2] ∧
      average ([calibratedRow 1, calibratedRow 2].map fun r =>
        r.realizedPnl.getD 0 / r.costBasis fun id => if id = 2 then some (-1) else none) = some 0 := by
  refine ⟨?_, ?_, ?_⟩
  · decide +kernel
  · decide +kernel
  · decide +kernel

end OpenPoly
