import OpenPoly.Proofs.InstantStop

/-! Exit v1 in the bid: a mark that is not thin and at which a protective exit
fires, fires one at every lower mark too, the ask unmoved. -/

namespace OpenPoly

section
variable {config : ThresholdExitConfigV1} {pos : MarkedPosition} {c c' : ℚ}

/-- The position with its mark at `c`, the spread taken to the ask where there
is one. -/
def MarkedPosition.markedAt (pos : MarkedPosition) (c : ℚ) : MarkedPosition :=
  { pos with
    currentPrice := c
    spread := match pos.ask with
      | some ask => some (ask - c)
      | none => pos.spread }

/-- Exit v1 closes on the stop-loss or the trailing stop. -/
def Protects (config : ThresholdExitConfigV1) (pos : MarkedPosition) : Prop :=
  ∃ intent, (exitRunV1 config (some pos)).payload = some intent ∧
    (intent.trigger = .stopLoss ∨ intent.trigger = .peakDrawdown)

/-- A stop of v1 is reached. -/
def Stopped (config : ThresholdExitConfigV1) (pos : MarkedPosition) : Prop :=
  stopReturnPct pos ≤ -config.stopLossPct ∨ pos.returnPct ≤ -config.hardStopLossPct

def TakesProfit (config : ThresholdExitConfigV1) (pos : MarkedPosition) : Prop :=
  config.takeProfitEnabled = true ∧ config.takeProfitPct ≤ pos.returnPct

/-- The bid has come down from a meaningful peak by the trailing distance. -/
def Trails (config : ThresholdExitConfigV1) (pos : MarkedPosition) : Prop :=
  config.peakMeaningful pos = true ∧
    (exitStepsV1 config).trailDistance config.toThresholdExitConfig pos ≤
      pos.peakPrice - pos.currentPrice

theorem trigger_protects :
    (∃ trigger, (exitStepsV1 config).trigger config.toThresholdExitConfig pos = some trigger ∧
      (trigger = .stopLoss ∨ trigger = .peakDrawdown)) ↔
    Stopped config pos ∨ ¬ TakesProfit config pos ∧ Trails config pos := by
  have hstop : (exitStepsV1 config).stopTriggered pos pos.returnPct = true ↔ Stopped config pos := by
    simp [exitStepsV1, Stopped]
  have hprofit : (config.takeProfitEnabled = true ∧ config.takeProfitPct ≤ pos.returnPct) ↔
      TakesProfit config pos := Iff.rfl
  have htrail : (config.peakMeaningful pos = true ∧
      (exitStepsV1 config).trailDistance config.toThresholdExitConfig pos ≤
        pos.peakPrice - pos.currentPrice) ↔ Trails config pos := Iff.rfl
  unfold ExitSteps.trigger
  by_cases hs : Stopped config pos
  · simp [hstop.mpr hs, hs]
  · rw [if_neg (mt hstop.mp hs)]
    by_cases ht : TakesProfit config pos
    · rw [if_pos (hprofit.mpr ht)]
      simp [hs, ht]
    · rw [if_neg (mt hprofit.mp ht)]
      by_cases hp : Trails config pos
      · rw [if_pos (htrail.mpr hp)]
        simp [ht, hp]
      · rw [if_neg (mt htrail.mp hp)]
        simp [hs, hp]

theorem protects_iff (hthin : pos.thin = false) :
    Protects config pos ↔ 0 < pos.avgEntryPrice ∧
      (Stopped config pos ∨ ¬ TakesProfit config pos ∧ Trails config pos) := by
  rw [← trigger_protects]
  unfold Protects exitRunV1
  dsimp only
  rw [if_neg (by simp [hthin])]
  by_cases hentry : 0 < pos.avgEntryPrice
  · rw [if_pos hentry]
    cases htrigger : (exitStepsV1 config).trigger config.toThresholdExitConfig pos with
    | some trigger =>
      have hrun : (exitStepsV1 config).run config.toThresholdExitConfig (some pos) =
          { payload := some (pos.closeAt pos.currentPrice trigger), reason := trigger.name,
            signals := (exitStepsV1 config).signals config.toThresholdExitConfig pos } := by
        simp only [ExitSteps.run, if_neg hentry.not_ge, htrigger]
      rw [hrun]
      simp [noteStopReturn, MarkedPosition.closeAt, hentry]
    | none =>
      have hrun : (exitStepsV1 config).run config.toThresholdExitConfig (some pos) =
          { payload := none, reason := "within thresholds",
            signals := (exitStepsV1 config).signals config.toThresholdExitConfig pos } := by
        simp only [ExitSteps.run, if_neg hentry.not_ge, htrigger]
      rw [hrun]
      simp only [noteStopReturn, Option.isNone_none, if_true, reduceCtorEq, false_and, exists_false,
        and_false, iff_false, not_exists, not_and]
      intro intent hmax
      rw [maxHoldDecision_closes rfl hmax]
      simp
  · have hrun : ((exitStepsV1 config).run config.toThresholdExitConfig (some pos)).payload = none := by
      simp [ExitSteps.run, not_lt.mp hentry]
    rw [if_neg hentry, hrun]
    simp [hentry]

theorem stopMark_mono (pos : MarkedPosition) (h : c' ≤ c) :
    stopMark (pos.markedAt c') ≤ stopMark (pos.markedAt c) := by
  unfold stopMark MarkedPosition.markedAt
  dsimp only
  cases pos.ask with
  | none => exact h
  | some ask =>
    dsimp only
    split_ifs with hlow hhigh <;> linarith

theorem return_mono {entry price price' : ℚ} (hentry : 0 < entry) (h : price' ≤ price) :
    (price' - entry) / entry ≤ (price - entry) / entry :=
  div_le_div_of_nonneg_right (sub_le_sub_right h entry) hentry.le

/-- The stops are reached at every lower mark. -/
theorem Stopped.lower (h : Stopped config (pos.markedAt c)) (hentry : 0 < pos.avgEntryPrice)
    (hle : c' ≤ c) : Stopped config (pos.markedAt c') := by
  rcases h with hmid | hhard
  · exact .inl ((return_mono hentry (stopMark_mono pos hle)).trans hmid)
  · exact .inr ((return_mono hentry hle).trans hhard)

/-- A profit that is not taken is not taken at a lower mark. -/
theorem TakesProfit.higher (h : TakesProfit config (pos.markedAt c')) (hentry : 0 < pos.avgEntryPrice)
    (hle : c' ≤ c) : TakesProfit config (pos.markedAt c) :=
  ⟨h.1, h.2.trans (return_mono hentry hle)⟩

/-- A floor, a capped spread and a percentage, in the spread. -/
theorem clamped_le {floor cap pct spread spread' fall : ℚ} (hfall : 0 ≤ fall)
    (h : spread' ≤ spread + fall) :
    max (max floor (min spread' cap)) pct ≤ max (max floor (min spread cap)) pct + fall := by
  rw [← max_add_add_right, ← max_add_add_right, ← min_add_add_right]
  refine max_le_max (max_le_max ?_ (min_le_min h ?_)) ?_ <;> exact le_add_of_nonneg_right hfall

def MarkedPosition.liveSpread (pos : MarkedPosition) : ℚ :=
  match pos.spread with
  | some spread => if 0 < spread then spread else 0
  | none => 0

theorem liveSpread_lower (pos : MarkedPosition) (hle : c' ≤ c) :
    (pos.markedAt c').liveSpread ≤ (pos.markedAt c).liveSpread + (c - c') := by
  unfold MarkedPosition.liveSpread MarkedPosition.markedAt
  cases pos.ask with
  | none => exact le_add_of_nonneg_right (sub_nonneg.mpr hle)
  | some ask =>
    dsimp only
    split_ifs <;> linarith

def ThresholdExitConfigV1.pctTrail (config : ThresholdExitConfigV1) (pos : MarkedPosition) : ℚ :=
  config.peakDrawdownPct * (pos.peakPrice - pos.avgEntryPrice)

theorem trailDistance_eq (config : ThresholdExitConfigV1) (pos : MarkedPosition) :
    (exitStepsV1 config).trailDistance config.toThresholdExitConfig pos =
      max (max (config.minTrailTicks * config.tickOf pos)
        (min pos.liveSpread (max (config.pctTrail pos) 0 + spreadCapTicks * config.tickOf pos)))
        (config.pctTrail pos) := rfl

/-- The trailing distance widens by no more than the mark falls. -/
theorem trailDistance_lower (config : ThresholdExitConfigV1) (pos : MarkedPosition) (hle : c' ≤ c) :
    (exitStepsV1 config).trailDistance config.toThresholdExitConfig (pos.markedAt c') ≤
      (exitStepsV1 config).trailDistance config.toThresholdExitConfig (pos.markedAt c) + (c - c') := by
  have htick : config.tickOf (pos.markedAt c') = config.tickOf (pos.markedAt c) := rfl
  have hpct : config.pctTrail (pos.markedAt c') = config.pctTrail (pos.markedAt c) := rfl
  rw [trailDistance_eq, trailDistance_eq, htick, hpct]
  exact clamped_le (sub_nonneg.mpr hle) (liveSpread_lower pos hle)

/-- The trailing stop stays reached at every lower mark. -/
theorem Trails.lower (h : Trails config (pos.markedAt c)) (hle : c' ≤ c) :
    Trails config (pos.markedAt c') := by
  obtain ⟨hpeak, htrail⟩ := h
  refine ⟨hpeak, (trailDistance_lower config pos hle).trans ?_⟩
  have htrail' : (exitStepsV1 config).trailDistance config.toThresholdExitConfig (pos.markedAt c) ≤
      pos.peakPrice - c := htrail
  show _ ≤ pos.peakPrice - c'
  linarith

/-- Ten shares bought at 0.50 and marked up to 0.80, the ask at 0.72. -/
def retracing : MarkedPosition where
  marketId := "m1"
  side := .yes
  avgEntryPrice := 1 / 2
  qty := 10
  currentPrice := 3 / 4
  peakPrice := 4 / 5
  ask := some (18 / 25)

end

end OpenPoly
