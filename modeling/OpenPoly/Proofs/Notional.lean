import OpenPoly.Proofs.Entry
import OpenPoly.Proofs.EntryV1
import OpenPoly.Spec.Notional

/-! Sizing: the notional of an order is the base order or more, up to the
multiplier, follows the edge, gives way to the open cost, and no division of the
decision is by zero. -/

namespace OpenPoly

open Results

section
variable {config : EdgeThresholdConfig}

theorem orderSize_pos (config : EdgeThresholdConfig) : 0 < config.orderSizeUsd :=
  lt_of_lt_of_le one_pos config.orderSizeUsd_range.1

def EdgeThresholdConfig.Flat (config : EdgeThresholdConfig) : Prop :=
  config.sizeEdgeMultiplierMax ≤ 1 ∨ config.minEdge ≤ 0

def EdgeThresholdConfig.multiplier (config : EdgeThresholdConfig) (edge : ℚ) : ℚ :=
  max 1 (min (edge / config.minEdge) config.sizeEdgeMultiplierMax)

/-- The ceiling the heat cap puts on an order that is wanted: none where it is
off, no room at all where the open cost is unknown. -/
def EdgeThresholdConfig.trim (config : EdgeThresholdConfig) (openCost : Option ℚ) (wanted : ℚ) : ℚ :=
  if 0 < config.heatCapUsd then
    match openCost with
    | none => 0
    | some openCost => min wanted (config.heatCapUsd - openCost)
  else wanted

theorem scaledNotional_flat (h : config.Flat) (edge : ℚ) (openCost : Option ℚ) :
    scaledNotional config edge openCost = config.orderSizeUsd := if_pos h

/-- Where sizing is on, the notional is the scaled order within the cap, and
never below the base order. -/
theorem scaledNotional_eq (h : ¬ config.Flat) (edge : ℚ) (openCost : Option ℚ) :
    scaledNotional config edge openCost =
      max config.orderSizeUsd
        (config.trim openCost (config.orderSizeUsd * config.multiplier edge)) := by
  have hbase := orderSize_pos config
  have hscaled : config.orderSizeUsd ≤ config.orderSizeUsd * config.multiplier edge :=
    le_mul_of_one_le_right hbase.le (le_max_left _ _)
  have hscales : ¬ (config.sizeEdgeMultiplierMax ≤ 1 ∨ config.minEdge ≤ 0) := h
  unfold scaledNotional EdgeThresholdConfig.trim
  dsimp only
  rw [if_neg hscales]
  cases openCost with
  | none =>
    dsimp only
    split_ifs with hcap
    · exact (max_eq_left hbase.le).symm
    · exact (max_eq_right hscaled).symm
  | some openCost =>
    dsimp only
    by_cases hcap : 0 < config.heatCapUsd
    · by_cases hover : config.heatCapUsd - openCost < config.orderSizeUsd * config.multiplier edge
      · rw [if_pos hcap, min_eq_right hover.le]
        refine (if_pos ⟨hcap, hover⟩).trans ?_
        rw [mul_max_of_nonneg _ _ hbase.le, mul_one, mul_div_cancel₀ _ hbase.ne']
      · rw [if_pos hcap, min_eq_left (not_lt.mp hover), max_eq_right hscaled]
        exact if_neg fun h => hover h.2
    · rw [if_neg hcap, max_eq_right hscaled]
      exact if_neg fun h => hcap h.1

theorem multiplier_mono (config : EdgeThresholdConfig) {edge edge' : ℚ} (hle : edge ≤ edge') :
    config.multiplier edge ≤ config.multiplier edge' := by
  have hmin : 0 ≤ config.minEdge := config.minEdge_range.1
  exact max_le_max le_rfl (min_le_min (div_le_div_of_nonneg_right hle hmin) le_rfl)

theorem multiplier_le (config : EdgeThresholdConfig) (edge : ℚ) :
    config.multiplier edge ≤ config.sizeEdgeMultiplierMax :=
  max_le config.sizeEdgeMultiplierMax_range.1 (min_le_right _ _)

theorem trim_le {wanted : ℚ} (openCost : Option ℚ) (h : 0 ≤ wanted) :
    config.trim openCost wanted ≤ wanted := by
  unfold EdgeThresholdConfig.trim
  split_ifs with hcap
  · cases openCost with
    | none => exact h
    | some openCost => exact min_le_left _ _
  · exact le_rfl

theorem trim_mono {wanted wanted' : ℚ} (openCost : Option ℚ) (h : wanted ≤ wanted') :
    config.trim openCost wanted ≤ config.trim openCost wanted' := by
  unfold EdgeThresholdConfig.trim
  split_ifs with hcap
  · cases openCost with
    | none => exact le_rfl
    | some openCost => exact min_le_min h le_rfl
  · exact h

theorem trim_anti {openCost openCost' : ℚ} (wanted : ℚ) (h : openCost ≤ openCost') :
    config.trim (some openCost') wanted ≤ config.trim (some openCost) wanted := by
  unfold EdgeThresholdConfig.trim
  split_ifs with hcap
  · exact min_le_min le_rfl (sub_le_sub_left h _)
  · exact le_rfl

/-- What the sizing of a configuration promises. -/
structure SizesWithin (config : EdgeThresholdConfig) : Prop where
  bounds : ∀ edge openCost, config.minEdge ≤ edge →
    config.orderSizeUsd ≤ scaledNotional config edge openCost ∧
      scaledNotional config edge openCost ≤ config.orderSizeUsd * config.sizeEdgeMultiplierMax
  edge_mono : ∀ edge edge' openCost, edge ≤ edge' →
    scaledNotional config edge openCost ≤ scaledNotional config edge' openCost
  cost_anti : ∀ edge openCost openCost', openCost ≤ openCost' →
    scaledNotional config edge (some openCost') ≤ scaledNotional config edge (some openCost)
  /-- More than the base order only under the cap, or where it is off. -/
  capped : ∀ edge openCost, config.orderSizeUsd < scaledNotional config edge openCost →
    config.heatCapUsd = 0 ∨ 0 < config.heatCapUsd ∧
      ∃ cost, openCost = some cost ∧ cost + scaledNotional config edge openCost ≤ config.heatCapUsd
  unreadable : ∀ edge, 0 < config.heatCapUsd →
    scaledNotional config edge none = config.orderSizeUsd

theorem sizesWithin_flat (h : config.Flat) : SizesWithin config := by
  have hbase := orderSize_pos config
  constructor <;> intros <;> simp only [scaledNotional_flat h, le_refl, true_and, lt_irrefl] at *
  · exact le_mul_of_one_le_right hbase.le config.sizeEdgeMultiplierMax_range.1

theorem sizesWithin_scaled (h : ¬ config.Flat) : SizesWithin config := by
  have hbase := orderSize_pos config
  constructor
  · intro edge openCost _
    have hwanted : 0 ≤ config.orderSizeUsd * config.multiplier edge :=
      mul_nonneg hbase.le (le_max_of_le_left zero_le_one)
    rw [scaledNotional_eq h]
    refine ⟨le_max_left _ _, max_le ?_ ?_⟩
    · exact le_mul_of_one_le_right hbase.le config.sizeEdgeMultiplierMax_range.1
    · exact (trim_le openCost hwanted).trans
        (mul_le_mul_of_nonneg_left (multiplier_le config edge) hbase.le)
  · intro edge edge' openCost hle
    rw [scaledNotional_eq h, scaledNotional_eq h]
    have hmul := mul_le_mul_of_nonneg_left (multiplier_mono config hle) hbase.le
    exact max_le_max le_rfl (trim_mono openCost hmul)
  · intro edge openCost openCost' hle
    rw [scaledNotional_eq h, scaledNotional_eq h]
    exact max_le_max le_rfl (trim_anti _ hle)
  · intro edge openCost hmore
    rcases config.heatCapUsd_range.1.eq_or_lt with hoff | hcap
    · exact .inl hoff.symm
    refine .inr ⟨hcap, ?_⟩
    rw [scaledNotional_eq h] at hmore ⊢
    have htrim := (lt_max_iff.mp hmore).resolve_left (lt_irrefl _)
    rw [max_eq_right htrim.le]
    unfold EdgeThresholdConfig.trim at htrim ⊢
    rw [if_pos hcap] at htrim ⊢
    cases openCost with
    | none => exact absurd htrim hbase.not_gt
    | some cost =>
      refine ⟨cost, rfl, ?_⟩
      calc cost + min _ (config.heatCapUsd - cost)
          ≤ cost + (config.heatCapUsd - cost) := by gcongr; exact min_le_right _ _
        _ = config.heatCapUsd := add_sub_cancel _ _
  · intro edge hcap
    rw [scaledNotional_eq h, EdgeThresholdConfig.trim, if_pos hcap]
    exact max_eq_left hbase.le

theorem sizesWithin (config : EdgeThresholdConfig) : SizesWithin config := by
  by_cases h : config.Flat
  · exact sizesWithin_flat h
  · exact sizesWithin_scaled h

end

theorem trueDiv_ok {a b : ℚ} (h : b ≠ 0) : trueDiv a b = .ok (a / b) := if_neg h

theorem scaledNotionalRaising_eq (config : EdgeThresholdConfig) (edge : ℚ) (openCost : Option ℚ) :
    scaledNotionalRaising config edge openCost = .ok (scaledNotional config edge openCost) := by
  have hbase := orderSize_pos config
  unfold scaledNotionalRaising scaledNotional
  dsimp only
  by_cases hflat : config.sizeEdgeMultiplierMax ≤ 1 ∨ config.minEdge ≤ 0
  · rw [if_pos hflat, if_pos hflat]
  · have hmin : config.minEdge ≠ 0 := fun h0 => hflat (.inr h0.le)
    rw [if_neg hflat, if_neg hflat, trueDiv_ok hmin]
    cases openCost with
    | none =>
      by_cases hcap : 0 < config.heatCapUsd
      · simp [hcap]
      · simp only [hcap, false_and, if_false]
        rfl
    | some openCost =>
      simp only [reduceCtorEq, and_false, if_false, trueDiv_ok hbase.ne']
      exact (apply_ite Except.ok _ _ _).symm

theorem priceGatesRaising_eq (version : EntryVersion) (ctx : EntryContext) (res : AnalysisResult)
    {heldPrice : ℚ} (h : 0 < heldPrice) (edge spread : ℚ) :
    version.priceGatesRaising edge spread heldPrice =
      .ok ((version.steps ctx res).priceGates edge spread heldPrice) := by
  cases version with
  | v0 config => rfl
  | v1 config fresh =>
    show EntryVersion.priceGatesRaising _ _ _ _ = .ok (priceGatesV1 config edge spread heldPrice)
    unfold EntryVersion.priceGatesRaising priceGatesV1
    dsimp only
    rw [trueDiv_ok h.ne']
    cases priceGatesV0 config.toEdgeThresholdConfig edge spread <;> rfl

theorem readQuote_ask {catalog : Catalog} {quoteBid : List Level → Option ℚ} {marketId : String}
    {side : Side} {quote : Quote} (h : readQuote catalog quoteBid marketId side = .ok quote) :
    0 < quote.ask := by
  unfold readQuote at h
  split at h
  · cases h
  · split at h
    · cases h
    · split at h
      · cases h
      · unfold bookQuote at h
        split at h
        · split_ifs at h with hask
          split at h
          · cases h
          · cases h
            exact not_le.mp hask
        · cases h

theorem readQuoteV1_ask {catalog : Catalog} {marketId : String} {side : Side} {quote : Quote}
    (h : readQuoteV1 catalog marketId side = .ok quote) : 0 < quote.ask := by
  unfold readQuoteV1 at h
  split at h
  · split_ifs at h
    exact readQuote_ask h
  · exact readQuote_ask h

theorem sideQuote_ask {catalog : Catalog} {fresh : Option (List String)} {market : Market}
    {marketId : String} {side : Side} {quote : Quote}
    (h : sideQuote catalog fresh market marketId side = .ok quote) : 0 < quote.ask := by
  unfold sideQuote at h
  split at h
  · split_ifs at h
    exact readQuoteV1_ask h
  · exact readQuoteV1_ask h

/-- The quote v1 chose a side from. -/
theorem chooseSideV1_ask {config : EdgeThresholdConfigV1} {catalog : Catalog}
    {fresh : Option (List String)} {res : AnalysisResult} {side : Side} {quote : Quote}
    (h : chooseSideV1 config catalog fresh res = .ok (side, some quote)) : 0 < quote.ask := by
  unfold chooseSideV1 at h
  split at h
  · cases h
  · split at h
    · cases h
    · rename_i chosen best hbest
      split at h
      · cases h
      · cases h
        have hmem := List.argmax_mem (Option.mem_def.mpr hbest)
        obtain ⟨s, -, hs⟩ := List.mem_filterMap.mp hmem
        obtain ⟨quote', hquote, hpair⟩ := Option.map_eq_some_iff.mp hs
        cases hpair
        exact sideQuote_ask (toOption_eq_some.mp hquote)

/-- The quote a decision is priced from has a positive ask. -/
theorem quoteOf_ask (version : EntryVersion) {ctx : EntryContext} {res : AnalysisResult}
    {side : Side} {chosen : Option Quote} {quote : Quote}
    (hside : (version.steps ctx res).chooseSide = .ok (side, chosen))
    (hquote : (version.steps ctx res).quoteOf side chosen = .ok quote) : 0 < quote.ask := by
  cases version with
  | v0 config =>
    have hnone : chosen = none := by
      simp only [EntryVersion.steps, stepsV0] at hside
      split_ifs at hside <;> cases hside <;> rfl
    subst hnone
    exact @readQuote_ask ctx.catalog (fun bids => bids.head?.map Prod.fst) res.marketId side quote hquote
  | v1 config fresh =>
    cases chosen with
    | none => exact readQuoteV1_ask hquote
    | some chosen =>
      obtain rfl : chosen = quote := Except.ok.inj hquote
      exact chooseSideV1_ask hside

theorem EntryVersion.run_steps (version : EntryVersion) (ctx : EntryContext)
    (res : AnalysisResult) :
    version.run ctx res = (version.steps ctx res).run version.config ctx res := by
  cases version <;> rfl

/-- No division of a decision raises. -/
theorem runRaising_eq (version : EntryVersion) (ctx : EntryContext) (res : AnalysisResult) :
    version.runRaising ctx res = .ok (version.run ctx res) := by
  rw [version.run_steps]
  unfold EntryVersion.runRaising EntrySteps.quoted EntrySteps.run
  dsimp only
  cases hside : (version.steps ctx res).chooseSide with
  | error reason => rfl
  | ok choice =>
    obtain ⟨side, chosen⟩ := choice
    cases hgates : (version.steps ctx res).gates version.config ctx res side with
    | error reason =>
      simp only [hgates, bind, Except.bind]
    | ok openCost =>
      cases hquote : (version.steps ctx res).quoteOf side chosen with
      | error reason => simp only [hgates, hquote, bind, Except.bind]
      | ok quote =>
        have hask := quoteOf_ask version hside hquote
        simp only [hgates, hquote, bind, Except.bind, pure, Except.pure,
          priceGatesRaising_eq version ctx res hask, scaledNotionalRaising_eq,
          trueDiv_ok (orderSize_pos version.config).ne', trueDiv_ok hask.ne']
        cases (version.steps ctx res).priceGates ((version.steps ctx res).edge side quote.ask)
            (quote.ask - quote.bid) quote.ask with
        | some reason => rfl
        | none =>
          dsimp only
          split_ifs <;> rfl

/-- The open cost the gates hand on is the one the decision reads. -/
theorem gates_readCost (version : EntryVersion) {ctx : EntryContext} {res : AnalysisResult}
    {side : Side} {openCost : Option ℚ}
    (h : (version.steps ctx res).gates version.config ctx res side = .ok openCost) :
    openCost = version.readCost ctx := by
  have hneeds : 0 < version.config.heatCapUsd → (version.steps ctx res).needsPortfolio = true := by
    intro hcap
    cases version with
    | v0 config =>
      have hcap : 0 < config.heatCapUsd := hcap
      simp [EntryVersion.steps, stepsV0, EdgeThresholdConfig.needsPortfolio, hcap]
    | v1 config fresh =>
      have hcap : 0 < config.heatCapUsd := hcap
      simp [EntryVersion.steps, stepsV1, EdgeThresholdConfig.needsPortfolio, hcap]
  unfold EntrySteps.gates at h
  unfold EntryVersion.readCost
  by_cases hread : (version.steps ctx res).needsPortfolio = true
  · rw [if_pos hread] at h
    cases hportfolio : ctx.portfolio with
    | none =>
      rw [hportfolio] at h
      simpa using (Except.ok.inj h).symm
    | some db =>
      rw [hportfolio] at h
      obtain ⟨-, -, rfl⟩ := portfolioGates_ok h
      rfl
  · rw [if_neg hread] at h
    rw [if_neg fun hcap => hread (hneeds hcap)]
    exact (Except.ok.inj h).symm

/-- What an intent buys: the notional of its edge at the open cost read. -/
theorem intent_notional (version : EntryVersion) {ctx : EntryContext} {res : AnalysisResult}
    {intent : OrderIntent} (h : version.run ctx res = .ok intent) :
    ∃ edge, intent.edge = some edge ∧ version.config.minEdge ≤ edge ∧
      intent.qty * intent.price = scaledNotional version.config edge (version.readCost ctx) := by
  rw [version.run_steps] at h
  obtain ⟨side, chosen, openCost, quote, hside, hgates, hquote, hprice, rfl⟩ := EntrySteps.run_ok h
  have hask := quoteOf_ask version hside hquote
  refine ⟨_, rfl, ?_, ?_⟩
  · cases version with
    | v0 config => exact (priceGatesV0_none hprice).1
    | v1 config fresh => exact (priceGatesV1_none hask hprice).1
  · rw [← gates_readCost version hgates]
    exact div_mul_cancel₀ _ hask.ne'

/-- Sizing of either entry version: the notional keeps what `SizesWithin` says,
no division raises, and an intent buys exactly its notional. -/
theorem entry_sizing (version : EntryVersion) :
    SizesWithin version.config ∧
      (∀ edge openCost, scaledNotionalRaising version.config edge openCost =
        .ok (scaledNotional version.config edge openCost)) ∧
      ∀ ctx res, version.runRaising ctx res = .ok (version.run ctx res) ∧
        ∀ intent, version.run ctx res = .ok intent →
          ∃ edge, intent.edge = some edge ∧ version.config.minEdge ≤ edge ∧
            intent.qty * intent.price =
              scaledNotional version.config edge (version.readCost ctx) :=
  ⟨sizesWithin _, scaledNotionalRaising_eq _,
    fun ctx res => ⟨runRaising_eq version ctx res, fun _ => intent_notional version⟩⟩

def EdgeThresholdConfigV1.withScaling (config : EdgeThresholdConfigV1) (multiplier cap : ℚ)
    (hmultiplier : 1 ≤ multiplier ∧ multiplier ≤ 5) (hcap : 0 ≤ cap ∧ cap ≤ 10000) : EdgeThresholdConfigV1 :=
  { config with
    sizeEdgeMultiplierMax := multiplier
    sizeEdgeMultiplierMax_range := hmultiplier
    heatCapUsd := cap
    heatCapUsd_range := hcap }

theorem fiveTimes_range : (1 : ℚ) ≤ 5 ∧ (5 : ℚ) ≤ 5 := by norm_num

theorem thirtyFiveUsd_range : (0 : ℚ) ≤ 35 ∧ (35 : ℚ) ≤ 10000 := by norm_num

/-- Orders of up to five times $10 under a cap of $35. -/
def scaledThresholds : EdgeThresholdConfigV1 :=
  defaultThresholds.withScaling 5 35 fiveTimes_range thirtyFiveUsd_range

/-- NO at 0.20 against a fair price of 0.50: an edge of six times the least, cut
to the cap. -/
theorem entry_sizing_sample :
    ∃ intent, runV1 scaledThresholds quotedContext (some ["t1", "t2"]) evenAnalysis = .ok intent ∧
      intent.qty * intent.price = 35 := by
  have hrun : runV1 scaledThresholds quotedContext (some ["t1", "t2"]) evenAnalysis =
      .ok (entryIntent evenAnalysis .no (1 / 5) 35 (3 / 10)) := by decide +kernel
  refine ⟨_, hrun, ?_⟩
  obtain ⟨edge, hedge, -, hnotional⟩ :=
    ((entry_sizing (.v1 scaledThresholds (some ["t1", "t2"]))).2.2 quotedContext evenAnalysis).2 _ hrun
  obtain rfl := Option.some.inj hedge
  rw [hnotional]
  decide +kernel

end OpenPoly
