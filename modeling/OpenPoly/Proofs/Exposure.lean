import OpenPoly.Lib.Run
import OpenPoly.Proofs.EntryV1
import OpenPoly.Proofs.Booked
import OpenPoly.Proofs.Posted
import OpenPoly.Spec.Exposure

/-! The heat cap over runs of decisions, buys and exits: right after a buy the
open cost is at most the cap or, where that is more, one order above the cost it
was decided at, as long as no buy costs more than it was decided to. -/

namespace OpenPoly

open Transition Results

def PositionRow.cost (p : PositionRow) : ℚ := if p.status = .open then p.qty * p.avgEntryPrice else 0

theorem openCost_eq (db : Db) : db.openCost = (db.positions.map PositionRow.cost).sum := by
  unfold Db.openCost Db.getOpenPositions
  induction db.positions with
  | nil => rfl
  | cons p ps ih =>
    by_cases ho : p.status = .open
    · simpa [List.filter_cons, ho, PositionRow.cost, PositionRow.toHeld] using ih
    · simpa [List.filter_cons, ho, PositionRow.cost] using ih

/-- Ids are unique and no open row has a negative quantity or price. -/
structure Costed (db : Db) : Prop where
  nodup : (db.positions.map PositionRow.id).Nodup
  nonneg : ∀ p ∈ db.positions, p.status = .open → 0 ≤ p.qty ∧ 0 ≤ p.avgEntryPrice

theorem costed_empty : Costed Db.empty := by
  constructor <;> simp [Db.empty]

theorem openCost_opened (db : Db) (a : OpenArgs) :
    (db.opened a).openCost = db.openCost + a.qty * a.price := by
  simp [openCost_eq, Db.opened, PositionRow.cost, openRow]

theorem Costed.opened {db : Db} (h : Costed db) {a : OpenArgs} (hq : 0 ≤ a.qty) (hp : 0 ≤ a.price) :
    Costed (db.opened a) := by
  have hpos : (db.opened a).positions =
      db.positions ++ [openRow (nextId (db.positions.map PositionRow.id)) a] := rfl
  constructor
  · rw [hpos, List.map_append, List.nodup_append]
    refine ⟨h.nodup, by simp, ?_⟩
    rintro x hx y hy rfl
    have hxi : x = nextId (db.positions.map PositionRow.id) := by simpa [openRow] using hy
    exact nextId_notMem _ (hxi ▸ hx)
  · intro p hmem ho
    rcases List.mem_append.mp (hpos ▸ hmem) with hmem | hmem
    · exact h.nonneg p hmem ho
    · obtain rfl := List.mem_singleton.mp hmem
      exact ⟨hq, hp⟩

/-- An exit leaves the tables, or replaces an open row by one that is closed or
holds no more at the same price. -/
theorem exit_cases {db : Db} (h : Costed db) {e : Attempt} (he : e.call.Exits) :
    db.attempt e = db ∨ ∃ i pos row fill, Disposal db i pos row fill (db.attempt e) ∧
      row.id = pos.id ∧ (row.status = .open →
        row.avgEntryPrice = pos.avgEntryPrice ∧ 0 ≤ row.qty ∧ row.qty ≤ pos.qty) := by
  rcases attempt_effect db e with heq | ⟨a, hc, -⟩ | ⟨i, a, r, pos, -, -, -, hd⟩ |
    ⟨i, a, r, pos, -, hc, -, hd⟩
  · exact .inl heq
  · rw [hc] at he
    exact he.elim
  · exact .inr ⟨i, pos, _, _, hd, rfl, fun ho => (by cases ho)⟩
  · refine .inr ⟨i, pos, _, _, hd, soldRow_id _ _ _, fun ho => ?_⟩
    rw [hc] at he
    have hheld := (h.nonneg pos (Db.get_mem hd.found).1 hd.wasOpen).1
    have hsold : 0 ≤ min a.soldQty pos.qty := le_min (le_of_lt he) hheld
    by_cases hres : pos.qty - min a.soldQty pos.qty < minSellableQty
    · rw [soldRow_closed hres] at ho
      cases ho
    · rw [Db.soldRow, if_neg hres]
      exact ⟨rfl, sub_nonneg.mpr (min_le_right _ _), sub_le_self _ hsold⟩

theorem Costed.exit {db : Db} (h : Costed db) {e : Attempt} (he : e.call.Exits) :
    Costed (db.attempt e) ∧ (db.attempt e).openCost ≤ db.openCost := by
  rcases exit_cases h he with heq | ⟨i, pos, row, fill, hd, hid, hrow⟩
  · rw [heq]
    exact ⟨h, le_rfl⟩
  · have hmem := (Db.get_mem hd.found).1
    have hpos := h.nonneg pos hmem hd.wasOpen
    rw [hd.after]
    refine ⟨⟨by rw [Db.setRow_ids]; exact h.nodup, fun p hp ho => ?_⟩, ?_⟩
    · rcases Db.mem_setRow hp with rfl | ⟨hp, -⟩
      · obtain ⟨hprice, hqty, -⟩ := hrow ho
        exact ⟨hqty, hprice ▸ hpos.2⟩
      · exact h.nonneg p hp ho
    · rw [openCost_eq, openCost_eq, Db.setRow, Db.addFill_positions, List.map_map]
      refine List.sum_le_sum fun p hp => ?_
      simp only [Function.comp_apply]
      split_ifs with hpid
      · obtain rfl : p = pos := List.inj_on_of_nodup_map h.nodup hp hmem (hpid.trans hid)
        unfold PositionRow.cost
        rw [if_pos hd.wasOpen]
        split_ifs with ho
        · obtain ⟨hprice, -, hle⟩ := hrow ho
          rw [hprice]
          exact mul_le_mul_of_nonneg_right hle hpos.2
        · exact mul_nonneg hpos.1 hpos.2
      · exact le_rfl

/-- The headroom an intent may use: one order, or what is left under the cap
where that is more. -/
def EdgeThresholdConfig.headroom (config : EdgeThresholdConfig) (openCost : ℚ) : ℚ :=
  max config.orderSizeUsd (config.heatCapUsd - openCost)

theorem scaledNotional_le {config : EdgeThresholdConfig} (hcap : 0 < config.heatCapUsd)
    (edge openCost : ℚ) :
    scaledNotional config edge (some openCost) ≤ config.headroom openCost := by
  have hbase : 0 < config.orderSizeUsd := by linarith [config.orderSizeUsd_range.1]
  unfold scaledNotional EdgeThresholdConfig.headroom
  dsimp only
  split_ifs with hflat hover
  · exact le_max_left _ _
  · rw [mul_max_of_nonneg _ _ hbase.le, mul_one, mul_div_cancel₀ _ hbase.ne']
  · -- the scaled order fits under the cap
    rw [not_and, not_lt] at hover
    exact le_max_of_le_right (hover hcap)

theorem entryIntent_notional (res : AnalysisResult) (side : Side) {heldPrice notional edge bound : ℚ}
    (hle : notional ≤ bound) (hpos : 0 ≤ bound) :
    (entryIntent res side heldPrice notional edge).qty *
      (entryIntent res side heldPrice notional edge).price ≤ bound := by
  show notional / heldPrice * heldPrice ≤ bound
  by_cases h0 : heldPrice = 0
  · simpa [h0] using hpos
  · rwa [div_mul_cancel₀ _ h0]

/-- An intent is decided below the cap, for at most the headroom. -/
theorem intent_within {d : Decision} {db : Db} {intent : OrderIntent}
    (h : d.intent db = .ok intent) (hcap : 0 < d.version.config.heatCapUsd) :
    db.openCost < d.version.config.heatCapUsd ∧
      intent.qty * intent.price ≤ d.version.config.headroom db.openCost := by
  have hroom : ∀ config : EdgeThresholdConfig, 0 ≤ config.headroom db.openCost := fun config =>
    le_max_of_le_left (by linarith [config.orderSizeUsd_range.1])
  have hrun : ∀ (steps : EntrySteps) (config : EdgeThresholdConfig), 0 < config.heatCapUsd →
      steps.needsPortfolio = true →
      steps.run config ⟨d.catalog, some db, d.now, d.recentMove⟩ d.res = .ok intent →
      db.openCost < config.heatCapUsd ∧ intent.qty * intent.price ≤ config.headroom db.openCost := by
    intro steps config hcap hneeds hok
    obtain ⟨side, chosen, openCost, quote, -, hgates, -, -, rfl⟩ := EntrySteps.run_ok hok
    unfold EntrySteps.gates at hgates
    rw [if_pos hneeds] at hgates
    obtain ⟨hbelow, -, rfl⟩ := portfolioGates_ok hgates
    rw [if_pos hcap]
    exact ⟨hbelow hcap, entryIntent_notional _ _ (scaledNotional_le hcap _ _) (hroom config)⟩
  obtain ⟨version, catalog, now, recentMove, res⟩ := d
  cases version with
  | v0 config =>
    have hcap' : 0 < config.heatCapUsd := hcap
    exact hrun _ _ hcap (by simp [stepsV0, EdgeThresholdConfig.needsPortfolio, hcap']) h
  | v1 config fresh =>
    have hcap' : 0 < config.heatCapUsd := hcap
    exact hrun _ _ hcap (by simp [stepsV1, EdgeThresholdConfig.needsPortfolio, hcap']) h

/-- What keeps a buy within what it was decided to cost: on paper, that the
shares the ask offers cost no more at that ask; live, that the two-decimal size
is not above the quantity and the venue keeps to the order. -/
def BuyCall.WithinNotional (c : BuyCall) : Executor → Prop
  | .paper => ∀ ask size, levelOneAsk c.catalog c.intent = some (ask, size) →
      quantizeSize (min c.intent.qty size) ask * ask ≤ c.intent.qty * c.intent.price
  | .live _ => quantizeSize c.intent.qty c.intent.price ≤ c.intent.qty ∧
      KeepsTo (quantizeSize c.intent.qty c.intent.price) c.intent.price c.venue

theorem fill_within {executor : Executor} {db : Db} {c : BuyCall} {a : OpenArgs}
    (hwithin : c.WithinNotional executor) (h : executor.fill db c = some a) :
    0 ≤ a.qty ∧ 0 ≤ a.price ∧ a.qty * a.price ≤ c.intent.qty * c.intent.price := by
  cases executor with
  | paper =>
    obtain ⟨-, ask, size, -, -, hask, hprice, hqty, hband, hmin⟩ :=
      paperFill_ok (toOption_eq_some.mp h)
    have hpos : 0 < a.price := hprice ▸ inPriceBand_pos hband
    have hqty0 : 0 ≤ a.qty := by
      have hnotional : (0 : ℚ) < minNotionalUsd := by norm_num [minNotionalUsd]
      exact (pos_of_mul_pos_left (lt_of_lt_of_le hnotional hmin) hpos.le).le
    refine ⟨hqty0, hpos.le, ?_⟩
    rw [hqty, hprice]
    exact hwithin ask size hask
  | live wallet =>
    unfold Executor.fill at h
    cases hp : c.placement db with
    | error skip => simp [hp] at h
    | ok p =>
      obtain ⟨hprice, hsize, hside, hband, hmin⟩ := buyPlacement_ok hp
      have hpos : 0 < p.order.price := hprice ▸ inPriceBand_pos hband
      have hsize0 : 0 ≤ p.order.size := by
        have hnotional : (0 : ℚ) < minNotionalUsd := by norm_num [minNotionalUsd]
        exact (pos_of_mul_pos_left (lt_of_lt_of_le hnotional hmin) hpos.le).le
      obtain ⟨hround, hkeeps⟩ := hwithin
      cases hf : orderFill p c.venue none with
      | error exc => simp [hp, hf] at h
      | ok r =>
        cases r with
        | error skip => simp [hp, hf] at h
        | ok fill =>
          simp only [hp, hf, Option.some.injEq] at h
          subst h
          obtain ⟨⟨hq0, hq⟩, hp0, hple⟩ := orderFill_within hside hsize0 (hprice ▸ hband)
            (by rwa [hsize, hprice]) hf
          refine ⟨hq0, hp0, ?_⟩
          show fill.qty * fill.price ≤ c.intent.qty * c.intent.price
          rw [hprice] at hple hpos
          exact mul_le_mul (hq.trans (hsize ▸ hround)) hple hp0 (hq0.trans (hq.trans (hsize ▸ hround)))

/-- The pending intent was decided below the cap for at most the headroom, and
the open cost has not grown since. -/
structure Decided (s : EntryDesk) : Prop where
  costed : Costed s.db
  pending : ∀ p, s.pending = some p → 0 < p.config.heatCapUsd →
    s.db.openCost ≤ p.cost ∧ p.cost < p.config.heatCapUsd ∧
      p.intent.qty * p.intent.price ≤ p.config.headroom p.cost

/-- Every buy stays within what it was decided to cost. -/
def BuysWithin (_ : EntryDesk) : EntryEvent → Prop
  | .buy executor c => c.WithinNotional executor
  | _ => True

/-- A buy within its notional adds at most that to the open cost. -/
theorem buy_openCost {executor : Executor} {db : Db} {c : BuyCall} (h : Costed db)
    (hwithin : c.WithinNotional executor) {bound : ℚ} (h0 : 0 ≤ bound)
    (hbound : c.intent.qty * c.intent.price ≤ bound) :
    Costed (executor.buy db c).db ∧ (executor.buy db c).db.openCost ≤ db.openCost + bound := by
  rcases executor.buy_cases db c with ⟨heq, -⟩ | ⟨a, held, hfill, hopen, -⟩
  · rw [heq]
    exact ⟨h, by linarith⟩
  · obtain ⟨hq, hp, hle⟩ := fill_within hwithin hfill
    rw [(openPosition_ok hopen).2.1, openCost_opened]
    exact ⟨h.opened hq hp, by linarith⟩

theorem decided_step {s t : EntryDesk} {event : EntryEvent} (h : Decided s)
    (hwithin : BuysWithin s event) (hstep : entryDeskStep s event t) : Decided t := by
  cases event with
  | decide d =>
    obtain ⟨-, rfl⟩ := hstep
    refine ⟨h.costed, fun p hp hcap => ?_⟩
    obtain ⟨intent, hintent, rfl⟩ := Option.map_eq_some_iff.mp hp
    obtain ⟨hbelow, hroom⟩ := intent_within (toOption_eq_some.mp hintent) hcap
    exact ⟨le_rfl, hbelow, hroom⟩
  | exit e =>
    obtain ⟨he, rfl⟩ := hstep
    obtain ⟨hcosted, hle⟩ := h.costed.exit he
    refine ⟨hcosted, fun p hp hcap => ?_⟩
    obtain ⟨hcost, hrest⟩ := h.pending p hp hcap
    exact ⟨hle.trans hcost, hrest⟩
  | buy executor c =>
    obtain ⟨p, -, -, rfl⟩ := hstep
    refine ⟨?_, fun q hq => by simp at hq⟩
    exact (buy_openCost h.costed hwithin (le_max_right _ 0) (le_max_left _ _)).1
  | skip =>
    obtain rfl : t = _ := hstep
    exact ⟨h.costed, fun q hq => by simp at hq⟩

/-- A $10 order under a cap of $10, decided on NO at 0.20. -/
def cappedThresholds : EdgeThresholdConfigV1 :=
  { defaultThresholds with
    heatCapUsd := 10
    heatCapUsd_range := by norm_num }

def cappedDecision : Decision where
  version := .v1 cappedThresholds (some ["t1", "t2"])
  catalog := quotedCatalog
  now := 0
  res := evenAnalysis

def cappedIntent : OrderIntent := entryIntent evenAnalysis .no (1 / 5) 10 (3 / 10)

/-- NO asked at 0.90 for 100 shares. -/
def movedCatalog : Catalog :=
  { quotedCatalog with books := fun _ => some ⟨"t2", 1, [(89 / 100, 100)], [(9 / 10, 100)]⟩ }

def cappedBuy (catalog : Catalog) : BuyCall where
  catalog := catalog
  intent := cappedIntent
  ts := 1
  venue := ⟨fun _ => .ok .null, .ok .null, fun _ => ⟨.ok .null, .ok .null, true⟩, .ok .null,
    fun _ => .ok .null⟩

def cappedDesk : EntryDesk := ⟨.empty, some ⟨cappedIntent, cappedDecision.version.config, 0⟩⟩

theorem cappedDecision_step : entryDeskStep ⟨.empty, none⟩ (.decide cappedDecision) cappedDesk := by
  have hintent : (cappedDecision.intent .empty).toOption = some cappedIntent := by decide +kernel
  refine ⟨rfl, ?_⟩
  dsimp only
  rw [hintent]
  rfl

end OpenPoly
