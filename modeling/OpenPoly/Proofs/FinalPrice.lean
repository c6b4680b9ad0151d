import OpenPoly.Proofs.Store
import OpenPoly.Proofs.Tolerance

/-! The sells a settlement tick books, against the payload they are booked on. -/

namespace OpenPoly

open Results

def sidePrice (prices : ℚ × ℚ) : Side → ℚ
  | .yes => prices.1
  | .no => prices.2

def Side.index : Side → ℕ
  | .yes => 0
  | .no => 1

/-- One price rounds to 0 and the other to 1. -/
def NearlyResolved (prices : ℚ × ℚ) : Prop :=
  round4 prices.1 = 0 ∧ round4 prices.2 = 1 ∨ round4 prices.1 = 1 ∧ round4 prices.2 = 0

theorem settlementPriceForSide_some {prices : ℚ × ℚ} {side : Side} {p : ℚ} :
    settlementPriceForSide prices side = some p ↔ NearlyResolved prices ∧ p = sidePrice prices side := by
  unfold settlementPriceForSide NearlyResolved sidePrice
  dsimp only
  by_cases h : round4 prices.1 = 0 ∧ round4 prices.2 = 1 ∨ round4 prices.1 = 1 ∧ round4 prices.2 = 0
  · rw [if_pos h, and_iff_right h]
    cases side <;> simp [eq_comm]
  · simp [h]

@[simp] theorem round4_zero : round4 0 = 0 := by decide +kernel

@[simp] theorem round4_one : round4 1 = 1 := by decide +kernel

/-- A sell the monitor books: which position, and at which price. -/
structure SettledSell (env : SettlementEnv) (opens : List HeldPosition) (raw : Dict) (f : FillRow)
    (held : HeldPosition) (prices : ℚ × ℚ) : Prop where
  isHeld : held ∈ opens
  position : f.positionId = held.positionId
  named : rowConditionId env.toPyEnv raw = some held.conditionId
  flagged : raw.flag "closed" true = true
  resolved : parseOutcomePrices env.toPyEnv (raw.get "outcomePrices") = .ok (some prices)
  price : settlementPriceForSide prices held.side = some f.price

/-- One position: nothing is booked, or one sell at the price of its side. -/
theorem settlePosition_fills {env : SettlementEnv} {prices : ℚ × ℚ} {ts : ℚ} {t t' : SettlementTick}
    {held : HeldPosition} (h : settlePosition env prices ts t held = .ok t') :
    ∃ fs, t'.db.fills = t.db.fills ++ fs ∧
      ∀ f ∈ fs, f.positionId = held.positionId ∧
        settlementPriceForSide prices held.side = some f.price := by
  cases settles_of_ok h with
  | left _ _ => exact ⟨[], by simp [SettlementTick.record], by simp⟩
  | closed priced close _ _ _ _ =>
    obtain ⟨pos, hdisposal, -⟩ := closePosition_ok close
    refine ⟨_, congrArg Db.fills hdisposal.after, fun f hf => ?_⟩
    obtain rfl := List.mem_singleton.mp hf
    exact ⟨(Db.get_mem hdisposal.found).2, priced⟩

theorem settlePositions_fills {env : SettlementEnv} {prices : ℚ × ℚ} {ts : ℚ} {group : List HeldPosition}
    {t t' : SettlementTick} (h : group.foldlM (settlePosition env prices ts) t = .ok t') :
    ∃ fs, t'.db.fills = t.db.fills ++ fs ∧
      ∀ f ∈ fs, ∃ held ∈ group, f.positionId = held.positionId ∧
        settlementPriceForSide prices held.side = some f.price := by
  induction group generalizing t with
  | nil =>
    obtain rfl := Except.ok.inj h
    exact ⟨[], by simp, by simp⟩
  | cons held group ih =>
    rw [List.foldlM_cons] at h
    obtain ⟨t₁, hheld, h⟩ := except_bind_ok h
    obtain ⟨fs, hfs, hat⟩ := settlePosition_fills hheld
    obtain ⟨rest, hrest, hat'⟩ := ih h
    refine ⟨fs ++ rest, by rw [hrest, hfs, List.append_assoc], fun f hf => ?_⟩
    rcases List.mem_append.mp hf with hf | hf
    · exact ⟨held, List.mem_cons_self, hat f hf⟩
    · obtain ⟨held', hmem, hrest⟩ := hat' f hf
      exact ⟨held', List.mem_cons_of_mem _ hmem, hrest⟩

theorem records_db {f : HeldPosition → SettlementDecision} (group : List HeldPosition) (t : SettlementTick) :
    (group.foldl (fun t h => t.record (f h)) t).db = t.db := by
  induction group generalizing t with
  | nil => rfl
  | cons held group ih => exact ih _

/-- The two fields of a normalized market the monitor decides on. -/
theorem normalizeGammaMarket_some {env : PyEnv} {raw event : Dict} {market : ListedMarket}
    (h : normalizeGammaMarket env raw event = .ok (some market)) :
    market.closed = raw.flag "closed" true ∧
      parseOutcomePrices env (raw.get "outcomePrices") = .ok market.outcomePrices := by
  unfold normalizeGammaMarket at h
  obtain ⟨items, -, h⟩ := except_bind_ok h
  dsimp only at h
  split at h
  · cases h
  · by_cases hnamed : (!(raw.get "id").truthy ||
        !((raw.get "conditionId").orElse (raw.get "condition_id")).truthy) = true
    · rw [if_pos hnamed] at h
      cases h
    · rw [if_neg hnamed] at h
      obtain ⟨tags, -, h⟩ := except_bind_ok h
      obtain ⟨liquidityNum, -, h⟩ := except_bind_ok h
      cases liquidityNum <;> dsimp only at h <;> obtain ⟨liquidity, -, h⟩ := except_bind_ok h <;>
        obtain ⟨_, _, _, _, _, _, prices, -, -, -, -, -, -, hprices, rfl⟩ := laterFields_ok h <;>
        exact ⟨rfl, hprices⟩

theorem settleRow_fills {env : SettlementEnv} {opens : List HeldPosition} {t t' : SettlementTick} {raw : Dict}
    (h : settleRow env opens t raw = .ok t') :
    ∃ fs, t'.db.fills = t.db.fills ++ fs ∧
      ∀ f ∈ fs, ∃ held prices, SettledSell env opens raw f held prices := by
  unfold settleRow at h
  cases hcid : rowConditionId env.toPyEnv raw with
  | none =>
    rw [hcid] at h
    obtain rfl := Except.ok.inj h
    exact ⟨[], by simp, by simp⟩
  | some cid =>
    simp only [hcid] at h
    unfold processMarket at h
    obtain ⟨market, hmarket, h⟩ := except_bind_ok h
    cases market with
    | none =>
      obtain rfl := Except.ok.inj h
      exact ⟨[], by simp [records_db], by simp⟩
    | some market =>
      obtain ⟨hclosed, hprices⟩ := normalizeGammaMarket_some hmarket
      dsimp only at h
      by_cases hflag : market.closed = true
      · rw [if_neg (by simp [hflag])] at h
        cases hout : market.outcomePrices with
        | none =>
          simp only [hout] at h
          obtain rfl := Except.ok.inj h
          exact ⟨[], by simp [records_db], by simp⟩
        | some prices =>
          simp only [hout] at h
          obtain ⟨t₁, hgroup, h⟩ := except_bind_ok h
          obtain rfl := Except.ok.inj h
          obtain ⟨fs, hfs, hat⟩ := settlePositions_fills hgroup
          refine ⟨fs, hfs, fun f hf => ?_⟩
          obtain ⟨held, hmem, hid, hprice⟩ := hat f hf
          obtain ⟨hheld, hcond⟩ := List.mem_filter.mp hmem
          exact ⟨held, prices, hheld, hid, by rw [of_decide_eq_true hcond, hcid],
            hclosed.symm.trans hflag, by rw [hprices, hout], hprice⟩
      · rw [if_pos (by simp [hflag])] at h
        obtain rfl := Except.ok.inj h
        exact ⟨[], by simp [records_db], by simp⟩

def settlementStart (db : Db) : SettlementTick := { db, log := [], reads := 0, processed := [] }

/-- `f` is booked by a tick on these answers when it comes to the row `raw`,
whatever becomes of the tick after it. -/
def BookedOn (env : SettlementEnv) (db : Db) (first second : Json) (raw : Dict) (f : FillRow) : Prop :=
  ∃ before after t t' fs,
    fetchMarketsByConditionId env.toPyEnv first second = .ok (before ++ raw :: after) ∧
    before.foldlM (settleRow env db.getOpenPositions) (settlementStart db) = .ok t ∧
    settleRow env db.getOpenPositions t raw = .ok t' ∧ t'.db.fills = t.db.fills ++ fs ∧ f ∈ fs

theorem settleRows_booked {env : SettlementEnv} {db : Db} {first second : Json} {before rows : List Dict}
    {t t' : SettlementTick}
    (hfetch : fetchMarketsByConditionId env.toPyEnv first second = .ok (before ++ rows))
    (hbefore : before.foldlM (settleRow env db.getOpenPositions) (settlementStart db) = .ok t)
    (hrows : rows.foldlM (settleRow env db.getOpenPositions) t = .ok t') {f : FillRow}
    (hf : f ∈ t'.db.fills) : f ∈ t.db.fills ∨ ∃ raw, BookedOn env db first second raw f := by
  induction rows generalizing before t with
  | nil =>
    obtain rfl := Except.ok.inj hrows
    exact .inl hf
  | cons raw rows ih =>
    rw [List.foldlM_cons] at hrows
    obtain ⟨t₁, hraw, hrest⟩ := except_bind_ok hrows
    obtain ⟨fs, hfs, -⟩ := settleRow_fills hraw
    have hbefore' : (before ++ [raw]).foldlM (settleRow env db.getOpenPositions) (settlementStart db) =
        .ok t₁ := by
      have hone : [raw].foldlM (settleRow env db.getOpenPositions) t = .ok t₁ := by
        rw [List.foldlM_cons, hraw]
        rfl
      rw [List.foldlM_append, hbefore]
      exact hone
    rcases ih (by rw [hfetch, List.append_assoc]; rfl) hbefore' hrest with hf | hf
    · rw [hfs] at hf
      refine (List.mem_append.mp hf).imp id fun hf => ?_
      exact ⟨raw, before, rows, t, t₁, fs, hfetch, hbefore, hraw, hfs, hf⟩
    · exact .inr hf

/-- The decisions on the groups the tick has no answer for. -/
theorem groupRecords_db (d : HeldPosition → SettlementDecision) (passed : String → Prop) [DecidablePred passed]
    (groups : List (String × List HeldPosition)) (t : SettlementTick) :
    (groups.foldl (fun t group => if passed group.1 then t
      else group.2.foldl (fun t h => t.record (d h)) t) t).db = t.db := by
  induction groups generalizing t with
  | nil => rfl
  | cons group groups ih =>
    rw [List.foldl_cons, ih]
    split_ifs
    · rfl
    · exact records_db _ t

/-- The fills a whole tick adds are the ones its rows book. -/
theorem tick_booked {env : SettlementEnv} {db : Db} {first second : Json} {t : SettlementTick}
    (h : settlementTickOnce env db first second = .ok t) {f : FillRow} (hf : f ∈ t.db.fills) :
    f ∈ db.fills ∨ ∃ raw, BookedOn env db first second raw f := by
  unfold settlementTickOnce at h
  dsimp only at h
  by_cases hopen : db.getOpenPositions = []
  · rw [if_pos hopen] at h
    obtain rfl := Except.ok.inj h
    exact .inl hf
  · rw [if_neg hopen] at h
    cases hfetch : fetchMarketsByConditionId env.toPyEnv first second with
    | error e =>
      rw [hfetch] at h
      obtain rfl := Except.ok.inj h
      have hdb := groupRecords_db (fun h => { settlementEntry h (env.clock 0) .error with
        error := some ("gamma_fetch_failed: " ++ e.name) }) (fun _ => False) (byConditionId db.getOpenPositions)
        (settlementStart db)
      simp only [if_false] at hdb
      exact .inl (congrArg Db.fills hdb ▸ hf)
    | ok rows =>
      simp only [hfetch] at h
      obtain ⟨t₁, hrows, h⟩ := except_bind_ok h
      obtain rfl := Except.ok.inj h
      rw [groupRecords_db (fun h => { settlementEntry h (env.clock t₁.reads) .skip with
        reason := some "market_not_returned_by_gamma" })
        (fun cid => cid ∈ rows.filterMap (rowConditionId env.toPyEnv))] at hf
      exact @settleRows_booked _ _ _ _ [] rows _ _ hfetch rfl hrows _ hf

/-- The first index of a token in `clobTokenIds`. -/
def TokenAt (env : PyEnv) (raw : Dict) (tokenId : String) (k : ℕ) : Prop :=
  ∃ items, parseJsonArray env (raw.get "clobTokenIds") = .ok items ∧
    items.findIdx? (fun x => x.text env.repr = tokenId) = some k

/-- The entry of `outcomePrices` at an index. -/
def PriceAt (env : PyEnv) (raw : Dict) (k : ℕ) (q : ℚ) : Prop :=
  ∃ items x, parseJsonArray env (raw.get "outcomePrices") = .ok items ∧ items[k]? = some x ∧
    toFloatOrNone x = .ok (some q)

/-- The sell `f` of `pos` is what its market's payload resolves it to. -/
structure SettledRight (env : PyEnv) (raw : Dict) (pos : PositionRow) (f : FillRow) : Prop where
  closed : raw.get "closed" = .bool true
  clean : ∃ prices, parseOutcomePrices env (raw.get "outcomePrices") = .ok (some prices) ∧
    (prices = (0, 1) ∨ prices = (1, 0))
  exact : f.price = 0 ∨ f.price = 1
  complementary : ∃ prices yes no, parseOutcomePrices env (raw.get "outcomePrices") = .ok (some prices) ∧
    settlementPriceForSide prices .yes = some yes ∧ settlementPriceForSide prices .no = some no ∧
    yes + no = 1
  ofToken : ∃ k, TokenAt env raw pos.tokenId k ∧ PriceAt env raw k f.price

/-- `closed` is there and true, no listed price is off its own rounding, and the token
stands where its side's outcome does. -/
structure PlainlyResolved (env : PyEnv) (raw : Dict) (pos : PositionRow) : Prop where
  closed : raw.get "closed" = .bool true
  rounded : ∀ k q, PriceAt env raw k q → round4 q = q
  placed : TokenAt env raw pos.tokenId pos.side.index

theorem priceAt_sides {env : PyEnv} {raw : Dict} {prices : ℚ × ℚ}
    (h : parseOutcomePrices env (raw.get "outcomePrices") = .ok (some prices)) (k : ℕ) (q : ℚ) :
    PriceAt env raw k q ↔ ∃ side : Side, k = side.index ∧ q = sidePrice prices side := by
  unfold parseOutcomePrices at h
  obtain ⟨items, hitems, h⟩ := except_bind_ok h
  split at h
  · rename_i x y
    obtain ⟨a, ha, h⟩ := except_bind_ok h
    obtain ⟨b, hb, h⟩ := except_bind_ok h
    have h := Except.ok.inj h
    obtain ⟨a, rfl, h⟩ := Option.bind_eq_some_iff.mp h
    obtain ⟨b, rfl, rfl⟩ := Option.map_eq_some_iff.mp h
    constructor
    · rintro ⟨items', z, hitems', hz, hq⟩
      obtain rfl := Except.ok.inj (hitems.symm.trans hitems')
      match k with
      | 0 =>
        obtain rfl : x = z := by simpa using hz
        exact ⟨.yes, rfl, by simpa [sidePrice] using (Except.ok.inj (ha.symm.trans hq)).symm⟩
      | 1 =>
        obtain rfl : y = z := by simpa using hz
        exact ⟨.no, rfl, by simpa [sidePrice] using (Except.ok.inj (hb.symm.trans hq)).symm⟩
      | _ + 2 => simp at hz
    · rintro ⟨side, rfl, rfl⟩
      cases side with
      | yes => exact ⟨[x, y], x, hitems, rfl, ha⟩
      | no => exact ⟨[x, y], y, hitems, rfl, hb⟩
  · cases h

/-- Prices that are their own rounding and nearly resolve the market resolve it. -/
theorem NearlyResolved.exact {prices : ℚ × ℚ} (h : NearlyResolved prices)
    (hrounded : ∀ side, round4 (sidePrice prices side) = sidePrice prices side) :
    prices = (0, 1) ∨ prices = (1, 0) := by
  have hyes : round4 prices.1 = prices.1 := hrounded .yes
  have hno : round4 prices.2 = prices.2 := hrounded .no
  unfold NearlyResolved at h
  rw [hyes, hno] at h
  exact h.imp (fun h => Prod.ext h.1 h.2) fun h => Prod.ext h.1 h.2

theorem settledRight_iff {env : SettlementEnv} {opens : List HeldPosition} {raw : Dict} {f : FillRow}
    {pos : PositionRow} {prices : ℚ × ℚ} (h : SettledSell env opens raw f pos.toHeld prices) :
    SettledRight env.toPyEnv raw pos f ↔ PlainlyResolved env.toPyEnv raw pos := by
  obtain ⟨hnear, hprice⟩ := settlementPriceForSide_some.mp h.price
  have hside : f.price = sidePrice prices pos.side := hprice
  constructor
  · intro hright
    obtain ⟨prices', hprices', hclean⟩ := hright.clean
    obtain rfl := Option.some.inj (Except.ok.inj (h.resolved.symm.trans hprices'))
    refine ⟨hright.closed, fun k q hq => ?_, ?_⟩
    · obtain ⟨side, -, rfl⟩ := (priceAt_sides h.resolved k q).mp hq
      rcases hclean with rfl | rfl <;> cases side <;> simp [sidePrice]
    · obtain ⟨k, htoken, hat⟩ := hright.ofToken
      obtain ⟨side, rfl, hlisted⟩ := (priceAt_sides h.resolved k f.price).mp hat
      -- the two prices differ, so only the held side has this one
      have heq : side = pos.side := by
        rw [hside] at hlisted
        rcases hclean with rfl | rfl <;> revert hlisted <;> cases pos.side <;> cases side <;>
          simp [sidePrice]
      exact heq ▸ htoken
  · intro hplain
    have hexact : prices = (0, 1) ∨ prices = (1, 0) := hnear.exact fun side =>
      hplain.rounded side.index _ ((priceAt_sides h.resolved _ _).mpr ⟨side, rfl, rfl⟩)
    refine ⟨hplain.closed, ⟨prices, h.resolved, hexact⟩, ?_, ?_, ?_⟩
    · rw [hside]
      rcases hexact with rfl | rfl <;> cases pos.side <;> simp [sidePrice]
    · refine ⟨prices, prices.1, prices.2, h.resolved, settlementPriceForSide_some.mpr ⟨hnear, rfl⟩,
        settlementPriceForSide_some.mpr ⟨hnear, rfl⟩, ?_⟩
      rcases hexact with rfl | rfl <;> norm_num
    · exact ⟨_, hplain.placed, (priceAt_sides h.resolved _ _).mpr ⟨pos.side, rfl, hside⟩⟩

/-- Whatever Gamma answers, every sell a tick books is of a position open before it, on its
own market's payload, and is what that payload resolves the position to exactly where
the payload says `closed`, lists no price off its rounding to four decimals, and
has the held token where its side's outcome is listed. -/
theorem settled_right_iff (env : SettlementEnv) {db : Db} (hids : (db.positions.map PositionRow.id).Nodup)
    {first second : Json} {raw : Dict} {f : FillRow} (h : BookedOn env db first second raw f) :
    ∃ pos, db.get f.positionId = some pos ∧ pos.status = .open ∧
      rowConditionId env.toPyEnv raw = some pos.conditionId ∧
      (SettledRight env.toPyEnv raw pos f ↔ PlainlyResolved env.toPyEnv raw pos) := by
  obtain ⟨before, after, t, t', fs, -, -, hrow, hfs, hf⟩ := h
  obtain ⟨fs', hfs', hsells⟩ := settleRow_fills hrow
  obtain rfl := List.append_cancel_left (hfs.symm.trans hfs')
  obtain ⟨held, prices, hsell⟩ := hsells f hf
  obtain ⟨pos, hpos, rfl⟩ := List.mem_map.mp hsell.isHeld
  obtain ⟨hmem, hopen⟩ := List.mem_filter.mp hpos
  refine ⟨pos, ?_, of_decide_eq_true hopen, hsell.named, settledRight_iff hsell⟩
  rw [hsell.position]
  exact Db.get_of_mem hids hmem

def sampleFinal (price : ℚ) : FillRow :=
  { sellFill (openRow 1 sampleOpen) price 10 0 0 (some "settlement") none none with id := 2 }

/-- A tick that holds the sample position and gets this one row books that sell. -/
def SamplePays (raw : Dict) (price : ℚ) : Prop :=
  BookedOn sampleSettlementEnv (Db.empty.opened sampleOpen) (.arr [.obj raw]) .null raw (sampleFinal price)

theorem samplePays {raw : Dict} {price : ℚ}
    (hrows : fetchMarketsByConditionId sampleSettlementEnv.toPyEnv (.arr [.obj raw]) .null = .ok [raw])
    (hfills : (settleRow sampleSettlementEnv (Db.empty.opened sampleOpen).getOpenPositions
        (settlementStart (Db.empty.opened sampleOpen)) raw).map (fun t => t.db.fills) =
      .ok ((Db.empty.opened sampleOpen).fills ++ [sampleFinal price])) : SamplePays raw price := by
  obtain ⟨t', hrow, hfs⟩ := except_map_ok hfills
  exact ⟨[], [], _, t', [sampleFinal price], hrows, rfl, hrow, hfs, List.mem_singleton_self _⟩

def resolvedRaw (tokenIds prices : String) : Dict :=
  [("id", .str "m1"), ("conditionId", .str "0xc1"), ("clobTokenIds", .str tokenIds),
    ("outcomePrices", .str prices)]

def plainRaw : Dict := ("closed", .bool true) :: resolvedRaw "[\"t1\", \"t2\"]" "[\"1\", \"0\"]"

/-- A YES position of 10 shares, paid out at 1 a share. -/
theorem settled_right_iff_sample :
    ∃ pos, (Db.empty.opened sampleOpen).get 1 = some pos ∧ pos.status = .open ∧
      rowConditionId sampleSettlementEnv.toPyEnv plainRaw = some pos.conditionId ∧
      (SettledRight sampleSettlementEnv.toPyEnv plainRaw pos (sampleFinal 1) ↔
        PlainlyResolved sampleSettlementEnv.toPyEnv plainRaw pos) := by
  have hpays : SamplePays plainRaw 1 := samplePays (by decide +kernel) (by decide +kernel)
  exact settled_right_iff sampleSettlementEnv (by decide +kernel) hpays

def nearlyRaw : Dict :=
  ("closed", .bool true) :: resolvedRaw "[\"t1\", \"t2\"]" "[\"0.99996\", \"0.00001\"]"

def unflaggedRaw : Dict := resolvedRaw "[\"t1\", \"t2\"]" "[\"1\", \"0\"]"

def shiftedRaw : Dict := ("closed", .bool true) :: resolvedRaw "[\"\", \"t1\"]" "[\"1\", \"0\"]"

theorem shifted_wrong {f : FillRow} (h : f.price = 1) :
    ¬ SettledRight sampleSettlementEnv.toPyEnv shiftedRaw (openRow 1 sampleOpen) f := by
  intro hright
  obtain ⟨k, ⟨tokens, htokens, hk⟩, prices, x, hprices, hx, hprice⟩ := hright.ofToken
  have htokens' : parseJsonArray sampleSettlementEnv.toPyEnv (shiftedRaw.get "clobTokenIds") =
      .ok [.str "", .str "t1"] := by decide +kernel
  have hprices' : parseJsonArray sampleSettlementEnv.toPyEnv (shiftedRaw.get "outcomePrices") =
      .ok [.str "1", .str "0"] := by decide +kernel
  obtain rfl := Except.ok.inj (htokens'.symm.trans htokens)
  obtain rfl := Except.ok.inj (hprices'.symm.trans hprices)
  have hindex : [Json.str "", Json.str "t1"].findIdx? (fun x =>
      x.text sampleSettlementEnv.repr = (openRow 1 sampleOpen).tokenId) = some 1 := by decide +kernel
  obtain rfl := Option.some.inj (hindex.symm.trans hk)
  obtain rfl : Json.str "0" = x := by simpa using hx
  have hzero : toFloatOrNone (.str "0") = .ok (some 0) := by decide +kernel
  have := Option.some.inj (Except.ok.inj (hzero.symm.trans hprice))
  rw [h] at this
  exact absurd this (by norm_num)

/-- A price that only rounds to 1 is paid as it is listed, with its opposite off too; a
payload without `closed` settles; and a blank token id leaves the held one the price of the
other outcome. -/
theorem settles_wrong :
    (SamplePays nearlyRaw (nearestDouble (99996 / 100000)) ∧
      ¬ SettledRight sampleSettlementEnv.toPyEnv nearlyRaw (openRow 1 sampleOpen)
        (sampleFinal (nearestDouble (99996 / 100000)))) ∧
    (SamplePays unflaggedRaw 1 ∧
      ¬ SettledRight sampleSettlementEnv.toPyEnv unflaggedRaw (openRow 1 sampleOpen) (sampleFinal 1)) ∧
    (SamplePays shiftedRaw 1 ∧
      ¬ SettledRight sampleSettlementEnv.toPyEnv shiftedRaw (openRow 1 sampleOpen) (sampleFinal 1)) := by
  refine ⟨⟨samplePays (by decide +kernel) (by decide +kernel), fun h => ?_⟩,
    ⟨samplePays (by decide +kernel) (by decide +kernel), fun h => ?_⟩,
    ⟨samplePays (by decide +kernel) (by decide +kernel), shifted_wrong rfl⟩⟩
  · exact absurd h.exact (by decide +kernel)
  · exact absurd h.closed (by decide +kernel)

end OpenPoly
