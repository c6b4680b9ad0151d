import OpenPoly.Proofs.Posted
import OpenPoly.Proofs.Settle
import OpenPoly.Proofs.Sizing

/-! The price a live fill is booked at: always one the venue could mean, and, as
long as the amounts it reports are no worse than the limit, no worse than the
limit either. -/

namespace OpenPoly

open Results

/-- At most the limit for a BUY, at least for a SELL. -/
def FillAction.Within : FillAction → ℚ → ℚ → Prop
  | .buy, limit, price => price ≤ limit
  | .sell, limit, price => limit ≤ price

theorem FillAction.within_self (side : FillAction) (limit : ℚ) : side.Within limit limit := by
  cases side <;> exact le_rfl

/-- An average of prices within the limit. -/
theorem FillAction.Within.average {side : FillAction} {limit rate a b : ℚ}
    (h : side.Within limit rate) (ha : 0 ≤ a) (hab : 0 < a + b) :
    side.Within limit ((rate * a + b * limit) / (a + b)) := by
  cases side with
  | buy =>
    have hmul : rate * a ≤ limit * a := mul_le_mul_of_nonneg_right h ha
    exact (div_le_iff₀ hab).mpr (by linarith)
  | sell =>
    have hmul : limit * a ≤ rate * a := mul_le_mul_of_nonneg_right h ha
    exact (le_div_iff₀ hab).mpr (by linarith)

/-- The amounts of a body, where both are usable, are of a trade within the limit. -/
def OrderResponse.NoWorse (body : OrderResponse) (side : FillAction) (size limit : ℚ) : Prop :=
  ∀ shares usdc, plausibleQty body.shares size = some shares → body.usdc = some usdc →
    side.Within (limit * shares) usdc

/-- The rate of a reported trade. -/
theorem FillAction.Within.rate {side : FillAction} {limit shares usdc : ℚ}
    (h : side.Within (limit * shares) usdc) (hpos : 0 < shares) : side.Within limit (usdc / shares) := by
  cases side with
  | buy => exact (div_le_iff₀ hpos).mpr h
  | sell => exact (le_div_iff₀ hpos).mpr h

/-- Shares of a fill that were reported, and those that raced the cancel. -/
theorem reported_add_raced (qty shares : ℚ) : min qty shares + max 0 (qty - shares) = qty := by
  rcases le_total qty shares with hle | hle
  · rw [min_eq_left hle, max_eq_left (sub_nonpos.mpr hle), add_zero]
  · rw [min_eq_right hle, max_eq_right (sub_nonneg.mpr hle), add_sub_cancel]

/-- Whatever price `_resolve_fill` works out is within the limit. -/
theorem fillPrice_within {body : OrderResponse} {side : FillAction} {size limit qty price : ℚ}
    {estimatePrice : Option (ℚ → ℚ)} (hqty : 0 < qty) (hbody : body.NoWorse side size limit)
    (hestimate : ∀ estimate ∈ estimatePrice, side.Within limit (estimate qty))
    (h : fillPrice body size limit qty estimatePrice = some price) : side.Within limit price := by
  unfold fillPrice fillPriceIn at h
  simp only [id] at h
  split_ifs at h with hpos hclean
  · obtain ⟨hshares, husdc⟩ := hpos
    obtain rfl := Option.some.inj h
    set shares := body.reported size with hrep
    have hplausible : plausibleQty body.shares size = some shares := by
      unfold OrderResponse.reported at hrep
      cases hp : plausibleQty body.shares size with
      | none => simp [hp, hrep] at hshares
      | some q => rw [hrep, hp, Option.getD_some]
    have hrate : side.Within limit (body.usdc.getD 0 / shares) := by
      cases hu : body.usdc with
      | none => simp [hu] at husdc
      | some usdc => exact (hbody shares usdc hplausible hu).rate hshares
    have hparts := reported_add_raced qty shares
    have haverage := hrate.average (b := max 0 (qty - shares)) (le_min hqty.le hshares.le)
      (hparts.symm ▸ hqty)
    rwa [hparts, div_mul_eq_mul_div] at haverage
  · obtain rfl := Option.some.inj h
    exact side.within_self limit
  · obtain ⟨estimate, hest, rfl⟩ := Option.map_eq_some_iff.mp h
    exact hestimate estimate hest

theorem le_sellPriceEstimate (bids : List Level) (limit qty : ℚ) (best : Option ℚ) :
    limit ≤ sellPriceEstimate bids limit qty best := by
  unfold sellPriceEstimate
  dsimp only
  split_ifs with hempty hpos hqty
  · cases best with
    | none => exact le_rfl
    | some best =>
      dsimp only
      split_ifs
      · exact le_max_left _ _
      · exact le_rfl
  all_goals first | exact le_max_left _ _ | exact le_rfl

/-- What is booked is always in the band. -/
theorem bookablePrice_band (price : Option ℚ) (limit : ℚ) (side : FillAction) :
    minTokenPrice ≤ bookablePrice price limit side ∧ bookablePrice price limit side ≤ maxTokenPrice := by
  have hedges : minTokenPrice ≤ maxTokenPrice := by norm_num [minTokenPrice, maxTokenPrice]
  unfold bookablePrice
  by_cases hprice : inPriceBand price = true
  · rw [if_pos hprice]
    cases price with
    | none => simp [inPriceBand] at hprice
    | some price => exact (inPriceBand_iff price).mp hprice
  · rw [if_neg hprice]
    by_cases hlimit : inPriceBand (some limit) = true
    · rw [if_pos hlimit]
      exact (inPriceBand_iff limit).mp hlimit
    · rw [if_neg hlimit]
      cases side with
      | buy => exact ⟨hedges, le_rfl⟩
      | sell => exact ⟨le_rfl, hedges⟩

theorem bookablePrice_within {price : Option ℚ} {limit : ℚ} {side : FillAction}
    (hband : inPriceBand (some limit) = true) (h : ∀ q, price = some q → side.Within limit q) :
    side.Within limit (bookablePrice price limit side) := by
  unfold bookablePrice
  by_cases hprice : inPriceBand price = true
  · rw [if_pos hprice]
    cases price with
    | none => simp [inPriceBand] at hprice
    | some price => exact h price rfl
  · rw [if_neg hprice, if_pos hband]
    exact side.within_self limit

theorem resolveFill_ok {resp : Dict} {side : FillAction} {size limit : ℚ} {a : SettleAnswers}
    {estimatePrice : Option (ℚ → ℚ)} {fill : Fill}
    (h : resolveFill resp side size limit a estimatePrice = .ok fill) :
    (settleAnswered resp side size a).1 = some fill.qty ∧ fill.qty ≠ 0 ∧
      fill.price = bookablePrice (fillPrice (postBody resp side) size limit fill.qty estimatePrice)
        limit side := by
  unfold resolveFill resolveFillIn at h
  cases hs : settleAnswered resp side size a with
  | mk qty resting =>
    simp only [hs] at h
    split_ifs at h with hq
    obtain rfl := Except.ok.inj h
    cases qty with
    | none => simp at hq
    | some qty => exact ⟨rfl, hq, rfl⟩

/-- Where a fill came from: the wallet, the answer being lost, or the answer. -/
theorem orderFill_ok {p : Placement} {v : VenueAnswers} {estimatePrice : Option (ℚ → ℚ)}
    {fill : Fill} (h : orderFill p v estimatePrice = .ok (.ok fill)) :
    (walletDelta (confirmLostOrderQty p.order.side p.preRaw v.after) p.order.size =
        .ok (some fill.qty) ∧ 0 < fill.qty ∧
      fill.price = bookablePrice (estimatePrice.map fun estimate => estimate fill.qty)
        p.order.price p.order.side) ∨
    ∃ resp, v.post = .ok (.obj resp) ∧
      resolveFill resp p.order.side p.order.size p.order.price
        ⟨v.rounds, v.final, confirmLostOrderQty p.order.side p.preRaw v.after⟩ estimatePrice =
        .ok fill := by
  unfold orderFill at h
  cases hpost : postOrder v.post with
  | error exc =>
    rw [hpost] at h
    dsimp only at h
    split at h
    · simp at h
    · unfold fillFromBalance at h
      cases hw : walletDelta (confirmLostOrderQty p.order.side p.preRaw v.after) p.order.size with
      | error exc => simp [hw, bind, Except.bind] at h
      | ok moved =>
        cases moved with
        | none => simp [hw, bind, Except.bind, pure, Except.pure] at h
        | some moved =>
          simp only [hw, bind, Except.bind, pure, Except.pure] at h
          by_cases hzero : moved ≤ 0
          · simp [hzero] at h
          · simp only [hzero, if_false, Except.ok.injEq] at h
            subst h
            exact .inl ⟨rfl, not_le.mp hzero, rfl⟩
  | ok resp =>
    have hresp : v.post = .ok (.obj resp) := by
      unfold postOrder at hpost
      split at hpost
      · cases hpost
      · rename_i hp
        rw [← Except.ok.inj hpost]
        exact hp
      · cases hpost
    rw [hpost] at h
    dsimp only at h
    by_cases hrej : orderWasRejected resp = true
    · simp [hrej] at h
    · rw [if_neg hrej] at h
      exact .inr ⟨resp, hresp, Except.ok.inj h⟩

/-- The body the venue answered, if it did, is of a trade within the limit. -/
def VenueAnswers.NoWorse (v : VenueAnswers) (order : OrderArgs) : Prop :=
  ∀ resp, v.post = .ok (.obj resp) → (postBody resp order.side).NoWorse order.side order.size order.price

theorem orderFill_band {p : Placement} {v : VenueAnswers} {estimatePrice : Option (ℚ → ℚ)}
    {fill : Fill} (h : orderFill p v estimatePrice = .ok (.ok fill)) :
    minTokenPrice ≤ fill.price ∧ fill.price ≤ maxTokenPrice := by
  rcases orderFill_ok h with ⟨-, -, hprice⟩ | ⟨resp, -, hfill⟩
  · rw [hprice]
    exact bookablePrice_band _ _ _
  · rw [(resolveFill_ok hfill).2.2]
    exact bookablePrice_band _ _ _

/-- The fill of an order whose estimates are within its limit. -/
theorem orderFill_noWorse {p : Placement} {v : VenueAnswers} {estimatePrice : Option (ℚ → ℚ)}
    {fill : Fill} (h : orderFill p v estimatePrice = .ok (.ok fill)) (hsize : 0 ≤ p.order.size)
    (hband : inPriceBand (some p.order.price) = true)
    (hestimate : ∀ estimate ∈ estimatePrice, ∀ qty, p.order.side.Within p.order.price (estimate qty))
    (hbody : v.NoWorse p.order) : p.order.side.Within p.order.price fill.price := by
  rcases orderFill_ok h with ⟨-, -, hprice⟩ | ⟨resp, hresp, hfill⟩
  · rw [hprice]
    refine bookablePrice_within hband fun q hq => ?_
    obtain ⟨estimate, hest, rfl⟩ := Option.map_eq_some_iff.mp hq
    exact hestimate estimate hest _
  · obtain ⟨hqty, hne, hprice⟩ := resolveFill_ok hfill
    have hpos : 0 < fill.qty := lt_of_le_of_ne (settleAnswered_range hsize hqty).1 (Ne.symm hne)
    rw [hprice]
    refine bookablePrice_within hband fun q hq => ?_
    exact fillPrice_within hpos (hbody resp hresp) (fun estimate hest => hestimate estimate hest _) hq

theorem buyPlacement_order {catalog : Catalog} {db : Db} {intent : OrderIntent} {v : VenueAnswers}
    {p : Placement} (h : buyPlacement catalog db intent v = .ok p) :
    p.order.side = .buy ∧ 0 ≤ p.order.size ∧ inPriceBand (some p.order.price) = true := by
  unfold buyPlacement at h
  split at h
  · cases h
  · split at h
    · cases h
    · dsimp only at h
      split_ifs at h with hopen hband hmin
      split at h
      · cases h
      · cases h
        exact ⟨rfl, quantizeSize_nonneg intent.qty intent.price, by simpa using hband⟩

theorem sellPlacement_order {catalog : Catalog} {position : HeldPosition} {floorPrice : Option ℚ}
    {v : VenueAnswers} {p : Placement} (h : sellPlacement catalog position floorPrice v = .ok p) :
    p.order.side = .sell ∧ 0 ≤ p.order.size ∧ inPriceBand (some p.order.price) = true := by
  unfold sellPlacement at h
  split at h
  · cases h
  · split at h
    · cases h
    · dsimp only at h
      split_ifs at h with hband hdust
      split at h
      · cases h
      · cases h
        exact ⟨rfl, (not_le.mp hdust).le, by simpa using hband⟩

/-- The order a call places: its limit is in the band, and its estimates are
within that limit. -/
structure SoundOrder (c : LiveCall) (p : Placement) : Prop where
  size : 0 ≤ p.order.size
  band : inPriceBand (some p.order.price) = true
  estimate : ∀ estimate ∈ c.estimate p, ∀ qty, p.order.side.Within p.order.price (estimate qty)

theorem placement_sound {s : LiveState} {c : LiveCall} {p : Placement}
    (h : c.placement s = some p) : SoundOrder c p := by
  cases c with
  | buy c =>
    obtain ⟨-, hsize, hband⟩ := buyPlacement_order (toOption_eq_some.mp h)
    exact ⟨hsize, hband, fun estimate hest => by cases hest⟩
  | sell c =>
    simp only [LiveCall.placement] at h
    split_ifs at h with hclear
    obtain ⟨hside, hsize, hband⟩ := sellPlacement_order (toOption_eq_some.mp h)
    refine ⟨hsize, hband, fun estimate hest qty => ?_⟩
    obtain rfl := Option.some.inj hest
    rw [hside]
    exact le_sellPriceEstimate _ _ _ _

/-- What a call books: nothing, or a fill of its order at the fill's price. -/
theorem placed_fills {db : Db} {p : Placement} {v : VenueAnswers} {estimatePrice : Option (ℚ → ℚ)}
    {persist : Fill → ExecResult × Db}
    (h : ∀ fill, ∀ f ∈ (persist fill).2.fills, f ∈ db.fills ∨ f.price = fill.price) :
    ∀ f ∈ (placed db p v estimatePrice persist).db.fills, f ∈ db.fills ∨
      ∃ fill, orderFill p v estimatePrice = .ok (.ok fill) ∧ f.price = fill.price := by
  intro f hf
  unfold placed at hf
  split at hf
  · exact .inl hf
  · exact .inl hf
  · rename_i fill hfill
    exact (h fill f hf).imp_right fun hprice => ⟨fill, hfill, hprice⟩

theorem persistOpen_fills (db : Db) (intent : OrderIntent) (fill : Fill) (p : Placement)
    (newsId : Option String) (ts : ℚ) (outage : ℕ → Option PyErr) :
    ∀ f ∈ (persistOpen db intent fill p newsId ts outage).2.fills,
      f ∈ db.fills ∨ f.price = fill.price := by
  intro f hf
  unfold persistOpen at hf
  split at hf
  · exact .inl hf
  · rename_i held db' hw
    obtain ⟨-, rfl, -⟩ := openPosition_ok (persistIrreversible_ok hw)
    refine (List.mem_append.mp hf).imp_right fun hf => ?_
    rw [List.mem_singleton.mp hf]
    rfl

theorem persistSell_fills (db : Db) (position : HeldPosition) (fill : Fill)
    (closeReason : CloseReason) (ts : ℚ) (trigger : Option String) (outage : ℕ → Option PyErr) :
    ∀ f ∈ (persistSell db position fill closeReason ts trigger outage).2.fills,
      f ∈ db.fills ∨ f.price = fill.price := by
  intro f hf
  unfold persistSell at hf
  split at hf
  · exact .inl hf
  · rename_i row db' hw
    obtain ⟨pos, hd, -⟩ := recordSell_ok (persistIrreversible_ok hw)
    rw [hd.after] at hf
    refine (List.mem_append.mp hf).imp_right fun hf => ?_
    rw [List.mem_singleton.mp hf]
    rfl

theorem executeSellUnguarded_fills (db : Db) (c : SellCall) :
    ∀ f ∈ (executeSellUnguarded db c).db.fills, f ∈ db.fills ∨
      ∃ p fill, c.placement = .ok p ∧
        orderFill p c.venue (some (c.estimate p.order.price)) = .ok (.ok fill) ∧
        f.price = fill.price := by
  intro f hf
  unfold executeSellUnguarded at hf
  split at hf
  · exact .inl hf
  · rename_i p hp
    exact (placed_fills (fun fill => persistSell_fills db c.position fill c.closeReason c.ts c.trigger
      c.outage) f hf).imp_right fun ⟨fill, hfill, hprice⟩ => ⟨p, fill, hp, hfill, hprice⟩

/-- A fill of the ledger after a call was there before, or is the fill of the
order the call placed. -/
theorem liveCall_fills (s : LiveState) (c : LiveCall) :
    ∀ f ∈ (liveCall s c).1.db.fills, f ∈ s.db.fills ∨
      ∃ p fill, c.placement s = some p ∧ orderFill p c.venue (c.estimate p) = .ok (.ok fill) ∧
        f.price = fill.price := by
  intro f hf
  cases c with
  | buy c =>
    change f ∈ (executeBuy s.db c).db.fills at hf
    unfold executeBuy at hf
    split at hf
    · exact .inl hf
    · rename_i p hp
      exact (placed_fills (fun fill => persistOpen_fills s.db c.intent fill p c.newsId c.ts c.outage)
        f hf).imp_right fun ⟨fill, hfill, hprice⟩ => ⟨p, fill, toOption_eq_some.mpr hp, hfill, hprice⟩
  | sell c =>
    change f ∈ (executeSell s c).1.db.fills at hf
    cases hclear : s.clear c with
    | false =>
      rw [(executeSell_blocked hclear).1] at hf
      exact .inl hf
    | true =>
      rw [(executeSell_clear hclear).2] at hf
      refine (executeSellUnguarded_fills s.db c f hf).imp_right ?_
      rintro ⟨p, fill, hp, hfill, hprice⟩
      refine ⟨p, fill, ?_, hfill, hprice⟩
      simp only [LiveCall.placement, hclear, if_true]
      exact toOption_eq_some.mpr hp

/-- The price a fill is booked at: in the band, and no worse than the limit of
its order where the venue reports no worse. -/
structure WellPriced (order : OrderArgs) (v : VenueAnswers) (f : FillRow) : Prop where
  band : 1 / 10000 ≤ f.price ∧ f.price ≤ 9999 / 10000
  limit : v.NoWorse order → order.side.Within order.price f.price

/-- Every fill a live call books, whatever the venue answers or loses, is booked
at a price in the band, and, where the amounts reported are usable only if they
are no worse than the limit, at no worse than the limit. -/
theorem booked_within_limit (s : LiveState) (c : LiveCall) :
    ∀ f ∈ (liveCall s c).1.db.fills, f ∈ s.db.fills ∨
      ∃ p, c.placement s = some p ∧ WellPriced p.order c.venue f := by
  intro f hf
  refine (liveCall_fills s c f hf).imp_right ?_
  rintro ⟨p, fill, hp, hfill, hprice⟩
  have hsound := placement_sound hp
  obtain ⟨hlow, hhigh⟩ := orderFill_band hfill
  refine ⟨p, hp, ⟨?_, ?_⟩, ?_⟩
  · rw [hprice]
    exact hlow
  · rw [hprice]
    exact hhigh.trans (by norm_num [maxTokenPrice, minTokenPrice])
  · rw [hprice]
    exact orderFill_noWorse hfill hsound.size hsound.band hsound.estimate

/-- A BUY at 0.50 whose answer is lost, and of which the wallet shows 6 shares. -/
theorem booked_within_limit_sample :
    ∃ f ∈ (liveCall ⟨.empty, fun _ => none⟩ (timedOutBuy (6 * 10 ^ 6))).1.db.fills,
      1 / 10000 ≤ f.price ∧ f.price ≤ 1 / 2 := by
  have hlength : (liveCall ⟨.empty, fun _ => none⟩ (timedOutBuy (6 * 10 ^ 6))).1.db.fills.length = 1 := by
    decide +kernel
  obtain ⟨f, hf⟩ := List.exists_mem_of_length_pos (hlength ▸ Nat.one_pos)
  have horder : ((timedOutBuy (6 * 10 ^ 6)).placement ⟨.empty, fun _ => none⟩).map Placement.order =
      some ⟨"t1", 1 / 2, 10, .buy, false⟩ := by decide +kernel
  rcases booked_within_limit _ _ f hf with hold | ⟨p, hp, hpriced⟩
  · cases hold
  · rw [hp] at horder
    have horder := Option.some.inj horder
    have hlost : (timedOutBuy (6 * 10 ^ 6)).venue.NoWorse p.order := fun resp hresp => by cases hresp
    have hlimit := hpriced.limit hlost
    rw [horder] at hlimit
    exact ⟨f, hf, hpriced.band.1, hlimit⟩

/-- The answer to an order of 13 shares that crossed at once. -/
def crossedResponse (making taking : String) : Dict :=
  [("success", .bool true), ("orderID", .str "0xa1"), ("makingAmount", .str making),
    ("takingAmount", .str taking)]

def idleAnswers : SettleAnswers where
  rounds _ := ⟨.ok .null, .ok .null, true⟩
  final := .ok .null
  confirm := .ok .nan

/-- In doubles the quotient of amounts that are no worse than the limit passes it in the
last place: 13 shares bought at 0.40 for 5.2, and 13 sold at 0.30 for 3.9. -/
theorem booked_past_limit :
    (∃ fill, resolveFillIn nearestDouble (crossedResponse "5.2" "13") .buy 13 (nearestDouble (2 / 5))
        idleAnswers none = .ok fill ∧
      (postBody (crossedResponse "5.2" "13") .buy).NoWorse .buy 13 (nearestDouble (2 / 5)) ∧
      nearestDouble (26 / 5) ≤ nearestDouble (2 / 5) * 13 ∧ nearestDouble (2 / 5) < fill.price) ∧
    ∃ fill, resolveFillIn nearestDouble (crossedResponse "13" "3.9") .sell 13 (nearestDouble (3 / 10))
        idleAnswers none = .ok fill ∧
      (postBody (crossedResponse "13" "3.9") .sell).NoWorse .sell 13 (nearestDouble (3 / 10)) ∧
      nearestDouble (3 / 10) * 13 ≤ nearestDouble (39 / 10) ∧ fill.price < nearestDouble (3 / 10) := by
  have hbuy : (postBody (crossedResponse "5.2" "13") .buy).NoWorse .buy 13 (nearestDouble (2 / 5)) := by
    intro shares usdc hshares husdc
    have hbody : plausibleQty (postBody (crossedResponse "5.2" "13") .buy).shares 13 = some 13 ∧
      (postBody (crossedResponse "5.2" "13") .buy).usdc = some (26 / 5) := by decide +kernel
    obtain rfl := Option.some.inj (hbody.1.symm.trans hshares)
    obtain rfl := Option.some.inj (hbody.2.symm.trans husdc)
    show 26 / 5 ≤ nearestDouble (2 / 5) * 13
    decide +kernel
  have hsell : (postBody (crossedResponse "13" "3.9") .sell).NoWorse .sell 13 (nearestDouble (3 / 10)) := by
    intro shares usdc hshares husdc
    have hbody : plausibleQty (postBody (crossedResponse "13" "3.9") .sell).shares 13 = some 13 ∧
      (postBody (crossedResponse "13" "3.9") .sell).usdc = some (39 / 10) := by decide +kernel
    obtain rfl := Option.some.inj (hbody.1.symm.trans hshares)
    obtain rfl := Option.some.inj (hbody.2.symm.trans husdc)
    show nearestDouble (3 / 10) * 13 ≤ 39 / 10
    decide +kernel
  have hbought : (resolveFillIn nearestDouble (crossedResponse "5.2" "13") .buy 13 (nearestDouble (2 / 5))
      idleAnswers none).toOption.any (fun fill => nearestDouble (2 / 5) < fill.price) = true := by decide +kernel
  have hsold : (resolveFillIn nearestDouble (crossedResponse "13" "3.9") .sell 13 (nearestDouble (3 / 10))
      idleAnswers none).toOption.any (fun fill => fill.price < nearestDouble (3 / 10)) = true := by
    decide +kernel
  obtain ⟨bought, hfill, hpast⟩ := Option.any_eq_true .. |>.mp hbought
  obtain ⟨sold, hfill', hpast'⟩ := Option.any_eq_true .. |>.mp hsold
  exact ⟨⟨bought, toOption_eq_some.mp hfill, hbuy, by decide +kernel, of_decide_eq_true hpast⟩,
    sold, toOption_eq_some.mp hfill', hsell, by decide +kernel, of_decide_eq_true hpast'⟩

end OpenPoly
