import OpenPoly.Proofs.FillPrice
import OpenPoly.Spec.PaperExecutor

/-! What a buy is booked at, on paper and live, and what it leaves of the
tables: a live one is booked for no more shares than were ordered and no more
than the limit for each, as long as the venue reports no more. -/

namespace OpenPoly

/-- The venue keeps to a BUY of `size` at `limit`: it reports no more shares than
were ordered and no more paid for them than the limit. -/
structure KeepsTo (size limit : ℚ) (v : VenueAnswers) : Prop where
  shares : ∀ resp, v.post = .ok (.obj resp) → ∀ q, (postBody resp .buy).shares = some q → q ≤ size
  paid : ∀ resp, v.post = .ok (.obj resp) → ∀ q usdc, (postBody resp .buy).shares = some q →
    (postBody resp .buy).usdc = some usdc → usdc ≤ limit * q
  reads : ∀ answer, (answer = v.final ∨ ∃ k, answer = (v.rounds k).read) → ∀ q status,
    readOrder answer = some (some q, status) → q ≤ size

theorem mem_visited {orderId : String} {size : ℚ} {rounds : List Round} {r : Round}
    (h : r ∈ visited orderId size rounds) : r ∈ rounds := by
  induction rounds with
  | nil => simp [visited] at h
  | cons round rest ih =>
    unfold visited at h
    split_ifs at h with hends
    · exact List.mem_cons.mpr (.inl (List.mem_singleton.mp h))
    · rcases List.mem_cons.mp h with rfl | h
      · exact List.mem_cons_self
      · exact List.mem_cons_of_mem _ (ih h)

/-- A reading of the order is of an answer of the loop or of the read after it. -/
theorem mem_readsOf {body : OrderResponse} {size : ℚ} {a : SettleAnswers} {r : Reading}
    (h : r ∈ readsOf body size a) :
    ∃ answer, (answer = a.final ∨ ∃ k, answer = (a.rounds k).read) ∧ readOrder answer = some r := by
  unfold readsOf at h
  cases hid : body.orderId with
  | none => simp [hid] at h
  | some orderId =>
    simp only [hid, SettleAnswers.reads, List.mem_append] at h
    rcases h with h | h
    · obtain ⟨round, hround, hr⟩ := List.mem_filterMap.mp h
      have hseen := mem_visited (List.mem_of_mem_filter hround)
      obtain ⟨k, -, rfl⟩ := List.mem_map.mp hseen
      exact ⟨_, .inr ⟨k, rfl⟩, hr⟩
    · unfold SettleAnswers.finalReading at h
      split_ifs at h
      · simp at h
      · exact ⟨_, .inl rfl, Option.mem_toList.mp h⟩

theorem bookablePrice_le {price : Option ℚ} {limit : ℚ} (hband : inPriceBand (some limit) = true)
    (h : ∀ q, price = some q → q ≤ limit) :
    0 ≤ bookablePrice price limit .buy ∧ bookablePrice price limit .buy ≤ limit := by
  have hmin : (0 : ℚ) ≤ minTokenPrice := by norm_num [minTokenPrice]
  exact ⟨hmin.trans (bookablePrice_band price limit .buy).1, @bookablePrice_within price limit .buy hband h⟩

/-- A BUY that is filled is booked for no more than its size at the limit. -/
theorem orderFill_within {p : Placement} {v : VenueAnswers} {fill : Fill}
    (hside : p.order.side = .buy) (hsize : 0 ≤ p.order.size)
    (hband : inPriceBand (some p.order.price) = true) (hkeeps : KeepsTo p.order.size p.order.price v)
    (h : orderFill p v none = .ok (.ok fill)) :
    (0 ≤ fill.qty ∧ fill.qty ≤ p.order.size) ∧ 0 ≤ fill.price ∧ fill.price ≤ p.order.price := by
  rcases orderFill_ok h with ⟨hwallet, -, hprice⟩ | ⟨resp, hresp, hfill⟩
  · rw [hprice, hside]
    exact ⟨walletDelta_bounds hsize hwallet, bookablePrice_le hband (by simp)⟩
  · rw [hside] at hfill
    obtain ⟨hqty, hne, hprice⟩ := resolveFill_ok hfill
    have hrange : 0 ≤ fill.qty ∧ fill.qty ≤ p.order.size := by
      refine @settleAnswered_all (fun m => 0 ≤ m ∧ m ≤ p.order.size) _ _ _ _ _ hsize ?_ ?_ ?_
        ⟨le_rfl, hsize⟩ hqty
      · unfold OrderResponse.reported
        cases hp : plausibleQty (postBody resp .buy).shares p.order.size with
        | none => exact ⟨le_rfl, hsize⟩
        | some q =>
          obtain ⟨hq, hpos, -⟩ := plausibleQty_eq_some.mp hp
          exact ⟨hpos, hkeeps.shares resp hresp q hq⟩
      · intro r hr m hm
        obtain ⟨hr', hpos, -⟩ := plausibleQty_eq_some.mp hm
        obtain ⟨answer, hanswer, hread⟩ := mem_readsOf hr
        exact ⟨hpos, hkeeps.reads answer hanswer m r.2 (by rw [hread, ← hr'])⟩
      · intro m hm
        have := walletMoved_bounds hsize hm
        exact ⟨this.1.le, this.2⟩
    refine ⟨hrange, ?_⟩
    rw [hprice]
    refine bookablePrice_le hband fun q hq => ?_
    have hbody : (postBody resp .buy).NoWorse .buy p.order.size p.order.price :=
      fun q usdc hq husdc => hkeeps.paid resp hresp q usdc (plausibleQty_eq_some.mp hq).1 husdc
    have hpos : 0 < fill.qty := lt_of_le_of_ne hrange.1 (Ne.symm hne)
    exact @fillPrice_within _ .buy _ _ _ _ none hpos hbody (by simp) hq

/-- The order a BUY that passes every check posts. -/
theorem buyPlacement_ok {catalog : Catalog} {db : Db} {intent : OrderIntent} {v : VenueAnswers}
    {p : Placement} (h : buyPlacement catalog db intent v = .ok p) :
    p.order.price = intent.price ∧ p.order.size = quantizeSize intent.qty intent.price ∧
      p.order.side = .buy ∧ inPriceBand (some intent.price) = true ∧
      minNotionalUsd ≤ p.order.size * p.order.price := by
  unfold buyPlacement at h
  cases hm : catalog.markets intent.marketId with
  | none => simp [hm] at h
  | some market =>
    cases ht : market.tokenFor intent.side with
    | none => simp [hm, ht] at h
    | some token =>
      simp only [hm, ht] at h
      split_ifs at h with hopen hband hnotional
      cases hr : readCtfBalanceRaw (v.before 0) with
      | none => simp [hr] at h
      | some preRaw =>
        simp only [hr] at h
        obtain rfl := Except.ok.inj h
        exact ⟨rfl, rfl, rfl, by simpa using hband, not_lt.mp hnotional⟩

theorem paperFill_ok {catalog : Catalog} {db : Db} {intent : OrderIntent} {newsId : Option String}
    {ts : ℚ} {a : OpenArgs} (h : paperFill catalog db intent newsId ts = .ok a) :
    ∃ market ask size, catalog.markets intent.marketId = some market ∧
      market.tokenFor intent.side = some a.tokenId ∧
      levelOneAsk catalog intent = some (ask, size) ∧ a.price = ask ∧
      a.qty = quantizeSize (min intent.qty size) ask ∧ inPriceBand (some ask) = true ∧
      minNotionalUsd ≤ a.qty * a.price := by
  unfold paperFill at h
  unfold levelOneAsk askLevels
  cases hm : catalog.markets intent.marketId with
  | none => simp [hm] at h
  | some market =>
    cases ht : market.tokenFor intent.side with
    | none => simp [hm, ht] at h
    | some token =>
      cases hb : catalog.books token with
      | none => simp [hm, ht, hb] at h
      | some book =>
        cases ha : book.asks with
        | nil => simp [hm, ht, hb, ha] at h
        | cons level asks =>
          obtain ⟨ask, size⟩ := level
          simp only [hm, ht, hb, ha] at h
          split_ifs at h with hopen hband hdust
          obtain rfl := Except.ok.inj h
          refine ⟨market, ask, size, rfl, ht, by simp [ht, hb, ha], rfl, rfl, ?_, not_lt.mp hdust⟩
          simpa using hband

theorem paperFill_skip {catalog : Catalog} {db : Db} {intent : OrderIntent}
    {newsId : Option String} {ts : ℚ} {skip : ExecResult}
    (h : paperFill catalog db intent newsId ts = .error skip) : skip.filled = false := by
  unfold paperFill at h
  simp only at h
  repeat' split at h
  all_goals
    cases h
    try rfl

theorem buyPlacement_skip {catalog : Catalog} {db : Db} {intent : OrderIntent} {v : VenueAnswers}
    {skip : ExecResult} (h : buyPlacement catalog db intent v = .error skip) :
    skip.filled = false := by
  unfold buyPlacement at h
  simp only at h
  repeat' split at h
  all_goals
    cases h
    try rfl

/-- A buy leaves the tables, or opens the position it was filled for. -/
theorem Executor.buy_cases (executor : Executor) (db : Db) (c : BuyCall) :
    ((executor.buy db c).db = db ∧ ∀ r, (executor.buy db c).result = .ok r → r.filled = false) ∨
      ∃ a held, executor.fill db c = some a ∧
        db.openPosition a = .ok (held, (executor.buy db c).db) ∧
        ∃ resting, (executor.buy db c).result = .ok (.ok a.price a.qty held.positionId resting) := by
  cases executor with
  | paper =>
    simp only [Executor.buy, Executor.fill, paperBuy]
    cases hf : paperFill c.catalog db c.intent c.newsId c.ts with
    | error skip => exact .inl ⟨rfl, fun r hr => Except.ok.inj hr ▸ paperFill_skip hf⟩
    | ok a =>
      dsimp only
      cases hw : writeOnce (db.openPosition a) (c.outage 0) with
      | error exc => exact .inl ⟨rfl, fun r hr => by cases hr⟩
      | ok r =>
        have ho : db.openPosition a = .ok r := by
          unfold writeOnce at hw
          split at hw
          · cases hw
          · exact hw
        exact .inr ⟨a, r.1, rfl, ho, none, rfl⟩
  | live wallet =>
    simp only [Executor.buy, Executor.fill, executeBuy]
    cases hp : c.placement db with
    | error skip => exact .inl ⟨rfl, fun r hr => Except.ok.inj hr ▸ buyPlacement_skip hp⟩
    | ok p =>
      simp only [placed]
      cases hf : orderFill p c.venue none with
      | error exc => exact .inl ⟨rfl, fun r hr => by cases hr⟩
      | ok res =>
        cases res with
        | error skip => exact .inl ⟨rfl, fun r hr => Except.ok.inj hr ▸ orderFill_skip hf⟩
        | ok fill =>
          simp only [persistOpen]
          cases hw : persistIrreversible
            (db.openPosition (fill.openArgs c.intent p c.newsId c.ts)) c.outage with
          | error exc => exact .inl ⟨rfl, fun r hr => Except.ok.inj hr ▸ rfl⟩
          | ok r => exact .inr ⟨_, r.1, rfl, persistIrreversible_ok hw, _, rfl⟩

end OpenPoly
