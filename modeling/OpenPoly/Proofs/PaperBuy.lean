import OpenPoly.Lib.Except
import OpenPoly.Lib.Matching
import OpenPoly.Proofs.Booked

/-! Paper fills against the live order of the same intent: what the paper
executor fills, a venue would fill of the live order, exactly where the ask has
not moved past the price the intent was decided at. -/

namespace OpenPoly

open Matching Results

/-- The executions of a BUY on these asks: best first, at prices up to its limit. -/
def OrderArgs.buysFrom (order : OrderArgs) (asks : List Level) : List Level :=
  takeBest (asks.filter fun l => l.1 ≤ order.price) order.size

/-- The live executor posts an order for the token of the fill that is filled for
as many shares, the first of them, as many as the fill, at no more than its
price. -/
def LiveFillable (catalog : Catalog) (db : Db) (intent : OrderIntent) (v : VenueAnswers)
    (a : OpenArgs) : Prop :=
  ∃ p, buyPlacement catalog db intent v = .ok p ∧ p.order.tokenId = a.tokenId ∧
    a.qty ≤ volume (p.order.buysFrom (askLevels catalog intent)) ∧
    a.qty ≤ volume ((p.order.buysFrom (askLevels catalog intent)).takeWhile fun e => e.1 ≤ a.price)

def askDepth (catalog : Catalog) (intent : OrderIntent) (price : ℚ) : ℚ :=
  volume ((askLevels catalog intent).filter fun l => l.1 ≤ price)

/-- The ask is not above the intent's price, that price is one the venue takes,
and the shares of a paper fill are on offer. -/
def AskReached (catalog : Catalog) (intent : OrderIntent) (ask size : ℚ) : Prop :=
  ask ≤ intent.price ∧ intent.price ≤ maxTokenPrice ∧
    quantizeSize (min intent.qty size) ask ≤ askDepth catalog intent ask

section

variable {catalog : Catalog} {db : Db} {intent : OrderIntent} {v : VenueAnswers}

theorem askLevels_wellFormed (hbooks : ∀ token book, catalog.books token = some book →
    book.WellFormed) :
    (askLevels catalog intent).Pairwise (fun a b => a.1 ≤ b.1) ∧
      ∀ l ∈ askLevels catalog intent, 0 < l.2 := by
  unfold askLevels
  cases hb : (((catalog.markets intent.marketId).bind fun m => m.tokenFor intent.side).bind
      catalog.books) with
  | none => simp
  | some book =>
    obtain ⟨token, -, hbook⟩ := Option.bind_eq_some_iff.mp hb
    have h := hbooks token book hbook
    exact ⟨h.asks, fun l hl => h.size l (List.mem_append_right _ hl)⟩

/-- Both executors' checks, on a market whose level-1 ask is `ask`. -/
theorem paperFill_of_ask {ask size : ℚ} (hask : levelOneAsk catalog intent = some (ask, size))
    (hopen : db.getOpenPosition intent.marketId intent.side = none)
    (hband : inPriceBand (some ask) = true)
    (hnotional : minNotionalUsd ≤ quantizeSize (min intent.qty size) ask * ask) :
    ∃ a, paperFill catalog db intent none 0 = .ok a := by
  unfold levelOneAsk askLevels at hask
  unfold paperFill
  cases hm : catalog.markets intent.marketId with
  | none => simp [hm] at hask
  | some market =>
    cases ht : market.tokenFor intent.side with
    | none => simp [hm, ht] at hask
    | some token =>
      cases hb : catalog.books token with
      | none => simp [hm, ht, hb] at hask
      | some book =>
        cases ha : book.asks with
        | nil => simp [hm, ht, hb, ha] at hask
        | cons level asks =>
          obtain rfl : level = (ask, size) := by simpa [hm, ht, hb, ha] using hask
          simp only [ht, hb, ha, hopen, Option.isSome_none, Bool.false_eq_true, if_false, hband,
            Bool.not_true, not_lt.mpr hnotional]
          exact ⟨_, rfl⟩

/-- The live order, where the price and the notional pass. -/
theorem buyPlacement_of_price {market : Market} {token : String}
    (hm : catalog.markets intent.marketId = some market)
    (ht : market.tokenFor intent.side = some token)
    (hopen : db.getOpenPosition intent.marketId intent.side = none)
    (hbal : readCtfBalanceRaw (v.before 0) ≠ none) (hband : inPriceBand (some intent.price) = true)
    (hnotional : minNotionalUsd ≤ quantizeSize intent.qty intent.price * intent.price) :
    ∃ p, buyPlacement catalog db intent v = .ok p ∧ p.order.tokenId = token := by
  obtain ⟨preRaw, hraw⟩ := Option.ne_none_iff_exists'.mp hbal
  unfold buyPlacement
  simp only [hm, ht, hopen, Option.isSome_none, Bool.false_eq_true, if_false, hband, Bool.not_true,
    not_lt.mpr hnotional, hraw]
  exact ⟨_, rfl, rfl⟩

/-- What is executed of a BUY at prices up to `price`. -/
theorem volume_buysFrom {asks : List Level} (hsort : asks.Pairwise fun a b => a.1 ≤ b.1)
    (hsize : ∀ l ∈ asks, 0 < l.2) {order : OrderArgs} (h0 : 0 ≤ order.size) {price : ℚ}
    (hle : price ≤ order.price) :
    volume ((order.buysFrom asks).takeWhile fun e => e.1 ≤ price) =
      min order.size (volume (asks.filter fun l => l.1 ≤ price)) := by
  have hpair : (asks.filter fun l => l.1 ≤ order.price).Pairwise fun a b =>
      decide (b.1 ≤ price) = true → decide (a.1 ≤ price) = true := by
    refine (hsort.filter _).imp fun hab hb => ?_
    simp only [decide_eq_true_eq] at hb ⊢
    exact hab.trans hb
  have hfilter : (asks.filter fun l => decide (l.1 ≤ order.price)).filter
      (fun l => decide (l.1 ≤ price)) = asks.filter fun l => decide (l.1 ≤ price) := by
    rw [List.filter_filter]
    refine List.filter_congr fun l _ => ?_
    by_cases hl : l.1 ≤ price
    · simp [hl, hl.trans hle]
    · simp [hl]
  have hlead := @takeBest_takeWhile _ _ _ _ (fun q => decide (q ≤ price)) _ hpair order.size
  unfold OrderArgs.buysFrom
  rw [hlead, hfilter, volume_takeBest _ h0]
  exact fun l hl => hsize l (List.mem_of_mem_filter hl)

end

def askedMarket : Market where
  marketId := "m1"
  conditionId := "0xc1"
  yesTokenId := "t1"
  noTokenId := none

/-- A market asked at `ask` for 100 shares. -/
def askedCatalog (ask : ℚ) : Catalog where
  markets id := if id = "m1" then some askedMarket else none
  books _ := some ⟨"t1", 1, [(1 / 5, 100)], [(ask, 100)]⟩

def askedIntent : OrderIntent := { marketId := "m1", side := .yes, price := 1 / 2, qty := 20 }

def readable : VenueAnswers where
  before _ := .ok (.obj [("balance", .str "0")])
  post := .ok .null
  rounds _ := ⟨.ok .null, .ok .null, true⟩
  final := .ok .null
  after _ := .ok .null

theorem askedCatalog_wellFormed {ask : ℚ} (h : 0 < ask ∧ ask < 1) (token : String)
    (book : OrderBook) (hb : (askedCatalog ask).books token = some book) : book.WellFormed := by
  obtain rfl := Option.some.inj hb
  constructor
  · simp
  · simp
  · intro l hl
    rcases List.mem_cons.mp hl with rfl | hl
    · norm_num
    · obtain rfl := List.mem_singleton.mp hl
      exact h
  · intro l hl
    rcases List.mem_cons.mp hl with rfl | hl
    · norm_num
    · obtain rfl := List.mem_singleton.mp hl
      norm_num

end OpenPoly
