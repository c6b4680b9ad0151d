import OpenPoly.Lib.Run
import OpenPoly.Proofs.RestingSell
import OpenPoly.Spec.Orchestrator

/-! A BUY that may still rest: the entry stage drops the order id the outcome
carries, so what keeps a second order off its token is only what refuses any
order. Beside the system runs the list of the BUYs whose outcome carried an id. -/

namespace OpenPoly

open Transition

/-- A BUY whose outcome carried its order id. -/
structure RestingBuy where
  marketId : String
  side : Side
  orderId : String
  size : ℚ
  deriving DecidableEq, Repr

def LiveCall.token : LiveCall → String × Side
  | .buy c => (c.intent.marketId, c.intent.side)
  | .sell c => (c.position.marketId, c.position.side)

def RestingBuy.token (o : RestingBuy) : String × Side := (o.marketId, o.side)

/-- Before it posts, the call checks this very order and the answers show it off
the book. -/
def checkedOff (s : LiveState) (o : RestingBuy) : LiveCall → Bool
  | .buy _ => false
  | .sell c =>
    ((s.resting c.position.positionId).any fun pending => pending.orderId = o.orderId) &&
      restingOrderOffBook ⟨o.orderId, o.size, 0⟩ c.checkCancel c.checkRead

/-- The settle of a posted order that answers to this very id shows it off the
book. -/
def settledOff (o : RestingBuy) (p : Placement) (v : VenueAnswers) : Bool :=
  match postOrder v.post with
  | .error _ => false
  | .ok resp =>
    let body := postBody resp p.order.side
    !orderWasRejected resp && body.orderId = some o.orderId && !body.covers p.order.size &&
      knownOff body p.order.size (p.answers v)

/-- The system, and beside it the BUYs that may rest. -/
structure BuyTrace where
  desk : Trading
  resting : List RestingBuy

def BuyTrace.init (db : Db) : BuyTrace := ⟨.init db, []⟩

def BuyTrace.restingAtPost (t : BuyTrace) (c : LiveCall) : List RestingBuy :=
  t.resting.filter fun o => !checkedOff t.desk.live o c

/-- What may still rest once the call is over. -/
def BuyTrace.restingAfter (t : BuyTrace) (c : LiveCall) : List RestingBuy :=
  match c.placement t.desk.live with
  | none => t.restingAtPost c
  | some p => (t.restingAtPost c).filter fun o => !settledOff o p c.venue

def newlyResting (s : LiveState) (c : BuyCall) : Option RestingBuy :=
  match (executeBuy s.db c).result with
  | .error _ => none
  | .ok r => r.restingOrderId.map fun orderId =>
      ⟨c.intent.marketId, c.intent.side, orderId, quantizeSize c.intent.qty c.intent.price⟩

def BuyTrace.step (t : BuyTrace) (e : TradeEvent) : BuyTrace where
  desk := t.desk.step e
  resting :=
    match e with
    | .entry c => (newlyResting t.desk.live c).toList ++ t.restingAfter (.buy c)
    | .sell c => t.restingAfter (.sell c)
    | .write _ => t.resting

abbrev buyStep (t : BuyTrace) (e : TradeEvent) (u : BuyTrace) : Prop := u = t.step e

/-- No order is posted for the token of a BUY that may still rest. -/
def WaitsForResting (t : BuyTrace) (e : TradeEvent) : Prop :=
  ∀ c, e.call = some c → (liveCall t.desk.live c).2.posted.isSome = true →
    ∀ o ∈ t.restingAtPost c, o.token ≠ c.token

def BuyCall.Refused (c : BuyCall) (db : Db) : Prop :=
  c.catalog.markets c.intent.marketId = none ∨
  (∃ market, c.catalog.markets c.intent.marketId = some market ∧
    market.tokenFor c.intent.side = none) ∨
  db.hasOpen c.intent.marketId c.intent.side = true ∨
  inPriceBand (some c.intent.price) = false ∨
  quantizeSize c.intent.qty c.intent.price * c.intent.price < minNotionalUsd ∨
  readCtfBalanceRaw (c.venue.before 0) = none

def SellCall.limit (c : SellCall) : Option ℚ := do
  let market ← c.catalog.markets c.position.marketId
  let bid ← (c.catalog.books c.position.tokenId).bind OrderBook.bestBid
  return sellLimit market bid c.floorPrice

/-- What keeps a sell from posting: no market or bid, a limit no venue could
have, nothing to place, a balance that never covers it. -/
def SellCall.Unplaceable (c : SellCall) : Prop :=
  c.limit = none ∨ (∃ price, c.limit = some price ∧ inPriceBand (some price) = false) ∨
  quantizeSize c.position.qty 1 ≤ 0 ∨
  ctfSynced ⌊quantizeSize c.position.qty 1 * 10 ^ ctfDecimals⌋ c.venue.before = none

def SellCall.Refused (c : SellCall) (s : LiveState) : Prop := s.clear c = false ∨ c.Unplaceable

def LiveCall.Refused (s : LiveState) : LiveCall → Prop
  | .buy c => c.Refused s.db
  | .sell c => c.Refused s

theorem hasOpen_iff_getOpenPosition (db : Db) (marketId : String) (side : Side) :
    (db.getOpenPosition marketId side).isSome = db.hasOpen marketId side := by
  unfold Db.getOpenPosition Db.hasOpen
  rw [Option.isSome_map, List.isSome_find?]

theorem buyPlacement_error_iff (c : BuyCall) (db : Db) :
    (c.placement db).toOption = none ↔ c.Refused db := by
  unfold BuyCall.placement buyPlacement BuyCall.Refused
  rw [hasOpen_iff_getOpenPosition]
  cases hm : c.catalog.markets c.intent.marketId with
  | none => simp [Except.toOption]
  | some market =>
    simp only [reduceCtorEq, false_or, Option.some.injEq, exists_eq_left']
    cases market.tokenFor c.intent.side with
    | none => simp [Except.toOption]
    | some tokenId =>
      simp only [reduceCtorEq, false_or]
      split_ifs with hopen hband hdust
      · simp [hopen, Except.toOption]
      · simp [by simpa using hband, Except.toOption]
      · simp [hdust, Except.toOption]
      · cases readCtfBalanceRaw (c.venue.before 0) with
        | none => simp [Except.toOption]
        | some preRaw => simp [hopen, by simpa using hband, hdust, Except.toOption]

theorem sellPlacement_error_iff (c : SellCall) : c.placement.toOption = none ↔ c.Unplaceable := by
  unfold SellCall.placement sellPlacement SellCall.Unplaceable SellCall.limit
  cases c.catalog.markets c.position.marketId with
  | none => simp [Except.toOption]
  | some market =>
    cases (c.catalog.books c.position.tokenId).bind OrderBook.bestBid with
    | none => simp [Except.toOption]
    | some bid =>
      have hsize : quantizeSize c.position.qty (sellLimit market bid c.floorPrice) =
        quantizeSize c.position.qty 1 := rfl
      simp only [hsize, bind, Option.bind, pure, reduceCtorEq, false_or, Option.some.injEq,
        exists_eq_left']
      split_ifs with hband hdust
      · simp [by simpa using hband, Except.toOption]
      · simp [hdust, Except.toOption]
      · cases ctfSynced ⌊quantizeSize c.position.qty 1 * 10 ^ ctfDecimals⌋ c.venue.before with
        | none => simp [Except.toOption]
        | some preRaw => simp [by simpa using hband, hdust, Except.toOption]

theorem placement_none_iff (s : LiveState) (c : LiveCall) :
    c.placement s = none ↔ c.Refused s := by
  cases c with
  | buy c => exact buyPlacement_error_iff c s.db
  | sell c =>
    show (if s.clear c = true then c.placement.toOption else none) = none ↔
      s.clear c = false ∨ c.Unplaceable
    cases s.clear c with
    | false => simp
    | true => simp [sellPlacement_error_iff]

/-- Every call for the token of a BUY that may still rest meets a refusal. -/
def RefusedWhileResting (t : BuyTrace) (e : TradeEvent) : Prop :=
  ∀ c, e.call = some c → (∃ o ∈ t.restingAtPost c, o.token = c.token) → c.Refused t.desk.live

theorem waitsForResting_iff (t : BuyTrace) (e : TradeEvent) :
    WaitsForResting t e ↔ RefusedWhileResting t e := by
  unfold WaitsForResting RefusedWhileResting
  refine forall₂_congr fun c _ => ?_
  rw [posted_iff, Option.isSome_map, ← placement_none_iff]
  cases c.placement t.desk.live with
  | none => simp
  | some p => simp

/-- A run keeps every order off the token of a BUY that may still rest exactly
where each of its calls for such a token is refused. -/
theorem orders_wait_for_resting (db : Db) (es : List TradeEvent) (t : BuyTrace) :
    Run (guarded WaitsForResting buyStep) (BuyTrace.init db) es t ↔
      Run (guarded RefusedWhileResting buyStep) (BuyTrace.init db) es t := by
  constructor
  · intro h
    exact h.mono fun s e _ hstep => ⟨(waitsForResting_iff s e).mp hstep.1, hstep.2⟩
  · intro h
    exact h.mono fun s e _ hstep => ⟨(waitsForResting_iff s e).mpr hstep.1, hstep.2⟩

def unmatched : VenueAnswers where
  before _ := balanceOf 0
  post := .ok (.obj [("success", .bool true), ("orderID", .str "0xa1"),
    ("makingAmount", .str "0"), ("takingAmount", .str "0")])
  rounds _ := ⟨refused "0xa1", .error (.other "ReadTimeout"), true⟩
  final := .error (.other "ReadTimeout")
  after _ := balanceOf 0

def unmatchedBuy : BuyCall where
  catalog := sampleCatalog
  intent := { marketId := "m1", side := .yes, price := 1 / 2, qty := 10 }
  ts := 1
  venue := unmatched

/-- A BUY is skipped with its order possibly resting; the next entry posts a
second one on top of it. -/
theorem second_entry_posts :
    ∃ t, Run buyStep (BuyTrace.init .empty) [.entry unmatchedBuy] t ∧
      ¬ WaitsForResting t (.entry unmatchedBuy) := by
  refine ⟨_, Run.single rfl, fun h => ?_⟩
  have hposted : (liveCall ((BuyTrace.init .empty).step (.entry unmatchedBuy)).desk.live
      (.buy unmatchedBuy)).2.posted.isSome = true := by decide +kernel
  have hresting : (⟨"m1", .yes, "0xa1", 10⟩ : RestingBuy) ∈
      ((BuyTrace.init .empty).step (.entry unmatchedBuy)).restingAtPost (.buy unmatchedBuy) := by
    decide +kernel
  exact h _ rfl hposted _ hresting rfl

end OpenPoly
