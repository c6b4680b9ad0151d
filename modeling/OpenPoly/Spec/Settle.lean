import OpenPoly.Spec.Response

/-! The settle step of an answered order: cancel what did not fill, re-read the
order, resolve the quantity, name the outcome. The venue's answers are
parameters: what each cancel attempt and order read gets, and when the wall
clock runs out. -/

namespace OpenPoly

def settleAttempts : ℕ := 16

/-- One pass of the cancel loop: the answers to the cancel and to the read after
it, and whether the deadline had passed by its end. -/
structure Round where
  cancel : Except PyErr Json
  read : Except PyErr Json
  late : Bool

/-- The body acknowledges the cancel of this very id. -/
def cancelAcked (orderId : String) : Except PyErr Json → Bool
  | .ok (.obj res) =>
    match Dict.get res "canceled" with
    | .arr acked => (acked.map parseOrderId).contains (some orderId)
    | _ => false
  | _ => false

/-- The refusal of a cancel that was not acknowledged, before its `str()`. -/
def refusalReason (orderId : String) : Except PyErr Json → Json
  | .error exc => .str (exc.name ++ ": ")
  | .ok (.obj res) =>
    match Dict.get res "not_canceled" with
    | .null => .str "refused without a reason"
    | .obj refusals =>
      if Dict.contains refusals orderId then Dict.get refusals orderId
      else .str "refused without a reason"
    | raw => .str ("unexpected cancel body shape (" ++ raw.typeName ++ ")")
  | .ok res => .str ("unexpected response " ++ res.typeName)

/-- The loop of `_cancel_with_retry` over the rounds still allowed: the last
refusal, or none once the order is off the book; whether a read was terminal;
the evidence. -/
def cancelRounds (orderId : String) :
    List Round → Json → FillEvidence → Option Json × Bool × FillEvidence
  | [], reason, evidence => (some reason, false, evidence)
  | round :: rest, _, evidence =>
    if cancelAcked orderId round.cancel then (none, false, evidence)
    else
      let reason := refusalReason orderId round.cancel
      match readOrder round.read with
      | none =>
        if round.late then (some reason, false, evidence)
        else cancelRounds orderId rest reason evidence
      | some (matched, status) =>
        let (terminal, evidence) := evidence.addRead matched status
        if terminal then (none, true, evidence)
        else if round.late then (some reason, false, evidence)
        else cancelRounds orderId rest reason evidence

def cancelWithRetry (orderId : String) (rounds : ℕ → Round) (evidence : FillEvidence) :
    Option Json × Bool × FillEvidence :=
  cancelRounds orderId ((List.range settleAttempts).map rounds) (.str "cancel never attempted")
    evidence

/-- `_wallet_delta`: clamped to the size; negative or non-finite is no reading. -/
def walletDelta (confirm : Except PyErr PyFloat) (size : ℚ) : Except PyErr (Option ℚ) :=
  match confirm with
  | .error exc => .error exc
  | .ok (.fin moved) => .ok (if moved < 0 then none else some (min moved size))
  | .ok _ => .ok none

/-- What the venue answers while one order is settled. -/
structure SettleAnswers where
  rounds : ℕ → Round
  /-- The order read after the cancel loop. -/
  final : Except PyErr Json
  /-- The balance confirmation, should it be asked. -/
  confirm : Except PyErr PyFloat

/-- What the cancel loop and the read after it establish: the refusal left, the
evidence, and whether the order was read off the book with nothing matched. -/
def settleOrder (orderId : String) (answers : SettleAnswers) (evidence : FillEvidence) :
    Option Json × FillEvidence × Bool :=
  let (refusal, terminal, evidence) := cancelWithRetry orderId answers.rounds evidence
  if terminal then (refusal, evidence, false)
  else
    match readOrder answers.final with
    | none => (refusal, evidence, false)
    | some (matched, status) =>
      let (terminal, evidence) := evidence.addRead matched status
      let refusal := if terminal then none else refusal
      -- `not refusal`: an empty refusal text counts as no refusal here
      (refusal, evidence, refusal.all Json.blank && matched = some 0)

/-- The quantity, once the wallet has had its turn. -/
def settledQty (evidence : FillEvidence) (offBookZero : Bool) (confirm : Except PyErr PyFloat) :
    Option ℚ :=
  match evidence.resolve with
  | some qty => some qty
  | none =>
    let confirmed := match walletDelta confirm evidence.size with
      | .ok confirmed => confirmed
      | .error _ => none
    match (evidence.add confirmed .wallet).resolve with
    | some qty => some qty
    | none => if offBookZero then some 0 else none

/-- `_settle_resting_remainder`: the quantity, where established, and whether
part of the order may still rest. -/
def settleRestingRemainder (orderId : Option String) (reportedQty size : ℚ)
    (answers : SettleAnswers) (crossSettled : Bool) : Option ℚ × Bool :=
  if size - fillTol ≤ reportedQty then (some reportedQty, false)
  else
    let evidence : FillEvidence := { size := size }
    let evidence := evidence.add (some reportedQty) .postBody false false crossSettled
    match orderId with
    | none => (settledQty evidence false answers.confirm, true)
    | some orderId =>
      let (refusal, evidence, offBookZero) := settleOrder orderId answers evidence
      (settledQty evidence offBookZero answers.confirm, refusal.isSome)

/-- `_bookable_price`: the price, else the limit, else the worst edge for the
side. -/
def bookablePrice (price : Option ℚ) (fallback : ℚ) (side : FillAction) : ℚ :=
  if inPriceBand price then price.getD fallback
  else if inPriceBand (some fallback) then fallback
  else match side with
    | .buy => maxTokenPrice
    | .sell => minTokenPrice

/-- `_sell_price_estimate`; `best` is the best bid of the book as it is now. -/
def sellPriceEstimate (bids : List Level) (limit qty : ℚ) (best : Option ℚ) : ℚ :=
  let levels := bids.filter fun l => limit ≤ l.1 ∧ 0 < l.2
  if levels.isEmpty then
    match best with
    | some best => if inPriceBand (some best) then max limit best else limit
    | none => limit
  else
    let (notional, remaining) := sweep levels qty
    let notional := if 0 < remaining then notional + remaining * limit else notional
    if 0 < qty then max limit (notional / qty) else limit

structure Fill where
  qty : ℚ
  price : ℚ
  txHash : Option String
  orderId : Option String
  resting : Bool := false
  deriving DecidableEq, Repr

/-- The POST body as `_resolve_fill` reads it. -/
def postBody (resp : Dict) (side : FillAction) : OrderResponse :=
  OrderResponse.parse resp (amountKeys side).1 (amountKeys side).2

/-- The share count the settle is handed: the plausible one, else 0. -/
def OrderResponse.reported (body : OrderResponse) (size : ℚ) : ℚ :=
  (plausibleQty body.shares size).getD 0

def OrderResponse.bad (body : OrderResponse) (size : ℚ) : Bool :=
  body.shares.isNone || body.usdc.isNone ||
    ((plausibleQty body.shares size).isNone && body.shares.isSome)

def settleAnswered (resp : Dict) (side : FillAction) (size : ℚ) (answers : SettleAnswers) :
    Option ℚ × Bool :=
  let body := postBody resp side
  settleRestingRemainder body.orderId (body.reported size) size answers body.txHash.isSome

/-- The price of the `qty` shares a response and its settle amount to, with `fl` what a
number is read as and what each operation on them is rounded to. -/
def fillPriceIn (fl : ℚ → ℚ) (body : OrderResponse) (size limitPrice qty : ℚ)
    (estimatePrice : Option (ℚ → ℚ)) : Option ℚ :=
  let shares := fl (body.reported size)
  let usdc := fl (body.usdc.getD 0)
  if 0 < shares ∧ 0 < usdc then
    let raced := max 0 (fl (qty - shares))
    some (fl (fl (fl (fl (usdc * min qty shares) / shares) + fl (raced * limitPrice)) / qty))
  else if !body.bad size && shares = 0 then some limitPrice
  else estimatePrice.map fun estimate => estimate qty

/-- The price in exact arithmetic. -/
def fillPrice : OrderResponse → ℚ → ℚ → ℚ → Option (ℚ → ℚ) → Option ℚ := fillPriceIn id

def noFillReason (body : OrderResponse) (size : ℚ) (qty : Option ℚ) (resting : Bool) : SkipReason :=
  if resting then .liveCancelFailed
  else if qty.isNone then .liveFillUnknown
  else if body.bad size then .liveUnparseable
  else .liveNoMatch

/-- `_resolve_fill`: the fill, or the skip to return. -/
def resolveFillIn (fl : ℚ → ℚ) (resp : Dict) (side : FillAction) (size limitPrice : ℚ)
    (answers : SettleAnswers) (estimatePrice : Option (ℚ → ℚ)) : Except ExecResult Fill :=
  let body := postBody resp side
  let (qty, resting) := settleAnswered resp side size answers
  if qty.getD 0 = 0 then
    .error (.skip (noFillReason body size qty resting) (if resting then body.orderId else none))
  else
    let qty := qty.getD 0
    .ok {
      qty := qty
      price := bookablePrice (fillPriceIn fl body size limitPrice qty estimatePrice) limitPrice side
      txHash := body.txHash
      orderId := body.orderId
      resting := resting }

def resolveFill : Dict → FillAction → ℚ → ℚ → SettleAnswers → Option (ℚ → ℚ) → Except ExecResult Fill :=
  resolveFillIn id

end OpenPoly
