import OpenPoly.Spec.Sizing

/-! What the venue's answers are read as: amounts, order ids, rejections, and
the evidence of how much of an order filled. -/

namespace OpenPoly

/-- `_parse_amount`: absent or empty is 0, anything not a finite number is
unknown. -/
def parseAmount (raw : Json) : Option ℚ :=
  match raw with
  | .null => some 0
  | .str "" => some 0
  | raw =>
    match pyFloat raw with
    | .ok (.fin q) => some q
    | _ => none

def parseOrderId : Json → Option String
  | .str s => if s = "" then none else some s
  | .int n => if n = 0 then none else some (toString n)
  | _ => none

def orderWasRejected (resp : Dict) : Bool :=
  if !resp.contains "success" then !(resp.get "orderID").truthy
  else
    match resp.get "success" with
    | .bool false => true
    | .str s => pyLower (pyStrip s) = "false"
    | _ => false

def rejectionReason (resp : Dict) : Json :=
  if (resp.get "errorMsg").truthy then resp.get "errorMsg"
  else if (resp.get "error").truthy then resp.get "error"
  else .str "unknown"

structure OrderResponse where
  orderId : Option String
  shares : Option ℚ
  usdc : Option ℚ
  txHash : Option String
  deriving DecidableEq, Repr

def OrderResponse.parse (resp : Dict) (sharesKey usdcKey : String) : OrderResponse where
  orderId := parseOrderId (resp.get "orderID")
  shares := parseAmount (resp.get sharesKey)
  usdc := parseAmount (resp.get usdcKey)
  txHash :=
    match resp.get "transactionsHashes" with
    | .arr (.str s :: _) => if s = "" then none else some s
    | _ => none

/-- The amount fields of a response: a BUY receives shares, a SELL gives them. -/
def amountKeys : FillAction → String × String
  | .buy => ("takingAmount", "makingAmount")
  | .sell => ("makingAmount", "takingAmount")

def fillTol : ℚ := 1 / 10 ^ 9

/-- `_plausible`: a quantity an order of this size could have filled. -/
def plausibleQty (qty : Option ℚ) (size : ℚ) : Option ℚ :=
  qty.filter fun q => ¬ (q < 0 ∨ size + fillTol < q)

inductive Source where
  | postBody
  | orderRead
  | wallet
  deriving DecidableEq, Repr

structure Evidence where
  qty : ℚ
  source : Source
  settled : Bool := false
  deriving DecidableEq, Repr

structure FillEvidence where
  size : ℚ
  exact : Option Evidence := none
  bounds : List Evidence := []
  deriving DecidableEq, Repr

/-- `add`: vetted, and a zero only where it means something. -/
def FillEvidence.add (ev : FillEvidence) (qty : Option ℚ) (source : Source)
    (exact zeroIsReal settled : Bool := false) : FillEvidence :=
  match plausibleQty qty ev.size with
  | none => ev
  | some q =>
    if q ≤ 0 ∧ ¬ (exact ∨ zeroIsReal) then ev
    else if exact then { ev with exact := some ⟨q, source, false⟩ }
    else { ev with bounds := ev.bounds ++ [⟨q, source, settled⟩] }

/-- `status in _ORDER_DONE_STATUSES`, the status being the upper-cased `str()`
of the field; nothing but a string reads as one of them. -/
def orderDone : Json → Bool
  | .str s => pyUpper s ∈ ["CANCELED", "CANCELLED", "EXPIRED", "REJECTED"]
  | _ => false

def readTerminal (size : ℚ) (matched : Option ℚ) (status : Json) : Bool :=
  orderDone status || (plausibleQty matched size).any fun q => size - fillTol ≤ q

def FillEvidence.addRead (ev : FillEvidence) (matched : Option ℚ) (status : Json) :
    Bool × FillEvidence :=
  let terminal := readTerminal ev.size matched status
  (terminal, ev.add (plausibleQty matched ev.size) .orderRead terminal)

/-- One bound against the answer so far: only a settled cross, or an earlier
reading by the source of the count, outlasts a count. -/
def raiseExact (source : Source) (answer : ℚ) (bound : Evidence) : ℚ :=
  if bound.qty ≤ answer + fillTol then answer
  else if bound.settled ∨ bound.source = source then max answer bound.qty
  else answer

def FillEvidence.resolve (ev : FillEvidence) : Option ℚ :=
  match ev.exact with
  | some count => some (ev.bounds.foldl (raiseExact count.source) count.qty)
  | none => (ev.bounds.map Evidence.qty).max?

/-- `_read_order`: the size matched so far, where the field is usable, and the
status; nothing when the call failed or answered no document. -/
def readOrder : Except PyErr Json → Option (Option ℚ × Json)
  | .ok (.obj order) =>
    let matched :=
      match Dict.get order "size_matched" with
      | .null => none
      | .str "" => none
      | raw => parseAmount raw
    some (matched, Dict.get order "status")
  | _ => none

end OpenPoly
