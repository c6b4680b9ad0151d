import OpenPoly.Spec.Entry

/-! The shadow pick: the side a pick turned down for its confidence would have
been bought on, as the analytics price it. -/

namespace OpenPoly

/-- `ShadowQuote`; all none where neither side could be quoted. -/
structure ShadowQuote where
  side : Option Side := none
  tokenId : Option String := none
  ask : Option ℚ := none
  bid : Option ℚ := none
  edge : Option ℚ := none
  feeRate : Option ℚ := none
  deriving DecidableEq, Repr

/-- One pass of the loop of `choose_shadow_side`: the better of the best so far
and this side. -/
def shadowStep (feeRate : Option ℚ) (best : Option ShadowQuote) (side : Side)
    (token : Option String) (book : Option OrderBook) (fair : ℚ) : Option ShadowQuote :=
  match token, book with
  | some token, some book =>
    match book.asks, book.bids with
    | (ask, _) :: _, _ :: _ =>
      match firstLevelWithSize book.bids with
      | none => best
      | some bid =>
        if ask ≤ 0 then best
        else
          let edge := fair - ask - takerFeePerShare feeRate ask
          if (best.bind ShadowQuote.edge).all fun e => e < edge then
            some ⟨some side, some token, some ask, some bid, some edge, feeRate⟩
          else best
    | _, _ => best
  | _, _ => best

def chooseShadowSide (pYes : ℚ) (yes no : Option String × Option OrderBook) (feeRate : Option ℚ) :
    ShadowQuote :=
  let best := shadowStep feeRate none .yes yes.1 yes.2 pYes
  (shadowStep feeRate best .no no.1 no.2 (1 - pYes)).getD {}

/-- A side's token and cached book, as `_shadow_quote` hands them over. -/
def Catalog.sideBook (catalog : Catalog) (market : Market) (side : Side) :
    Option String × Option OrderBook :=
  let token := market.tokenFor side
  (token, token.bind fun t => if t = "" then none else catalog.books t)

def shadowQuote (catalog : Catalog) (marketId : String) (pModel : ℚ) : Option ShadowQuote :=
  (catalog.markets marketId).map fun market =>
    chooseShadowSide pModel (catalog.sideBook market .yes) (catalog.sideBook market .no)
      market.takerFeeRate

end OpenPoly
