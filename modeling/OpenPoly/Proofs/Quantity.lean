import OpenPoly.Proofs.Settle

/-! The quantity concluded for an answered order: which source it comes from,
where it lies, and what it does not depend on. -/

namespace OpenPoly

/-- The quantity follows the precedence of the sources, lies between nothing
and the size, and depends neither on the order of the lower bounds nor on a
reading the order could not have. -/
structure QuantityStands (resp : Dict) (side : FillAction) (size : ℚ) (a : SettleAnswers) :
    Prop where
  concluded : Concluded (postBody resp side) size a (settleAnswered resp side size a).1
  range : ∀ q, (settleAnswered resp side size a).1 = some q → 0 ≤ q ∧ q ≤ size + fillTol
  order : ∀ bounds, (bodyEvidence (postBody resp side) size a).bounds.Perm bounds →
    (bodyEvidence (postBody resp side) size a).resolve.isSome =
      ({ bodyEvidence (postBody resp side) size a with bounds := bounds }).resolve.isSome ∧
    ∀ q q', (bodyEvidence (postBody resp side) size a).resolve = some q →
      ({ bodyEvidence (postBody resp side) size a with bounds := bounds }).resolve = some q' →
      |q - q'| ≤ fillTol
  readings : ∀ resp' a', SameBody size (postBody resp side) (postBody resp' side) →
    SameAnswers size a a' →
    settleAnswered resp' side size a' = settleAnswered resp side size a

/-- The settled quantity stands for every body and every answer, except after a
cancel refused with an empty text. -/
theorem settled_quantity (resp : Dict) (side : FillAction) (size : ℚ) (a : SettleAnswers)
    (hsize : 0 ≤ size) :
    QuantityStands resp side size a ↔ blankRefusal (postBody resp side) size a = false := by
  constructor
  · intro h
    exact (concluded_settleAnswered a hsize).mp h.concluded
  · intro h
    refine ⟨(concluded_settleAnswered a hsize).mpr h, fun q hq => settleAnswered_range hsize hq,
      fun bounds hp => ?_, fun resp' a' hb ha => (settleAnswered_congr hsize hb ha).symm⟩
    exact ⟨FillEvidence.resolve_isSome_perm hp, fun q q' => FillEvidence.resolve_perm hp⟩

/-- An order that partly crossed; every cancel is refused, and the order read
shows more filled. -/
def sampleBody : Dict :=
  [("success", .bool true), ("orderID", .str "0xa1"), ("takingAmount", .str "4"),
    ("makingAmount", .str "2"), ("transactionsHashes", .arr [.str "0xt1"])]

def liveAt (matched : String) : Except PyErr Json :=
  .ok (.obj [("status", .str "LIVE"), ("size_matched", .str matched)])

def refusedWith (orderId text : String) : Except PyErr Json :=
  .ok (.obj [("canceled", .arr []), ("not_canceled", .obj [(orderId, .str text)])])

def sampleAnswers : SettleAnswers where
  rounds k := ⟨refusedWith "0xa1" "delayed", liveAt (if k = 0 then "4" else "6"), k == 2⟩
  final := liveAt "6"
  confirm := .ok (.fin 0)

theorem settled_quantity_sample :
    (0 : ℚ) ≤ 10 ∧ (settleAnswered sampleBody .buy 10 sampleAnswers).1 = some 6 ∧
      QuantityStands sampleBody .buy 10 sampleAnswers :=
  ⟨by decide +kernel, by decide +kernel,
    (settled_quantity sampleBody .buy 10 sampleAnswers (by decide +kernel)).mpr (by decide +kernel)⟩

/-- A body without amounts, and a cancel refused with an empty text. -/
def blankBody : Dict := [("success", .bool true), ("orderID", .str "0xa1")]

def blankAnswers : SettleAnswers where
  rounds k := ⟨refusedWith "0xa1" "", liveAt "0", k == 0⟩
  final := liveAt "0"
  confirm := .ok (.fin 0)

/-- The order may rest, nothing established what filled, and the quantity is
reported as 0. -/
theorem blank_refusal_zero :
    settleAnswered blankBody .buy 10 blankAnswers = (some 0, true) ∧
      knownOff (postBody blankBody .buy) 10 blankAnswers = false ∧
      ¬ QuantityStands blankBody .buy 10 blankAnswers := by
  refine ⟨by decide +kernel, by decide +kernel, fun h => ?_⟩
  have hblank := (concluded_settleAnswered blankAnswers (by decide +kernel)).mp h.concluded
  revert hblank
  decide +kernel

end OpenPoly
