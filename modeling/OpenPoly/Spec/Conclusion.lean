import OpenPoly.Lib.Largest
import OpenPoly.Spec.Settle

/-! What the venue's answers amount to, said without the settle loop: the rounds
it gets to see, the readings of the order among them, whether they show the
order off the book, and the quantity they establish. -/

namespace OpenPoly

open Largest

abbrev Reading := Option ℚ × Json

def Reading.terminal (size : ℚ) (r : Reading) : Bool := readTerminal size r.1 r.2

def Reading.count (size : ℚ) (r : Reading) : Option ℚ := plausibleQty r.1 size

def Reading.bound (size : ℚ) (r : Reading) : Option ℚ := (r.count size).filter fun q => 0 < q

def Round.acks (orderId : String) (r : Round) : Bool := cancelAcked orderId r.cancel

def Round.reading (r : Round) : Option Reading := readOrder r.read

def Round.ends (orderId : String) (size : ℚ) (r : Round) : Bool :=
  r.acks orderId || r.reading.any (Reading.terminal size) || r.late

def visited (orderId : String) (size : ℚ) : List Round → List Round
  | [] => []
  | r :: rest => if r.ends orderId size then [r] else r :: visited orderId size rest

def readings (orderId : String) (rounds : List Round) : List Reading :=
  (rounds.filter fun r => !r.acks orderId).filterMap Round.reading

def SettleAnswers.seen (a : SettleAnswers) (orderId : String) (size : ℚ) : List Round :=
  visited orderId size ((List.range settleAttempts).map a.rounds)

/-- The reading after the loop, made unless the loop ended on a terminal one. -/
def SettleAnswers.finalReading (a : SettleAnswers) (orderId : String) (size : ℚ) :
    Option Reading :=
  if (readings orderId (a.seen orderId size)).any (Reading.terminal size) then none
  else readOrder a.final

def SettleAnswers.reads (a : SettleAnswers) (orderId : String) (size : ℚ) : List Reading :=
  readings orderId (a.seen orderId size) ++ (a.finalReading orderId size).toList

/-- A cancel of this very order was acknowledged, or a reading was terminal. -/
def SettleAnswers.offBook (a : SettleAnswers) (orderId : String) (size : ℚ) : Bool :=
  (a.seen orderId size).any (Round.acks orderId) ||
    (a.reads orderId size).any (Reading.terminal size)

def SettleAnswers.refusal (a : SettleAnswers) (orderId : String) (size : ℚ) : Json :=
  (a.seen orderId size).foldl (fun _ r => refusalReason orderId r.cancel)
    (.str "cancel never attempted")

def finalCounts (size : ℚ) (reads : List Reading) : List ℚ :=
  (reads.filter fun r => r.terminal size).filterMap (Reading.count size)

def readBounds (size : ℚ) (reads : List Reading) : List ℚ :=
  (reads.filter fun r => !r.terminal size).filterMap (Reading.bound size)

def OrderResponse.covers (body : OrderResponse) (size : ℚ) : Bool :=
  size - fillTol ≤ body.reported size

def OrderResponse.cross (body : OrderResponse) (size : ℚ) : List ℚ :=
  if 0 < body.reported size then [body.reported size] else []

/-- The readings of an answered order; none without an id to read by. -/
def readsOf (body : OrderResponse) (size : ℚ) (a : SettleAnswers) : List Reading :=
  match body.orderId with
  | some orderId => a.reads orderId size
  | none => []

def knownOff (body : OrderResponse) (size : ℚ) (a : SettleAnswers) : Bool :=
  body.orderId.any fun orderId => a.offBook orderId size

def finalZero (body : OrderResponse) (size : ℚ) (a : SettleAnswers) : Bool :=
  body.orderId.any fun orderId =>
    (a.finalReading orderId size).any fun r => r.1 = some 0

def walletMoved (a : SettleAnswers) (size : ℚ) : Option ℚ :=
  match walletDelta a.confirm size with
  | .ok moved => moved.filter fun q => 0 < q
  | .error _ => none

def lowerBounds (body : OrderResponse) (size : ℚ) (a : SettleAnswers) : List ℚ :=
  body.cross size ++ readBounds size (readsOf body size a)

/-- The bounds no later count takes back: a cross stamped with a transaction
hash, and the earlier readings of the order. -/
def lastingBounds (body : OrderResponse) (size : ℚ) (a : SettleAnswers) : List ℚ :=
  (if body.txHash.isSome then body.cross size else []) ++ readBounds size (readsOf body size a)

def Concluded (body : OrderResponse) (size : ℚ) (a : SettleAnswers) (qty : Option ℚ) : Prop :=
  if body.covers size then qty = some (body.reported size)
  else
    match (finalCounts size (readsOf body size a)).getLast? with
    | some count =>
      ∃ q, qty = some q ∧ IsLargest fillTol (count :: lastingBounds body size a) q
    | none =>
      if lowerBounds body size a ≠ [] then
        ∃ q, qty = some q ∧ IsLargest 0 (lowerBounds body size a) q
      else
        match walletMoved a size with
        | some moved => qty = some moved
        | none => qty = if finalZero body size a && knownOff body size a then some 0 else none

def lastRefusalBlank (body : OrderResponse) (size : ℚ) (a : SettleAnswers) : Bool :=
  body.orderId.any fun orderId => (a.refusal orderId size).blank

/-- The venue refuses the cancel with an empty text and is not known to have
taken the order off the book, the read after the loop counts nothing, and no
source shows a fill. -/
def blankRefusal (body : OrderResponse) (size : ℚ) (a : SettleAnswers) : Bool :=
  !body.covers size && !knownOff body size a && lastRefusalBlank body size a &&
    finalZero body size a && (lowerBounds body size a).isEmpty &&
    (walletMoved a size).isNone

/-- Two reads that say the same: neither landed, or both with one status and,
where an order of this size could have it, one count. -/
def SameReading (size : ℚ) (r r' : Option Reading) : Prop :=
  r.map (fun r => (r.count size, r.2)) = r'.map (fun r => (r.count size, r.2))

structure SameRound (size : ℚ) (r r' : Round) : Prop where
  cancel : r.cancel = r'.cancel
  reading : SameReading size r.reading r'.reading
  late : r.late = r'.late

structure SameAnswers (size : ℚ) (a a' : SettleAnswers) : Prop where
  rounds : ∀ k, SameRound size (a.rounds k) (a'.rounds k)
  final : SameReading size (readOrder a.final) (readOrder a'.final)
  confirm : a.confirm = a'.confirm

structure SameBody (size : ℚ) (body body' : OrderResponse) : Prop where
  orderId : body.orderId = body'.orderId
  shares : plausibleQty body.shares size = plausibleQty body'.shares size
  settled : body.txHash.isSome = body'.txHash.isSome

end OpenPoly
