import OpenPoly.Lib.Registry
import OpenPoly.Spec.Store

/-! The writers that share a position: exit-monitor ticks, single manual closes,
close-all requests, settlement and reconciliation ticks, and the in-flight
claims (`closing_registry`) between them. An event is what runs without
yielding the loop, or what a worker thread does on its own; which position a
tick decides to close, and what a sell books, is free. -/

namespace OpenPoly

inductive Seller where
  | exitMonitor
  | manualClose
  | closeAll (request : ℕ)
  deriving DecidableEq, Repr

/-- Where a claimed sell is: claimed on the loop, `execute_sell` running in its
thread, its fill booked, returned but not yet cleared. -/
inductive SellPhase where
  | claimed
  | selling
  | booked
  | returned
  deriving DecidableEq, Repr

/-- The coroutine between `mark_closing` and `clear_closing`. -/
structure Claim where
  seller : Seller
  held : HeldPosition
  phase : SellPhase
  deriving DecidableEq, Repr

def Claim.positionId (c : Claim) : ℕ := c.held.positionId

structure Desk where
  db : Db
  /-- `closing_registry._closing`. -/
  closing : List ℕ
  claims : List Claim
  /-- What is left of the open list an exit tick is walking. -/
  exitSweep : Option (List HeldPosition)
  /-- What is left of `opens`, for each close-all request under way. -/
  closeAlls : List (ℕ × List HeldPosition)
  deriving DecidableEq

def Desk.init (db : Db) : Desk := ⟨db, [], [], none, []⟩

def Desk.isClosing (s : Desk) (positionId : ℕ) : Bool := s.closing.contains positionId

/-- `mark_closing` and the sell that is about to be handed to a thread. -/
def Desk.claim (s : Desk) (seller : Seller) (held : HeldPosition) : Desk :=
  { s with
    closing := s.closing.insert held.positionId
    claims := ⟨seller, held, .claimed⟩ :: s.claims }

def Desk.setPhase (s : Desk) (positionId : ℕ) (phase : SellPhase) : Desk :=
  { s with claims := s.claims.map fun c =>
      if c.positionId = positionId then { c with phase := phase } else c }

def Desk.hasPhase (s : Desk) (positionId : ℕ) (phase : SellPhase) : Bool :=
  s.claims.any fun c => c.positionId = positionId ∧ c.phase = phase

/-- The coroutine of `seller` is waiting for its sell. -/
def Desk.busy (s : Desk) (seller : Seller) : Bool := s.claims.any fun c => c.seller = seller

def Desk.stillOpen (s : Desk) (positionId : ℕ) : Bool :=
  match s.db.get positionId with
  | some row => row.status = .open
  | none => false

def Desk.setCloseAll (s : Desk) (request : ℕ) (rest : List HeldPosition) : Desk :=
  { s with closeAlls := s.closeAlls.map fun r => if r.1 = request then (request, rest) else r }

inductive DeskEvent where
  /-- An exit tick reads the open positions. -/
  | exitTick
  /-- The tick is through with its next position without closing it. -/
  | exitHold
  /-- The tick decided to close its next position: re-read, check, claim. -/
  | exitClose
  | exitDone
  /-- `POST /positions/{id}/close`, up to its first await. -/
  | manualClose (positionId : ℕ)
  /-- `POST /positions/close-all` reads the open positions. -/
  | closeAll (request : ℕ)
  /-- The request reaches the next position of its list. -/
  | closeAllNext (request : ℕ)
  /-- The worker thread enters `execute_sell(held, ...)`. -/
  | start (held : HeldPosition)
  /-- The sell writes its fill; the database may fail it. -/
  | book (positionId : ℕ) (a : SellArgs) (outage : Option PyErr)
  | sellReturn (positionId : ℕ)
  /-- `clear_closing`, back on the loop. -/
  | release (positionId : ℕ)
  /-- A settlement tick comes to a resolved position. -/
  | settle (positionId : ℕ) (finalPrice ts : ℚ) (outage : Option PyErr)
  /-- A reconciliation tick comes to a position the wallet no longer holds. -/
  | reconcile (pos : HeldPosition) (ts : ℚ) (outage : Option PyErr)
  /-- An entry opens a position. -/
  | buy (a : OpenArgs) (outage : Option PyErr)
  deriving DecidableEq

def settlementClose (finalPrice ts : ℚ) : CloseArgs :=
  { sellPrice := finalPrice, ts := ts, closeReason := .settlement, trigger := some "settlement" }

def reconciledClose (pos : HeldPosition) (ts : ℚ) : CloseArgs :=
  { sellPrice := pos.avgEntryPrice, ts := ts, closeReason := .reconciled,
    trigger := some "reconciled" }

def Desk.sweepClose (s : Desk) (positionId : ℕ) (a : CloseArgs) (outage : Option PyErr) : Desk :=
  if s.isClosing positionId then s
  else { s with db := s.db.attempt ⟨.closePosition positionId a, outage⟩ }

def deskStep (s : Desk) : DeskEvent → Option Desk
  | .exitTick =>
    match s.exitSweep with
    | none => some { s with exitSweep := some s.db.getOpenPositions }
    | some _ => none
  | .exitHold =>
    match s.exitSweep with
    | some (_ :: rest) =>
      if s.busy .exitMonitor then none else some { s with exitSweep := some rest }
    | _ => none
  | .exitClose =>
    match s.exitSweep with
    | some (held :: rest) =>
      if s.busy .exitMonitor then none
      else if !s.stillOpen held.positionId || s.isClosing held.positionId then
        some { s with exitSweep := some rest }
      else some ({ s with exitSweep := some rest }.claim .exitMonitor held)
    | _ => none
  | .exitDone =>
    match s.exitSweep with
    | some [] => if s.busy .exitMonitor then none else some { s with exitSweep := none }
    | _ => none
  | .manualClose positionId =>
    match s.db.getOpenPositions.find? (fun p => p.positionId == positionId) with
    | none => some s
    | some held => if s.isClosing positionId then some s else some (s.claim .manualClose held)
  | .closeAll request =>
    if s.closeAlls.any (fun r => r.1 = request) then none
    else some { s with closeAlls := (request, s.db.getOpenPositions) :: s.closeAlls }
  | .closeAllNext request =>
    match s.closeAlls.find? (fun r => r.1 == request) with
    | some (_, held :: rest) =>
      if s.busy (.closeAll request) then none
      else if s.isClosing held.positionId then some (s.setCloseAll request rest)
      else some ((s.setCloseAll request rest).claim (.closeAll request) held)
    | some (_, []) =>
      if s.busy (.closeAll request) then none
      else some { s with closeAlls := s.closeAlls.filter fun r => r.1 ≠ request }
    | none => none
  | .start held =>
    if s.claims.any (fun c => c.held = held ∧ c.phase = .claimed) then
      some (s.setPhase held.positionId .selling)
    else none
  | .book positionId a outage =>
    if s.hasPhase positionId .selling then
      some { s.setPhase positionId .booked with
        db := s.db.attempt ⟨.recordSell positionId a, outage⟩ }
    else none
  | .sellReturn positionId =>
    if s.hasPhase positionId .selling || s.hasPhase positionId .booked then
      some (s.setPhase positionId .returned)
    else none
  | .release positionId =>
    if s.hasPhase positionId .returned then
      some { s with
        closing := Registry.discard positionId s.closing
        claims := s.claims.filter fun c => c.positionId ≠ positionId }
    else none
  | .settle positionId finalPrice ts outage =>
    some (s.sweepClose positionId (settlementClose finalPrice ts) outage)
  | .reconcile pos ts outage =>
    some (s.sweepClose pos.positionId (reconciledClose pos ts) outage)
  | .buy a outage => some { s with db := s.db.attempt ⟨.openPosition a, outage⟩ }

/-- An `execute_sell` of the id is between its start and its return. -/
def Desk.inFlight (s : Desk) (positionId : ℕ) : Prop :=
  s.hasPhase positionId .selling ∨ s.hasPhase positionId .booked

end OpenPoly
