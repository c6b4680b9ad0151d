import OpenPoly.Spec.Closing

/-! The reconciliation tick: what the wallet is read to hold, and the positions
closed because it is read not to hold them. -/

namespace OpenPoly

/-- `pos.get("conditionId") or pos.get("condition_id")`. -/
def entryCondition (pos : Dict) : Json :=
  if (pos.get "conditionId").truthy then pos.get "conditionId" else pos.get "condition_id"

/-- `float(pos.get("size") or 0)`, 0.0 for what raises `TypeError` or
`ValueError`; `OverflowError` is not caught. -/
def entrySize (pos : Dict) : Except PyErr PyFloat :=
  let raw := pos.get "size"
  match pyFloat (if raw.truthy then raw else .int 0) with
  | .ok size => .ok size
  | .error .overflowError => .error .overflowError
  | .error _ => .ok (.fin 0)

/-- `size < min_size`; false of a NaN. -/
def sizeBelow (minSize : ℚ) : PyFloat → Bool
  | .fin q => q < minSize
  | .negInf => true
  | .inf => false
  | .nan => false

/-- The pair one entry of the list adds, if any. -/
def heldEntry (repr : Json → String) (minSize : ℚ) :
    Json → Except PyErr (Option (String × String))
  | .obj pos => do
    let size ← entrySize pos
    match (entryCondition pos).truthy, Dict.get pos "outcome" with
    | true, .str outcome =>
      return if sizeBelow minSize size then none
        else some ((entryCondition pos).text repr, pyLower (pyStrip outcome))
    | _, _ => return none
  | _ => .ok none

def heldEntries (repr : Json → String) (minSize : ℚ) :
    List Json → Except PyErr (List (String × String))
  | [] => .ok []
  | entry :: rest => do
    let pair ← heldEntry repr minSize entry
    let pairs ← heldEntries repr minSize rest
    return pair.toList ++ pairs

def fetchHeldConditionSides (repr : Json → String) (answer : Except PyErr Json) :
    Except PyErr (List (String × String)) :=
  match answer with
  | .error exc => .error exc
  | .ok (.arr raw) => heldEntries repr minSellableQty raw
  | .ok _ => .ok []

/-- One tick: the ledger its open list is read from, the indexer's answer, and,
back from the fetch, the ledger and the in-flight claims the sweep meets. -/
structure ReconTick where
  opensAt : Db
  answer : Except PyErr Json
  /-- Python's text of a float or a container. -/
  repr : Json → String
  ts : ℚ
  grace : ℚ := 300
  sweptAt : Db
  closing : List ℕ
  /-- What the database does to the close of an id. -/
  outage : ℕ → Option PyErr := fun _ => none

/-- The sweep closes this position: out of grace, not read as held, unclaimed. -/
def ReconTick.flat (t : ReconTick) (held : List (String × String)) (pos : HeldPosition) : Bool :=
  !(t.ts - pos.openedAt < t.grace) && !held.contains (pos.conditionId, pos.side.name) &&
    !t.closing.contains pos.positionId

def ReconTick.closeAttempt (t : ReconTick) (pos : HeldPosition) : Attempt :=
  ⟨.closePosition pos.positionId (reconciledClose pos t.ts), t.outage pos.positionId⟩

def ReconTick.sweep (t : ReconTick) (held : List (String × String)) : List HeldPosition → Db → Db
  | [], db => db
  | pos :: rest, db =>
    t.sweep held rest (if t.flat held pos then db.attempt (t.closeAttempt pos) else db)

/-- `_tick_once`: the ledger after the tick. -/
def ReconTick.run (t : ReconTick) : Db :=
  match fetchHeldConditionSides t.repr t.answer with
  | .error _ => t.sweptAt
  | .ok held => t.sweep held t.opensAt.getOpenPositions t.sweptAt

end OpenPoly
