import OpenPoly.Spec.LiveExecutor

/-! The execution stage of an orchestrator entry, and the system it runs in:
entries, sells and ledger writes, one after another, on one live executor. -/

namespace OpenPoly

inductive Verdict where
  | ok
  | skip
  | error
  deriving DecidableEq, Repr

/-- `fill_status`: `"filled"`, the skip reason, or `"error"`. -/
inductive FillStatus where
  | filled
  | skipped (reason : SkipReason)
  | error

/-- What the entry log says went wrong. -/
inductive EntryError where
  | raised (exc : PyErr)
  /-- `on-chain buy filled but ledger write failed: ...` -/
  | ledgerWriteFailed (reason : SkipReason)

/-- The fields of `EntryDecision` the execution stage sets. -/
structure EntryDecision where
  verdict : Verdict := .ok
  error : Option EntryError := none
  fillStatus : Option FillStatus := none
  fillPrice : Option ℚ := none
  fillQty : Option ℚ := none
  positionId : Option ℕ := none

/-- `fill_status.startswith("open_persist_failed:")`. -/
def SkipReason.openWriteFailed : SkipReason → Bool
  | .openPersistFailed _ => true
  | _ => false

/-- The execution stage of `_run_entry`, on what `execute_buy` returned or raised. -/
def entryExecution : Except PyErr ExecResult → EntryDecision
  | .error exc => { verdict := .error, error := some (.raised exc), fillStatus := some .error }
  | .ok result =>
    if result.filled then
      { fillStatus := some .filled, fillPrice := result.price, fillQty := result.qty,
        positionId := result.positionId }
    else
      match result.skipReason with
      | none => {}
      | some reason =>
        if reason.openWriteFailed then
          { verdict := .error, error := some (.ledgerWriteFailed reason),
            fillStatus := some (.skipped reason) }
        else { fillStatus := some (.skipped reason) }

/-- The live executor and the orchestrator's entry log. -/
structure Trading where
  live : LiveState
  log : List EntryDecision

def Trading.init (db : Db) : Trading := ⟨⟨db, fun _ => none⟩, []⟩

inductive TradeEvent where
  /-- An entry whose section chose to buy. -/
  | entry (c : BuyCall)
  | sell (c : SellCall)
  /-- A write of the ledger by anything but the executor. -/
  | write (e : Attempt)

def TradeEvent.call : TradeEvent → Option LiveCall
  | .entry c => some (.buy c)
  | .sell c => some (.sell c)
  | .write _ => none

def Trading.step (t : Trading) : TradeEvent → Trading
  | .entry c =>
    let (live, out) := liveCall t.live (.buy c)
    ⟨live, t.log ++ [entryExecution out.result]⟩
  | .sell c => { t with live := (liveCall t.live (.sell c)).1 }
  | .write e => { t with live := { t.live with db := t.live.db.attempt e } }

end OpenPoly
