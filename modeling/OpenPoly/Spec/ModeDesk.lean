import OpenPoly.Spec.Backend

/-! Mode switches beside trades. A request to switch the mode, and a buy, are
each a sequence of steps in a thread of its own: between any two of them the
other threads run. Beside the backend stands the executor that bought each
position. -/

namespace OpenPoly

/-- Where a mode-switch request is. `seen` are the position ids of the ledger its
open-position check read. -/
inductive SwitchPhase where
  | idle
  | admitted (target : ExecMode)
  | checked (target : ExecMode) (seen : List ℕ)
  /-- Validated, the executor handed over. -/
  | ready (target : ExecMode) (seen : List ℕ)
  /-- The mode is set in memory and the file about to be written. -/
  | saving (target prev : ExecMode) (seen : List ℕ)
  | answered (answer : Except HttpFail ExecMode)

/-- Where a buy is: dispatched to an executor, or about to record a fill. -/
inductive BuyPhase where
  | idle
  | running (executor : Executor)
  | writing (executor : Executor) (a : OpenArgs)

structure ModeDesk where
  proc : Backend
  /-- Who bought each position. -/
  buyers : ℕ → Option Executor
  switches : ℕ → SwitchPhase
  buys : ℕ → BuyPhase

def ModeDesk.start (proc : Backend) (buyers : ℕ → Option Executor) : ModeDesk :=
  ⟨proc, buyers, fun _ => .idle, fun _ => .idle⟩

def ModeDesk.setSwitch (s : ModeDesk) (r : ℕ) (phase : SwitchPhase) : ModeDesk :=
  { s with switches := Function.update s.switches r phase }

def ModeDesk.setBuy (s : ModeDesk) (k : ℕ) (phase : BuyPhase) : ModeDesk :=
  { s with buys := Function.update s.buys k phase }

/-- A disposal of a position: `close_position` or `record_sell`. -/
inductive Dispose where
  | close (positionId : ℕ) (a : CloseArgs)
  | sell (positionId : ℕ) (a : SellArgs)

def Dispose.call : Dispose → Call
  | .close positionId a => .closePosition positionId a
  | .sell positionId a => .recordSell positionId a

inductive ModeEvent where
  /-- A request arrives: the mode compared, the token checked. -/
  | request (r : ℕ) (target : ExecMode) (tokenOk : Bool)
  /-- It reads the open positions. -/
  | check (r : ℕ)
  /-- It validates the wallet and hands the executor over. -/
  | validate (r : ℕ) (p : Probe)
  /-- It sets the mode in memory. -/
  | flip (r : ℕ)
  /-- It writes the file, or puts the mode back. -/
  | save (r : ℕ) (outage : Option PyErr)
  /-- The dispatcher reads the mode for a buy. -/
  | dispatch (k : ℕ)
  /-- The executor checks the buy, and posts it where it is live. -/
  | act (k : ℕ) (c : BuyCall)
  /-- It writes its fill to the ledger. -/
  | write (k : ℕ) (outage : Option PyErr)
  /-- It ends without a fill stored. -/
  | abandon (k : ℕ)
  /-- A sell, a settlement or a reconciliation writes the ledger. -/
  | dispose (d : Dispose) (outage : Option PyErr)

def Executor.retries : Executor → PyErr → Bool
  | .live _, .operationalError => true
  | _, _ => false

/-- The ledger and the buyers after a write of `a` by `executor`. -/
def ModeDesk.opens (s : ModeDesk) (executor : Executor) (a : OpenArgs) : Option ModeDesk :=
  match s.proc.db.openPosition a with
  | .error _ => none
  | .ok (held, db') =>
    some { s with
      proc := { s.proc with db := db' }
      buyers := Function.update s.buyers held.positionId (some executor) }

def modeStep (s : ModeDesk) : ModeEvent → Option ModeDesk
  | .request r target tokenOk =>
    match s.switches r with
    | .idle =>
      match admitSwitch s.proc.state target tokenOk with
      | some answer => some (s.setSwitch r (.answered answer))
      | none => some (s.setSwitch r (.admitted target))
    | _ => none
  | .check r =>
    match s.switches r with
    | .admitted target =>
      match checkFlat s.proc.db with
      | .error fail => some (s.setSwitch r (.answered (.error fail)))
      | .ok _ =>
        some (s.setSwitch r (.checked target (s.proc.db.positions.map PositionRow.id)))
    | _ => none
  | .validate r p =>
    match s.switches r with
    | .checked target seen =>
      match s.proc.handOver target p with
      | .error fail => some (s.setSwitch r (.answered (.error fail)))
      | .ok proc => some ({ s with proc := proc }.setSwitch r (.ready target seen))
    | _ => none
  | .flip r =>
    match s.switches r with
    | .ready target seen =>
      some ({ s with proc := s.proc.withMode target }.setSwitch r
        (.saving target s.proc.state.execMode seen))
    | _ => none
  | .save r outage =>
    match s.switches r with
    | .saving target prev _ =>
      match s.proc.save outage with
      | .ok proc => some ({ s with proc := proc }.setSwitch r (.answered (.ok target)))
      | .error exc =>
        some ({ s with proc := s.proc.withMode prev }.setSwitch r
          (.answered (.error (.raised exc))))
    | _ => none
  | .dispatch k =>
    match s.buys k with
    | .idle =>
      match dispatchBuy s.proc.state.execMode s.proc.live with
      | .error _ => some s
      | .ok executor => some (s.setBuy k (.running executor))
    | _ => none
  | .act k c =>
    match s.buys k with
    | .running executor =>
      match executor.fill s.proc.db c with
      | none => some (s.setBuy k .idle)
      | some a => some (s.setBuy k (.writing executor a))
    | _ => none
  | .write k outage =>
    match s.buys k with
    | .writing executor a =>
      match outage with
      | some exc => some (if executor.retries exc then s else s.setBuy k .idle)
      | none =>
        match s.opens executor a with
        | none => some (s.setBuy k .idle)
        | some t => some (t.setBuy k .idle)
    | _ => none
  | .abandon k => some (s.setBuy k .idle)
  | .dispose d outage =>
    some { s with proc := { s.proc with db := s.proc.db.attempt ⟨d.call, outage⟩ } }

end OpenPoly
